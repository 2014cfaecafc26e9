import FpgaNpc.Core.BPU

open FpgaNpc.Hardware FpgaNpc.InterStage

namespace FpgaNpc.BPU

/-- The updates that were accepted, the last one first. -/
abbrev Updates := List BTBUpdateInfo

variable (s : Regs) (io : Inputs) (h : Updates) (i : Index) (w : Bool) (pc : Word)

def accepted : Updates := if btbUpdateInfoFire io then io.btbUpdateInfo.bits :: h else h

def withUpdates : Machine (Regs × Updates) Inputs := machine.monitor [] fun _ => accepted

def written : Option BTBUpdateInfo :=
  h.find? fun u => decide (index u.pc = i ∧ updateWay u = w)

/-- The last update for the index and the tag that has not been replaced since. -/
def latest : Option BTBUpdateInfo :=
  h.find? fun u => decide (index u.pc = index pc ∧ getBTBTag u.pc = getBTBTag pc ∧
    written h (index u.pc) (updateWay u) = some u)

structure Holds (u : BTBUpdateInfo) : Prop where
  valid : entry w (s.valids i) = true
  bia : entry w (s.infoRam i).bia = getBTBTag u.pc
  tracker : entry w (s.infoRam i).tracker = newTracker u
  bta : entry w (s.infoRam i).bta = u.actualTarget

/-- A way hits only where an update for the index and the tag wrote it, and in no more than one
way, what a lookup returns is what the last such update wrote, and no update undoes what one of
the other way wrote. -/
structure EntriesIntact : Prop where
  only : ∀ pc w, hits s pc w = true →
    ∃ u ∈ h, index u.pc = index pc ∧ getBTBTag u.pc = getBTBTag pc ∧ updateWay u = w
  latest : ∀ pc, hit s pc = true → ∃ u ∈ latest h pc,
    tracker s pc = newTracker u ∧ branchPredTarget s pc = u.actualTarget
  kept : ∀ i w, ∀ u ∈ written h i w, Holds s i w u
  unique : ∀ pc, ¬(hits s pc false = true ∧ hits s pc true = true)

/-- In a cycle without an update the valid bit that is set anyway is set already, and an update
carries the other way of the set, if that is valid, as it is, with another tag than its own. -/
structure UpdatesCurrent : Prop where
  idle : btbUpdateInfoFire io = false →
    entry (updateWay io.btbUpdateInfo.bits) (s.valids (index io.btbUpdateInfo.bits.pc)) = true
  line : btbUpdateInfoFire io = true →
    let u := io.btbUpdateInfo.bits
    let other := !updateWay u
    entry other (s.valids (index u.pc)) = true →
      entry other u.btbInfo.bia = entry other (s.infoRam (index u.pc)).bia ∧
      entry other u.btbInfo.tracker = entry other (s.infoRam (index u.pc)).tracker ∧
      entry other u.btbInfo.bta = entry other (s.infoRam (index u.pc)).bta ∧
      entry other (s.infoRam (index u.pc)).bia ≠ getBTBTag u.pc

instance : Decidable (UpdatesCurrent s io) :=
  decidable_of_iff
    ((btbUpdateInfoFire io = false → entry (updateWay io.btbUpdateInfo.bits)
        (s.valids (index io.btbUpdateInfo.bits.pc)) = true) ∧
      (btbUpdateInfoFire io = true →
        let u := io.btbUpdateInfo.bits
        let other := !updateWay u
        entry other (s.valids (index u.pc)) = true →
          entry other u.btbInfo.bia = entry other (s.infoRam (index u.pc)).bia ∧
          entry other u.btbInfo.tracker = entry other (s.infoRam (index u.pc)).tracker ∧
          entry other u.btbInfo.bta = entry other (s.infoRam (index u.pc)).bta ∧
          entry other (s.infoRam (index u.pc)).bia ≠ getBTBTag u.pc))
    ⟨fun ⟨hi, hl⟩ => ⟨hi, hl⟩, fun ⟨hi, hl⟩ => ⟨hi, hl⟩⟩

structure EntriesInv : Prop where
  valid : ∀ i w, entry w (s.valids i) = true → (written h i w).isSome
  kept : ∀ i w, ∀ u ∈ written h i w, Holds s i w u
  distinct : ∀ i, ∀ u ∈ written h i false, ∀ v ∈ written h i true,
    getBTBTag u.pc ≠ getBTBTag v.pc

variable {s io h i w pc} {u v : BTBUpdateInfo}

theorem written_spec (hu : u ∈ written h i w) : u ∈ h ∧ index u.pc = i ∧ updateWay u = w :=
  ⟨List.mem_of_find?_eq_some hu, by simpa using List.find?_some (Option.mem_def.1 hu)⟩

theorem written_cons : written (u :: h) i w =
    if index u.pc = i ∧ updateWay u = w then some u else written h i w := by
  rw [written, List.find?_cons]
  split <;> simp_all [written]

section Fire

variable (hfire : btbUpdateInfoFire io = true)

include hfire

theorem holds_update : Holds (next s io) (index io.btbUpdateInfo.bits.pc)
    (updateWay io.btbUpdateInfo.bits) io.btbUpdateInfo.bits := by
  obtain ⟨hvalids, hline⟩ := next_of_fire (s := s) hfire
  constructor
  · rw [hvalids, entry_put]
  all_goals rw [hline, newInfo, entry_put]

theorem Holds.other_way (hok : UpdatesCurrent s io)
    (hu : Holds s (index io.btbUpdateInfo.bits.pc) (!updateWay io.btbUpdateInfo.bits) u) :
    Holds (next s io) (index io.btbUpdateInfo.bits.pc) (!updateWay io.btbUpdateInfo.bits) u := by
  obtain ⟨hvalids, hline⟩ := next_of_fire (s := s) hfire
  obtain ⟨hbia, htracker, hbta, -⟩ := hok.line hfire hu.valid
  constructor
  · rw [hvalids, entry_put_not, hu.valid]
  · rw [hline, newInfo, entry_put_not, hbia, hu.bia]
  · rw [hline, newInfo, entry_put_not, htracker, hu.tracker]
  · rw [hline, newInfo, entry_put_not, hbta, hu.bta]

end Fire

theorem Holds.other_set (hu : Holds s i w u) (hi : i ≠ index io.btbUpdateInfo.bits.pc) :
    Holds (next s io) i w u := by
  obtain ⟨hvalids, hline⟩ := next_of_other (s := s) hi
  refine ⟨?_, ?_, ?_, ?_⟩
  · rw [hvalids, hu.valid]
  · rw [hline, hu.bia]
  · rw [hline, hu.tracker]
  · rw [hline, hu.bta]

theorem place_cases (u : BTBUpdateInfo) (i : Index) (w : Bool) :
    (index u.pc = i ∧ updateWay u = w) ∨ (index u.pc = i ∧ w = !updateWay u) ∨
      i ≠ index u.pc := by
  by_cases hi : index u.pc = i
  · cases hw : updateWay u <;> cases w <;> simp [hi]
  · exact .inr (.inr (Ne.symm hi))

theorem EntriesInv.kept_fire (hinv : EntriesInv s h) (hok : UpdatesCurrent s io)
    (hfire : btbUpdateInfoFire io = true) :
    ∀ u ∈ written (io.btbUpdateInfo.bits :: h) i w, Holds (next s io) i w u := by
  intro u hu
  rw [written_cons] at hu
  rcases place_cases io.btbUpdateInfo.bits i w with ⟨rfl, rfl⟩ | ⟨rfl, rfl⟩ | hi
  · rw [if_pos ⟨rfl, rfl⟩] at hu
    obtain rfl := Option.mem_some.1 hu
    exact holds_update hfire
  · rw [if_neg (by simp)] at hu
    exact (hinv.kept _ _ u hu).other_way hfire hok
  · rw [if_neg fun ⟨he, _⟩ => hi he.symm] at hu
    exact (hinv.kept _ _ u hu).other_set hi

theorem EntriesInv.valid_fire (hinv : EntriesInv s h)
    (hv : entry w ((next s io).valids i) = true) :
    (written (io.btbUpdateInfo.bits :: h) i w).isSome := by
  rw [written_cons]
  rw [next_valids] at hv
  rcases place_cases io.btbUpdateInfo.bits i w with hp | ⟨rfl, rfl⟩ | hi
  · rw [if_pos hp]
    rfl
  · rw [if_neg (by simp)]
    rw [if_pos rfl, entry_put_not] at hv
    exact hinv.valid _ _ hv
  · rw [if_neg fun ⟨he, _⟩ => hi he.symm]
    rw [if_neg hi] at hv
    exact hinv.valid _ _ hv

theorem EntriesInv.tag_ne (hinv : EntriesInv s h) (hok : UpdatesCurrent s io)
    (hfire : btbUpdateInfoFire io = true)
    (hu : u ∈ written h (index io.btbUpdateInfo.bits.pc) (!updateWay io.btbUpdateInfo.bits)) :
    getBTBTag u.pc ≠ getBTBTag io.btbUpdateInfo.bits.pc := by
  have hold := hinv.kept _ _ u hu
  rw [← hold.bia]
  exact (hok.line hfire hold.valid).2.2.2

theorem EntriesInv.distinct_fire (hinv : EntriesInv s h) (hok : UpdatesCurrent s io)
    (hfire : btbUpdateInfoFire io = true) :
    ∀ u ∈ written (io.btbUpdateInfo.bits :: h) i false,
      ∀ v ∈ written (io.btbUpdateInfo.bits :: h) i true, getBTBTag u.pc ≠ getBTBTag v.pc := by
  intro u hu v hv
  rw [written_cons] at hu hv
  by_cases hi : index io.btbUpdateInfo.bits.pc = i
  case neg =>
    rw [if_neg fun ⟨he, _⟩ => hi he] at hu hv
    exact hinv.distinct i u hu v hv
  case pos =>
    subst hi
    have hne (x : BTBUpdateInfo) := hinv.tag_ne (u := x) hok hfire
    cases hw : updateWay io.btbUpdateInfo.bits <;> rw [hw] at hne
    case false =>
      rw [if_pos ⟨rfl, hw⟩] at hu
      rw [if_neg (by simp [hw])] at hv
      obtain rfl := Option.mem_some.1 hu
      exact (hne v hv).symm
    case true =>
      rw [if_neg (by simp [hw])] at hu
      rw [if_pos ⟨rfl, hw⟩] at hv
      obtain rfl := Option.mem_some.1 hv
      exact hne u hu

theorem EntriesInv.next (hinv : EntriesInv s h) (hok : UpdatesCurrent s io) :
    EntriesInv (next s io) (accepted io h) := by
  rw [accepted]
  cases hfire : btbUpdateInfoFire io
  case false =>
    rw [next_of_idle hfire (hok.idle hfire)]
    exact hinv
  case true =>
    rw [if_pos rfl]
    exact ⟨fun _ _ hv => hinv.valid_fire hv, fun _ _ => hinv.kept_fire hok hfire,
      fun _ => hinv.distinct_fire hok hfire⟩

section Lookups

theorem EntriesInv.written_of_hits (hinv : EntriesInv s h) (hh : hits s pc w = true) :
    ∃ u ∈ written h (index pc) w, getBTBTag u.pc = getBTBTag pc := by
  rw [hits, Bool.and_eq_true, beq_iff_eq] at hh
  obtain ⟨u, hu⟩ := Option.isSome_iff_exists.1 (hinv.valid _ _ hh.1)
  exact ⟨u, hu, (hinv.kept _ _ u hu).bia.symm.trans hh.2⟩

theorem EntriesInv.not_both (hinv : EntriesInv s h) :
    ¬(hits s pc false = true ∧ hits s pc true = true) := by
  rintro ⟨hf, ht⟩
  obtain ⟨u, hu, hut⟩ := hinv.written_of_hits hf
  obtain ⟨v, hv, hvt⟩ := hinv.written_of_hits ht
  exact hinv.distinct _ u hu v hv (hut.trans hvt.symm)

theorem EntriesInv.latest_of_hits (hinv : EntriesInv s h) (hh : hits s pc w = true) :
    latest h pc = written h (index pc) w := by
  obtain ⟨u, hu, htag⟩ := hinv.written_of_hits hh
  obtain ⟨hmem, hindex, hway⟩ := written_spec hu
  have hsome : (latest h pc).isSome := by
    rw [latest, List.find?_isSome]
    exact ⟨u, hmem, decide_eq_true ⟨hindex, htag, by rw [hindex, hway]; exact hu⟩⟩
  obtain ⟨v, hv⟩ := Option.isSome_iff_exists.1 hsome
  have hspec : index v.pc = index pc ∧ getBTBTag v.pc = getBTBTag pc ∧
      written h (index v.pc) (updateWay v) = some v := by
    simpa using List.find?_some hv
  obtain ⟨hvi, hvt, hvw⟩ := hspec
  rw [hvi] at hvw
  have hsame : updateWay v = w := by
    by_contra hne
    cases w
    case false =>
      rw [Bool.not_eq_false] at hne
      rw [hne] at hvw
      exact hinv.distinct _ u hu v hvw (htag.trans hvt.symm)
    case true =>
      rw [Bool.not_eq_true] at hne
      rw [hne] at hvw
      exact hinv.distinct _ v hvw u hu (hvt.trans htag.symm)
  rw [hv, ← hvw, hsame]

end Lookups

theorem EntriesInv.intact (hinv : EntriesInv s h) : EntriesIntact s h where
  only pc w hh := by
    obtain ⟨u, hu, htag⟩ := hinv.written_of_hits hh
    obtain ⟨hmem, hindex, hway⟩ := written_spec hu
    exact ⟨u, hmem, hindex, htag, hway⟩
  latest pc hh := by
    obtain ⟨w, hw⟩ := exists_hits hh
    obtain ⟨u, hu, -⟩ := hinv.written_of_hits hw
    obtain ⟨ht, ha⟩ := tracker_of_hits hw hinv.not_both
    have hold := hinv.kept _ _ u hu
    rw [hinv.latest_of_hits hw, ht, ha]
    exact ⟨u, hu, hold.tracker, hold.bta⟩
  kept := hinv.kept
  unique pc := hinv.not_both

theorem entries_intact {p : Regs × Updates}
    (h : withUpdates.Reaches (fun p io => UpdatesCurrent p.1 io) p) : EntriesIntact p.1 p.2 := by
  have hinv : EntriesInv p.1 p.2 := by
    refine h.monitor_invariant (P := EntriesInv) (fun s hs => ?_) fun s g io ih hok => ih.next hok
    have hvalids : s.valids = fun _ => (false, false) := hs
    refine ⟨fun i w hv => ?_, by simp [written], by simp [written]⟩
    rw [hvalids] at hv
    cases w <;> simp [entry] at hv
  exact hinv.intact

/-- Two branches of one set are taken, the second with the line that the first one left. -/
def twoTaken : List Inputs :=
  let first : BTBUpdateInfo := ⟨0x80000000, true, 0x80000100, 0, .zero⟩
  [⟨0x80000000, true, first⟩, ⟨0x80000400, true, 0x80000400, true, 0x80000500, 0, newInfo first⟩]

theorem entries_intact_two :
    let p := withUpdates.run (.zeros, []) twoTaken
    branchPredTarget p.1 0x80000000 = 0x80000100 ∧ branchPredTarget p.1 0x80000400 = 0x80000500 ∧
      EntriesIntact p.1 p.2 := by
  have hr := withUpdates.reaches_run (fun p io => UpdatesCurrent p.1 io) (.zeros, []) twoTaken
    ⟨rfl, rfl⟩ (by decide +kernel)
  exact ⟨by decide +kernel, by decide +kernel, entries_intact hr⟩

/-- EXE holds an instruction that is no branch: the next lookup of its pc hits. -/
theorem hit_without_update :
    ¬∀ p, withUpdates.Reaches (fun _ _ => True) p → EntriesIntact p.1 p.2 := by
  intro h
  have hr := withUpdates.reaches_run (fun _ _ => True) (.zeros, [])
    [⟨0x80000004, false, 0x80000000, false, 0x80000004, 0, .zero⟩] ⟨rfl, rfl⟩ (by decide +kernel)
  obtain ⟨u, hu, -⟩ := (h _ hr).only 0x80000000 false (by decide +kernel)
  exact List.not_mem_nil hu

end FpgaNpc.BPU
