import FpgaNpc.Core.BPU
import FpgaNpc.Core.EXE

open FpgaNpc.Hardware FpgaNpc.InterStage FpgaNpc.ControlSignals

namespace FpgaNpc

def EXE.btbUpdateInfo (b : IdExeBus) : BTBUpdateInfo where
  pc := b.pc
  actualTaken := jump b
  actualTarget := jumpTarget b
  btbHitInfo := b.btbHitInfo
  btbInfo := b.btbInfo

namespace BPU

structure Reading where
  btbHitInfo : BitVec 2
  btbInfo : BTBLineInfo
  deriving DecidableEq

/-- What the branch read in its last lookup, unless it has had its outcome since, and how many
outcomes in a row were taken. -/
structure Training where
  read : Option Reading
  taken : Nat

variable (pc target : Word) (s : Regs) (io : Inputs) (g : Training)

def reading : Reading := ⟨(branchPredReq s pc).btbHitInfo, (branchPredReq s pc).btbInfo⟩

def ownFire : Bool := btbUpdateInfoFire io && index io.btbUpdateInfo.bits.pc == index pc

def Training.observe : Training where
  read := if ownFire pc io then none
    else if io.pc = pc then some (reading pc s) else g.read
  taken := if ownFire pc io then if io.btbUpdateInfo.bits.actualTaken then g.taken + 1 else 0
    else g.taken

def withTraining : Machine (Regs × Training) Inputs :=
  machine.monitor ⟨none, 0⟩ (Training.observe pc)

def outcome (taken : Bool) (r : Reading) : BTBUpdateInfo :=
  ⟨pc, taken, if taken then target else pc + 4, r.btbHitInfo, r.btbInfo⟩

/-- No update of the set but the outcomes of the branch comes in, each with the line that the
branch has read, and no valid bit is set in the set without an update. -/
structure Undisturbed : Prop where
  own : ownFire pc io = true → g.read.map
    (outcome pc target io.btbUpdateInfo.bits.actualTaken) = some io.btbUpdateInfo.bits
  idle : btbUpdateInfoFire io = false → index io.btbUpdateInfo.bits.pc = index pc →
    entry (updateWay io.btbUpdateInfo.bits) (s.valids (index io.btbUpdateInfo.bits.pc)) = true

instance : Decidable (Undisturbed pc target s io g) :=
  decidable_of_iff
    ((ownFire pc io = true → g.read.map
        (outcome pc target io.btbUpdateInfo.bits.actualTaken) = some io.btbUpdateInfo.bits) ∧
      (btbUpdateInfoFire io = false → index io.btbUpdateInfo.bits.pc = index pc →
        entry (updateWay io.btbUpdateInfo.bits) (s.valids (index io.btbUpdateInfo.bits.pc)) =
          true))
    ⟨fun ⟨ho, hi⟩ => ⟨ho, hi⟩, fun ⟨ho, hi⟩ => ⟨ho, hi⟩⟩

def predicted : Bool × Word :=
  ((branchPredReq s pc).branchPred, (branchPredReq s pc).branchPredTarget)

def Saturated : Prop := hit s pc = true ∧ tracker s pc = 3

instance : Decidable (Saturated pc s) := inferInstanceAs (Decidable (_ ∧ _))

/-- The counter saturates when the branch is taken three times in a row; then the branch is
predicted to be taken to its target, and it still is after an outcome that was not taken. -/
structure Hysteresis : Prop where
  often : 3 ≤ g.taken → Saturated pc s
  saturated : Saturated pc s → predicted pc s = (true, target)
  steady : Saturated pc s → ∀ b : IdExeBus, EXE.isBRU b = true → b.pc = pc →
    EXE.aluSum b = target → EXE.jump b = false → ⟨b.btbHitInfo, b.btbInfo⟩ ∈ g.read →
    ∀ io, io.btbUpdateInfo = ⟨true, EXE.btbUpdateInfo b⟩ → predicted pc (next s io) = (true, target)

structure TrainingInv : Prop where
  unique : ¬(hits s pc false = true ∧ hits s pc true = true)
  target : ∀ w, hits s pc w = true → entry w (btbInfo s pc).tracker = 3 →
    entry w (btbInfo s pc).bta = target
  read : ∀ r ∈ g.read, r = reading pc s
  taken : 0 < g.taken → ∃ w, hits s pc w = true ∧
    min g.taken 3 ≤ (entry w (btbInfo s pc).tracker).toNat

variable {pc target s io g} {taken w : Bool}

theorem btbUpdateInfo_eq_outcome (b : IdExeBus) : EXE.btbUpdateInfo b =
    outcome b.pc (EXE.aluSum b) (EXE.jump b) ⟨b.btbHitInfo, b.btbInfo⟩ := rfl

section Outcome

theorem updateWay_of_hits (hh : hits s pc w = true)
    (hboth : ¬(hits s pc false = true ∧ hits s pc true = true)) :
    updateWay (outcome pc target taken (reading pc s)) = w ∧
      oldTracker (outcome pc target taken (reading pc s)) = entry w (btbInfo s pc).tracker := by
  have hinfo : orR (reading pc s).btbHitInfo = true ∧
      (reading pc s).btbHitInfo.getLsbD 1 = w := by
    cases w
    case false =>
      have ht : hits s pc true = false := by simpa [hh] using hboth
      simp [reading, branchPredReq, hh, ht, orR]
    case true =>
      have hf : hits s pc false = false := by simpa [hh] using hboth
      simp [reading, branchPredReq, hh, hf, orR]
  have hway : updateWay (outcome pc target taken (reading pc s)) = w := by
    rw [updateWay, outcome, if_pos hinfo.1, hinfo.2]
  refine ⟨hway, ?_⟩
  rw [oldTracker, hway, outcome, if_pos hinfo.1]
  rfl

variable (hu : io.btbUpdateInfo = ⟨true, outcome pc target taken (reading pc s)⟩)
  (hboth : ¬(hits s pc false = true ∧ hits s pc true = true))

include hu

theorem next_of_outcome :
    btbValids (next s io) pc =
        put (updateWay (outcome pc target taken (reading pc s))) (btbValids s pc) true ∧
      btbInfo (next s io) pc = newInfo (outcome pc target taken (reading pc s)) := by
  have hfire : btbUpdateInfoFire io = true := by simp [btbUpdateInfoFire, hu, btbUpdateInfoReady]
  have h := next_of_fire (s := s) hfire
  rw [hu] at h
  exact h

include hboth

theorem hits_of_outcome : hits (next s io) pc w =
    decide (w = updateWay (outcome pc target taken (reading pc s))) := by
  obtain ⟨hvalids, hline⟩ := next_of_outcome hu
  rw [hits, hvalids, hline, newInfo]
  by_cases hw : w = updateWay (outcome pc target taken (reading pc s))
  case pos =>
    rw [← hw, entry_put, entry_put, decide_eq_true rfl]
    exact beq_self_eq_true _
  case neg =>
    have hother : (!updateWay (outcome pc target taken (reading pc s))) = w :=
      (Bool.eq_not_of_ne hw).symm
    rw [← hother, entry_put_not, entry_put_not, hother, decide_eq_false hw]
    change hits s pc w = false
    by_contra hh
    exact hw (updateWay_of_hits (Bool.not_eq_false _ ▸ hh) hboth).1.symm

theorem predicted_of_outcome : predicted pc (next s io) =
    ((newTracker (outcome pc target taken (reading pc s))).getLsbD 1,
      if taken then target else pc + 4) := by
  obtain ⟨hvalids, hline⟩ := next_of_outcome hu
  have hway := hits_of_outcome (w := updateWay (outcome pc target taken (reading pc s))) hu hboth
  rw [decide_eq_true rfl] at hway
  have hboth' : ¬(hits (next s io) pc false = true ∧ hits (next s io) pc true = true) := by
    rw [hits_of_outcome hu hboth, hits_of_outcome hu hboth]
    cases updateWay (outcome pc target taken (reading pc s)) <;> decide
  obtain ⟨htracker, htarget⟩ := tracker_of_hits hway hboth'
  have hhit : hit (next s io) pc = true := hit_of_hits hway
  rw [predicted, branchPredReq, htracker, htarget, hhit, hline, newInfo, entry_put, entry_put,
    Bool.and_true, outcome]

end Outcome

section Tracker

variable {u : BTBUpdateInfo}

theorem newTracker_taken (h : u.actualTaken = true) :
    (newTracker u).toNat = min ((oldTracker u).toNat + 1) 3 := by
  rw [newTracker, if_pos h]
  generalize oldTracker u = old
  revert old
  decide

theorem newTracker_not_taken (h : u.actualTaken = false) :
    (newTracker u).toNat = (oldTracker u).toNat - 1 := by
  rw [newTracker, h, if_neg Bool.false_ne_true]
  generalize oldTracker u = old
  revert old
  decide

end Tracker

namespace TrainingInv

theorem of_set (h : TrainingInv pc target s g)
    (hset : (next s io).valids (index pc) = s.valids (index pc) ∧
      (next s io).infoRam (index pc) = s.infoRam (index pc)) (hown : ownFire pc io = false) :
    TrainingInv pc target (next s io) (g.observe pc s io) := by
  have hinfo : btbInfo (next s io) pc = btbInfo s pc := hset.2
  have hhits (w : Bool) : hits (next s io) pc w = hits s pc w := by
    rw [hits, hits, hinfo, btbValids, btbValids, hset.1]
  have hread : reading pc (next s io) = reading pc s := by
    rw [reading, reading, branchPredReq, branchPredReq, hinfo, hhits, hhits]
  constructor
  case unique =>
    rw [hhits, hhits]
    exact h.unique
  case target =>
    intro w
    rw [hhits, hinfo]
    exact h.target w
  case read =>
    intro r hr
    rw [hread]
    simp only [Training.observe, hown, Bool.false_eq_true, if_false] at hr
    split at hr
    case isTrue => exact (Option.mem_some.1 hr).symm
    case isFalse => exact h.read r hr
  case taken =>
    simp only [Training.observe, hown, Bool.false_eq_true, if_false, hhits, hinfo]
    exact h.taken

theorem le_newTracker (h : TrainingInv pc target s g) : min (g.taken + 1) 3 ≤
    (newTracker (outcome pc target true (reading pc s))).toNat := by
  rw [newTracker_taken rfl]
  cases hg : g.taken
  case zero => omega
  case succ n =>
    obtain ⟨w, hw, hle⟩ := h.taken (by omega)
    rw [(updateWay_of_hits hw h.unique).2]
    omega

theorem of_outcome (h : TrainingInv pc target s g) {taken : Bool}
    (hu : io.btbUpdateInfo = ⟨true, outcome pc target taken (reading pc s)⟩) :
    TrainingInv pc target (next s io) (g.observe pc s io) := by
  have hline := (next_of_outcome hu).2
  have hown : ownFire pc io = true := by
    simp [ownFire, btbUpdateInfoFire, hu, btbUpdateInfoReady, outcome]
  have hhits (w : Bool) := hits_of_outcome (w := w) hu h.unique
  constructor
  case unique =>
    rw [hhits, hhits]
    cases updateWay (outcome pc target taken (reading pc s)) <;> decide
  case target =>
    intro w hw ht
    rw [hhits, decide_eq_true_eq] at hw
    rw [hline, newInfo, hw, entry_put] at ht ⊢
    have htaken : taken = true := by
      by_contra hn
      rw [Bool.not_eq_true] at hn
      subst hn
      have hnew := newTracker_not_taken (u := outcome pc target false (reading pc s)) rfl
      have hlt := (oldTracker (outcome pc target false (reading pc s))).isLt
      rw [ht] at hnew
      change 3 = _ at hnew
      omega
    rw [htaken, outcome, if_pos rfl]
  case read => simp [Training.observe, hown]
  case taken =>
    simp only [Training.observe, hown, if_true, hu]
    cases taken
    case false => simp [outcome]
    case true =>
      intro _
      refine ⟨_, (hhits _).trans (decide_eq_true rfl), ?_⟩
      rw [hline, newInfo, entry_put]
      exact h.le_newTracker

theorem next (h : TrainingInv pc target s g) (hok : Undisturbed pc target s io g) :
    TrainingInv pc target (next s io) (g.observe pc s io) := by
  by_cases hi : index io.btbUpdateInfo.bits.pc = index pc
  case neg => exact h.of_set (next_of_other (Ne.symm hi)) (by simp [ownFire, hi])
  case pos =>
    cases hfire : btbUpdateInfoFire io
    case false =>
      refine h.of_set ?_ (by simp [ownFire, hfire])
      rw [next_of_idle hfire (hok.idle hfire hi)]
      exact ⟨rfl, rfl⟩
    case true =>
      obtain ⟨r, hr, hu⟩ := Option.map_eq_some_iff.1 (hok.own (by simp [ownFire, hfire, hi]))
      rw [h.read r hr] at hu
      have hupdate : io.btbUpdateInfo =
          ⟨true, outcome pc target io.btbUpdateInfo.bits.actualTaken (reading pc s)⟩ := by
        rw [hu]
        cases hio : io.btbUpdateInfo with
        | mk valid bits => simp_all [btbUpdateInfoFire, btbUpdateInfoReady]
      exact h.of_outcome hupdate

theorem saturated_of_hits (h : TrainingInv pc target s g) (hw : hits s pc w = true)
    (ht : entry w (btbInfo s pc).tracker = 3) : Saturated pc s :=
  ⟨hit_of_hits hw, (tracker_of_hits hw h.unique).1.trans ht⟩

theorem hits_of_saturated (h : TrainingInv pc target s g) (hs : Saturated pc s) :
    ∃ w, hits s pc w = true ∧ entry w (btbInfo s pc).tracker = 3 := by
  obtain ⟨w, hw⟩ := exists_hits hs.1
  exact ⟨w, hw, (tracker_of_hits hw h.unique).1.symm.trans hs.2⟩

theorem predicted_of_saturated (h : TrainingInv pc target s g) (hs : Saturated pc s) :
    predicted pc s = (true, target) := by
  obtain ⟨w, hw, ht⟩ := h.hits_of_saturated hs
  rw [predicted, branchPredReq, hs.1, hs.2, (tracker_of_hits hw h.unique).2, h.target w hw ht]
  rfl

theorem predicted_of_not_taken (h : TrainingInv pc target s g) (hs : Saturated pc s)
    (hu : io.btbUpdateInfo = ⟨true, outcome pc target false (reading pc s)⟩) :
    predicted pc (BPU.next s io) = (true, pc + 4) := by
  obtain ⟨w, hw, ht⟩ := h.hits_of_saturated hs
  have hnew : newTracker (outcome pc target false (reading pc s)) = 2#2 := by
    rw [← BitVec.toNat_inj, newTracker_not_taken rfl, (updateWay_of_hits hw h.unique).2, ht]
    rfl
  rw [predicted_of_outcome hu h.unique, hnew]
  rfl

theorem often (h : TrainingInv pc target s g) (ht : 3 ≤ g.taken) : Saturated pc s := by
  obtain ⟨w, hw, hle⟩ := h.taken (by omega)
  refine h.saturated_of_hits hw (BitVec.eq_of_toNat_eq ?_)
  have hlt := (entry w (btbInfo s pc).tracker).isLt
  change _ = 3
  omega

end TrainingInv

def untaken (pc target : Word) (r : Reading) : IdExeBus :=
  { IdExeBus.zero with
    decodeBundle := { DecodeBundle.zero with
      fuType := FuType.BRU, bruOp := BRUOp.EQ, aluSrc1 := OpASrc.PC, aluSrc2 := OpBSrc.IMM }
    pc := pc
    imm := target - pc
    rs1Data := 1
    btbHitInfo := r.btbHitInfo
    btbInfo := r.btbInfo }

theorem aluSum_untaken (r : Reading) : EXE.aluSum (untaken pc target r) = target := by
  simp [EXE.aluSum, ALU.sum, EXE.opA, EXE.opB, Mux1H, untaken, DecodeBundle.zero]

theorem two_bit_hysteresis {p : Regs × Training}
    (h : (withTraining pc).Reaches (fun p io => Undisturbed pc target p.1 io p.2) p) :
    Hysteresis pc target p.1 p.2 ↔
      (Saturated pc p.1 → p.2.read.isSome → target = pc + 4) := by
  have hinv : TrainingInv pc target p.1 p.2 := by
    refine h.monitor_invariant (P := TrainingInv pc target) (fun s hs => ?_)
      fun s g io ih hok => ih.next hok
    have hvalids : s.valids = fun _ => (false, false) := hs
    have hmiss (w : Bool) : hits s pc w = false := by
      cases w <;> simp [hits, btbValids, hvalids, entry]
    exact ⟨by simp [hmiss], by simp [hmiss], by simp, by simp⟩
  constructor
  · intro hh hs hread
    obtain ⟨r, hr⟩ := Option.isSome_iff_exists.1 hread
    have hsteady := hh.steady hs (untaken pc target r) rfl rfl (aluSum_untaken r) rfl hr
      ⟨pc, true, EXE.btbUpdateInfo (untaken pc target r)⟩ rfl
    have hu : (⟨pc, true, outcome pc target false r⟩ : Inputs).btbUpdateInfo =
        ⟨true, outcome pc target false (reading pc p.1)⟩ := by
      rw [hinv.read r hr]
    have hnew := hinv.predicted_of_not_taken hs hu
    rw [btbUpdateInfo_eq_outcome, aluSum_untaken] at hsteady
    exact congrArg Prod.snd (hsteady.symm.trans hnew)
  · intro ht
    refine ⟨hinv.often, hinv.predicted_of_saturated, ?_⟩
    intro hs b _ hpc hsum hj hr io hu
    rw [btbUpdateInfo_eq_outcome, hpc, hsum, hj, hinv.read _ hr] at hu
    rw [hinv.predicted_of_not_taken hs hu, ht hs (Option.isSome_of_mem hr)]

/-- The branch is looked up, is taken twice and is looked up again after either. -/
def takenTwice (pc target : Word) : List Inputs :=
  let away : BTBUpdateInfo := ⟨pc + 2, false, 0, 0, .zero⟩
  let first := outcome pc target true ⟨0, .zero⟩
  let second := outcome pc target true ⟨1, newInfo first⟩
  [⟨pc, false, away⟩, ⟨0, true, first⟩, ⟨pc, false, away⟩, ⟨0, true, second⟩, ⟨pc, false, away⟩]

/-- A branch to the instruction behind itself keeps its prediction. -/
theorem two_bit_hysteresis_behind :
    let p := (withTraining 0x80000000).run (.zeros, ⟨none, 0⟩) (takenTwice 0x80000000 0x80000004)
    Saturated 0x80000000 p.1 ∧ Hysteresis 0x80000000 0x80000004 p.1 p.2 := by
  have hr := (withTraining 0x80000000).reaches_run
    (fun p io => Undisturbed 0x80000000 0x80000004 p.1 io p.2) (.zeros, ⟨none, 0⟩)
    (takenTwice 0x80000000 0x80000004) ⟨rfl, rfl⟩ (by decide +kernel)
  exact ⟨by decide +kernel, (two_bit_hysteresis hr).2 fun _ _ => rfl⟩

/-- After one outcome that is not taken the branch is predicted to go to the pc behind it. -/
theorem target_forgotten : ¬∀ p,
    (withTraining 0x80000000).Reaches
      (fun p io => Undisturbed 0x80000000 0x80000100 p.1 io p.2) p →
    Hysteresis 0x80000000 0x80000100 p.1 p.2 := by
  intro h
  have hr := (withTraining 0x80000000).reaches_run
    (fun p io => Undisturbed 0x80000000 0x80000100 p.1 io p.2) (.zeros, ⟨none, 0⟩)
    (takenTwice 0x80000000 0x80000100) ⟨rfl, rfl⟩ (by decide +kernel)
  let read := reading 0x80000000
    ((withTraining 0x80000000).run (.zeros, ⟨none, 0⟩) (takenTwice 0x80000000 0x80000100)).1
  have hsteady := (h _ hr).steady (by decide +kernel) (untaken 0x80000000 0x80000100 read) rfl rfl
    (aluSum_untaken read) rfl (by decide +kernel)
    ⟨0, true, EXE.btbUpdateInfo (untaken _ _ read)⟩ rfl
  revert hsteady
  decide +kernel

end BPU

end FpgaNpc
