import FpgaNpc.Peripheral.Gateway

open FpgaNpc.Hardware FpgaNpc.AXI4

namespace FpgaNpc.PLIC

/-- Every source has a bit in the words of `pending` and `enable`. -/
def HasBits (nrIntr : Nat) : Prop := ∀ id ∈ sources nrIntr, id / 32 < nrIntrWord nrIntr

instance (nrIntr : Nat) : Decidable (HasBits nrIntr) :=
  inferInstanceAs (Decidable (∀ id ∈ sources nrIntr, _))

variable {nrIntr : Nat}

def taken (s : Regs nrIntr) : List Nat :=
  (sources nrIntr).filter fun id => sourceBit s.pending id && sourceBit s.enable id

/-- The claim register comes to hold the least of the sources that are pending and enabled, and
zero when there is none. -/
structure Arbitrates (s : Regs nrIntr) (io : Inputs nrIntr) : Prop where
  least : ∀ id ∈ taken s, (next s io).claimCompletion.toNat ∈ taken s ∧
    (next s io).claimCompletion.toNat ≤ id
  none : taken s = [] → (next s io).claimCompletion = 0

def OnlySources (s : Regs nrIntr) : Prop := ∀ id ∉ sources nrIntr, sourceBit s.pending id = false

variable {s : Regs nrIntr} {io : Inputs nrIntr}

theorem mem_taken {id : Nat} : id ∈ taken s ↔ id ∈ sources nrIntr ∧
    sourceBit s.pending id = true ∧ sourceBit s.enable id = true := by
  rw [taken, List.mem_filter, Bool.and_eq_true]

theorem OnlySources.of_reaches (he : Elaborates nrIntr)
    (h : (machine nrIntr).Reaches (fun _ _ => True) s) : OnlySources s :=
  (h.invariant (P := Inv) (fun _ hs => .reset hs) fun _ _ ih _ => ih.next he).pending

theorem getLsbD_takenVec_one (ho : OnlySources s) (hw : nrIntrWord nrIntr = 1) {j : Nat} :
    (takenVec s).getLsbD j = true ↔ j ∈ taken s := by
  rw [mem_taken]
  by_cases hj : j < 32 * nrIntrWord nrIntr
  · rw [getLsbD_takenVec s hj (by omega : j = _), Bool.and_eq_true]
    refine ⟨fun h => ⟨?_, h⟩, fun h => h.2⟩
    by_contra hn
    simp [ho _ hn] at h
  · have hout : ¬j / 32 < nrIntrWord nrIntr := by omega
    simp [BitVec.getLsbD_of_ge _ _ (not_lt.1 hj), sourceBit, hout]

theorem arbitrates_of_one_word (ho : OnlySources s) (h : nrIntr < 32) (hpos : 0 < nrIntr)
    (hio : writes io 0x200004 = false) : Arbitrates s io := by
  have hw : nrIntrWord nrIntr = 1 := by
    rw [nrIntrWord]
    omega
  have hclaim : (next s io).claimCompletion =
      if takenVec s = 0 then 0 else BitVec.ofNat 32 (PriorityEncoder (takenVec s)) := by
    rw [next, claimCompletionNext, hio]
    rfl
  have hzero : takenVec s = 0 ↔ taken s = [] := by
    rw [List.eq_nil_iff_forall_not_mem]
    constructor
    · intro hz id hid
      rw [← getLsbD_takenVec_one ho hw, hz] at hid
      simp at hid
    · intro hn
      by_contra hz
      obtain ⟨j, -, hj⟩ := exists_getLsbD_of_ne_zero hz
      exact hn j ((getLsbD_takenVec_one ho hw).1 hj)
  constructor
  case none =>
    intro hn
    rw [hclaim, if_pos (hzero.2 hn)]
  case least =>
    intro id hid
    have hne : takenVec s ≠ 0 := fun hz => by simp [hzero.1 hz] at hid
    obtain ⟨hlt, hbit⟩ := getLsbD_PriorityEncoder hne
    have hnat : (next s io).claimCompletion.toNat = PriorityEncoder (takenVec s) := by
      rw [hclaim, if_neg hne, BitVec.toNat_ofNat, Nat.mod_eq_of_lt (by omega)]
    rw [hnat]
    refine ⟨(getLsbD_takenVec_one ho hw).1 hbit, PriorityEncoder_le ?_ ?_⟩
    · rw [mem_taken, mem_sources] at hid
      omega
    · exact (getLsbD_takenVec_one ho hw).2 hid

def onlyFirst (nrIntr : Nat) : Regs nrIntr :=
  let words := fun w : Fin (nrIntrWord nrIntr) => if w.val = 0 then 2#32 else 0
  { reset nrIntr with pending := words, enable := words }

theorem sourceBit_first (h : 0 < nrIntr) {id : Nat} :
    sourceBit (onlyFirst nrIntr).pending id = decide (id = 1) := by
  have hw : 0 < nrIntrWord nrIntr := by
    rw [nrIntrWord]
    omega
  have htwo (k : Nat) : (2#32).getLsbD k = decide (k = 1) := by
    rw [show 2#32 = BitVec.twoPow 32 1 by decide, BitVec.getLsbD_twoPow]
    simp [eq_comm]
  by_cases hid : id / 32 = 0
  · simp only [sourceBit, hid, hw, dif_pos, onlyFirst, if_true, htwo]
    congr 1
    exact propext (by omega)
  · have hne : id ≠ 1 := by omega
    simp [sourceBit, onlyFirst, hid, hne]

theorem mem_taken_first (h : 0 < nrIntr) {id : Nat} : id ∈ taken (onlyFirst nrIntr) ↔ id = 1 := by
  have henable : (onlyFirst nrIntr).enable = (onlyFirst nrIntr).pending := rfl
  rw [mem_taken, henable, sourceBit_first h, mem_sources, decide_eq_true_eq]
  omega

theorem onlySources_first (h : 0 < nrIntr) : OnlySources (onlyFirst nrIntr) := by
  intro id hid
  have hne : id ≠ 1 := by
    rintro rfl
    exact hid (mem_sources.2 ⟨Nat.one_pos, h⟩)
  rw [sourceBit_first h, decide_eq_false hne]

/-- With more words the first one stands last in the vector. -/
theorem not_arbitrates_first (h0 : 0 < nrIntr) (h : nrIntr < 1024)
    (hbad : 1 < nrIntrWord nrIntr ∨ writes io 0x200004 = true) :
    ¬Arbitrates (onlyFirst nrIntr) io := by
  intro ha
  have hclaim := (mem_taken_first h0).1 (ha.least 1 ((mem_taken_first h0).2 rfl)).1
  cases hio : writes io 0x200004
  case true => simp [next, claimCompletionNext, hio] at hclaim
  case false =>
    have hw : 1 < nrIntrWord nrIntr := by simpa [hio] using hbad
    have hle : nrIntrWord nrIntr ≤ 32 := by
      rw [nrIntrWord]
      omega
    simp only [next, claimCompletionNext, hio, Bool.false_eq_true, if_false] at hclaim
    split at hclaim
    case isTrue => simp at hclaim
    case isFalse hne =>
      obtain ⟨hlt, hbit⟩ := getLsbD_PriorityEncoder hne
      rw [BitVec.toNat_ofNat, Nat.mod_eq_of_lt (by omega)] at hclaim
      rw [hclaim] at hlt hbit
      rw [getLsbD_takenVec _ hlt rfl, sourceBit_first h0, Bool.and_eq_true,
        decide_eq_true_eq] at hbit
      omega

def completing (nrIntr : Nat) (completed : Bool) : Inputs nrIntr where
  bus := { busIdle with
    aw := ⟨completed, { AW.zero with addr := 0x40200004 }⟩
    w := ⟨completed, ⟨0, 0xf, true⟩⟩ }
  intrVec := 0

theorem writes_completing (completed : Bool) :
    writes (completing nrIntr completed) 0x200004 = completed := by
  simp [writes, RegMap.writes, completing, getOffset, wFire]

theorem arbitration_right (h0 : 0 < nrIntr) (h : nrIntr < 1024) (completed : Bool) :
    (HasBits nrIntr ∧ ∀ (s : Regs nrIntr) (io : Inputs nrIntr), OnlySources s →
      writes io 0x200004 = completed → Arbitrates s io) ↔ nrIntr < 32 ∧ completed = false := by
  constructor
  · rintro ⟨hbits, harb⟩
    have hgood : ¬(1 < nrIntrWord nrIntr ∨ completed = true) := by
      rw [← writes_completing completed]
      exact fun hbad => not_arbitrates_first h0 h hbad
        (harb _ _ (onlySources_first h0) (writes_completing completed))
    have hlast := hbits nrIntr (mem_sources.2 ⟨h0, Nat.le_refl _⟩)
    constructor
    · omega
    · simpa using fun hc => hgood (.inr hc)
  · rintro ⟨hlt, rfl⟩
    refine ⟨fun id hid => ?_, fun s io ho hio => arbitrates_of_one_word ho hlt h0 hio⟩
    rw [mem_sources] at hid
    rw [nrIntrWord]
    omega

theorem arbitration_right_raised :
    let s := (machine 5).run (reset 5) (raiseSource.take 2)
    taken s = [1] ∧ Arbitrates s ⟨busIdle, 0⟩ := by
  have hr := (machine 5).reaches_run (fun _ _ => True) (reset 5) (raiseSource.take 2)
    isReset_reset (by decide +kernel)
  refine ⟨by decide +kernel, ?_⟩
  have harb := ((arbitration_right (by decide) (by decide) false).2 ⟨by decide, rfl⟩).2
    ((machine 5).run (reset 5) (raiseSource.take 2)) ⟨busIdle, 0⟩
  exact harb (.of_reaches (by constructor <;> decide) hr) rfl

def raiseSource32 : List (Inputs 33) :=
  [⟨{ busIdle with aw := ⟨true, { AW.zero with addr := 0x40002004 }⟩,
                   w := ⟨true, ⟨1, 0xf, true⟩⟩ }, 0x80000000⟩]

/-- The source is taken and the claim register stays at zero; with 32 sources it has no bit. -/
theorem source_32_unclaimed : ¬HasBits 32 ∧
    let s := (machine 33).run (reset 33) raiseSource32
    (machine 33).Reaches (fun _ _ => True) s ∧ taken s = [32] ∧
      (next s ⟨busIdle, 0⟩).claimCompletion = 0 ∧ ¬Arbitrates s ⟨busIdle, 0⟩ := by
  have hr := (machine 33).reaches_run (fun _ _ => True) (reset 33) raiseSource32
    isReset_reset (by decide +kernel)
  have htaken : taken ((machine 33).run (reset 33) raiseSource32) = [32] := by decide +kernel
  have hclaim : (next ((machine 33).run (reset 33) raiseSource32) ⟨busIdle, 0⟩).claimCompletion =
      0 := by
    decide +kernel
  refine ⟨by decide +kernel, hr, htaken, hclaim, fun ha => ?_⟩
  have hleast := (ha.least 32 (by rw [htaken]; decide)).1
  rw [htaken, hclaim] at hleast
  revert hleast
  decide

end FpgaNpc.PLIC
