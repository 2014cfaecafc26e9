import FpgaNpc.Peripheral.PLIC

open FpgaNpc.Hardware FpgaNpc.AXI4

namespace FpgaNpc.PLIC

variable {nrIntr : Nat}

def sources (nrIntr : Nat) : List Nat := List.range' 1 nrIntr

theorem mem_sources {id : Nat} : id ∈ sources nrIntr ↔ 0 < id ∧ id ≤ nrIntr := by
  simp only [sources, List.mem_range'_1]
  omega

def sourceBit (words : Fin (nrIntrWord nrIntr) → Word) (id : Nat) : Bool :=
  if h : id / 32 < nrIntrWord nrIntr then (words ⟨id / 32, h⟩).getLsbD (id % 32) else false

section Gateway

variable (s : Regs nrIntr) (io : Inputs nrIntr)

def line (id : Nat) : Bool := io.intrVec.getLsbD (id - 1)

/-- A read of the claim register returns `id`. Its address is the one `arReg` holds in the
cycle of the response. -/
def claims (id : Nat) : Bool :=
  rFire s io && getOffset s.arReg.addr == 0x200004 && s.rdata.toNat == id

def completes (id : Nat) : Bool :=
  writes io 0x200004 && (written io s.claimCompletion).toNat == id

/-- What a gateway keeps of each source: whether it has been claimed and not completed since,
whether its line has been raised since it was last completed, and what is on offer next. -/
structure Gateway where
  inService : Nat → Bool
  raised : Nat → Bool
  offered : List Nat

def Gateway.idle : Gateway := ⟨fun _ => false, fun _ => false, []⟩

def Gateway.serves (g : Gateway) (id : Nat) : Bool :=
  if claims s io id then true else if completes s io id then false else g.inService id

def Gateway.observe (g : Gateway) : Gateway where
  inService := g.serves s io
  raised id := !g.serves s io id && (line io id || g.raised id)
  offered := (sources nrIntr).filter fun id =>
    g.raised id && sourceBit s.enable id && !g.serves s io id

def withGateway (nrIntr : Nat) : Machine (Regs nrIntr × Gateway) (Inputs nrIntr) :=
  (machine nrIntr).monitor .idle Gateway.observe

/-- Exactly the sources that the gateway holds raised are pending, and the claim register and
`meip` offer one of those that are enabled if there is any. -/
structure Offers (s : Regs nrIntr) (g : Gateway) : Prop where
  pending : ∀ id ∈ sources nrIntr, sourceBit s.pending id = g.raised id
  meip : meip s = true ↔ g.offered ≠ []
  claim : s.claimCompletion ≠ 0 → s.claimCompletion.toNat ∈ g.offered

/-- No source in service is raised or pending. The claim register is not written while a source
is on offer, and the word of such a source is the middle one. -/
structure Gateway.Unserved (g : Gateway) (s : Regs nrIntr) (io : Inputs nrIntr) : Prop where
  quiet : ∀ id ∈ sources nrIntr, g.serves s io id = true → line io id = false ∧ g.raised id = false
  unwritten : ∀ id ∈ sources nrIntr, sourceBit s.pending id = true → sourceBit s.enable id = true →
    writes io 0x200004 = false
  word : ∀ id ∈ sources nrIntr, sourceBit s.pending id = true → sourceBit s.enable id = true →
    2 * (id / 32) + 1 = nrIntrWord nrIntr

instance (g : Gateway) (s : Regs nrIntr) (io : Inputs nrIntr) : Decidable (g.Unserved s io) :=
  decidable_of_iff (_ ∧ _ ∧ _) ⟨fun ⟨hq, hu, hw⟩ => ⟨hq, hu, hw⟩, fun ⟨hq, hu, hw⟩ => ⟨hq, hu, hw⟩⟩

end Gateway

section Bits

variable {s : Regs nrIntr} {io : Inputs nrIntr}

theorem sourceBit_setPending (pending : Fin (nrIntrWord nrIntr) → Word) (id id' : Nat) (v : Bool)
    (h : id / 32 < nrIntrWord nrIntr) :
    sourceBit (setPending pending id v) id' = if id' = id then v else sourceBit pending id' := by
  have hlt : id % 32 < 32 := Nat.mod_lt _ (by omega)
  by_cases hid : id' = id
  · subst hid
    simp [sourceBit, h, setPending, getLsbD_setBit _ _ _ _ hlt]
  · rw [if_neg hid]
    by_cases hw : id' / 32 < nrIntrWord nrIntr
    case neg => simp [sourceBit, hw]
    case pos =>
      simp only [sourceBit, hw, dif_pos, setPending]
      by_cases hd : id' / 32 = id / 32
      · rw [if_pos hd, getLsbD_setBit _ _ _ _ hlt, if_neg (by omega)]
      · rw [if_neg hd]

def driven (s : Regs nrIntr) (io : Inputs nrIntr) (i : Fin nrIntr) (old : Bool) : Bool :=
  if s.inHandle i.succ then false else if io.intrVec.getLsbD i then true else old

theorem sourceBit_updatePending (he : Elaborates nrIntr)
    (pending : Fin (nrIntrWord nrIntr) → Word) (i : Fin nrIntr) (id : Nat) :
    sourceBit (updatePending s io pending i) id =
      if id = i + 1 then driven s io i (sourceBit pending id) else sourceBit pending id := by
  have hw : (i.val + 1) / 32 < nrIntrWord nrIntr :=
    Nat.lt_of_le_of_lt (Nat.div_le_div_right i.isLt) he.words
  unfold updatePending driven
  by_cases hid : id = i + 1 <;> cases s.inHandle i.succ <;> cases io.intrVec.getLsbD i <;>
    simp [sourceBit_setPending _ _ _ _ hw, hid]

theorem driven_driven (i : Fin nrIntr) (old : Bool) :
    driven s io i (driven s io i old) = driven s io i old := by
  unfold driven
  split_ifs <;> rfl

theorem sourceBit_foldl (he : Elaborates nrIntr) (is : List (Fin nrIntr))
    (pending : Fin (nrIntrWord nrIntr) → Word) (i : Fin nrIntr) :
    sourceBit (is.foldl (updatePending s io) pending) (i + 1) =
      if i ∈ is then driven s io i (sourceBit pending (i + 1)) else sourceBit pending (i + 1) := by
  induction is generalizing pending with
  | nil => rfl
  | cons j is ih =>
    rw [List.foldl_cons, ih, sourceBit_updatePending he]
    by_cases hij : i = j
    · subst hij
      simp [driven_driven]
    · have hne : i.val + 1 ≠ j.val + 1 := fun h => hij (Fin.ext (by omega))
      rw [if_neg hne]
      simp [hij]

theorem sourceBit_foldl_of_not_mem (he : Elaborates nrIntr) (is : List (Fin nrIntr))
    (pending : Fin (nrIntrWord nrIntr) → Word) {id : Nat} (hid : id ∉ sources nrIntr) :
    sourceBit (is.foldl (updatePending s io) pending) id = sourceBit pending id := by
  induction is generalizing pending with
  | nil => rfl
  | cons j is ih =>
    have hne : id ≠ j + 1 := fun h => hid (mem_sources.2 ⟨by omega, by omega⟩)
    rw [List.foldl_cons, ih, sourceBit_updatePending he, if_neg hne]

theorem getLsbD_takenVec (s : Regs nrIntr) {j : Nat} (hj : j < 32 * nrIntrWord nrIntr)
    {id : Nat} (hid : id = 32 * (nrIntrWord nrIntr - 1 - j / 32) + j % 32) :
    (takenVec s).getLsbD j = (sourceBit s.pending id && sourceBit s.enable id) := by
  have hd : id / 32 = nrIntrWord nrIntr - 1 - j / 32 := by omega
  have hm : id % 32 = j % 32 := by omega
  have hw : nrIntrWord nrIntr - 1 - j / 32 < nrIntrWord nrIntr := by omega
  simp only [takenVec, BitVec.getLsbD_and, getLsbD_Cat _ _ hj, sourceBit, hd, hm, hw, dif_pos]

end Bits

section Offers

variable {s : Regs nrIntr} {io : Inputs nrIntr} {g : Gateway}

/-- No assignment sets `inHandle`, and only the bits of sources are ever set in `pending`. -/
structure Inv (s : Regs nrIntr) : Prop where
  inHandle : ∀ id, s.inHandle id = false
  pending : ∀ id ∉ sources nrIntr, sourceBit s.pending id = false

theorem clearHandle_false {inHandle : Fin (nrIntr + 1) → Bool} (h : ∀ id, inHandle id = false)
    (index : Word) (id : Fin (nrIntr + 1)) : clearHandle inHandle index id = false := by
  simp [clearHandle, h]

theorem Inv.next (he : Elaborates nrIntr) (h : Inv s) : Inv (PLIC.next s io) where
  inHandle id := by
    have hclaimed (c : Bool) (id) :
        (if c then clearHandle s.inHandle s.claimCompletion else s.inHandle) id = false := by
      cases c
      case false => exact h.inHandle id
      case true => exact clearHandle_false h.inHandle _ id
    simp only [PLIC.next, inHandleNext]
    cases writes io 0x200004
    case false => exact hclaimed _ id
    case true => exact clearHandle_false (hclaimed _) _ id
  pending id hid := by
    rw [PLIC.next, pendingNext, sourceBit_foldl_of_not_mem he _ _ hid]
    exact h.pending id hid

theorem sourceBit_pendingNext (he : Elaborates nrIntr) (h : Inv s) {id : Nat}
    (hid : id ∈ sources nrIntr) :
    sourceBit (pendingNext s io) id = (line io id || sourceBit s.pending id) := by
  obtain ⟨hpos, hle⟩ := mem_sources.1 hid
  obtain ⟨i, rfl⟩ : ∃ i : Fin nrIntr, id = i + 1 := ⟨⟨id - 1, by omega⟩, by simp; omega⟩
  rw [pendingNext, sourceBit_foldl he, if_pos (List.mem_finRange i), driven, h.inHandle, line,
    Nat.add_sub_cancel]
  cases io.intrVec.getLsbD i <;> rfl

theorem takenVec_ne_zero (h : Inv s) : takenVec s ≠ 0 ↔ ∃ id ∈ sources nrIntr,
    sourceBit s.pending id = true ∧ sourceBit s.enable id = true := by
  constructor
  · intro hne
    obtain ⟨j, hj, hbit⟩ := exists_getLsbD_of_ne_zero hne
    rw [getLsbD_takenVec s hj rfl, Bool.and_eq_true] at hbit
    refine ⟨_, ?_, hbit⟩
    by_contra hid
    simp [h.pending _ hid] at hbit
  · rintro ⟨id, hid, hp, hen⟩ hz
    have hw : id / 32 < nrIntrWord nrIntr := by
      by_contra hw
      simp [sourceBit, hw] at hp
    have hbit := getLsbD_takenVec s (by omega :
      32 * (nrIntrWord nrIntr - 1 - id / 32) + id % 32 < 32 * nrIntrWord nrIntr)
      (by omega : id = _)
    simp [hz, hp, hen] at hbit

theorem PriorityEncoder_takenVec (h : Inv s) (hne : takenVec s ≠ 0)
    (hword : ∀ id ∈ sources nrIntr, sourceBit s.pending id = true →
      sourceBit s.enable id = true → 2 * (id / 32) + 1 = nrIntrWord nrIntr) :
    PriorityEncoder (takenVec s) ∈ sources nrIntr ∧
      sourceBit s.pending (PriorityEncoder (takenVec s)) = true ∧
      sourceBit s.enable (PriorityEncoder (takenVec s)) = true := by
  obtain ⟨hj, hbit⟩ := getLsbD_PriorityEncoder hne
  generalize PriorityEncoder (takenVec s) = j at hj hbit
  rw [getLsbD_takenVec s hj rfl, Bool.and_eq_true] at hbit
  generalize hid : 32 * (nrIntrWord nrIntr - 1 - j / 32) + j % 32 = id at hbit
  have hmem : id ∈ sources nrIntr := by
    by_contra hn
    simp [h.pending _ hn] at hbit
  have := hword id hmem hbit.1 hbit.2
  obtain rfl : id = j := by omega
  exact ⟨hmem, hbit⟩

theorem mem_offered (ho : Offers s g) (hu : g.Unserved s io) {id : Nat} :
    id ∈ (g.observe s io).offered ↔ id ∈ sources nrIntr ∧
      sourceBit s.pending id = true ∧ sourceBit s.enable id = true := by
  simp only [Gateway.observe, List.mem_filter, Bool.and_eq_true, Bool.not_eq_true',
    and_congr_right_iff]
  intro hid
  rw [ho.pending id hid]
  refine ⟨fun ⟨h, _⟩ => h, fun h => ⟨h, ?_⟩⟩
  by_contra hs
  have := (hu.quiet id hid (Bool.not_eq_false _ ▸ hs)).2
  simp [h.1] at this

theorem meip_iff : meip s = true ↔ s.claimCompletion ≠ 0 := by
  rw [meip, bne_iff_ne]

theorem Offers.next (he : Elaborates nrIntr) (hi : Inv s) (h : Offers s g)
    (hu : g.Unserved s io) : Offers (PLIC.next s io) (g.observe s io) := by
  have hpending : ∀ id ∈ sources nrIntr,
      sourceBit (PLIC.next s io).pending id = (g.observe s io).raised id := by
    intro id hid
    rw [PLIC.next, sourceBit_pendingNext he hi hid, h.pending id hid]
    cases hs : g.serves s io id
    case false => simp [Gateway.observe, hs]
    case true => simp [Gateway.observe, hs, hu.quiet id hid hs]
  have hoffered : (g.observe s io).offered ≠ [] ↔ takenVec s ≠ 0 := by
    rw [takenVec_ne_zero hi]
    constructor
    · intro hne
      obtain ⟨id, hid⟩ := List.exists_mem_of_ne_nil _ hne
      exact ⟨id, (mem_offered h hu).1 hid⟩
    · rintro ⟨id, hid⟩
      exact List.ne_nil_of_mem ((mem_offered h hu).2 hid)
  by_cases hz : takenVec s = 0
  case pos =>
    have hc : (PLIC.next s io).claimCompletion = 0 := by
      simp [PLIC.next, claimCompletionNext, hz]
    refine ⟨hpending, ?_, fun hne => absurd hc hne⟩
    rw [hoffered, meip_iff, hc]
    exact ⟨fun h => absurd rfl h, fun h => absurd hz h⟩
  case neg =>
    obtain ⟨hmem, hp, hen⟩ := PriorityEncoder_takenVec hi hz hu.word
    obtain ⟨hpos, hle⟩ := mem_sources.1 hmem
    have hc : (PLIC.next s io).claimCompletion.toNat = PriorityEncoder (takenVec s) := by
      have hlt : PriorityEncoder (takenVec s) < 2 ^ 32 := by
        have := he.required
        omega
      rw [PLIC.next, claimCompletionNext, hu.unwritten _ hmem hp hen, if_neg Bool.false_ne_true,
        if_neg hz, BitVec.toNat_ofNat, Nat.mod_eq_of_lt hlt]
    have hne : (PLIC.next s io).claimCompletion ≠ 0 := by
      intro h0
      rw [h0] at hc
      simp at hc
      omega
    refine ⟨hpending, ?_, fun _ => ?_⟩
    · rw [hoffered, meip_iff]
      exact iff_of_true hne hz
    · rw [hc]
      exact (mem_offered h hu).2 ⟨hmem, hp, hen⟩

theorem Offers.unserved (he : Elaborates nrIntr) (hi : Inv s) (h : Offers s g)
    (h' : Offers (PLIC.next s io) (g.observe s io)) (hone : nrIntr < 32) : g.Unserved s io := by
  have hquiet : ∀ id ∈ sources nrIntr, g.serves s io id = true →
      line io id = false ∧ g.raised id = false := by
    intro id hid hs
    have hp := h'.pending id hid
    rw [PLIC.next, sourceBit_pendingNext he hi hid, h.pending id hid] at hp
    simpa [Gateway.observe, hs] using hp
  refine ⟨hquiet, ?_, ?_⟩
  · intro id hid hp hen
    by_contra hw
    rw [Bool.not_eq_false] at hw
    have hraised : g.raised id = true := h.pending id hid ▸ hp
    have hserves : g.serves s io id = false := by
      by_contra hs
      have := (hquiet id hid (Bool.not_eq_false _ ▸ hs)).2
      simp [hraised] at this
    have hmem : id ∈ (g.observe s io).offered := by
      simp [Gateway.observe, hid, hraised, hen, hserves]
    refine meip_iff.1 (h'.meip.2 (List.ne_nil_of_mem hmem)) ?_
    rw [PLIC.next, claimCompletionNext, if_pos hw]
  · intro id hid _ _
    obtain ⟨hpos, hle⟩ := mem_sources.1 hid
    simp only [nrIntrWord]
    omega

theorem Inv.reset (h : IsReset s) : Inv s where
  inHandle id := by rw [h.inHandle]
  pending id _ := by simp [sourceBit, h.pending]

theorem Offers.reset (h : IsReset s) : Offers s .idle where
  pending id _ := by simp [sourceBit, h.pending, Gateway.idle]
  meip := by
    rw [meip_iff, h.claimCompletion]
    simp [Gateway.idle]
  claim hne := absurd h.claimCompletion hne

theorem claim_complete (he : Elaborates nrIntr) {p : Regs nrIntr × Gateway}
    (h : (withGateway nrIntr).Reaches (fun p io => p.2.Unserved p.1 io) p) : Offers p.1 p.2 ∧
      ∀ io, nrIntr < 32 → Offers (next p.1 io) (p.2.observe p.1 io) → p.2.Unserved p.1 io := by
  obtain ⟨hinv, hoffers⟩ := h.monitor_invariant (P := fun s g => Inv s ∧ Offers s g)
    (fun s hs => ⟨.reset hs, .reset hs⟩)
    fun s g io ih hu => ⟨ih.1.next he, ih.2.next he ih.1 hu⟩
  exact ⟨hoffers, fun _ hone h' => hoffers.unserved he hinv h' hone⟩

def busIdle : Master where
  ar := ⟨false, ⟨0x40200004, 1, 0, 2, .INCR⟩⟩
  rReady := true
  aw := ⟨false, .zero⟩
  w := ⟨false, ⟨0, 0, true⟩⟩
  bReady := true

/-- Source 1 is enabled in the cycle in which its line is raised; the next two cycles are idle. -/
def raiseSource : List (Inputs 5) :=
  [⟨{ busIdle with aw := ⟨true, { AW.zero with addr := 0x40002000 }⟩,
                   w := ⟨true, ⟨2, 0xf, true⟩⟩ }, 1⟩,
   ⟨busIdle, 0⟩, ⟨busIdle, 0⟩]

def claimSource : List (Inputs 5) :=
  raiseSource ++ [⟨{ busIdle with ar := { busIdle.ar with valid := true } }, 0⟩, ⟨busIdle, 0⟩]

theorem claim_complete_raised :
    let p := (withGateway 5).run (reset 5, .idle) raiseSource
    meip p.1 = true ∧ p.1.claimCompletion = 1 ∧ Offers p.1 p.2 := by
  have hr := (withGateway 5).reaches_run (fun p io => p.2.Unserved p.1 io) (reset 5, .idle)
    raiseSource ⟨isReset_reset, rfl⟩ (by decide +kernel)
  exact ⟨by decide +kernel, by decide +kernel, (claim_complete (by constructor <;> decide) hr).1⟩

/-- The claimed source stays pending, and the claim register and `meip` go on offering it. -/
theorem claimed_offered :
    let p := (withGateway 5).run (reset 5, .idle) claimSource
    p.2.inService 1 = true ∧ p.1.claimCompletion = 1 ∧ meip p.1 = true ∧
      ¬∀ p, (withGateway 5).Reaches (fun _ _ => True) p → Offers p.1 p.2 := by
  refine ⟨by decide +kernel, by decide +kernel, by decide +kernel, fun h => ?_⟩
  have hr := (withGateway 5).reaches_run (fun _ _ => True) (reset 5, .idle) claimSource
    ⟨isReset_reset, rfl⟩ (by decide +kernel)
  have hpending := (h _ hr).pending 1 (by decide)
  revert hpending
  decide +kernel

end Offers

end FpgaNpc.PLIC
