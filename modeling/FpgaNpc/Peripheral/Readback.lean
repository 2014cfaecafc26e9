import FpgaNpc.Peripheral.Gateway

open FpgaNpc.Hardware FpgaNpc.AXI4

namespace FpgaNpc.PLIC

variable {nrIntr : Nat}

def valueAt (s : Regs nrIntr) (a : Nat) : Word := RegMap.rdata (mapping s) a

/-- The offset of a priority, of a word of `enable` or of the threshold. -/
inductive Writable (nrIntr : Nat) : Nat → Prop
  | priority (intr : Fin nrIntr) : Writable nrIntr ((intr + 1) * 4)
  | enable (w : Fin (nrIntrWord nrIntr)) : Writable nrIntr (0x2000 + w * 4)
  | threshold : Writable nrIntr 0x200000

/-- The offset of a register, those that only the module itself writes included. -/
inductive Mapped (nrIntr : Nat) : Nat → Prop
  | writable {a : Nat} : Writable nrIntr a → Mapped nrIntr a
  | pending (w : Fin (nrIntrWord nrIntr)) : Mapped nrIntr (0x1000 + w * 4)
  | claim : Mapped nrIntr 0x200004

/-- Nothing changes the register at the offset in this cycle: it is not written with another value,
no source of a word of `pending` is raised anew, and the claim register shows its successor. -/
structure Steady (s : Regs nrIntr) (io : Inputs nrIntr) (a : Nat) : Prop where
  unwritten : Writable nrIntr a → writes io a = true → written io (valueAt s a) = valueAt s a
  unraised : ∀ id ∈ sources nrIntr, a = 0x1000 + id / 32 * 4 → line io id = true →
    sourceBit s.pending id = true
  claimed : a = 0x200004 → claimCompletionNext s io = s.claimCompletion

section Mapping

variable {s : Regs nrIntr} {io : Inputs nrIntr} {a : Nat}

theorem nodup_mapping (h : nrIntr < 1024) (s : Regs nrIntr) :
    ((mapping s).map Prod.fst).Nodup := by
  have hw : nrIntrWord nrIntr ≤ 32 := by
    rw [nrIntrWord]
    omega
  simp only [mapping, List.map_append, List.map_ofFn, Function.comp_def, List.map_cons,
    List.map_nil, List.nodup_append, List.mem_append, List.mem_ofFn, List.mem_singleton]
  have hnodup (b : Nat) {m : Nat} : (List.ofFn fun i : Fin m => b + i * 4).Nodup := by
    rw [List.nodup_ofFn]
    intro i j hij
    exact Fin.ext (by simpa using hij)
  have hpriority : (List.ofFn fun i : Fin nrIntr => (i.val + 1) * 4).Nodup := by
    rw [List.nodup_ofFn]
    intro i j hij
    exact Fin.ext (by simpa using hij)
  refine ⟨⟨⟨⟨hpriority, hnodup _, ?_⟩, hnodup _, ?_⟩, List.nodup_singleton _, ?_⟩,
    List.nodup_singleton _, ?_⟩ <;> grind

theorem valueAt_of_mem (h : nrIntr < 1024) {p : Nat × Word} (hp : p ∈ mapping s) :
    valueAt s p.1 = p.2 := RegMap.rdata_of_mem (nodup_mapping h s) hp

theorem valueAt_priority (h : nrIntr < 1024) (intr : Fin nrIntr) :
    valueAt s ((intr + 1) * 4) = s.priority intr := by
  refine valueAt_of_mem h (p := ((intr + 1) * 4, s.priority intr)) ?_
  simp only [mapping, List.mem_append, List.mem_ofFn]
  exact .inl (.inl (.inl (.inl ⟨intr, rfl⟩)))

theorem valueAt_enable (h : nrIntr < 1024) (w : Fin (nrIntrWord nrIntr)) :
    valueAt s (0x2000 + w * 4) = s.enable w := by
  refine valueAt_of_mem h (p := (0x2000 + w * 4, s.enable w)) ?_
  simp only [mapping, List.mem_append, List.mem_ofFn]
  exact .inl (.inl (.inr ⟨w, rfl⟩))

theorem valueAt_threshold (h : nrIntr < 1024) : valueAt s 0x200000 = s.threshold := by
  refine valueAt_of_mem h (p := (0x200000, s.threshold)) ?_
  simp [mapping]

theorem valueAt_pending (h : nrIntr < 1024) (w : Fin (nrIntrWord nrIntr)) :
    valueAt s (0x1000 + w * 4) = s.pending w := by
  refine valueAt_of_mem h (p := (0x1000 + w * 4, s.pending w)) ?_
  simp only [mapping, List.mem_append, List.mem_ofFn]
  exact .inl (.inl (.inl (.inr ⟨w, rfl⟩)))

theorem valueAt_claim (h : nrIntr < 1024) : valueAt s 0x200004 = s.claimCompletion := by
  refine valueAt_of_mem h (p := (0x200004, s.claimCompletion)) ?_
  simp [mapping]

theorem valueAt_next (h : nrIntr < 1024) (ha : Writable nrIntr a) : valueAt (next s io) a =
    if writes io a then written io (valueAt s a) else valueAt s a := by
  cases ha with
  | priority intr => rw [valueAt_priority h, valueAt_priority h]; rfl
  | enable w => rw [valueAt_enable h, valueAt_enable h]; rfl
  | threshold => rw [valueAt_threshold h, valueAt_threshold h]; rfl

theorem pendingNext_eq_iff (he : Elaborates nrIntr) (hi : Inv s) (w : Fin (nrIntrWord nrIntr)) :
    pendingNext s io w = s.pending w ↔ ∀ id ∈ sources nrIntr, id / 32 = w →
      line io id = true → sourceBit s.pending id = true := by
  have hbit (words : Fin (nrIntrWord nrIntr) → Word) {id : Nat} (hid : id / 32 = w) :
      sourceBit words id = (words w).getLsbD (id % 32) := by
    simp [sourceBit, hid, w.isLt]
  constructor
  · intro heq id hmem hid hline
    have hnext : sourceBit (pendingNext s io) id = (line io id || sourceBit s.pending id) :=
      sourceBit_pendingNext he hi hmem
    rw [hline, Bool.true_or, hbit _ hid, heq] at hnext
    rw [hbit _ hid, hnext]
  · intro hall
    apply BitVec.eq_of_getLsbD_eq
    intro j hj
    have hid : (32 * w.val + j) / 32 = w := by omega
    have hmod : (32 * w.val + j) % 32 = j := by omega
    have hnext := hbit (pendingNext s io) hid
    have hold := hbit s.pending hid
    rw [hmod] at hnext hold
    rw [← hnext, ← hold]
    by_cases hmem : 32 * w.val + j ∈ sources nrIntr
    case neg => rw [hi.pending _ hmem, show pendingNext s io = (next s io).pending from rfl,
      (hi.next he).pending _ hmem]
    case pos =>
      rw [sourceBit_pendingNext he hi hmem]
      cases hline : line io (32 * w.val + j)
      case false => rfl
      case true => rw [Bool.true_or, hall _ hmem hid hline]

theorem nrIntrWord_le (h : nrIntr < 1024) : nrIntrWord nrIntr ≤ 32 := by
  rw [nrIntrWord]
  omega

theorem Writable.apart (h : nrIntr < 1024) (ha : Writable nrIntr a) :
    (∀ w : Fin (nrIntrWord nrIntr), a ≠ 0x1000 + w * 4) ∧ a ≠ 0x200004 := by
  have hw := nrIntrWord_le h
  cases ha with
  | priority intr => exact ⟨fun w => by omega, by omega⟩
  | enable w' => exact ⟨fun w => by omega, by omega⟩
  | threshold => exact ⟨fun w => by omega, by omega⟩

theorem valueAt_next_iff (he : Elaborates nrIntr) (hi : Inv s) (ha : Mapped nrIntr a) :
    valueAt (next s io) a = valueAt s a ↔ Steady s io a := by
  have hn := he.required
  have hwords := nrIntrWord_le hn
  have hlt {id : Nat} (hid : id ∈ sources nrIntr) : id / 32 < nrIntrWord nrIntr :=
    Nat.lt_of_le_of_lt (Nat.div_le_div_right (mem_sources.1 hid).2) he.words
  cases ha with
  | writable ha =>
    obtain ⟨hpending, hclaim⟩ := ha.apart hn
    rw [valueAt_next hn ha]
    constructor
    · intro heq
      refine ⟨fun _ hw => ?_, fun id hid h => absurd h (hpending ⟨_, hlt hid⟩),
        fun h => absurd h hclaim⟩
      rwa [if_pos hw] at heq
    · intro hs
      split
      case isTrue hw => exact hs.unwritten ha hw
      case isFalse => rfl
  | pending w =>
    rw [valueAt_pending hn, valueAt_pending hn]
    refine (pendingNext_eq_iff he hi w).trans ⟨fun hall => ?_, fun hs id hid hw => ?_⟩
    · exact ⟨fun hw => absurd rfl ((hw.apart hn).1 w),
        fun id hid h => hall id hid (by omega), fun h => by omega⟩
    · exact hs.unraised id hid (by rw [hw])
  | claim =>
    rw [valueAt_claim hn, valueAt_claim hn]
    constructor
    · intro heq
      exact ⟨fun hw => absurd rfl (hw.apart hn).2,
        fun id hid h => by have := hlt hid; omega, fun _ => heq⟩
    · exact fun hs => hs.claimed rfl

end Mapping

/-- What has been on the bus: the address on the lines of the read channel in the last cycle, and
what has been written to each register. -/
structure Traffic where
  last : Option Word
  stored : Nat → Word

def Traffic.none : Traffic := ⟨.none, fun _ => 0⟩

def Traffic.observe (_ : Regs nrIntr) (io : Inputs nrIntr) (g : Traffic) : Traffic where
  last := some io.bus.ar.bits.addr
  stored a := if writes io a then written io (g.stored a) else g.stored a

def withTraffic (nrIntr : Nat) : Machine (Regs nrIntr × Traffic) (Inputs nrIntr) :=
  (machine nrIntr).monitor .none Traffic.observe

/-- The response carries what the register at the address of the read holds after the
handshake. -/
def ReturnsOwn (s : Regs nrIntr) (io : Inputs nrIntr) : Prop :=
  (next s io).rValid = true ∧
    (next s io).rdata = valueAt (next s io) (getOffset io.bus.ar.bits.addr)

instance (s : Regs nrIntr) (io : Inputs nrIntr) : Decidable (ReturnsOwn s io) :=
  inferInstanceAs (Decidable (_ ∧ _))

/-- The register that is read was on the address lines in the cycle before as well. -/
def Repeated (g : Traffic) (io : Inputs nrIntr) : Prop :=
  ∃ l ∈ g.last, getOffset l = getOffset io.bus.ar.bits.addr

structure TrafficInv (s : Regs nrIntr) (g : Traffic) : Prop extends Inv s where
  last : ∀ l ∈ g.last, s.arReg.addr = l
  stored : ∀ a, Writable nrIntr a → valueAt s a = g.stored a

variable {p : Regs nrIntr × Traffic} {io : Inputs nrIntr}

theorem TrafficInv.of_reaches (he : Elaborates nrIntr)
    (h : (withTraffic nrIntr).Reaches (fun _ _ => True) p) : TrafficInv p.1 p.2 := by
  have hn := he.required
  refine h.monitor_invariant (P := TrafficInv) (fun s hs => ?_) fun s g io ih _ => ?_
  · refine ⟨⟨fun id => by rw [hs.inHandle], fun id _ => by simp [sourceBit, hs.pending]⟩,
      fun l hl => (by cases hl), fun a ha => ?_⟩
    cases ha with
    | priority intr => rw [valueAt_priority hn, hs.priority]; rfl
    | enable w => rw [valueAt_enable hn, hs.enable]; rfl
    | threshold => rw [valueAt_threshold hn, hs.threshold]; rfl
  · refine ⟨ih.toInv.next he, fun l hl => Option.some.inj hl, fun a ha => ?_⟩
    rw [show (machine nrIntr).next s io = next s io from rfl, valueAt_next hn ha, ih.stored a ha]
    rfl

theorem rdata_of_repeated (h : TrafficInv p.1 p.2) (hlast : Repeated p.2 io) :
    (next p.1 io).rdata = valueAt p.1 (getOffset io.bus.ar.bits.addr) := by
  obtain ⟨l, hl, hoff⟩ := hlast
  have hdata : (next p.1 io).rdata = valueAt p.1 (getOffset p.1.arReg.addr) := rfl
  rw [hdata, h.last l hl, hoff]

theorem reads_return (he : Elaborates nrIntr)
    (h : (withTraffic nrIntr).Reaches (fun _ _ => True) p) (har : arFire io = true)
    (ha : Mapped nrIntr (getOffset io.bus.ar.bits.addr)) (hlast : Repeated p.2 io) :
    (ReturnsOwn p.1 io ↔ Steady p.1 io (getOffset io.bus.ar.bits.addr)) ∧
      (Writable nrIntr (getOffset io.bus.ar.bits.addr) →
        writes io (getOffset io.bus.ar.bits.addr) = false → (next p.1 io).rValid = true ∧
          (next p.1 io).rdata = p.2.stored (getOffset io.bus.ar.bits.addr)) := by
  have hinv := TrafficInv.of_reaches he h
  have hvalid : (next p.1 io).rValid = true := har
  have hdata := rdata_of_repeated hinv hlast
  constructor
  · rw [ReturnsOwn, hdata, ← valueAt_next_iff he hinv.toInv ha, and_iff_right hvalid]
    exact eq_comm
  · intro hw _
    rw [hdata]
    exact ⟨hvalid, hinv.stored _ hw⟩

/-- The word of `enable` on the address lines of the read channel, asked for or not. -/
def addressEnable (valid : Bool) : Inputs 5 :=
  ⟨{ busIdle with ar := ⟨valid, { busIdle.ar.bits with addr := 0x40002000 }⟩ }, 0⟩

def writeEnable : Inputs 5 :=
  ⟨{ busIdle with aw := ⟨true, { AW.zero with addr := 0x40002000 }⟩,
                  w := ⟨true, ⟨2, 0xf, true⟩⟩ }, 0⟩

theorem reads_return_enable :
    (next ((machine 5).run (reset 5) [writeEnable, addressEnable false])
      (addressEnable true)).rdata = 2 := by
  have hr := (withTraffic 5).reaches_run (fun _ _ => True) (reset 5, .none)
    [writeEnable, addressEnable false] ⟨isReset_reset, rfl⟩ (by decide +kernel)
  have hw : Writable 5 0x2000 := .enable ⟨0, by decide⟩
  have hreads := reads_return ⟨by decide, by decide, by decide⟩ hr
    (show arFire (addressEnable true) = true from rfl) (.writable hw) ⟨_, rfl, rfl⟩
  exact (hreads.2 hw (by decide +kernel)).2.trans (by decide +kernel)

/-- The claim register is on the address lines between the write and the read. -/
theorem read_returns_claim : ¬∀ s, (machine 5).Reaches (fun _ _ => True) s → ∀ io,
    arFire io = true → ReturnsOwn s io := by
  intro h
  have hr := (machine 5).reaches_run (fun _ _ => True) (reset 5) [writeEnable, ⟨busIdle, 0⟩]
    isReset_reset (by decide +kernel)
  have hown := h _ hr (addressEnable true) rfl
  revert hown
  decide +kernel

end FpgaNpc.PLIC
