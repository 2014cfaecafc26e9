import FpgaNpc.Peripheral.Forwarding

open FpgaNpc.Hardware FpgaNpc.SRAMLike

namespace FpgaNpc

namespace AXI4

def Covers (addr : Word) (len : BitVec 8) (size : BitVec 3) (x : Word) : Prop :=
  (x - addr).toNat < (len.toNat + 1) * 2 ^ size.toNat

instance (addr : Word) (len : BitVec 8) (size : BitVec 3) (x : Word) :
    Decidable (Covers addr len size x) := inferInstanceAs (Decidable (_ < _))

def Touches (aw : AW) (ar : AR) : Prop :=
  ∃ x, Covers aw.addr aw.len aw.size x ∧ Covers ar.addr ar.len ar.size x

theorem covers_self (addr : Word) (len : BitVec 8) (size : BitVec 3) :
    Covers addr len size addr := by
  rw [Covers, BitVec.sub_self]
  exact Nat.mul_pos (Nat.succ_pos _) (Nat.two_pow_pos _)

theorem touches_of_addr_eq {aw : AW} {ar : AR} (h : ar.addr = aw.addr) : Touches aw ar :=
  ⟨aw.addr, covers_self _ _ _, h ▸ covers_self _ _ _⟩

end AXI4

namespace Arbiter

open AXI4

def outstanding (s : Regs) (io : Inputs) (w : Option AW) : Option AW :=
  if awFire s io then some (aw s io).bits else if bFire s io then none else w

def watched : Machine (Regs × Owed × Option AW) Inputs :=
  machine.monitor (.nothing, none) fun s io g => (g.1.observe s io, outstanding s io g.2)

variable (s : Regs) (io : Inputs) (w : Option AW)

def ReadWaits : Prop := s.reqBusy = false ∧ (dbusRead io || io.ibusReq.valid) = true

instance : Decidable (ReadWaits s io) := inferInstanceAs (Decidable (_ ∧ _))

/-- The read that waits is held back exactly when the outstanding write touches a byte of it. -/
structure HazardExact : Prop where
  held : ReadWaits s io →
    (arValid s io = false ↔ ∃ aw ∈ w, Touches aw (arBits s io))
  free : ReadWaits s io → w = none → arValid s io = true

/-- The read that waits is not at 0 when no write is outstanding, and starts where the
outstanding write does when that touches a byte of it. -/
structure StartsTell : Prop where
  free : w = none → (arBits s io).addr ≠ 0
  touched : ∀ aw ∈ w, Touches aw (arBits s io) → (arBits s io).addr = aw.addr

variable {s io w}

theorem arValid_eq_false_iff (h : ReadWaits s io) :
    arValid s io = false ↔ (arBits s io).addr = s.awReqBusy.addr := by
  rw [arValid, h.1, h.2, Bool.not_false, Bool.and_self, Bool.true_and, bne_eq_false_iff_eq]

theorem hazardExact_iff (hw : s.awReqBusy = w.getD .zero) :
    HazardExact s io w ↔ (ReadWaits s io → StartsTell s io w) := by
  cases w with
  | none =>
    have haddr : s.awReqBusy.addr = 0 := by rw [hw]; rfl
    constructor
    · intro h hr
      refine ⟨fun _ h0 => ?_, nofun⟩
      have hv := (arValid_eq_false_iff hr).2 (h0.trans haddr.symm)
      rw [h.free hr rfl] at hv
      exact Bool.noConfusion hv
    · intro h
      have hfree (hr : ReadWaits s io) : arValid s io = true := by
        rw [← Bool.not_eq_false, arValid_eq_false_iff hr, haddr]
        exact (h hr).free rfl
      exact ⟨fun hr => by simp [hfree hr], fun hr _ => hfree hr⟩
  | some aw =>
    have haddr : s.awReqBusy.addr = aw.addr := by rw [hw]; rfl
    have hheld : ReadWaits s io → (arValid s io = false ↔ (arBits s io).addr = aw.addr) :=
      fun hr => by rw [arValid_eq_false_iff hr, haddr]
    constructor
    · intro h hr
      refine ⟨nofun, fun aw' hmem ht => ?_⟩
      obtain rfl := Option.mem_some.1 hmem
      exact (hheld hr).1 ((h.held hr).2 ⟨_, rfl, ht⟩)
    · intro h
      refine ⟨fun hr => ?_, nofun⟩
      rw [hheld hr]
      constructor
      · exact fun ha => ⟨_, rfl, touches_of_addr_eq ha⟩
      · rintro ⟨aw', hmem, ht⟩
        obtain rfl := Option.mem_some.1 hmem
        exact (h hr).touched aw rfl ht

theorem awReqBusy_outstanding {g : Owed} (h : Inv s g) (hk : g.Kept io)
    (hw : s.awReqBusy = w.getD .zero) :
    (next s io).awReqBusy = (outstanding s io w).getD .zero := by
  have hb : bFire s io = io.b.valid := by
    cases hv : io.b.valid
    case false => simp [bFire, hv]
    case true => simp [bFire, bReady, hv, (h.bPending (hk.b hv)).2, FlowQueue.enqReady]
  rw [outstanding, hb, Arbiter.next]
  cases awFire s io <;> cases io.b.valid <;> simp [hw]

theorem hazard_exact {p : Regs × Owed × Option AW}
    (h : watched.Reaches (fun p io => p.2.1.Kept io) p) :
    HazardExact p.1 io p.2.2 ↔ (ReadWaits p.1 io → StartsTell p.1 io p.2.2) := by
  have hinv : Inv p.1 p.2.1 ∧ p.1.awReqBusy = p.2.2.getD .zero := by
    refine h.monitor_invariant (P := fun s g => Inv s g.1 ∧ s.awReqBusy = g.2.getD .zero)
      (fun s hs => ?_) fun s g io ih hk => ?_
    · obtain rfl : s = reset := hs
      exact ⟨Inv.reset, rfl⟩
    · exact ⟨ih.1.next hk, awReqBusy_outstanding ih.1 hk ih.2⟩
  exact hazardExact_iff hinv.2

def storing : List Inputs := [{ Inputs.idle with dbusReq := storeAt 0x80000004 }]

def refillAt (a : Word) : Irrevocable SRAMLikeReq :=
  ⟨true, { SRAMLikeReq.zero with size := 2, addr := a, len := 3 }⟩

theorem hazard_exact_store :
    let p := watched.run (Arbiter.reset, Owed.nothing, none) storing
    ReadWaits p.1 { Inputs.idle with ibusReq := fetchAt 0x80000004 } ∧
      HazardExact p.1 { Inputs.idle with ibusReq := fetchAt 0x80000004 } p.2.2 := by
  have hr := watched.reaches_run (fun p io => p.2.1.Kept io) (Arbiter.reset, Owed.nothing, none)
    storing ⟨rfl, rfl⟩ (by decide +kernel)
  exact ⟨by decide +kernel, (hazard_exact hr).2 fun _ => ⟨nofun, fun _ hmem _ => by
    obtain rfl := Option.mem_some.1 hmem
    rfl⟩⟩

/-- The refill of a line goes out while a store to its second word waits for the response. -/
theorem refill_overtakes_store :
    ¬∀ p, watched.Reaches (fun p io => p.2.1.Kept io) p → ∀ io, p.2.1.Kept io →
      HazardExact p.1 io p.2.2 := by
  intro h
  have hr := watched.reaches_run (fun p io => p.2.1.Kept io) (Arbiter.reset, Owed.nothing, none)
    storing ⟨rfl, rfl⟩ (by decide +kernel)
  have hheld := ((h _ hr { Inputs.idle with ibusReq := refillAt 0x80000000 }
    (by decide +kernel)).held (by decide +kernel)).2
    ⟨_, rfl, 0x80000004, by decide +kernel, by decide +kernel⟩
  revert hheld
  decide +kernel

end Arbiter

end FpgaNpc
