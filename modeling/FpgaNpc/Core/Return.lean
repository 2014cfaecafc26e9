import FpgaNpc.Core.Traps
import FpgaNpc.Hardware.Machine

open FpgaNpc.Hardware

namespace FpgaNpc

theorem PRIV.ofUInt_asUInt (p : PRIV) : ofUInt p.asUInt = p := by cases p <;> rfl

namespace CSRRegFile

open CsrConsts

def machine : Machine Regs Inputs where
  IsReset s := s = reset
  next := next

variable (s t : Regs) (io : Inputs) (pc : Word)

def traps : Bool := raiseIntrExcep s io.interrupt io.excepCmd io.intrCmd.valid

def savedPc : Word := if raiseIntr s io.interrupt then io.intrCmd.bits else io.excepCmd.pc

def writesReturn : Bool :=
  io.writePort.wen && (io.writePort.waddr == Mstatus || io.writePort.waddr == Mepc)

structure InHandler : Prop where
  trap : traps s io = false
  mret : io.excepCmd.mret = false
  write : writesReturn io = false

structure Offers : Prop where
  valid : redirectValid s io.interrupt io.excepCmd io.intrCmd.valid = true
  target : redirectTarget s io.interrupt io.excepCmd io.intrCmd.valid = pc

structure Waiting : Prop where
  stalled : io.redirectReady = false
  trap : traps s io = false
  write : writesReturn io = false

/-- The mret in `t` undoes a trap that was taken in `s` and saved `pc`. MIE is bit 3, MPIE is
bit 7, MPP are the bits 11 and 12. -/
structure Restored : Prop where
  privilege : (next t io).privilege = s.privilege
  mie : (next t io).mstatus.getLsbD 3 = s.mstatus.getLsbD 3
  mpie : (next t io).mstatus.getLsbD 7 = true
  others : ∀ i, i ≠ 3 → i ≠ 7 → i ≠ 11 → i ≠ 12 →
    (next t io).mstatus.getLsbD i = s.mstatus.getLsbD i
  redirect : t.flushQ = none → Offers t io pc
  delayed : t.flushQ = none → ∀ is i, machine.Runs Waiting t (io :: is) →
    Offers (machine.run t (io :: is)) i pc

instance : Decidable (InHandler s io) :=
  decidable_of_iff (traps s io = false ∧ io.excepCmd.mret = false ∧ writesReturn io = false)
    ⟨fun ⟨ht, hm, hw⟩ => ⟨ht, hm, hw⟩, fun ⟨ht, hm, hw⟩ => ⟨ht, hm, hw⟩⟩

variable {s t io pc}

theorem portWrite_of_other {addr : BitVec 12} (h : writesReturn io = false)
    (ha : addr = Mstatus ∨ addr = Mepc) (mask old chosen : Word) :
    portWrite io addr mask old chosen = chosen := by
  rw [portWrite, if_neg]
  intro hw
  simp only [Bool.and_eq_true, beq_iff_eq] at hw
  rcases ha with rfl | rfl <;> simp [writesReturn, hw] at h

def entered (s : Regs) : Word :=
  setBit (setBit (setBit (setBit s.mstatus 7 (s.mstatus.getLsbD 3)) 3 false)
    11 (s.privilege.asUInt.getLsbD 0)) 12 (s.privilege.asUInt.getLsbD 1)

def left (s : Regs) : Word :=
  setBit (setBit (setBit (setBit s.mstatus 3 (s.mstatus.getLsbD 7)) 7 true) 11 false) 12 false

theorem next_mstatus : (next s io).mstatus = portWrite io Mstatus mstatusMask s.mstatus
    (if traps s io then entered s else if io.excepCmd.mret then left s else s.mstatus) := by
  cases ht : raiseIntrExcep s io.interrupt io.excepCmd io.intrCmd.valid <;>
    cases hm : io.excepCmd.mret <;> cases hs : io.setMtval <;>
      simp [next, writeStep, trapStep, mretStep, setMtvalStep, traps, ht, hm, hs, entered, left]

theorem next_privilege : (next s io).privilege =
    if traps s io then .Machine
    else if io.excepCmd.mret then .ofUInt (s.mstatus.extractLsb 12 11) else s.privilege := by
  cases ht : raiseIntrExcep s io.interrupt io.excepCmd io.intrCmd.valid <;>
    cases hm : io.excepCmd.mret <;> cases hs : io.setMtval <;>
      simp [next, writeStep, trapStep, mretStep, setMtvalStep, traps, ht, hm, hs]

structure Handling (s : Regs) (pc : Word) (t : Regs) : Prop where
  mstatus : t.mstatus = entered s
  mepc : t.mepc = pc

theorem handling_next (ht : traps s io = true) (hw : writesReturn io = false) :
    Handling s (savedPc s io) (next s io) where
  mstatus := by rw [next_mstatus, portWrite_of_other hw (.inl rfl), if_pos ht]
  mepc := by
    rw [next_mepc, portWrite_of_other hw (.inr rfl)]
    exact if_pos ht

theorem Handling.next (h : Handling s pc t) (hio : InHandler t io) :
    Handling s pc (CSRRegFile.next t io) where
  mstatus := by
    rw [next_mstatus, portWrite_of_other hio.write (.inl rfl)]
    simp [hio.trap, hio.mret, h.mstatus]
  mepc := by
    rw [next_mepc, portWrite_of_other hio.write (.inr rfl),
      if_neg (by simpa [traps] using hio.trap)]
    exact h.mepc

theorem Handling.run (h : Handling s pc t) {is : List Inputs}
    (his : machine.Runs InHandler t is) : Handling s pc (machine.run t is) := by
  induction is generalizing t with
  | nil => exact h
  | cons i is ih => exact ih (h.next his.1) his.2

theorem getLsbD_entered (s : Regs) (i : Nat) : (entered s).getLsbD i =
    if i = 12 then s.privilege.asUInt.getLsbD 1 else if i = 11 then s.privilege.asUInt.getLsbD 0
    else if i = 3 then false else if i = 7 then s.mstatus.getLsbD 3
    else s.mstatus.getLsbD i := by
  rw [entered, getLsbD_setBit _ _ _ _ (by decide), getLsbD_setBit _ _ _ _ (by decide),
    getLsbD_setBit _ _ _ _ (by decide), getLsbD_setBit _ _ _ _ (by decide)]

theorem getLsbD_left (s : Regs) (i : Nat) : (left s).getLsbD i =
    if i = 12 then false else if i = 11 then false else if i = 7 then true
    else if i = 3 then s.mstatus.getLsbD 7 else s.mstatus.getLsbD i := by
  rw [left, getLsbD_setBit _ _ _ _ (by decide), getLsbD_setBit _ _ _ _ (by decide),
    getLsbD_setBit _ _ _ _ (by decide), getLsbD_setBit _ _ _ _ (by decide)]

theorem mpp_entered : (entered s).extractLsb 12 11 = s.privilege.asUInt := by
  apply BitVec.eq_of_getLsbD_eq
  intro i hi
  rw [BitVec.getLsbD_extractLsb, getLsbD_entered]
  have hcases : i = 0 ∨ i = 1 := by omega
  rcases hcases with rfl | rfl <;> simp

theorem Offers.of_waiting (hq : t.flushQ = some false) (hpc : t.mepc = pc) : Offers t io pc := by
  constructor <;> simp [redirectValid, redirectTarget, FlowQueue.deqValid, FlowQueue.deqBits, hq,
    hpc]

theorem Waiting.mepc (h : Waiting t io) : (next t io).mepc = t.mepc := by
  rw [next_mepc, portWrite_of_other h.write (.inr rfl), if_neg (by simpa [traps] using h.trap)]

theorem Offers.run (hq : t.flushQ = some false) (hpc : t.mepc = pc) {is : List Inputs}
    (his : machine.Runs Waiting t is) : Offers (machine.run t is) io pc := by
  induction is generalizing t with
  | nil => exact .of_waiting hq hpc
  | cons i is ih =>
    refine ih ?_ (his.1.mepc.trans hpc) his.2
    change FlowQueue.next t.flushQ _ _ i.redirectReady = some false
    rw [hq, his.1.stalled, FlowQueue.next_full_stalled]

theorem next_mstatus_of_mret (ht : traps t io = false) (hm : io.excepCmd.mret = true)
    (hw : writesReturn io = false) : (next t io).mstatus = left t := by
  rw [next_mstatus, portWrite_of_other hw (.inl rfl)]
  simp [ht, hm]

theorem Handling.restored (h : Handling s pc t) (ht : traps t io = false)
    (hm : io.excepCmd.mret = true) (hw : writesReturn io = false) : Restored s t io pc where
  privilege := by
    simp [next_privilege, ht, hm, h.mstatus, mpp_entered, PRIV.ofUInt_asUInt]
  mie := by
    rw [next_mstatus_of_mret ht hm hw, getLsbD_left, h.mstatus, getLsbD_entered]
    rfl
  mpie := by
    rw [next_mstatus_of_mret ht hm hw, getLsbD_left]
    rfl
  others i h3 h7 h11 h12 := by
    rw [next_mstatus_of_mret ht hm hw, getLsbD_left, h.mstatus, getLsbD_entered s i]
    simp only [h3, h7, h11, h12, if_false]
  redirect hq := by
    have ht' : raiseIntrExcep t io.interrupt io.excepCmd io.intrCmd.valid = false := ht
    constructor <;> simp [redirectValid, redirectTarget, FlowQueue.deqValid, FlowQueue.deqBits,
      hq, hm, ht', h.mepc]
  delayed hq is i his := by
    refine Offers.run ?_ (his.1.mepc.trans h.mepc) his.2
    change FlowQueue.next t.flushQ (traps t io || io.excepCmd.mret) (traps t io)
      io.redirectReady = some false
    simp [FlowQueue.next, hq, his.1.stalled, hm, ht]

theorem trap_return {is : List Inputs} {i : Inputs} (ht : traps s io = true)
    (hw : writesReturn io = false) (his : machine.Runs InHandler (next s io) is)
    (hti : traps (machine.run (next s io) is) i = false) (hm : i.excepCmd.mret = true)
    (hwi : writesReturn i = false) :
    Restored s (machine.run (next s io) is) i (savedPc s io) :=
  ((handling_next ht hw).run his).restored hti hm hwi

def Inputs.idle : Inputs where
  interrupt := ⟨false, false, false⟩
  writePort := ⟨false, 0, 0⟩
  excepCmd := ⟨0, false, 0⟩
  intrCmd := ⟨false, 0⟩
  redirectReady := true
  setMtval := false
  setMtval_val := 0

def user : Regs := { reset with privilege := .User, mstatus := 0x8, mie := 0x80, mtvec := 0x100 }

/-- The timer interrupts the instruction at 0x2000. -/
def Inputs.timer : Inputs :=
  { Inputs.idle with interrupt := ⟨false, true, false⟩, intrCmd := ⟨true, 0x2000⟩ }

def Inputs.mret : Inputs := { Inputs.idle with excepCmd := ⟨0, true, 0x100⟩ }

theorem trap_return_timer :
    Restored user (machine.run (next user .timer) [.idle, .idle]) .mret 0x2000 :=
  trap_return (by decide +kernel) (by decide +kernel) (by decide +kernel) (by decide +kernel)
    (by decide +kernel) (by decide +kernel)

/-- mepc is written in the cycle of the trap, or the redirect of the trap still waits when the
mret comes. -/
theorem return_misled :
    (¬∀ s io is i, traps s io = true → machine.Runs InHandler (next s io) is →
      traps (machine.run (next s io) is) i = false → i.excepCmd.mret = true →
      Restored s (machine.run (next s io) is) i (savedPc s io)) ∧
    ¬∀ s io is i, traps s io = true → writesReturn io = false →
      machine.Runs InHandler (next s io) is → traps (machine.run (next s io) is) i = false →
      i.excepCmd.mret = true → writesReturn i = false →
      Offers (machine.run (next s io) is) i (savedPc s io) := by
  constructor
  · intro h
    have htarget := ((h user { Inputs.timer with writePort := ⟨true, Mepc, 0⟩ } [] .mret
      (by decide +kernel) (by decide +kernel) (by decide +kernel) rfl).redirect
        (by decide +kernel)).target
    revert htarget
    decide +kernel
  · intro h
    have htarget := (h user { Inputs.timer with redirectReady := false } [] .mret
      (by decide +kernel) (by decide +kernel) (by decide +kernel) (by decide +kernel) rfl
      (by decide +kernel)).target
    revert htarget
    decide +kernel

end CSRRegFile

end FpgaNpc
