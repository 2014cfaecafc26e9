import FpgaNpc.Core.Pipeline

open FpgaNpc.Hardware

namespace FpgaNpc

namespace CSRRegFile

open CsrConsts

variable (s : Regs) (io : Inputs)

theorem next_mcause : (next s io).mcause = portWrite io Mcause (.allOnes 32) s.mcause
    (if raiseIntrExcep s io.interrupt io.excepCmd io.intrCmd.valid then causeNO s io
      else s.mcause) := by
  simp only [next, writeStep, trapStep, mretStep, setMtvalStep]
  split <;> split <;> split <;> rfl

theorem next_mepc : (next s io).mepc = portWrite io Mepc (.allOnes 32) s.mepc
    (if raiseIntrExcep s io.interrupt io.excepCmd io.intrCmd.valid then
      if raiseIntr s io.interrupt then io.intrCmd.bits else io.excepCmd.pc
      else s.mepc) := by
  simp only [next, writeStep, trapStep, mretStep, setMtvalStep]
  split <;> split <;> split <;> rfl

theorem next_mtval : (next s io).mtval = portWrite io Mtval (.allOnes 32) s.mtval
    (if raiseIntrExcep s io.interrupt io.excepCmd io.intrCmd.valid && tvalClear s io then 0
      else if io.setMtval then io.setMtval_val else s.mtval) := by
  simp only [next, writeStep, trapStep, mretStep, setMtvalStep]
  cases raiseIntrExcep s io.interrupt io.excepCmd io.intrCmd.valid <;> cases tvalClear s io <;>
    cases io.setMtval <;> cases io.excepCmd.mret <;> rfl

theorem next_mtvec : (next s io).mtvec =
    portWrite io Mtvec (.allOnes 32) s.mtvec s.mtvec := by
  simp only [next, writeStep, trapStep, mretStep, setMtvalStep]
  split <;> split <;> split <;> rfl

theorem portWrite_allOnes (addr : BitVec 12) (old chosen : Word) :
    portWrite io addr (.allOnes 32) old chosen =
      if io.writePort.wen = true ∧ io.writePort.waddr = addr then io.writePort.wdata
      else chosen := by
  rw [portWrite, MaskData, BitVec.and_allOnes, BitVec.not_allOnes, BitVec.and_zero,
    BitVec.or_zero]
  simp

variable {s io}

theorem causeNO_of_intr (h : raiseIntr s io.interrupt = true) :
    causeNO s io = 0x80000000#32 ||| .ofNat 32 (intrNo s io.interrupt) := by
  simp [causeNO, h]

theorem causeNO_of_no_intr (h : raiseIntr s io.interrupt = false) :
    causeNO s io = .ofNat 32 (excepNo io.excepCmd) := by
  simp [causeNO, h]

theorem firstOf_lt {n : Nat} (v : BitVec n) {is : List Nat} (h : ∀ i ∈ is, i < 16) :
    firstOf v is < 16 := by
  induction is with
  | nil => simp [firstOf]
  | cons i is ih =>
    rw [firstOf]
    split
    · exact h i (by simp)
    · exact ih fun j hj => h j (by simp [hj])

theorem causeNO_ne_excepNo (io : Inputs) (h : raiseIntr s io.interrupt = true) :
    causeNO s io ≠ .ofNat 32 (excepNo io.excepCmd) := by
  intro heq
  have hlt : excepNo io.excepCmd < 16 := firstOf_lt _ (by decide)
  have hlow : (BitVec.ofNat 32 (excepNo io.excepCmd)).getLsbD 31 = false := by
    rw [BitVec.getLsbD_ofNat, Nat.testBit_lt_two_pow (by omega), Bool.and_false]
  rw [← heq, causeNO_of_intr h, BitVec.getLsbD_or] at hlow
  simp at hlow

end CSRRegFile

namespace Core

open CSRRegFile CsrConsts

variable (B : Build) (s : Regs) (io : Inputs)

def writesCsr (addr : BitVec 12) : Prop :=
  (csrInputs B s io).writePort.wen = true ∧ (csrInputs B s io).writePort.waddr = addr

instance (addr : BitVec 12) : Decidable (writesCsr B s io addr) :=
  inferInstanceAs (Decidable (_ ∧ _))

/-- A trap is recorded as what it is: an accepted interrupt with the pc of the instruction in
EXE, and with no exception beside it that would be lost; else the exception in WB. -/
structure TrapRecorded : Prop where
  interrupt : raiseIntr s.csrRegs io.interrupt = true → interCMDValid s = true →
    (next B s io).csrRegs.mcause = 0x80000000#32 ||| .ofNat 32 (intrNo s.csrRegs io.interrupt) ∧
      (next B s io).csrRegs.mepc = s.exeStage.fromID.pc ∧ raiseExcep (csrCmd s) = false
  exception : raiseExcep (csrCmd s) = true →
    ¬(raiseIntr s.csrRegs io.interrupt = true ∧ interCMDValid s = true) →
    (next B s io).csrRegs.mcause = .ofNat 32 (excepNo (csrCmd s)) ∧
      (next B s io).csrRegs.mepc = s.fromMEM.pc

/-- An exception comes to WB in a cycle in which no enabled interrupt is pending and EXE does
not write another value to the registers of the trap. -/
structure ExceptionAlone : Prop where
  interrupt : raiseExcep (csrCmd s) = true → raiseIntr s.csrRegs io.interrupt = false
  mcause : raiseExcep (csrCmd s) = true → writesCsr B s io Mcause →
    (csrInputs B s io).writePort.wdata = .ofNat 32 (excepNo (csrCmd s))
  mepc : raiseExcep (csrCmd s) = true → writesCsr B s io Mepc →
    (csrInputs B s io).writePort.wdata = s.fromMEM.pc

variable {B s io}

theorem raiseIntrExcep_of_intr (hi : raiseIntr s.csrRegs io.interrupt = true)
    (hv : interCMDValid s = true) :
    raiseIntrExcep s.csrRegs io.interrupt (csrCmd s) (interCMDValid s) = true := by
  simp [raiseIntrExcep, hi, hv]

theorem raiseIntrExcep_of_excep (io : Inputs) (h : raiseExcep (csrCmd s) = true) :
    raiseIntrExcep s.csrRegs io.interrupt (csrCmd s) (interCMDValid s) = true := by
  simp [raiseIntrExcep, h]

theorem writePort_of_intr (hi : raiseIntr s.csrRegs io.interrupt = true)
    (hv : interCMDValid s = true) (addr : BitVec 12) : ¬writesCsr B s io addr := by
  have hint : interrupt s io = true := by
    simp [interrupt, intrCmdReady, CSRRegFile.redirectValid, FlowQueue.deqValid, raiseIntrExcep,
      hi, hv]
  have hnop : EXE.nop s.exeStage (exeInputs B s io) = true := by
    simp [EXE.nop, exeInputs, hint]
  simp [writesCsr, csrInputs, EXE.csrWen, hnop]

theorem csrInputs_causeNO : causeNO s.csrRegs (csrInputs B s io) =
    if raiseIntr s.csrRegs io.interrupt then
      0x80000000#32 ||| .ofNat 32 (intrNo s.csrRegs io.interrupt)
    else .ofNat 32 (excepNo (csrCmd s)) := by
  split
  case isTrue hi => exact causeNO_of_intr hi
  case isFalse hi => exact causeNO_of_no_intr (Bool.not_eq_true _ ▸ hi)

theorem next_csrRegs_mcause : (next B s io).csrRegs.mcause =
    if writesCsr B s io Mcause then (csrInputs B s io).writePort.wdata
    else if raiseIntrExcep s.csrRegs io.interrupt (csrCmd s) (interCMDValid s) then
      causeNO s.csrRegs (csrInputs B s io)
    else s.csrRegs.mcause := by
  refine (next_mcause _ _).trans ?_
  rw [portWrite_allOnes]
  rfl

theorem next_csrRegs_mepc : (next B s io).csrRegs.mepc =
    if writesCsr B s io Mepc then (csrInputs B s io).writePort.wdata
    else if raiseIntrExcep s.csrRegs io.interrupt (csrCmd s) (interCMDValid s) then
      if raiseIntr s.csrRegs io.interrupt then s.exeStage.fromID.pc else s.fromMEM.pc
    else s.csrRegs.mepc := by
  refine (next_mepc _ _).trans ?_
  rw [portWrite_allOnes]
  rfl

theorem ExceptionAlone.trapRecorded (h : ExceptionAlone B s io) : TrapRecorded B s io where
  interrupt hi hv := by
    have hw := fun addr => writePort_of_intr (B := B) hi hv addr
    have hraise := raiseIntrExcep_of_intr hi hv
    refine ⟨?_, ?_, ?_⟩
    · simp [next_csrRegs_mcause, hw, hraise, csrInputs_causeNO, hi]
    · simp [next_csrRegs_mepc, hw, hraise, hi]
    · by_contra he
      simp [h.interrupt (Bool.not_eq_false _ ▸ he)] at hi
  exception he _ := by
    have hi := h.interrupt he
    have hraise := raiseIntrExcep_of_excep io he
    constructor
    · rw [next_csrRegs_mcause, hraise, csrInputs_causeNO, hi]
      split
      case isTrue hw => exact h.mcause he hw
      case isFalse => rfl
    · rw [next_csrRegs_mepc, hraise, hi]
      split
      case isTrue hw => exact h.mepc he hw
      case isFalse => rfl

/-- As long as an instruction that writes a CSR is open to interrupts, the exceptions that meet
an interrupt or such a write are the only ones that are not recorded. -/
theorem TrapRecorded.exceptionAlone (h : TrapRecorded B s io)
    (hopen : (csrInputs B s io).writePort.wen = true → interCMDValid s = true) :
    ExceptionAlone B s io := by
  have hintr : raiseExcep (csrCmd s) = true → raiseIntr s.csrRegs io.interrupt = false := by
    intro he
    by_contra hi
    rw [Bool.not_eq_false] at hi
    cases hv : interCMDValid s
    case true => simp [(h.interrupt hi hv).2.2] at he
    case false =>
      have hw : ¬writesCsr B s io Mcause := fun hw => by simp [hopen hw.1] at hv
      have hcause := (h.exception he (by simp [hv])).1
      rw [next_csrRegs_mcause, if_neg hw, raiseIntrExcep_of_excep _ he, if_pos rfl] at hcause
      exact causeNO_ne_excepNo (csrInputs B s io) hi hcause
  refine ⟨hintr, fun he hw => ?_, fun he hw => ?_⟩
  · have hcause := (h.exception he (by simp [hintr he])).1
    rwa [next_csrRegs_mcause, if_pos hw] at hcause
  · have hepc := (h.exception he (by simp [hintr he])).2
    rwa [next_csrRegs_mepc, if_pos hw] at hepc

theorem traps_recorded (B : Build) (s : Regs) (io : Inputs) :
    (ExceptionAlone B s io → TrapRecorded B s io) ∧
      (((csrInputs B s io).writePort.wen = true → interCMDValid s = true) →
        TrapRecorded B s io → ExceptionAlone B s io) :=
  ⟨ExceptionAlone.trapRecorded, fun hopen h => h.exceptionAlone hopen⟩

/-- ecall, with the interrupts enabled, until it is in WB. -/
def enableEcall : List Inputs :=
  enableInterrupts ++ [.fetch 0x00000073, .fetch 0x13, .fetch 0x13, .fetch 0x13]

/-- The timer interrupt comes while EXE holds a bubble and the exception is in WB. -/
theorem ecall_recorded_as_interrupt :
    ¬∀ s, (machine .zeros).Reaches (fun _ _ => True) s → ∀ io, TrapRecorded .zeros s io := by
  intro h
  have hr := (machine .zeros).reaches_run (fun _ _ => True) (.reset .zeros 0x888) enableEcall
    (isReset_reset _ _) (by decide +kernel)
  have hcause := ((h _ hr { Inputs.idle with interrupt := ⟨false, true, false⟩ }).exception
    (by decide +kernel) (by decide +kernel)).1
  revert hcause
  decide +kernel

end Core

end FpgaNpc
