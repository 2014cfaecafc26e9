import FpgaNpc.Core.DataPort
import FpgaNpc.Core.Resolution

open FpgaNpc.Hardware FpgaNpc.InterStage FpgaNpc.ControlSignals

namespace FpgaNpc

namespace EXE

/-- The instructions differ only where EXE and MEM do not look. -/
structure Alike (b₁ b₂ : IdExeBus) : Prop where
  rest : b₁ = { b₂ with decodeBundle := b₁.decodeBundle, imm := b₁.imm }
  bundle : b₁.decodeBundle.Agree b₂.decodeBundle
  imm : b₁.decodeBundle.Operates → b₁.imm = b₂.imm

theorem Alike.refl (b : IdExeBus) : Alike b b := ⟨rfl, .refl _, fun _ => rfl⟩

namespace Alike

variable {b₁ b₂ : IdExeBus} (h : Alike b₁ b₂)

include h

theorem isMUL_eq : isMUL b₁ = isMUL b₂ := by rw [isMUL, isMUL, h.bundle.fuType]

theorem isDIV_eq : isDIV b₁ = isDIV b₂ := by rw [isDIV, isDIV, h.bundle.fuType]

theorem isBRU_eq : isBRU b₁ = isBRU b₂ := by rw [isBRU, isBRU, h.bundle.fuType]

theorem isCSR_eq : isCSR b₁ = isCSR b₂ := by rw [isCSR, isCSR, h.bundle.fuType]

theorem opA_eq (ho : b₁.decodeBundle.Operates) : opA b₁ = opA b₂ := by
  rw [opA, opA, (h.bundle.operands ho).1, congrArg IdExeBus.rs1Data h.rest,
    congrArg IdExeBus.pc h.rest, congrArg IdExeBus.rs1 h.rest]

theorem opB_eq (ho : b₁.decodeBundle.Operates) : opB b₁ = opB b₂ := by
  rw [opB, opB, (h.bundle.operands ho).2, h.imm ho, congrArg IdExeBus.rs2Data h.rest,
    congrArg IdExeBus.csrData h.rest]

theorem aluRes_eq (hm : b₁.decodeBundle.Moves) : aluRes b₁ = aluRes b₂ := by
  rw [aluRes, aluRes, h.bundle.aluOp (.inl hm), h.opA_eq (.inl hm), h.opB_eq (.inl hm)]

theorem csrRes_eq (hc : b₁.decodeBundle.csrWrite = true) : csrRes b₁ = csrRes b₂ := by
  rw [csrRes, csrRes, h.bundle.csrOp hc, h.opA_eq (.inr (.inl hc)), h.opB_eq (.inr (.inl hc))]

theorem aluSum_eq (hb : isBRU b₁ = true) : aluSum b₁ = aluSum b₂ := by
  have hf : b₁.decodeBundle.fuType = FuType.BRU := beq_iff_eq.1 hb
  have ho : b₁.decodeBundle.Operates := .inr (.inr (by simp [hf]))
  rw [aluSum, aluSum, h.bundle.aluOp (.inr hf), h.opA_eq ho, h.opB_eq ho]

theorem jump_eq : jump b₁ = jump b₂ := by
  rw [jump, jump, ← h.isBRU_eq]
  cases hb : isBRU b₁
  case false => rfl
  case true =>
    rw [h.bundle.bruOp (beq_iff_eq.1 hb), congrArg IdExeBus.rs1Data h.rest,
      congrArg IdExeBus.rs2Data h.rest]

theorem jumpTarget_eq : jumpTarget b₁ = jumpTarget b₂ := by
  rw [jumpTarget, jumpTarget, ← h.jump_eq, congrArg IdExeBus.pc h.rest]
  cases hj : jump b₁
  case false => rfl
  case true => rw [h.aluSum_eq (Bool.and_eq_true _ _ ▸ hj).1]

theorem redirect_eq : redirect b₁ = redirect b₂ := by
  rw [redirect, redirect, h.jump_eq, ← h.isBRU_eq, congrArg IdExeBus.branchPred h.rest,
    congrArg IdExeBus.predTarget h.rest]
  cases hb : isBRU b₁
  case false => rfl
  case true => rw [h.aluSum_eq hb]

theorem mul_eq (hm : isMUL b₁ = true) : mulAbsOpA b₁ = mulAbsOpA b₂ ∧
    mulAbsOpB b₁ = mulAbsOpB b₂ ∧ ∀ r, mulRes b₁ r = mulRes b₂ r := by
  have hf : b₁.decodeBundle.fuType = FuType.MUL := beq_iff_eq.1 hm
  have ho : b₁.decodeBundle.Operates := .inr (.inr (by simp [hf]))
  refine ⟨?_, ?_, fun r => ?_⟩
  · rw [mulAbsOpA, mulAbsOpA, mulSignedOpA, mulSignedOpA, h.bundle.mulOp hf, h.opA_eq ho]
  · rw [mulAbsOpB, mulAbsOpB, mulSignedOpB, mulSignedOpB, h.bundle.mulOp hf, h.opB_eq ho]
  · rw [mulRes, mulRes, isMultResultNeg, isMultResultNeg, mulSigned, mulSigned, mulSignedOpA,
      mulSignedOpA, mulSignedOpB, mulSignedOpB, h.bundle.mulOp hf, h.opA_eq ho, h.opB_eq ho]

theorem div_eq (hd : isDIV b₁ = true) : divAbsOpA b₁ = divAbsOpA b₂ ∧
    divAbsOpB b₁ = divAbsOpB b₂ ∧ divByZero b₁ = divByZero b₂ ∧
      divOverflow b₁ = divOverflow b₂ ∧ ∀ r, divRes b₁ r = divRes b₂ r := by
  have hf : b₁.decodeBundle.fuType = FuType.DIV := beq_iff_eq.1 hd
  have ho : b₁.decodeBundle.Operates := .inr (.inr (by simp [hf]))
  have hz : divByZero b₁ = divByZero b₂ := by rw [divByZero, divByZero, h.opB_eq ho]
  have hs : divSigned b₁ = divSigned b₂ := by rw [divSigned, divSigned, h.bundle.divOp hf]
  have hov : divOverflow b₁ = divOverflow b₂ := by
    rw [divOverflow, divOverflow, hs, h.opA_eq ho, h.opB_eq ho]
  refine ⟨?_, ?_, hz, hov, fun r => ?_⟩
  · rw [divAbsOpA, divAbsOpA, hs, h.opA_eq ho]
  · rw [divAbsOpB, divAbsOpB, hs, h.opB_eq ho]
  · rw [divRes, divRes, divResFinal, divResFinal, remainderFinal, remainderFinal, h.bundle.divOp hf,
      hz, hov, hs, h.opA_eq ho, h.opB_eq ho]

theorem divReqNoNeed_eq : divReqNoNeed b₁ = divReqNoNeed b₂ := by
  rw [divReqNoNeed, divReqNoNeed, ← h.isDIV_eq]
  cases hd : isDIV b₁
  case false => rw [Bool.and_false, Bool.and_false]
  case true => rw [(h.div_eq hd).2.2.1, (h.div_eq hd).2.2.2.1]

end Alike

section Stage

variable {e : Regs} {b : IdExeBus} (h : Alike e.fromID b) (io : Inputs)

include h

theorem Alike.interCMDValid_eq (f : Bool) :
    interCMDValid { e with fromID := b } f = interCMDValid e f := by
  rw [interCMDValid, interCMDValid, congrArg IdExeBus.nop h.rest]

theorem Alike.nop_eq : nop { e with fromID := b } io = nop e io := by
  rw [nop, nop, congrArg IdExeBus.nop h.rest]

theorem Alike.jumpBusValid_eq : jumpBusValid { e with fromID := b } io = jumpBusValid e io := by
  rw [jumpBusValid, jumpBusValid, h.nop_eq, ← h.redirect_eq, ← h.bundle.fencei, ← h.isCSR_eq]

theorem Alike.jumpBus_eq : jumpBus { e with fromID := b } io = jumpBus e io := by
  rw [jumpBus, jumpBus, h.jumpBusValid_eq, ← h.jumpTarget_eq]

theorem Alike.multiplierReqValid_eq :
    multiplierReqValid { e with fromID := b } io = multiplierReqValid e io := by
  rw [multiplierReqValid, multiplierReqValid, h.nop_eq, ← h.isMUL_eq]

theorem Alike.multiplierRespReady_eq :
    multiplierRespReady { e with fromID := b } io = multiplierRespReady e io := by
  rw [multiplierRespReady, multiplierRespReady, ← h.isMUL_eq]

theorem Alike.dividerReqValid_eq :
    dividerReqValid { e with fromID := b } = dividerReqValid e := by
  rw [dividerReqValid, dividerReqValid, ← h.isDIV_eq, congrArg IdExeBus.nop h.rest]
  cases hd : isDIV e.fromID
  case false => simp
  case true => rw [(h.div_eq hd).2.2.1, (h.div_eq hd).2.2.2.1]

theorem Alike.dividerRespReady_eq :
    dividerRespReady { e with fromID := b } io = dividerRespReady e io := by
  rw [dividerRespReady, dividerRespReady, ← h.isDIV_eq]
  cases hd : isDIV e.fromID
  case false => simp
  case true => rw [(h.div_eq hd).2.2.1, (h.div_eq hd).2.2.2.1]

theorem Alike.jumpValid_eq : jumpValid { e with fromID := b } io = jumpValid e io := by
  rw [jumpValid, jumpValid, jumpBusFire, jumpBusFire, h.jumpBusValid_eq]

theorem Alike.mulOrDivValid_eq : mulOrDivValid { e with fromID := b } io = mulOrDivValid e io := by
  rw [mulOrDivValid, mulOrDivValid, mulOrDivEnable, mulOrDivEnable, multiplierRespFire,
    multiplierRespFire, dividerRespFire, dividerRespFire, h.nop_eq, ← h.isMUL_eq, ← h.isDIV_eq,
    h.multiplierRespReady_eq, h.dividerRespReady_eq, ← h.divReqNoNeed_eq]

theorem Alike.toMEMValid_eq : toMEMValid { e with fromID := b } io = toMEMValid e io := by
  rw [toMEMValid, toMEMValid, h.jumpValid_eq, h.mulOrDivValid_eq]

theorem Alike.fromIDReady_eq : fromIDReady { e with fromID := b } io = fromIDReady e io := by
  rw [fromIDReady, fromIDReady, h.jumpValid_eq, h.mulOrDivValid_eq]

theorem Alike.toMEMFire_eq : toMEMFire { e with fromID := b } io = toMEMFire e io := by
  rw [toMEMFire, toMEMFire, h.toMEMValid_eq]

theorem Alike.csrWen_eq : csrWen { e with fromID := b } io = csrWen e io := by
  rw [csrWen, csrWen, h.toMEMFire_eq, h.nop_eq, ← h.bundle.csrWrite]

theorem Alike.flush_eq : flush { e with fromID := b } io = flush e io := by
  rw [flush, flush, h.jumpBusValid_eq, h.nop_eq, ← h.isCSR_eq,
    congrArg IdExeBus.excepVec h.rest]

theorem Alike.bypass_eq : bypass { e with fromID := b } io = bypass e io := by
  rw [bypass, bypass, h.nop_eq, ← h.bundle.fuType, ← h.bundle.regWrite,
    congrArg IdExeBus.rd h.rest]

theorem Alike.regWdata_eq (hw : e.fromID.decodeBundle.regWrite = true ∨
    e.fromID.decodeBundle.memRead ≠ 0#4 ∨ e.fromID.decodeBundle.memWrite ≠ 0#4) :
    regWdata { e with fromID := b } = regWdata e := by
  have hmoves (f : BitVec 4) (hmem : f ∈ [FuType.ALU, FuType.LSU, FuType.AMO])
      (hf : (e.fromID.decodeBundle.fuType == f) = true) : aluRes b = aluRes e.fromID :=
    (h.aluRes_eq ⟨hw, beq_iff_eq.1 hf ▸ hmem⟩).symm
  simp only [regWdata]
  rw [← h.bundle.fuType, congrArg IdExeBus.csrData h.rest, congrArg IdExeBus.pc h.rest]
  refine Mux1H_cons_congr (hmoves _ (by decide)) (Mux1H_cons_congr (fun _ => rfl)
    (Mux1H_cons_congr (fun _ => rfl) (Mux1H_cons_congr (hmoves _ (by decide))
      (Mux1H_cons_congr (fun hm => ?_) (Mux1H_cons_congr (fun hd => ?_)
        (Mux1H_cons_congr (hmoves _ (by decide)) rfl))))))
  · exact ((h.mul_eq hm).2.2 _).symm
  · exact ((h.div_eq hd).2.2.2.2 _).symm

end Stage

end EXE

theorem MultiCycle.next_congr {ρ : Type*} (latency : Nat) (s : Regs ρ) {reqValid : Bool}
    {r₁ r₂ : ρ} (respReady : Bool) (h : reqValid = true → r₁ = r₂) :
    next latency s reqValid r₁ respReady = next latency s reqValid r₂ respReady := by
  cases reqValid
  case false => rfl
  case true => rw [h rfl]

theorem EXE.Alike.multiplier_eq {e : EXE.Regs} {b : IdExeBus} (h : Alike e.fromID b) (io : Inputs)
    (latency : Nat) (respReady : Bool) :
    Multiplier.next latency e.multiplier (multiplierReqValid e io) (mulAbsOpA b) (mulAbsOpB b)
        respReady =
      Multiplier.next latency e.multiplier (multiplierReqValid e io) (mulAbsOpA e.fromID)
        (mulAbsOpB e.fromID) respReady := by
  refine MultiCycle.next_congr latency e.multiplier respReady fun hv => ?_
  simp only [multiplierReqValid, Bool.and_eq_true] at hv
  rw [(h.mul_eq hv.1.1).1, (h.mul_eq hv.1.1).2.1]

theorem EXE.Alike.divider_eq {e : EXE.Regs} {b : IdExeBus} (h : Alike e.fromID b)
    (latency : Nat) (respReady : Bool) :
    Divider.next latency e.divider (dividerReqValid e) (divAbsOpA b) (divAbsOpB b) respReady =
      Divider.next latency e.divider (dividerReqValid e) (divAbsOpA e.fromID)
        (divAbsOpB e.fromID) respReady := by
  refine MultiCycle.next_congr latency e.divider respReady fun hv => ?_
  simp only [dividerReqValid, Bool.and_eq_true] at hv
  rw [(h.div_eq hv.2.1.1).1, (h.div_eq hv.2.1.1).2.1]

theorem EXE.Alike.next_eq {e : EXE.Regs} {b : IdExeBus} (h : Alike e.fromID b) (io : Inputs)
    (mulLatency divLatency : Nat) (b₁ b₂ : IdExeBus) :
    EXE.next { e with fromID := b } io mulLatency divLatency b₂ =
      { EXE.next e io mulLatency divLatency b₁ with
        fromID := RegEnable b₂ (fromIDFire e io) b } := by
  simp only [EXE.next, fromIDFire, multiplierReqFire, dividerReqFire, jumpBusFire,
    btbUpdateInfoFire, btbUpdateInfoValid]
  simp only [h.fromIDReady_eq, h.toMEMFire_eq, h.multiplierReqValid_eq, h.dividerReqValid_eq,
    h.multiplierRespReady_eq, h.dividerRespReady_eq, h.jumpBusValid_eq, h.nop_eq, ← h.isBRU_eq,
    h.multiplier_eq, h.divider_eq]
  rfl

namespace MEM

/-- What comes from EXE differs only where MEM and WB do not look. -/
structure BusAlike (m₁ m₂ : ExeMemBus) : Prop where
  rest : m₁ = { m₂ with controlSignals := m₁.controlSignals }
  memRawMask : m₁.controlSignals.memRawMask = m₂.controlSignals.memRawMask
  memWriteData : m₁.controlSignals.memWriteData = m₂.controlSignals.memWriteData
  regWrite : m₁.controlSignals.regWrite = m₂.controlSignals.regWrite
  memWrite : m₁.controlSignals.memWrite = m₂.controlSignals.memWrite
  memRead : m₁.controlSignals.memRead = m₂.controlSignals.memRead
  fuTypeAMO : m₁.controlSignals.fuTypeAMO = m₂.controlSignals.fuTypeAMO
  signExt : m₁.controlSignals.memRead = true →
    m₁.controlSignals.signExt = m₂.controlSignals.signExt
  regWriteData : m₁.controlSignals.regWrite = true ∨ m₁.controlSignals.memRawMask ≠ 0#4 ∨
      m₁.controlSignals.memRead = true ∨ m₁.controlSignals.memWrite = true →
    m₁.controlSignals.regWriteData = m₂.controlSignals.regWriteData
  amoOp : m₁.controlSignals.fuTypeAMO = true ∨
      (m₁.controlSignals.memRead = true ∧ m₁.controlSignals.memWrite = true) →
    m₁.controlSignals.amoOp = m₂.controlSignals.amoOp

/-- Of an access under way the address is seen, and of an AMO the operation. -/
structure Alike (s : Regs) (m : ExeMemBus) : Prop extends BusAlike s.fromEXE m where
  addr : s.state ≠ .IDLE →
    s.fromEXE.controlSignals.regWriteData = m.controlSignals.regWriteData
  amo : s.state ≠ .IDLE → s.state ≠ .WAIT_RESP →
    s.fromEXE.controlSignals.amoOp = m.controlSignals.amoOp

theorem BusAlike.refl (m : ExeMemBus) : BusAlike m m := by
  constructor <;> simp

theorem Alike.refl (s : Regs) : Alike s s.fromEXE := ⟨.refl _, fun _ => rfl, fun _ _ => rfl⟩

def Regs.withBus (s : Regs) (m : ExeMemBus) : Regs := { s with fromEXE := m }

section Stage

variable {s : Regs} {m : ExeMemBus} (h : Alike s m) (io : Inputs) (fromEXEValid : Bool)

@[simp] theorem withBus_fromEXE : (s.withBus m).fromEXE = m := rfl

@[simp] theorem withBus_state : (s.withBus m).state = s.state := rfl

@[simp] theorem withBus_reservation : (s.withBus m).reservation = s.reservation := rfl

@[simp] theorem withBus_amoAluResReg : (s.withBus m).amoAluResReg = s.amoAluResReg := rfl

@[simp] theorem withBus_amoRegWriteDataReg :
    (s.withBus m).amoRegWriteDataReg = s.amoRegWriteDataReg := rfl

@[simp] theorem withBus_hasFired : (s.withBus m).hasFired = s.hasFired := rfl

namespace Alike

include h

theorem ren_eq : ren (s.withBus m) = ren s := by
  rw [ren, ren, controlSignals, controlSignals, withBus_fromEXE, ← h.memRead,
    congrArg ExeMemBus.nop h.rest]

theorem wen_eq : wen (s.withBus m) = wen s := by
  rw [wen, wen, controlSignals, controlSignals, withBus_fromEXE, ← h.memWrite,
    congrArg ExeMemBus.nop h.rest]

theorem byteWise_eq : byteWise (s.withBus m) = byteWise s := h.memRawMask.symm

theorem vaddr_eq (hu : byteWise s ≠ 0#4 ∨ ren s = true ∨ wen s = true) :
    vaddr (s.withBus m) = vaddr s := by
  refine (h.regWriteData (.inr ?_)).symm
  simp only [ren, wen, controlSignals, Bool.and_eq_true] at hu
  exact hu.imp_right (Or.imp And.left And.left)

theorem align_eq : align (s.withBus m) = align s := by
  by_cases hz : byteWise s = 0#4
  case pos => rw [align_of_no_mask hz, align_of_no_mask (h.byteWise_eq.trans hz)]
  case neg => rw [align, align, h.byteWise_eq, h.vaddr_eq (.inl hz)]

theorem access_eq : access (s.withBus m) = access s := by
  rw [access, access, h.ren_eq, h.wen_eq, h.align_eq]

theorem flush2EXE_eq : flush2EXE (s.withBus m) = flush2EXE s := by
  rw [flush2EXE, flush2EXE, h.ren_eq, h.wen_eq, h.align_eq]

theorem vaddr_of_access (ha : access s = true) : vaddr (s.withBus m) = vaddr s := by
  rw [access, Bool.and_eq_true, Bool.or_eq_true] at ha
  exact h.vaddr_eq (.inr ha.1)

theorem isSC_eq : isSC (s.withBus m) = isSC s := by
  rw [isSC, isSC, controlSignals, controlSignals, withBus_fromEXE, ← h.fuTypeAMO]
  cases hf : s.fromEXE.controlSignals.fuTypeAMO
  case false => rfl
  case true => rw [h.amoOp (.inl hf)]

theorem isLR_eq : isLR (s.withBus m) = isLR s := by
  rw [isLR, isLR, controlSignals, controlSignals, withBus_fromEXE, ← h.fuTypeAMO]
  cases hf : s.fromEXE.controlSignals.fuTypeAMO
  case false => rfl
  case true => rw [h.amoOp (.inl hf)]

theorem memWdata_eq : memWdata (s.withBus m) = memWdata s := by
  simp only [memWdata]
  rw [h.byteWise_eq, controlSignals, controlSignals, withBus_fromEXE, ← h.memWriteData]

theorem req_eq : req (s.withBus m) = req s := by
  cases hs : s.state
  case IDLE =>
    simp only [req, withBus_state, hs, h.access_eq]
    cases ha : access s
    case false => rfl
    case true =>
      have hmask : (controlSignals (s.withBus m)).memRawMask = (controlSignals s).memRawMask :=
        h.memRawMask.symm
      simp only [if_true, h.isSC_eq, h.vaddr_of_access ha, h.ren_eq, h.wen_eq, h.memWdata_eq,
        reqSize, h.byteWise_eq, hmask, withBus_reservation]
  case AMO_LAUNCH_WRITE_REQ =>
    have haddr : vaddr (s.withBus m) = vaddr s := (h.addr (by simp [hs])).symm
    simp only [req, withBus_state, hs, haddr, withBus_amoAluResReg]
  all_goals simp only [req, withBus_state, hs]

theorem reqFire_eq : reqFire (s.withBus m) io = reqFire s io := by
  rw [reqFire, reqFire, h.req_eq]

theorem toWBValid_eq : toWBValid (s.withBus m) io = toWBValid s io := by
  cases hs : s.state
  case IDLE =>
    simp only [toWBValid, withBus_state, hs, h.access_eq]
    cases ha : access s
    case false => rfl
    case true => simp only [if_true, h.isSC_eq, h.vaddr_of_access ha, withBus_reservation]
  all_goals simp only [toWBValid, withBus_state, hs]

theorem fromEXEFire_eq :
    fromEXEFire (s.withBus m) io fromEXEValid = fromEXEFire s io fromEXEValid := by
  rw [fromEXEFire, fromEXEFire, fromEXEReady, fromEXEReady, h.toWBValid_eq]

theorem amoRegWriteData_eq : amoRegWriteData (s.withBus m) io = amoRegWriteData s io := by
  cases hs : s.state
  case IDLE =>
    simp only [amoRegWriteData, withBus_state, hs, h.access_eq, h.isSC_eq]
    cases ha : access s
    case false => rfl
    case true => simp only [h.vaddr_of_access ha, withBus_reservation, withBus_amoRegWriteDataReg]
  case WAIT_RESP =>
    simp only [amoRegWriteData, withBus_state, hs, h.isLR_eq, h.isSC_eq,
      withBus_amoRegWriteDataReg]
  all_goals simp only [amoRegWriteData, withBus_state, hs, withBus_amoRegWriteDataReg]

theorem regWrite_eq : MEM.regWrite (s.withBus m) = MEM.regWrite s := by
  rw [MEM.regWrite, MEM.regWrite, h.ren_eq, h.align_eq, controlSignals, controlSignals,
    withBus_fromEXE, ← h.regWrite]

theorem bypass_eq : bypass (s.withBus m) io = bypass s io := by
  rw [bypass, bypass, h.toWBValid_eq, h.regWrite_eq, withBus_fromEXE,
    congrArg ExeMemBus.rd h.rest]

theorem memRes_eq (hr : ren s = true) : memRes (s.withBus m) io = memRes s io := by
  have hread : s.fromEXE.controlSignals.memRead = true := by
    rw [ren, Bool.and_eq_true] at hr
    exact hr.1
  simp only [memRes]
  rw [h.byteWise_eq, rdataShift, rdataShift, offset, offset, h.vaddr_eq (.inr (.inl hr)),
    controlSignals, controlSignals, withBus_fromEXE, ← h.signExt hread]

theorem regWdata_eq (hw : MEM.regWrite s = true) :
    regWdata (s.withBus m) io = regWdata s io := by
  rw [MEM.regWrite] at hw
  rw [regWdata, regWdata, h.amoRegWriteData_eq, h.ren_eq, controlSignals, controlSignals,
    withBus_fromEXE, ← h.fuTypeAMO]
  cases hr : ren s
  case true =>
    rw [h.memRes_eq io hr]
    rfl
  case false =>
    rw [hr] at hw
    have hdata := h.regWriteData (.inl hw)
    simp only [PriorityMux, hdata, Bool.false_eq_true, if_false]

theorem excepVec_eq : MEM.excepVec (s.withBus m) = MEM.excepVec s := by
  rw [MEM.excepVec, MEM.excepVec, h.align_eq, h.ren_eq, h.wen_eq, withBus_fromEXE,
    congrArg ExeMemBus.excepVec h.rest]

theorem nop_eq : MEM.nop (s.withBus m) = MEM.nop s := by
  rw [MEM.nop, MEM.nop, withBus_fromEXE, withBus_hasFired, congrArg ExeMemBus.nop h.rest]

theorem toWB_eq : toWB (s.withBus m) io =
    { toWB s io with regWriteData := regWdata (s.withBus m) io } := by
  rw [toWB, toWB, h.regWrite_eq, h.nop_eq, h.excepVec_eq, withBus_fromEXE, h.rest]

theorem nextState_eq : nextState (s.withBus m) io fromEXEValid = nextState s io fromEXEValid := by
  cases hs : s.state
  case IDLE =>
    simp only [nextState, withBus_state, hs, h.access_eq, h.reqFire_eq, h.ren_eq, h.wen_eq]
  case AMO_LAUNCH_WRITE_REQ => simp only [nextState, withBus_state, hs, h.reqFire_eq]
  all_goals
    simp only [nextState, withBus_state, hs, rRespFire, wRespFire, rRespReady, wRespReady]

theorem amoAluRes_eq (hs : s.state = .AMO_CALC) : amoAluRes (s.withBus m) = amoAluRes s := by
  rw [amoAluRes, amoAluRes, controlSignals, controlSignals, withBus_fromEXE, ← h.memWriteData,
    ← h.amo (by simp [hs]) (by simp [hs])]
  rfl

theorem reservation_eq (m₁ m₂ : ExeMemBus) :
    (MEM.next (s.withBus m) io fromEXEValid m₂).reservation =
      (MEM.next s io fromEXEValid m₁).reservation := by
  cases hs : s.state
  case IDLE =>
    simp only [MEM.next, withBus_state, hs, toWBFire, h.access_eq, h.toWBValid_eq, h.reqFire_eq,
      h.isSC_eq, withBus_reservation]
    rfl
  case WAIT_RESP =>
    have haddr : vaddr (s.withBus m) = vaddr s := (h.addr (by simp [hs])).symm
    simp only [MEM.next, withBus_state, hs, h.isLR_eq, haddr, withBus_reservation]
  all_goals simp only [MEM.next, withBus_state, hs, withBus_reservation]

theorem amoRegWriteDataReg_eq (m₁ m₂ : ExeMemBus) :
    (MEM.next (s.withBus m) io fromEXEValid m₂).amoRegWriteDataReg =
      (MEM.next s io fromEXEValid m₁).amoRegWriteDataReg := by
  cases hs : s.state
  case IDLE =>
    simp only [MEM.next, withBus_state, hs, h.access_eq, h.isSC_eq]
    cases ha : access s
    case false => rfl
    case true => simp only [h.vaddr_of_access ha, withBus_reservation, withBus_amoRegWriteDataReg]
  case AMO_WAIT_READ_RESP =>
    simp only [MEM.next, withBus_state, hs, rRespFire, rRespReady, withBus_amoRegWriteDataReg]
  all_goals
    simp only [MEM.next, withBus_state, hs, h.isLR_eq, h.isSC_eq, withBus_amoRegWriteDataReg]

theorem next_eq (m₁ m₂ : ExeMemBus) : MEM.next (s.withBus m) io fromEXEValid m₂ =
    (MEM.next s io fromEXEValid m₁).withBus (RegEnable m₂ (fromEXEFire s io fromEXEValid) m) := by
  have hcalc : (if s.state = .AMO_CALC then amoAluRes (s.withBus m) else s.amoAluResReg) =
      if s.state = .AMO_CALC then amoAluRes s else s.amoAluResReg :=
    ite_congr rfl h.amoAluRes_eq fun _ => rfl
  refine (Regs.mk.injEq ..).mpr ⟨?_, h.nextState_eq io fromEXEValid,
    h.reservation_eq io fromEXEValid m₁ m₂, rfl, hcalc,
    h.amoRegWriteDataReg_eq io fromEXEValid m₁ m₂, ?_⟩
  · rw [h.fromEXEFire_eq, withBus_fromEXE]
  · rw [toWBFire, h.toWBValid_eq, h.fromEXEFire_eq]
    rfl

end Alike

theorem BusAlike.next {m₁ m₂ : ExeMemBus} (hb : BusAlike m₁ m₂) (h : Alike s m) :
    Alike (MEM.next s io fromEXEValid m₁) (RegEnable m₂ (fromEXEFire s io fromEXEValid) m) := by
  cases hfire : fromEXEFire s io fromEXEValid
  case true =>
    have hidle := nextState_of_fire hfire
    have hfrom : (MEM.next s io fromEXEValid m₁).fromEXE = m₁ := by simp [MEM.next, hfire]
    refine ⟨?_, fun hs => absurd hidle hs, fun hs => absurd hidle hs⟩
    rw [hfrom]
    exact hb
  case false =>
    have hfrom : (MEM.next s io fromEXEValid m₁).fromEXE = s.fromEXE := by
      simp [MEM.next, hfire]
    refine ⟨?_, fun hs => ?_, fun hi hw => ?_⟩
    · rw [hfrom]
      exact h.toBusAlike
    · rw [hfrom]
      rcases nextState_busy hs with ⟨-, ha⟩ | hs
      · exact (h.vaddr_of_access ha).symm
      · exact h.addr hs
    · rw [hfrom]
      rcases nextState_amo hi hw with ⟨-, hr, hwr⟩ | ⟨hi, hw⟩
      · simp only [ren, wen, controlSignals, Bool.and_eq_true] at hr hwr
        exact h.amoOp (.inr ⟨hr.1, hwr.1⟩)
      · exact h.amo hi hw

end Stage

end MEM

theorem EXE.Alike.toMEM {e : EXE.Regs} {b : IdExeBus} (h : Alike e.fromID b) (io : Inputs) :
    MEM.BusAlike (EXE.toMEM e io) (EXE.toMEM { e with fromID := b } io) := by
  have hread (hr : (orR e.fromID.decodeBundle.memRead && !e.fromID.nop) = true) :
      e.fromID.decodeBundle.memRead ≠ 0#4 := by
    rw [Bool.and_eq_true, orR, bne_iff_ne] at hr
    exact hr.1
  have hwrite (hw : (orR e.fromID.decodeBundle.memWrite && !e.fromID.nop) = true) :
      e.fromID.decodeBundle.memWrite ≠ 0#4 := by
    rw [Bool.and_eq_true, orR, bne_iff_ne] at hw
    exact hw.1
  have hmask (hm : e.fromID.decodeBundle.memRead ||| e.fromID.decodeBundle.memWrite ≠ 0#4) :
      e.fromID.decodeBundle.memRead ≠ 0#4 ∨ e.fromID.decodeBundle.memWrite ≠ 0#4 := by
    by_contra hn
    push Not at hn
    exact hm (by rw [hn.1, hn.2]; rfl)
  constructor
  case rest =>
    rw [EXE.toMEM, EXE.toMEM, h.nop_eq, jumpBusFire, jumpBusFire, h.jumpBusValid_eq, h.rest]
  case memRawMask => simp only [EXE.toMEM, EXE.controlSignals, h.bundle.memRead, h.bundle.memWrite]
  case memWriteData =>
    have hdata := congrArg IdExeBus.rs2Data h.rest
    exact hdata
  case regWrite => exact h.bundle.regWrite
  case memWrite =>
    simp only [EXE.toMEM, EXE.controlSignals, h.bundle.memWrite, congrArg IdExeBus.nop h.rest]
  case memRead =>
    simp only [EXE.toMEM, EXE.controlSignals, h.bundle.memRead, congrArg IdExeBus.nop h.rest]
  case fuTypeAMO => simp only [EXE.toMEM, EXE.controlSignals, h.bundle.fuType]
  case signExt => exact fun hr => h.bundle.memSignExt (hread hr)
  case regWriteData =>
    rintro (hw | hm | hr | hw)
    · exact (h.regWdata_eq (.inl hw)).symm
    · exact (h.regWdata_eq (.inr (hmask hm))).symm
    · exact (h.regWdata_eq (.inr (.inl (hread hr)))).symm
    · exact (h.regWdata_eq (.inr (.inr (hwrite hw)))).symm
  case amoOp =>
    rintro (hf | ⟨hr, hw⟩)
    · exact h.bundle.amoOp (.inl (beq_iff_eq.1 hf))
    · exact h.bundle.amoOp (.inr ⟨hread hr, hwrite hw⟩)

theorem ID.toEXE_alike {d₁ d₂ : Decoder} {s : ID.Regs}
    (h : (d₁.ctrlWord s.fromIF.inst).Agree (d₂.ctrlWord s.fromIF.inst)) {io : ID.Inputs}
    {x y z : Word}
    (ha : ID.bypassData { io with fromEXE := x, fromMEM := y, fromWB := z } io.bypassTypeA
      io.rs1DataFromReg = ID.bypassData io io.bypassTypeA io.rs1DataFromReg)
    (hb : ID.bypassData { io with fromEXE := x, fromMEM := y, fromWB := z } io.bypassTypeB
      io.rs2DataFromReg = ID.bypassData io io.bypassTypeB io.rs2DataFromReg) :
    EXE.Alike (ID.toEXE d₁ s io)
      (ID.toEXE d₂ s { io with fromEXE := x, fromMEM := y, fromWB := z }) where
  rest := by
    simp only [ID.toEXE, ha, hb, ID.excepVec, h.legal]
    rfl
  bundle := h.bundle.mask _
  imm ho := congrArg (ImmGen s.fromIF.inst) (h.instType (DecodeBundle.Operates.of_mask ho))

end FpgaNpc
