import FpgaNpc.Core.EXE
import FpgaNpc.Hardware.Machine
import FpgaNpc.Riscv.MExtension

open FpgaNpc.Hardware FpgaNpc.ControlSignals FpgaNpc.InterStage FpgaNpc.Riscv

namespace FpgaNpc

def Riscv.DivInst.divOp : DivInst → BitVec 2
  | .DIV => DIVOp.DIV
  | .DIVU => DIVOp.DIVU
  | .REM => DIVOp.REM
  | .REMU => DIVOp.REMU

namespace EXE

structure IsDivInst (b : IdExeBus) (inst : DivInst) : Prop where
  fuType : b.decodeBundle.fuType = FuType.DIV
  aluSrc1 : b.decodeBundle.aluSrc1 = OpASrc.RS1
  aluSrc2 : b.decodeBundle.aluSrc2 = OpBSrc.RS2
  divOp : b.decodeBundle.divOp = inst.divOp

section Operands

variable {b : IdExeBus} {inst : DivInst}

theorem abs_eq (x : Word) : abs x = if x.msb then -x else x := by
  simp [abs, BitVec.slt_zero_eq_msb]

theorem twoComp_eq {n : Nat} (en : Bool) (x : BitVec n) :
    twoComp en x = if en then -x else x := by
  have hcat (y : BitVec n) : (bit en ++ y).setWidth n = y := by
    rw [BitVec.setWidth_append, dif_pos (Nat.le_refl n), BitVec.setWidth_eq]
  rw [twoComp, BitVec.setWidth_add _ _ (by omega), hcat]
  cases en
  · simp
  · rw [BitVec.neg_eq_not_add]
    congr 1
    apply BitVec.eq_of_toNat_eq
    simp

theorem sdiv_eq_abs (x y : Word) :
    x.sdiv y = twoComp (x.getLsbD 31 ^^ y.getLsbD 31) (abs x / abs y) := by
  rw [twoComp_eq, abs_eq, abs_eq, BitVec.sdiv_eq, ← BitVec.msb_eq_getLsbD_last (x := x),
    ← BitVec.msb_eq_getLsbD_last (x := y)]
  cases x.msb <;> cases y.msb <;> simp

theorem srem_eq_abs (x y : Word) :
    x.srem y = twoComp (x.getLsbD 31) (abs x % abs y) := by
  rw [twoComp_eq, abs_eq, abs_eq, BitVec.srem_eq, ← BitVec.msb_eq_getLsbD_last (x := x)]
  cases x.msb <;> cases y.msb <;> simp

theorem IsDivInst.isDIV (h : IsDivInst b inst) : isDIV b = true := by
  simp [EXE.isDIV, h.fuType]

theorem IsDivInst.opA (h : IsDivInst b inst) : opA b = b.rs1Data := by
  simp [EXE.opA, Mux1H, h.aluSrc1]

theorem IsDivInst.opB (h : IsDivInst b inst) : opB b = b.rs2Data := by
  simp [EXE.opB, Mux1H, h.aluSrc2]

def divAbsRes (b : IdExeBus) : Word × Word :=
  (divAbsOpA b / divAbsOpB b, divAbsOpA b % divAbsOpB b)

def needsDivider (b : IdExeBus) : Bool := isDIV b && !(divByZero b || divOverflow b)

theorem IsDivInst.divRes_noNeed (h : IsDivInst b inst) (hn : needsDivider b = false)
    (result : Word × Word) : divRes b result = inst.result b.rs1Data b.rs2Data := by
  have hcase : divByZero b = true ∨ (divByZero b = false ∧ divOverflow b = true) := by
    simp only [needsDivider, h.isDIV, Bool.true_and, Bool.not_eq_false', Bool.or_eq_true] at hn
    cases hz : divByZero b <;> simp_all
  rcases hcase with hz | ⟨hz, ho⟩
  · have hb : b.rs2Data = 0 := by simpa [divByZero, h.opB] using hz
    cases inst <;>
      simp [divRes, divResFinal, remainderFinal, hz, h.divOp, h.opA, DivInst.divOp,
        DivInst.result, hb]
  · simp only [divOverflow, h.opA, h.opB, Bool.and_eq_true, beq_iff_eq] at ho
    obtain ⟨⟨hs, ha⟩, hb⟩ := ho
    have ho' : divOverflow b = true := by simp [divOverflow, h.opA, h.opB, hs, ha, hb]
    cases inst
    case DIV =>
      simp [divRes, divResFinal, hz, ho', h.divOp, DivInst.divOp, DivInst.result, hb, ha]
    case REM =>
      simp [divRes, remainderFinal, hz, ho', h.divOp, DivInst.divOp, DivInst.result, hb, ha]
    all_goals simp [divSigned, h.divOp, DivInst.divOp] at hs

theorem IsDivInst.divRes_needed (h : IsDivInst b inst) (hn : needsDivider b = true) :
    divRes b (divAbsRes b) = inst.result b.rs1Data b.rs2Data := by
  simp only [needsDivider, h.isDIV, Bool.true_and, Bool.not_eq_true', Bool.or_eq_false_iff] at hn
  obtain ⟨hz, ho⟩ := hn
  have hb : b.rs2Data ≠ 0#32 := by simpa [divByZero, h.opB] using hz
  cases inst
  case DIV =>
    simp [divRes, divResFinal, hz, ho, divSigned, divAbsRes, divAbsOpA, divAbsOpB, h.divOp,
      h.opA, h.opB, DivInst.divOp, DivInst.result, hb, ofInt_tdiv, sdiv_eq_abs]
  case DIVU =>
    simp [divRes, divResFinal, hz, ho, divSigned, divAbsRes, divAbsOpA, divAbsOpB, h.divOp,
      h.opA, h.opB, DivInst.divOp, DivInst.result, hb, ofNat_div, twoComp_eq]
  case REM =>
    simp [divRes, remainderFinal, hz, ho, divSigned, divAbsRes, divAbsOpA, divAbsOpB, h.divOp,
      h.opA, h.opB, DivInst.divOp, DivInst.result, hb, ofInt_tmod, srem_eq_abs]
  case REMU =>
    simp [divRes, remainderFinal, hz, ho, divSigned, divAbsRes, divAbsOpA, divAbsOpB, h.divOp,
      h.opA, h.opB, DivInst.divOp, DivInst.result, hb, ofNat_mod, twoComp_eq]

end Operands

/-- The stage with its multiplier and divider. In every cycle the other modules drive its
inputs and ID offers some instruction. The result registers have no reset value. -/
def machine (mulLatency divLatency : Nat) : Machine Regs (Inputs × IdExeBus) where
  IsReset s := ∃ product quotientRemainder, s =
    ⟨.zero, false, ⟨false, 0, product⟩, ⟨false, 0, quotientRemainder⟩, false, false, false,
      false⟩
  next s i := next s i.1 mulLatency divLatency i.2

/-- `CSRRegFile` accepts an interrupt only in a cycle in which the stage offers it. -/
def InterruptAccepted (s : Regs) (io : Inputs) : Prop :=
  io.interrupt = true → interCMDValid s io.flushFromMEM = true

def LeavesWithOwnResult (s : Regs) (io : Inputs) : Prop :=
  ∀ inst, toMEMFire s io = true → (toMEM s io).nop = false → IsDivInst s.fromID inst →
    (toMEM s io).controlSignals.regWriteData = inst.result s.fromID.rs1Data s.fromID.rs2Data

/-- A division that needs the divider is not passed on dead before the divider is done. -/
def NoDivAbandoned (s : Regs) (io : Inputs) : Prop :=
  (io.interrupt || io.flushFromMEM) = true → io.toMEMReady = true → s.fromID.nop = false →
    needsDivider s.fromID = true → MultiCycle.done s.divider = true

instance (s : Regs) (io : Inputs) : Decidable (InterruptAccepted s io) :=
  inferInstanceAs (Decidable (_ = _ → _ = _))

instance (s : Regs) (io : Inputs) : Decidable (NoDivAbandoned s io) :=
  inferInstanceAs (Decidable (_ = _ → _ = _ → _ = _ → _ = _ → _ = _))

/-- The instruction in the stage and the one that issued the last request to the divider,
counted in the order of their arrival. -/
structure Tickets where
  occupant : Nat
  issuer : Option Nat

def Tickets.observe (s : Regs) (i : Inputs × IdExeBus) (g : Tickets) : Tickets where
  occupant := if fromIDFire s i.1 then g.occupant + 1 else g.occupant
  issuer := if dividerReqFire s then some g.occupant else g.issuer

def observed (mulLatency divLatency : Nat) : Machine (Regs × Tickets) (Inputs × IdExeBus) :=
  (machine mulLatency divLatency).monitor ⟨0, none⟩ Tickets.observe

/-- A busy divider works for the live instruction in the stage, on its operands. -/
structure DividerInv (s : Regs) (g : Tickets) : Prop where
  hasFired : s.hasFired = false
  occupied : s.divider.busy = true → s.fromID.nop = false ∧ needsDivider s.fromID = true ∧
    s.divider.result = divAbsRes s.fromID ∧ g.issuer = some g.occupant

variable {s : Regs} {io : Inputs} {g : Tickets} {toEXE : IdExeBus} {inst : DivInst}

theorem dividerReqFire_spec (h : dividerReqFire s = true) :
    s.fromID.nop = false ∧ needsDivider s.fromID = true ∧ s.divider.busy = false := by
  simp only [dividerReqFire, dividerReqValid, MultiCycle.reqReady, Bool.and_eq_true,
    Bool.not_eq_true'] at h
  simp [needsDivider, h]

theorem fromIDFire_eq (s : Regs) (io : Inputs) : fromIDFire s io = toMEMFire s io := by
  rw [fromIDFire, fromIDReady, Bool.and_assoc, Bool.and_comm]
  rfl

theorem toMEMReady_of_fire (h : toMEMFire s io = true) : io.toMEMReady = true := by
  simp only [toMEMFire, Bool.and_eq_true] at h
  exact h.2

theorem mulOrDivValid_of_fire (h : toMEMFire s io = true) : mulOrDivValid s io = true := by
  simp only [toMEMFire, toMEMValid, Bool.and_eq_true] at h
  exact h.1.2

theorem dividerRespFire_of_alive (hfire : toMEMFire s io = true) (hnop : nop s io = false)
    (hn : needsDivider s.fromID = true) : dividerRespFire s io = true := by
  have hv := mulOrDivValid_of_fire hfire
  have hdiv : isDIV s.fromID = true ∧ (divByZero s.fromID || divOverflow s.fromID) = false := by
    simpa [needsDivider] using hn
  have hmul : isMUL s.fromID = false := by
    have := hdiv.1
    simp only [isDIV, isMUL, beq_iff_eq] at this ⊢
    rw [this]
    decide
  simpa [mulOrDivValid, mulOrDivEnable, hdiv.1, hnop, hmul, multiplierRespFire,
    multiplierRespReady, divReqNoNeed, hdiv.2] using hv

theorem dividerRespFire_of_leaves (hok : NoDivAbandoned s io) (hf : s.hasFired = false)
    (hfire : toMEMFire s io = true) (hnop : s.fromID.nop = false)
    (hn : needsDivider s.fromID = true) : dividerRespFire s io = true := by
  cases hk : (io.interrupt || io.flushFromMEM)
  case false =>
    apply dividerRespFire_of_alive hfire _ hn
    simp only [Bool.or_eq_false_iff] at hk
    simp [nop, hnop, hf, hk]
  case true =>
    have hready := toMEMReady_of_fire hfire
    have hdone := hok hk hready hnop hn
    have hdiv : isDIV s.fromID = true ∧
        (divByZero s.fromID || divOverflow s.fromID) = false := by
      simpa [needsDivider] using hn
    simp [dividerRespFire, dividerRespReady, hdone, hready, hdiv]

theorem DividerInv.next (h : DividerInv s g) (hok : NoDivAbandoned s io)
    (mulLatency divLatency : Nat) :
    DividerInv (next s io mulLatency divLatency toEXE) (g.observe s (io, toEXE)) where
  hasFired := by simp [EXE.next, fromIDFire_eq, h.hasFired, RegEnable]
  occupied hbusy := by
    change (if dividerRespFire s io then false
      else if dividerReqFire s then true else s.divider.busy) = true at hbusy
    have hresp : dividerRespFire s io = false := by
      cases hr : dividerRespFire s io
      · rfl
      · simp [hr] at hbusy
    have hstay : toMEMFire s io = false := by
      by_contra hfire
      rw [Bool.not_eq_false] at hfire
      cases hreq : dividerReqFire s
      case true =>
        obtain ⟨hnop, hn, -⟩ := dividerReqFire_spec hreq
        simp [dividerRespFire_of_leaves hok h.hasFired hfire hnop hn] at hresp
      case false =>
        obtain ⟨hnop, hn, -⟩ := h.occupied (by simpa [hresp, hreq] using hbusy)
        simp [dividerRespFire_of_leaves hok h.hasFired hfire hnop hn] at hresp
    have hfrom : (EXE.next s io mulLatency divLatency toEXE).fromID = s.fromID := by
      simp [EXE.next, fromIDFire_eq, hstay]
    have hresult : (EXE.next s io mulLatency divLatency toEXE).divider.result =
        if dividerReqFire s then divAbsRes s.fromID else s.divider.result := rfl
    rw [hfrom, hresult]
    cases hreq : dividerReqFire s
    case true =>
      obtain ⟨hnop, hn, -⟩ := dividerReqFire_spec hreq
      simp [hnop, hn, Tickets.observe, hreq, fromIDFire_eq, hstay]
    case false =>
      simpa [Tickets.observe, hreq, fromIDFire_eq, hstay] using
        h.occupied (by simpa [hresp, hreq] using hbusy)

theorem DividerInv.leavesWithOwnResult (h : DividerInv s g) : LeavesWithOwnResult s io := by
  intro inst hfire hnop hinst
  have hres : (toMEM s io).controlSignals.regWriteData = divRes s.fromID s.divider.result := by
    simp [toMEM, controlSignals, regWdata, Mux1H, hinst.fuType]
  rw [hres]
  cases hn : needsDivider s.fromID
  case false => exact hinst.divRes_noNeed hn _
  case true =>
    have hresp := dividerRespFire_of_alive hfire hnop hn
    have hbusy : s.divider.busy = true := by
      simp only [dividerRespFire, MultiCycle.done, Bool.and_eq_true] at hresp
      exact hresp.1.1
    rw [(h.occupied hbusy).2.2.1]
    exact hinst.divRes_needed hn

theorem division_results (mulLatency divLatency : Nat) {p : Regs × Tickets}
    (h : (observed mulLatency divLatency).Reaches (fun p i => NoDivAbandoned p.1 i.1) p)
    (io : Inputs) :
    LeavesWithOwnResult p.1 io ∧
      (dividerRespFire p.1 io = true → p.2.issuer = some p.2.occupant) := by
  have hinv : DividerInv p.1 p.2 := by
    refine h.monitor_invariant (P := DividerInv) (fun s hs => ?_)
      fun _ _ _ ih hok => ih.next hok mulLatency divLatency
    obtain ⟨_, _, hs⟩ := hs
    constructor <;> simp [hs]
  refine ⟨hinv.leavesWithOwnResult, fun hresp => ?_⟩
  simp only [dividerRespFire, MultiCycle.done, Bool.and_eq_true] at hresp
  exact (hinv.occupied hresp.1.1).2.2.2

def divBundle (inst : DivInst) (a b : Word) : IdExeBus :=
  { IdExeBus.zero with
    decodeBundle := { DecodeBundle.zero with
      fuType := FuType.DIV, divOp := inst.divOp, regWrite := true }
    rs1Data := a
    rs2Data := b }

theorem isDivInst_divBundle (inst : DivInst) (a b : Word) :
    IsDivInst (divBundle inst a b) inst := ⟨rfl, rfl, rfl, rfl⟩

def Inputs.idle : Inputs := ⟨false, false, true, true, true⟩

theorem division_results_remu :
    (toMEM ((machine 2 1).run .reset [(.idle, divBundle .REMU 100 7), (.idle, .zero)])
      .idle).controlSignals.regWriteData = DivInst.REMU.result 100 7 := by
  have hr := (observed 2 1).reaches_run (fun p i => NoDivAbandoned p.1 i.1) (.reset, ⟨0, none⟩)
    [(.idle, divBundle .REMU 100 7), (.idle, .zero)] ⟨⟨0, (0, 0), rfl⟩, rfl⟩ (by decide +kernel)
  exact (division_results 2 1 hr .idle).1 .REMU (by decide +kernel) (by decide +kernel)
    (isDivInst_divBundle _ _ _)

/-- A misaligned access ahead kills the first division in its first cycle; the second one
takes its quotient. -/
def abandonedDivision : List (Inputs × IdExeBus) :=
  [(.idle, divBundle .DIV 7 2), ({ Inputs.idle with flushFromMEM := true }, divBundle .DIV 100 7)]
    ++ List.replicate 33 (.idle, .zero)

theorem division_takes_stale_quotient :
    ¬∀ s, (machine 2 34).Reaches (fun s i => InterruptAccepted s i.1) s →
      ∀ io, InterruptAccepted s io → LeavesWithOwnResult s io := by
  intro h
  have hr := (machine 2 34).reaches_run (fun s i => InterruptAccepted s i.1) .reset
    abandonedDivision ⟨0, (0, 0), rfl⟩ (by decide +kernel)
  have := h _ hr .idle (by decide +kernel) .DIV (by decide +kernel) (by decide +kernel)
    ⟨by decide +kernel, by decide +kernel, by decide +kernel, by decide +kernel⟩
  revert this
  decide +kernel

end EXE

end FpgaNpc
