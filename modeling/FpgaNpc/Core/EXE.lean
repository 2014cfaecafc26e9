import FpgaNpc.Utils.Exe

open FpgaNpc.Hardware FpgaNpc.ControlSignals FpgaNpc.InterStage

namespace FpgaNpc.EXE

/-- The registers of the stage. `fromID` is the one that `StageConnect` puts on the link. -/
structure Regs where
  fromID : IdExeBus
  hasFired : Bool
  multiplier : MultiCycle.Regs (BitVec 64)
  divider : MultiCycle.Regs (Word × Word)
  mulReqFired : Bool
  divReqFired : Bool
  jumpBusFired : Bool
  btbUpdateInfoFired : Bool

structure Inputs where
  flushFromMEM : Bool
  interrupt : Bool
  toMEMReady : Bool
  jumpBusReady : Bool
  btbReady : Bool

variable (s : Regs) (io : Inputs)

def interCMDValid (flushFromMEM : Bool) : Bool :=
  !(s.fromID.nop || s.hasFired || flushFromMEM || s.multiplier.busy || s.divider.busy)

def nop : Bool := s.fromID.nop || s.hasFired || io.interrupt || io.flushFromMEM

section Operands

variable (b : IdExeBus)

def opA : Word :=
  Mux1H [
    (b.decodeBundle.aluSrc1 == OpASrc.RS1, b.rs1Data),
    (b.decodeBundle.aluSrc1 == OpASrc.PC, b.pc),
    (b.decodeBundle.aluSrc1 == OpASrc.RS1ADDR, b.rs1.setWidth 32),
    (b.decodeBundle.aluSrc1 == OpASrc.ZERO, 0)]

def opB : Word :=
  Mux1H [
    (b.decodeBundle.aluSrc2 == OpBSrc.RS2, b.rs2Data),
    (b.decodeBundle.aluSrc2 == OpBSrc.CSR, b.csrData),
    (b.decodeBundle.aluSrc2 == OpBSrc.IMM, b.imm),
    (b.decodeBundle.aluSrc2 == OpBSrc.ZERO, 0)]

def aluRes : Word := ALU.res b.decodeBundle.aluOp (opA b) (opB b)

def isMUL : Bool := b.decodeBundle.fuType == FuType.MUL

def isDIV : Bool := b.decodeBundle.fuType == FuType.DIV

def isBRU : Bool := b.decodeBundle.fuType == FuType.BRU

/-- `x.asSInt.abs.asUInt` -/
def abs (x : Word) : Word := if x.slt 0 then -x else x

/-- `Cat(en, Mux(en, ~x, x)) + en`, cut to the width of `x`. -/
def twoComp {n : Nat} (en : Bool) (x : BitVec n) : BitVec n :=
  ((bit en ++ (if en then ~~~x else x)) + (bit en).setWidth (1 + n)).setWidth n

def mulSignedOpA : Bool :=
  b.decodeBundle.mulOp == MULOp.MUL || b.decodeBundle.mulOp == MULOp.MULH ||
    b.decodeBundle.mulOp == MULOp.MULHSU

def mulSignedOpB : Bool :=
  b.decodeBundle.mulOp == MULOp.MUL || b.decodeBundle.mulOp == MULOp.MULH

def mulSigned : Bool := mulSignedOpA b || mulSignedOpB b

def mulAbsOpA : Word := if mulSignedOpA b then abs (opA b) else opA b

def mulAbsOpB : Word := if mulSignedOpB b then abs (opB b) else opB b

def isMultResultNeg : Bool :=
  if mulSigned b && b.decodeBundle.mulOp == MULOp.MULHSU then (opA b).getLsbD 31
  else (opA b).getLsbD 31 ^^ (opB b).getLsbD 31

def mulRes (mulResOrigin : BitVec 64) : Word :=
  let mulResFinal := twoComp (mulSigned b && isMultResultNeg b) mulResOrigin
  if b.decodeBundle.mulOp == MULOp.MUL then mulResFinal.extractLsb 31 0
  else mulResFinal.extractLsb 63 32

def divSigned : Bool :=
  b.decodeBundle.divOp == DIVOp.DIV || b.decodeBundle.divOp == DIVOp.REM

def divAbsOpA : Word := if divSigned b then abs (opA b) else opA b

def divAbsOpB : Word := if divSigned b then abs (opB b) else opB b

/-- The two branches that do without the divider. -/
def divByZero : Bool := opB b == 0

def divOverflow : Bool := divSigned b && opA b == 0x80000000 && opB b == 0xffffffff

def divReqNoNeed : Bool := (divByZero b || divOverflow b) && isDIV b

def divResFinal (quotient : Word) : Word :=
  if divByZero b then 0xffffffff
  else if divOverflow b then 0x80000000
  else twoComp (divSigned b && ((opA b).getLsbD 31 ^^ (opB b).getLsbD 31)) quotient

def remainderFinal (remainder : Word) : Word :=
  if divByZero b then opA b
  else if divOverflow b then 0
  else twoComp (divSigned b && (opA b).getLsbD 31) remainder

def divRes (result : Word × Word) : Word :=
  if b.decodeBundle.divOp == DIVOp.DIV || b.decodeBundle.divOp == DIVOp.DIVU then
    divResFinal b result.1
  else remainderFinal b result.2

def jump : Bool :=
  isBRU b && (BRU.branch b.decodeBundle.bruOp b.rs1Data b.rs2Data ||
    b.decodeBundle.bruOp == BRUOp.N)

def aluSum : Word := ALU.sum b.decodeBundle.aluOp (opA b) (opB b)

def jumpTarget : Word := if jump b then aluSum b else b.pc + 4

def redirect : Bool := (jump b ^^ b.branchPred) || (isBRU b && aluSum b != b.predTarget)

def isCSR : Bool := b.decodeBundle.fuType == FuType.CSR

def csrRes : Word := CSRU.res b.decodeBundle.csrOp (opA b) (opB b)

end Operands

def multiplierReqValid : Bool := isMUL s.fromID && !s.mulReqFired && !nop s io

def multiplierRespReady : Bool := isMUL s.fromID && io.toMEMReady

/-- Neither this request nor the response is issued in the branches without the divider. -/
def dividerReqValid : Bool :=
  !(divByZero s.fromID || divOverflow s.fromID) &&
    (isDIV s.fromID && !s.divReqFired && !s.fromID.nop)

def dividerRespReady : Bool :=
  !(divByZero s.fromID || divOverflow s.fromID) && (isDIV s.fromID && io.toMEMReady)

def multiplierReqFire : Bool := multiplierReqValid s io && MultiCycle.reqReady s.multiplier

def multiplierRespFire : Bool := MultiCycle.done s.multiplier && multiplierRespReady s io

def dividerReqFire : Bool := dividerReqValid s && MultiCycle.reqReady s.divider

def dividerRespFire : Bool := MultiCycle.done s.divider && dividerRespReady s io

def jumpBusValid : Bool :=
  (redirect s.fromID || s.fromID.decodeBundle.fencei || isCSR s.fromID) && !nop s io

def jumpBus : Irrevocable JumpBus := ⟨jumpBusValid s io, ⟨jumpTarget s.fromID⟩⟩

def jumpBusFire : Bool := jumpBusValid s io && io.jumpBusReady

def jumpValid : Bool := jumpBusFire s io || s.jumpBusFired || !jumpBusValid s io

def mulOrDivEnable : Bool := (isMUL s.fromID || isDIV s.fromID) && !nop s io

def mulOrDivValid : Bool :=
  !mulOrDivEnable s io || (mulOrDivEnable s io &&
    (multiplierRespFire s io || dividerRespFire s io || divReqNoNeed s.fromID))

def toMEMValid : Bool := jumpValid s io && mulOrDivValid s io

def fromIDReady : Bool := io.toMEMReady && jumpValid s io && mulOrDivValid s io

def toMEMFire : Bool := toMEMValid s io && io.toMEMReady

def btbUpdateInfoValid : Bool :=
  isBRU s.fromID && !nop s io && !s.btbUpdateInfoFired

def btbUpdateInfoFire : Bool := btbUpdateInfoValid s io && io.btbReady

def csrWen : Bool := s.fromID.decodeBundle.csrWrite && toMEMFire s io && !nop s io

def flush : Bool :=
  ((jumpBusValid s io || orR s.fromID.excepVec || isCSR s.fromID || io.interrupt) &&
    !nop s io) || io.flushFromMEM

def regWdata : Word :=
  let fuType := s.fromID.decodeBundle.fuType
  Mux1H [
    (fuType == FuType.ALU, aluRes s.fromID),
    (fuType == FuType.CSR, s.fromID.csrData),
    (fuType == FuType.BRU, s.fromID.pc + 4),
    (fuType == FuType.LSU, aluRes s.fromID),
    (fuType == FuType.MUL, mulRes s.fromID s.multiplier.result),
    (fuType == FuType.DIV, divRes s.fromID s.divider.result),
    (fuType == FuType.AMO, aluRes s.fromID)]

def bypass : BypassFrom where
  valid := s.fromID.decodeBundle.fuType != FuType.LSU &&
    s.fromID.decodeBundle.fuType != FuType.AMO
  regWrite := s.fromID.decodeBundle.regWrite && !nop s io
  waddr := s.fromID.rd

def controlSignals : ExeMemSignalsBundle where
  memRawMask := s.fromID.decodeBundle.memRead ||| s.fromID.decodeBundle.memWrite
  signExt := s.fromID.decodeBundle.memSignExt
  regWriteData := regWdata s
  memWriteData := s.fromID.rs2Data
  regWrite := s.fromID.decodeBundle.regWrite
  memWrite := orR s.fromID.decodeBundle.memWrite && !s.fromID.nop
  memRead := orR s.fromID.decodeBundle.memRead && !s.fromID.nop
  fuTypeAMO := s.fromID.decodeBundle.fuType == FuType.AMO
  amoOp := s.fromID.decodeBundle.amoOp

def toMEM : ExeMemBus where
  pc := s.fromID.pc
  rd := s.fromID.rd
  nop := nop s io
  jumped := jumpBusFire s io
  inst := s.fromID.inst
  flushForIntr := !s.fromID.nop && io.interrupt
  isWFI := s.fromID.isWFI
  funct12 := s.fromID.funct12
  mret := s.fromID.mret
  controlSignals := controlSignals s
  excepVec := s.fromID.excepVec

def fromIDFire : Bool := fromIDReady s io

def Regs.reset : Regs :=
  ⟨.zero, false, ⟨false, 0, 0⟩, ⟨false, 0, (0, 0)⟩, false, false, false, false⟩

def next (mulLatency divLatency : Nat) (toEXE : IdExeBus) : Regs where
  fromID := RegEnable toEXE (fromIDFire s io) s.fromID
  hasFired := if toMEMFire s io && !fromIDFire s io then true
    else RegEnable false (toMEMFire s io && fromIDFire s io) s.hasFired
  multiplier := Multiplier.next mulLatency s.multiplier (multiplierReqValid s io)
    (mulAbsOpA s.fromID) (mulAbsOpB s.fromID) (multiplierRespReady s io)
  divider := Divider.next divLatency s.divider (dividerReqValid s)
    (divAbsOpA s.fromID) (divAbsOpB s.fromID) (dividerRespReady s io)
  mulReqFired := if multiplierReqFire s io && !toMEMFire s io then true
    else RegEnable false (fromIDFire s io) s.mulReqFired
  divReqFired := if dividerReqFire s && !toMEMFire s io then true
    else RegEnable false (fromIDFire s io) s.divReqFired
  jumpBusFired := if jumpBusFire s io && !toMEMFire s io then true
    else RegEnable false (jumpBusFire s io) s.jumpBusFired
  btbUpdateInfoFired := if btbUpdateInfoFire s io && !toMEMFire s io then true
    else RegEnable false (toMEMFire s io) s.btbUpdateInfoFired

end FpgaNpc.EXE
