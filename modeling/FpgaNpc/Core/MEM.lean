import FpgaNpc.Utils.Csr
import FpgaNpc.Utils.Exe

open FpgaNpc.Hardware FpgaNpc.ControlSignals FpgaNpc.InterStage FpgaNpc.SRAMLike

namespace FpgaNpc

inductive MEMState
  | IDLE | WAIT_RESP | AMO_WAIT_READ_RESP | AMO_CALC | AMO_LAUNCH_WRITE_REQ | AMO_WAIT_WRITE_RESP
  deriving DecidableEq

namespace MEM

/-- The registers of the stage. `fromEXE` is the one that `StageConnect` puts on the link. -/
structure Regs where
  fromEXE : ExeMemBus
  state : MEMState
  reservation : Word
  amoReadData : Word
  amoAluResReg : Word
  amoRegWriteDataReg : Word
  hasFired : Bool
  deriving DecidableEq

structure Inputs where
  reqReady : Bool
  rResp : Irrevocable SRAMLikeRResp
  wResp : Irrevocable SRAMLikeWResp

/- The valid of the link from EXE comes late in the cycle, so it is an argument of its own. -/
variable (s : Regs) (io : Inputs) (fromEXEValid : Bool)

def controlSignals : ExeMemSignalsBundle := s.fromEXE.controlSignals

def byteWise : BitVec 4 := (controlSignals s).memRawMask

def reqSize : BitVec 2 :=
  PriorityMux [((byteWise s).getLsbD 3, 2), ((byteWise s).getLsbD 1, 1),
    ((byteWise s).getLsbD 0, 0)]

def vaddr : Word := (controlSignals s).regWriteData

def align : Bool :=
  PriorityMux [((byteWise s).getLsbD 3, !orR ((vaddr s).extractLsb 1 0)),
    ((byteWise s).getLsbD 1, !(vaddr s).getLsbD 0), ((byteWise s).getLsbD 0, true)]

def ren : Bool := (controlSignals s).memRead && !s.fromEXE.nop

def wen : Bool := (controlSignals s).memWrite && !s.fromEXE.nop

def flush2EXE : Bool := (ren s || wen s) && !align s

def setMtval : Bool := !align s

def offset : Nat := ((vaddr s).extractLsb 1 0).toNat * 8

def rdataShift : Word := io.rResp.bits.rdata >>> offset s

def memRes : Word :=
  let signExt := (controlSignals s).signExt
  PriorityMux [((byteWise s).getLsbD 3, rdataShift s io),
    ((byteWise s).getLsbD 1, fill 16 ((rdataShift s io).getLsbD 15 && signExt) ++
      (rdataShift s io).extractLsb 15 0),
    ((byteWise s).getLsbD 0, fill 24 ((rdataShift s io).getLsbD 7 && signExt) ++
      (rdataShift s io).extractLsb 7 0)]

def memWdata : Word :=
  let data := (controlSignals s).memWriteData
  PriorityMux [((byteWise s).getLsbD 3, data),
    ((byteWise s).getLsbD 1, data.extractLsb 15 0 ++ data.extractLsb 15 0),
    ((byteWise s).getLsbD 0, data.extractLsb 7 0 ++ data.extractLsb 7 0 ++
      data.extractLsb 7 0 ++ data.extractLsb 7 0)]

def isSC : Bool := (controlSignals s).fuTypeAMO && (controlSignals s).amoOp == AMOOp.SC

def isLR : Bool := (controlSignals s).fuTypeAMO && (controlSignals s).amoOp == AMOOp.LR

def access : Bool := (ren s || wen s) && align s

def amoAluRes : Word :=
  AMOALU.res (controlSignals s).amoOp s.amoReadData (controlSignals s).memWriteData

def req : Irrevocable SRAMLikeReq :=
  match s.state with
  | .IDLE =>
    if access s then
      ⟨!(isSC s && s.reservation != vaddr s),
        { wr := !ren s && wen s
          size := reqSize s
          addr := vaddr s
          wdata := memWdata s
          wstrb := (controlSignals s).memRawMask <<< ((vaddr s).extractLsb 1 0).toNat
          len := 0 }⟩
    else ⟨false, .zero⟩
  | .AMO_LAUNCH_WRITE_REQ =>
    ⟨true,
      { wr := true, size := 2, addr := vaddr s, wdata := s.amoAluResReg, wstrb := 0xf, len := 0 }⟩
  | .WAIT_RESP | .AMO_WAIT_READ_RESP | .AMO_CALC | .AMO_WAIT_WRITE_RESP => ⟨false, .zero⟩

def reqFire : Bool := (req s).valid && io.reqReady

def toWBValid : Bool :=
  match s.state with
  | .IDLE => if access s then isSC s && s.reservation != vaddr s else true
  | .WAIT_RESP => io.rResp.valid || io.wResp.valid
  | .AMO_WAIT_WRITE_RESP => io.wResp.valid
  | .AMO_WAIT_READ_RESP | .AMO_CALC | .AMO_LAUNCH_WRITE_REQ => false

def fromEXEReady : Bool := toWBValid s io

def rRespReady : Bool :=
  match s.state with
  | .WAIT_RESP => io.rResp.valid && fromEXEValid
  | .AMO_WAIT_READ_RESP => io.rResp.valid
  | .IDLE | .AMO_CALC | .AMO_LAUNCH_WRITE_REQ | .AMO_WAIT_WRITE_RESP => false

def wRespReady : Bool :=
  match s.state with
  | .WAIT_RESP | .AMO_WAIT_WRITE_RESP => io.wResp.valid && fromEXEValid
  | .IDLE | .AMO_WAIT_READ_RESP | .AMO_CALC | .AMO_LAUNCH_WRITE_REQ => false

def rRespFire : Bool := io.rResp.valid && rRespReady s io fromEXEValid

def wRespFire : Bool := io.wResp.valid && wRespReady s io fromEXEValid

def fromEXEFire : Bool := fromEXEValid && fromEXEReady s io

/-- The handshake on the link to WB, which is always ready. -/
def toWBFire : Bool := toWBValid s io

def amoRegWriteData : Word :=
  match s.state with
  | .IDLE =>
    if access s && isSC s then (bit (s.reservation != vaddr s)).setWidth 32
    else s.amoRegWriteDataReg
  | .WAIT_RESP =>
    if isLR s then io.rResp.bits.rdata else if isSC s then 0 else s.amoRegWriteDataReg
  | .AMO_WAIT_READ_RESP | .AMO_CALC | .AMO_LAUNCH_WRITE_REQ | .AMO_WAIT_WRITE_RESP =>
    s.amoRegWriteDataReg

def regWrite : Bool := if ren s then align s else (controlSignals s).regWrite

def bypass : BypassFrom := ⟨toWBValid s io, regWrite s, s.fromEXE.rd⟩

def regWdata : Word :=
  PriorityMux [((controlSignals s).fuTypeAMO, amoRegWriteData s io), (ren s, memRes s io),
    (true, (controlSignals s).regWriteData)]

def nop : Bool := s.fromEXE.nop || s.hasFired

def excepVec : BitVec 16 :=
  setBit (setBit s.fromEXE.excepVec ExceptionCodes.LoadAddressMisaligned (!align s && ren s))
    ExceptionCodes.StoreAMOAddressMisaligned (!align s && wen s)

def toWB : MemWbBus where
  pc := s.fromEXE.pc
  rd := s.fromEXE.rd
  funct12 := s.fromEXE.funct12
  regWrite := regWrite s && !nop s
  regWriteData := regWdata s io
  nop := nop s
  mret := s.fromEXE.mret
  excepVec := excepVec s
  jumped := s.fromEXE.jumped
  inst := s.fromEXE.inst
  flushForIntr := s.fromEXE.flushForIntr

def reset : Regs := ⟨.zero, .IDLE, 0, 0, 0, 0, false⟩

def nextState : MEMState :=
  match s.state with
  | .IDLE =>
    if access s && reqFire s io then
      if ren s && wen s then .AMO_WAIT_READ_RESP else .WAIT_RESP
    else .IDLE
  | .WAIT_RESP =>
    if rRespFire s io fromEXEValid || wRespFire s io fromEXEValid then .IDLE else .WAIT_RESP
  | .AMO_WAIT_READ_RESP => if rRespFire s io fromEXEValid then .AMO_CALC else .AMO_WAIT_READ_RESP
  | .AMO_CALC => .AMO_LAUNCH_WRITE_REQ
  | .AMO_LAUNCH_WRITE_REQ =>
    if reqFire s io then .AMO_WAIT_WRITE_RESP else .AMO_LAUNCH_WRITE_REQ
  | .AMO_WAIT_WRITE_RESP => if wRespFire s io fromEXEValid then .IDLE else .AMO_WAIT_WRITE_RESP

def next (toMEM : ExeMemBus) : Regs where
  fromEXE := RegEnable toMEM (fromEXEFire s io fromEXEValid) s.fromEXE
  state := nextState s io fromEXEValid
  reservation :=
    match s.state with
    | .IDLE =>
      if access s && (toWBFire s io || reqFire s io) then
        if isSC s then 0 else s.reservation
      else s.reservation
    | .WAIT_RESP => if isLR s then vaddr s else s.reservation
    | .AMO_WAIT_READ_RESP | .AMO_CALC | .AMO_LAUNCH_WRITE_REQ | .AMO_WAIT_WRITE_RESP =>
      s.reservation
  amoReadData := io.rResp.bits.rdata
  amoAluResReg := if s.state = .AMO_CALC then amoAluRes s else s.amoAluResReg
  amoRegWriteDataReg :=
    match s.state with
    | .IDLE =>
      if access s && isSC s then (bit (s.reservation != vaddr s)).setWidth 32
      else s.amoRegWriteDataReg
    | .WAIT_RESP =>
      if isLR s then io.rResp.bits.rdata else if isSC s then 0 else s.amoRegWriteDataReg
    | .AMO_WAIT_READ_RESP =>
      if rRespFire s io fromEXEValid then io.rResp.bits.rdata else s.amoRegWriteDataReg
    | .AMO_CALC | .AMO_LAUNCH_WRITE_REQ | .AMO_WAIT_WRITE_RESP => s.amoRegWriteDataReg
  hasFired := if toWBFire s io && !fromEXEFire s io fromEXEValid then true
    else RegEnable false (toWBFire s io && fromEXEFire s io fromEXEValid) s.hasFired

variable {s}

theorem align_of_no_mask (h : byteWise s = 0#4) : align s = true := by
  simp [align, PriorityMux, h]

end MEM

end FpgaNpc
