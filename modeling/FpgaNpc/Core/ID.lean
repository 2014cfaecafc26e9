import Mathlib.Logic.Function.Basic
import FpgaNpc.Utils.Csr
import FpgaNpc.Utils.Decode

open FpgaNpc.Hardware FpgaNpc.ControlSignals FpgaNpc.InterStage

namespace FpgaNpc

/-- The registers x1 to x31, `x(i + 1)` at `i`. -/
abbrev RegFiles := BitVec 5 → Word

namespace RegFiles

def read (R : RegFiles) (raddr : BitVec 5) : Word := if raddr = 0 then 0 else R (raddr - 1)

def write (R : RegFiles) (wen : Bool) (waddr : BitVec 5) (wdata : Word) : RegFiles :=
  if wen then Function.update R (waddr - 1) wdata else R

theorem read_write (R : RegFiles) {wen : Bool} {waddr : BitVec 5} (raddr : BitVec 5)
    (wdata : Word) (h0 : wen = true → waddr ≠ 0#5) : (R.write wen waddr wdata).read raddr =
      if wen = true ∧ waddr = raddr then wdata else R.read raddr := by
  cases wen
  case false => simp [write]
  case true =>
    have hw := h0 rfl
    by_cases h : waddr = raddr
    · subst h
      simp [read, write, hw]
    · by_cases hr : raddr = 0#5
      · subst hr
        simp [read, h]
      · have hne : raddr - 1#5 ≠ waddr - 1#5 := fun he => h (by bv_omega)
        simp [read, write, h, hr, Function.update_of_ne hne]

end RegFiles

inductive BypassTypeEnum
  | FromEXE | FromMEM | FromWB | FromREG
  deriving DecidableEq

namespace BypassNetwork

variable (fromEXE fromMEM fromWB : BypassFrom)

def matched (src : BypassFrom) (rs : BitVec 5) : Bool :=
  rs != 0 && src.waddr == rs && src.regWrite

def bypassType (rs : BitVec 5) : BypassTypeEnum :=
  if matched fromEXE rs then .FromEXE
  else if matched fromMEM rs then .FromMEM
  else if matched fromWB rs then .FromWB
  else .FromREG

def newestDataGetable (rs1 rs2 : BitVec 5) : Bool :=
  !((bypassType fromEXE fromMEM fromWB rs1 == .FromEXE && !fromEXE.valid) ||
    (bypassType fromEXE fromMEM fromWB rs2 == .FromEXE && !fromEXE.valid) ||
    (bypassType fromEXE fromMEM fromWB rs1 == .FromMEM && !fromMEM.valid) ||
    (bypassType fromEXE fromMEM fromWB rs2 == .FromMEM && !fromMEM.valid))

end BypassNetwork

namespace ID

/-- The registers of the stage. `fromIF` is the one that `StageConnect` puts on the link. -/
structure Regs where
  fromIF : IfIdBus
  hasFired : Bool
  deriving DecidableEq

structure Inputs where
  fromIFValid : Bool
  toEXEReady : Bool
  flush : Bool
  newestDataGetable : Bool
  bypassTypeA : BypassTypeEnum
  bypassTypeB : BypassTypeEnum
  fromEXE : Word
  fromMEM : Word
  fromWB : Word
  rs1DataFromReg : Word
  rs2DataFromReg : Word
  csrData : Word
  privilege : PRIV

def rs1Addr (b : IfIdBus) : BitVec 5 := b.inst.extractLsb 19 15

def rs2Addr (b : IfIdBus) : BitVec 5 := b.inst.extractLsb 24 20

def rdAddr (b : IfIdBus) : BitVec 5 := b.inst.extractLsb 11 7

def funct12 (b : IfIdBus) : BitVec 12 := b.inst.extractLsb 31 20

def isECALL (b : IfIdBus) : Bool :=
  b.inst.extractLsb 6 0 == 0x73#7 && funct12 b == CsrConsts.ECALL

def isMRET (b : IfIdBus) : Bool :=
  b.inst.extractLsb 6 0 == 0x73#7 && funct12 b == CsrConsts.MRET

def csrRaddr (b : IfIdBus) : BitVec 12 := if isMRET b then CsrConsts.Mepc else funct12 b

def fencei (d : Decoder) (b : IfIdBus) : Bool := (d.ctrlWord b.inst).decodeBundle.fencei

variable (d : Decoder) (s : Regs) (io : Inputs)

def stall : Bool := !io.newestDataGetable

def nop : Bool := s.fromIF.nop || stall io || s.hasFired || io.flush

def bypassData (t : BypassTypeEnum) (dataFromReg : Word) : Word :=
  match t with
  | .FromEXE => io.fromEXE
  | .FromMEM => io.fromMEM
  | .FromWB => io.fromWB
  | .FromREG => dataFromReg

def decodeBundle : DecodeBundle :=
  let b := (d.ctrlWord s.fromIF.inst).decodeBundle
  { b with
    regWrite := b.regWrite && !nop s io
    memRead := b.memRead &&& fill 4 (!nop s io)
    memWrite := b.memWrite &&& fill 4 (!nop s io) }

def excepVec : BitVec 16 :=
  setBit (setBit (setBit (setBit s.fromIF.excepVec
    ExceptionCodes.IllegalInstruction (!(d.ctrlWord s.fromIF.inst).legal))
    ExceptionCodes.UserEnvironmentCall (isECALL s.fromIF && io.privilege == .User))
    ExceptionCodes.MachineEnvironmentCall (isECALL s.fromIF && io.privilege == .Machine))
    ExceptionCodes.SupervisorEnvironmentCall (isECALL s.fromIF && io.privilege == .Supervisor)

def toEXE : IdExeBus where
  decodeBundle := decodeBundle d s io
  pc := s.fromIF.pc
  imm := ImmGen s.fromIF.inst (d.ctrlWord s.fromIF.inst).instType
  rs1Data := bypassData io io.bypassTypeA io.rs1DataFromReg
  rs2Data := bypassData io io.bypassTypeB io.rs2DataFromReg
  csrData := io.csrData
  funct12 := funct12 s.fromIF
  rd := rdAddr s.fromIF
  rs1 := rs1Addr s.fromIF
  nop := nop s io
  mret := isMRET s.fromIF
  branchPred := s.fromIF.branchPred
  predTarget := s.fromIF.predTarget
  btbHitInfo := s.fromIF.btbHitInfo
  btbInfo := s.fromIF.btbInfo
  excepVec := excepVec d s io
  inst := s.fromIF.inst
  isWFI := decide (Instructions.WFI.Matches s.fromIF.inst)

def fromIFReady : Bool := io.toEXEReady && !stall io

def fromIFFire : Bool := io.fromIFValid && fromIFReady io

/-- The handshake on the link to EXE, on which the stage is always valid. -/
def toEXEFire : Bool := io.toEXEReady

def reset : Regs := ⟨.zero, false⟩

def next (toID : IfIdBus) : Regs where
  fromIF := RegEnable toID (fromIFFire io) s.fromIF
  hasFired := if toEXEFire io && !fromIFFire io && !stall io then true
    else RegEnable false (toEXEFire io && fromIFFire io) s.hasFired

end ID

end FpgaNpc
