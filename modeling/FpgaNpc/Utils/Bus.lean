import FpgaNpc.Hardware.Chisel

open FpgaNpc.Hardware

namespace FpgaNpc

/-- The parameters of `RVConfig` that the circuit depends on; `xlen` and `nr_reg` are 32. -/
structure RVConfig where
  PC_INIT : Word

def RVConfig.elaborated : RVConfig := ⟨0x10000000⟩

namespace SRAMLike

structure SRAMLikeReq where
  wr : Bool
  size : BitVec 2
  addr : Word
  wdata : Word
  wstrb : BitVec 4
  len : BitVec 4
  deriving DecidableEq

structure SRAMLikeRResp where
  rdata : Word
  deriving DecidableEq

structure SRAMLikeWResp where
  resp : Bool
  deriving DecidableEq

def SRAMLikeReq.zero : SRAMLikeReq := ⟨false, 0, 0, 0, 0, 0⟩

end SRAMLike

namespace InterStage

structure JumpBus where
  jumpTarget : Word
  deriving DecidableEq

structure BTBLineInfo where
  lru : BitVec 1
  bia : BitVec 22 × BitVec 22
  tracker : BitVec 2 × BitVec 2
  bta : Word × Word
  deriving DecidableEq

def BTBLineInfo.zero : BTBLineInfo := ⟨0, (0, 0), (0, 0), (0, 0)⟩

structure DecodeBundle where
  aluSrc1 : BitVec 2
  aluSrc2 : BitVec 2
  aluOp : BitVec 4
  mulOp : BitVec 2
  divOp : BitVec 2
  bruOp : BitVec 3
  csrOp : BitVec 2
  amoOp : BitVec 4
  fuType : BitVec 4
  memWrite : BitVec 4
  memRead : BitVec 4
  memSignExt : Bool
  csrWrite : Bool
  regWrite : Bool
  fencei : Bool
  deriving DecidableEq

def DecodeBundle.zero : DecodeBundle :=
  ⟨0, 0, 0, 0, 0, 0, 0, 0, 0, 0, 0, false, false, false, false⟩

structure IfIdBus where
  pc : Word
  inst : Word
  nop : Bool
  branchPred : Bool
  predTarget : Word
  btbHitInfo : BitVec 2
  btbInfo : BTBLineInfo
  excepVec : BitVec 16
  deriving DecidableEq

def IfIdBus.zero : IfIdBus := ⟨0, 0, false, false, 0, 0, .zero, 0⟩

structure IdExeBus where
  decodeBundle : DecodeBundle
  pc : Word
  imm : Word
  rs1Data : Word
  rs2Data : Word
  csrData : Word
  funct12 : BitVec 12
  rd : BitVec 5
  rs1 : BitVec 5
  nop : Bool
  mret : Bool
  branchPred : Bool
  predTarget : Word
  btbHitInfo : BitVec 2
  btbInfo : BTBLineInfo
  excepVec : BitVec 16
  inst : Word
  isWFI : Bool
  deriving DecidableEq

def IdExeBus.zero : IdExeBus :=
  ⟨.zero, 0, 0, 0, 0, 0, 0, 0, 0, false, false, false, 0, 0, .zero, 0, 0, false⟩

structure ExeMemSignalsBundle where
  memRawMask : BitVec 4
  signExt : Bool
  regWriteData : Word
  memWriteData : Word
  regWrite : Bool
  memWrite : Bool
  memRead : Bool
  fuTypeAMO : Bool
  amoOp : BitVec 4
  deriving DecidableEq

def ExeMemSignalsBundle.zero : ExeMemSignalsBundle :=
  ⟨0, false, 0, 0, false, false, false, false, 0⟩

structure ExeMemBus where
  pc : Word
  rd : BitVec 5
  nop : Bool
  jumped : Bool
  inst : Word
  flushForIntr : Bool
  isWFI : Bool
  funct12 : BitVec 12
  mret : Bool
  controlSignals : ExeMemSignalsBundle
  excepVec : BitVec 16
  deriving DecidableEq

def ExeMemBus.zero : ExeMemBus :=
  ⟨0, 0, false, false, 0, false, false, 0, false, .zero, 0⟩

structure MemWbBus where
  pc : Word
  rd : BitVec 5
  funct12 : BitVec 12
  regWrite : Bool
  regWriteData : Word
  nop : Bool
  mret : Bool
  excepVec : BitVec 16
  jumped : Bool
  inst : Word
  flushForIntr : Bool
  deriving DecidableEq

def MemWbBus.zero : MemWbBus := ⟨0, 0, 0, false, 0, false, false, 0, false, 0, false⟩

end InterStage

structure BypassFrom where
  valid : Bool
  regWrite : Bool
  waddr : BitVec 5
  deriving DecidableEq

namespace ExceptionCodes

abbrev InstructionAddressMisaligned := 0
abbrev InstructionAccessFault := 1
abbrev IllegalInstruction := 2
abbrev Breakpoint := 3
abbrev LoadAddressMisaligned := 4
abbrev LoadAccessFault := 5
abbrev StoreAMOAddressMisaligned := 6
abbrev StoreAMOAccessFault := 7
abbrev UserEnvironmentCall := 8
abbrev SupervisorEnvironmentCall := 9
abbrev MachineEnvironmentCall := 11
abbrev InstructionPageFault := 12
abbrev LoadPageFault := 13
abbrev StoreAMOPageFault := 15

def ExcepPriority : List Nat :=
  [Breakpoint, InstructionPageFault, InstructionAccessFault, IllegalInstruction,
    InstructionAddressMisaligned, MachineEnvironmentCall, SupervisorEnvironmentCall,
    UserEnvironmentCall, LoadAddressMisaligned, StoreAMOAddressMisaligned, LoadPageFault,
    StoreAMOPageFault, LoadAccessFault, StoreAMOAccessFault]

end ExceptionCodes

end FpgaNpc
