import FpgaNpc.Hardware.Machine
import FpgaNpc.Utils.Bus

open FpgaNpc.Hardware FpgaNpc.SRAMLike FpgaNpc.InterStage

namespace FpgaNpc.IF

structure Regs where
  reqFired : Bool
  PC : Word
  instGetted : Bool
  instReg : Word
  deriving DecidableEq

structure BranchPredResp where
  branchPred : Bool
  branchPredTarget : Word
  btbHitInfo : BitVec 2
  btbInfo : BTBLineInfo
  deriving DecidableEq

def BranchPredResp.zero : BranchPredResp := ⟨false, 0, 0, .zero⟩

structure InstPort where
  arReady : Bool
  r : Irrevocable SRAMLikeRResp

/-- The payload of `excepCMD` is the target of the redirect. -/
structure Inputs extends InstPort where
  jumpBus : Irrevocable JumpBus
  excepCMD : Irrevocable Word
  toIDReady : Bool
  flush : Bool
  branchPredResp : BranchPredResp

variable (config : RVConfig) (s : Regs) (port : InstPort) (io : Inputs)

def arFire : Bool := !s.reqFired && port.arReady

def rReady : Bool := port.r.valid && !s.instGetted

def rFire : Bool := port.r.valid && rReady s port

def instValid : Bool := rFire s port || s.instGetted

def reqValid : Bool := arFire s port || s.reqFired

def toIDValid : Bool := (instValid s port && reqValid s port) || s.PC == config.PC_INIT

def npc : Word :=
  PriorityMux [
    (io.excepCMD.valid, io.excepCMD.bits),
    (io.jumpBus.valid, io.jumpBus.bits.jumpTarget),
    (io.branchPredResp.branchPred, io.branchPredResp.branchPredTarget),
    (true, s.PC + 4)]

/-- The request to the instruction port, which takes no notice of `wdata` and `wstrb`. -/
def ar : Irrevocable SRAMLikeReq :=
  ⟨!s.reqFired, { SRAMLikeReq.zero with wr := false, size := 2, addr := npc s io, len := 0 }⟩

def toIDFire : Bool := toIDValid config s io.toInstPort && io.toIDReady

def jumpBusReady : Bool := toIDValid config s port

def excepCMDReady : Bool := toIDFire config s io && !s.reqFired

def toID : IfIdBus where
  pc := s.PC
  inst := if rFire s io.toInstPort then io.r.bits.rdata else s.instReg
  nop := s.PC == config.PC_INIT - 4 || io.flush
  branchPred := io.branchPredResp.branchPred
  predTarget := io.branchPredResp.branchPredTarget
  btbHitInfo := io.branchPredResp.btbHitInfo
  btbInfo := io.branchPredResp.btbInfo
  excepVec := setBit 0 ExceptionCodes.InstructionAddressMisaligned
    (orR (s.PC.extractLsb 1 0))

def reset : Regs := ⟨false, config.PC_INIT - 4, false, 0⟩

def next : Regs where
  reqFired := if arFire s io.toInstPort && !s.reqFired && !toIDFire config s io then true
    else RegEnable false (toIDFire config s io) s.reqFired
  PC := RegEnable (npc s io) (toIDFire config s io) s.PC
  instGetted := if rFire s io.toInstPort && !s.instGetted && !toIDFire config s io then true
    else RegEnable false (toIDFire config s io) s.instGetted
  instReg := RegEnable io.r.bits.rdata (rFire s io.toInstPort && !s.instGetted) s.instReg

def machine : Machine Regs Inputs where
  IsReset s := s = reset config
  next := next config

end FpgaNpc.IF
