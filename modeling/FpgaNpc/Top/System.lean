import FpgaNpc.Core.Pipeline
import FpgaNpc.Top.Memory

open FpgaNpc.Hardware FpgaNpc.SRAMLike

namespace FpgaNpc.Top

structure Regs where
  core : Core.Regs
  icache : ICache.Regs
  arbiter : Arbiter.Regs
  memory : Memory.Regs

/-- What the memory chooses to do, what the branch predictor and the interrupt controller drive,
and what the RAMs do with a read of a word being written. -/
structure Inputs where
  memory : Memory.Inputs
  branchPredResp : IF.BranchPredResp
  btbReady : Bool
  interrupt : CSRRegFile.InterruptSimple
  infoReadNew : Bool
  dataReadNew : ICache.Way → Bool

variable (B : Core.Build) (image : BitVec 30 → Word) (s : Regs) (io : Inputs)

/-- What the arbiter gets, except for what depends on its own responses. -/
def requests : Arbiter.Inputs where
  ibusReq := ICache.arToMem s.icache
  ibusRespReady := false
  dbusReq := MEM.req s.core.memStage
  dbusRRespReady := false
  dbusWRespReady := false
  arReady := io.memory.arReady
  r := Memory.r image s.memory io.memory
  awReady := io.memory.awReady
  wReady := io.memory.wReady
  b := Memory.b s.memory io.memory

def dbus : MEM.Inputs where
  reqReady := Arbiter.dbusReqReady s.arbiter (requests image s io)
  rResp := Arbiter.dbusRResp s.arbiter (requests image s io)
  wResp := Arbiter.dbusWResp s.arbiter (requests image s io)

def coreInputs : Core.Inputs where
  port := ⟨ICache.arFromIFReady s.icache, ICache.rToIF s.icache⟩
  branchPredResp := io.branchPredResp
  btbReady := io.btbReady
  dbus := dbus image s io
  interrupt := io.interrupt

def ifInputs : IF.Inputs := Core.ifInputs B s.core (coreInputs image s io)

def icacheInputs : ICache.Inputs where
  arFromIF := IF.ar s.core.ifStage (ifInputs B image s io)
  rToIFReady := IF.rReady s.core.ifStage (coreInputs image s io).port
  arToMemReady := Arbiter.ibusReqReady s.arbiter (requests image s io)
  rFromMem := Arbiter.ibusResp s.arbiter (requests image s io)
  fencei := ID.fencei B.decoder s.core.idStage.fromIF
  infoReadNew := io.infoReadNew
  dataReadNew := io.dataReadNew

def toMEMValid : Bool :=
  EXE.toMEMValid s.core.exeStage (Core.exeInputs B s.core (coreInputs image s io))

def arbiterInputs : Arbiter.Inputs :=
  { requests image s io with
    ibusRespReady := ICache.rFromMemReady (icacheInputs B image s io)
    dbusRRespReady :=
      MEM.rRespReady s.core.memStage (dbus image s io) (toMEMValid B image s io)
    dbusWRespReady :=
      MEM.wRespReady s.core.memStage (dbus image s io) (toMEMValid B image s io) }

def bus : AXI4.Master where
  ar := ⟨Arbiter.arValid s.arbiter (arbiterInputs B image s io),
    Arbiter.arBits s.arbiter (arbiterInputs B image s io)⟩
  rReady := Arbiter.rReady s.arbiter (arbiterInputs B image s io)
  aw := Arbiter.aw s.arbiter (arbiterInputs B image s io)
  w := Arbiter.w s.arbiter (arbiterInputs B image s io)
  bReady := Arbiter.bReady s.arbiter

def next : Regs where
  core := Core.next B s.core (coreInputs image s io)
  icache := ICache.next s.icache (icacheInputs B image s io)
  arbiter := Arbiter.next s.arbiter (arbiterInputs B image s io)
  memory := Memory.next image s.memory io.memory (bus B image s io)

structure IsReset : Prop where
  core : Core.IsReset B s.core
  icache : ICache.IsReset s.icache
  arbiter : s.arbiter = Arbiter.reset
  memory : s.memory = Memory.reset

def machine : Machine Regs Inputs where
  IsReset := IsReset B
  next := next B image

def Regs.reset (x : Word) : Regs := ⟨.reset B x, .reset, Arbiter.reset, Memory.reset⟩

theorem isReset_reset (x : Word) : IsReset B (.reset B x) :=
  ⟨Core.isReset_reset B x, ⟨fun _ _ => rfl, rfl, rfl, rfl, rfl, rfl, rfl, rfl⟩, rfl, rfl⟩

end FpgaNpc.Top
