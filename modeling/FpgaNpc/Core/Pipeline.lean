import FpgaNpc.Core.EXE
import FpgaNpc.Core.ID
import FpgaNpc.Core.IF
import FpgaNpc.Core.MEM
import FpgaNpc.Core.WB

open FpgaNpc.Hardware FpgaNpc.InterStage

namespace FpgaNpc.Core

/-- What the core is built from: its parameters, the logic that the decoder was minimised to,
and the latencies of the multiplier and the divider. -/
structure Build where
  config : RVConfig
  decoder : Decoder
  mulLatency : Nat
  divLatency : Nat

def Build.elaborated (decoder : Decoder) : Build := ⟨.elaborated, decoder, 2, 34⟩

structure Regs where
  ifStage : IF.Regs
  idStage : ID.Regs
  exeStage : EXE.Regs
  memStage : MEM.Regs
  /-- The register that `StageConnect` puts on the link to WB. -/
  fromMEM : MemWbBus
  regFiles : RegFiles
  csrRegs : CSRRegFile.Regs

structure Inputs where
  port : IF.InstPort
  branchPredResp : IF.BranchPredResp
  btbReady : Bool
  dbus : MEM.Inputs
  interrupt : CSRRegFile.InterruptSimple

variable (B : Build) (s : Regs) (io : Inputs)

def interCMDValid : Bool := EXE.interCMDValid s.exeStage (MEM.flush2EXE s.memStage)

def csrCmd : CSRRegFile.ExcepCMD := WB.csrCmd s.fromMEM

def redirectValid : Bool :=
  CSRRegFile.redirectValid s.csrRegs io.interrupt (csrCmd s) (interCMDValid s)

def interrupt : Bool :=
  CSRRegFile.intrCmdReady s.csrRegs io.interrupt (csrCmd s) (interCMDValid s)

def exeInputs : EXE.Inputs where
  flushFromMEM := MEM.flush2EXE s.memStage
  interrupt := interrupt s io
  toMEMReady := MEM.fromEXEReady s.memStage io.dbus
  jumpBusReady := IF.jumpBusReady B.config s.ifStage io.port
  btbReady := io.btbReady

def flush : Bool := EXE.flush s.exeStage (exeInputs B s io) || redirectValid s io

def bypassType (rs : BitVec 5) : BypassTypeEnum :=
  BypassNetwork.bypassType (EXE.bypass s.exeStage (exeInputs B s io))
    (MEM.bypass s.memStage io.dbus) (WB.bypass s.fromMEM) rs

def idInputs : ID.Inputs where
  fromIFValid := IF.toIDValid B.config s.ifStage io.port
  toEXEReady := EXE.fromIDReady s.exeStage (exeInputs B s io)
  flush := flush B s io
  newestDataGetable :=
    BypassNetwork.newestDataGetable (EXE.bypass s.exeStage (exeInputs B s io))
      (MEM.bypass s.memStage io.dbus) (WB.bypass s.fromMEM) (ID.rs1Addr s.idStage.fromIF)
      (ID.rs2Addr s.idStage.fromIF)
  bypassTypeA := bypassType B s io (ID.rs1Addr s.idStage.fromIF)
  bypassTypeB := bypassType B s io (ID.rs2Addr s.idStage.fromIF)
  fromEXE := EXE.regWdata s.exeStage
  fromMEM := MEM.regWdata s.memStage io.dbus
  fromWB := WB.regWdata s.fromMEM
  rs1DataFromReg := s.regFiles.read (ID.rs1Addr s.idStage.fromIF)
  rs2DataFromReg := s.regFiles.read (ID.rs2Addr s.idStage.fromIF)
  csrData := CSRRegFile.rdata s.csrRegs io.interrupt (ID.csrRaddr s.idStage.fromIF)
  privilege := s.csrRegs.privilege

def ifInputs : IF.Inputs where
  toInstPort := io.port
  jumpBus := EXE.jumpBus s.exeStage (exeInputs B s io)
  excepCMD := ⟨redirectValid s io,
    CSRRegFile.redirectTarget s.csrRegs io.interrupt (csrCmd s) (interCMDValid s)⟩
  toIDReady := ID.fromIFReady (idInputs B s io)
  flush := flush B s io
  branchPredResp := io.branchPredResp

def csrInputs : CSRRegFile.Inputs where
  interrupt := io.interrupt
  writePort := ⟨EXE.csrWen s.exeStage (exeInputs B s io), s.exeStage.fromID.funct12,
    EXE.csrRes s.exeStage.fromID⟩
  excepCmd := csrCmd s
  intrCmd := ⟨interCMDValid s, s.exeStage.fromID.pc⟩
  redirectReady := IF.excepCMDReady B.config s.ifStage (ifInputs B s io)
  setMtval := MEM.setMtval s.memStage
  setMtval_val := MEM.vaddr s.memStage

/-- What each stage puts on its link, and whether the link handshakes. -/
def toID : IfIdBus := IF.toID B.config s.ifStage (ifInputs B s io)

def toIDFire : Bool := ID.fromIFFire (idInputs B s io)

def toEXE : IdExeBus := ID.toEXE B.decoder s.idStage (idInputs B s io)

def toEXEFire : Bool := ID.toEXEFire (idInputs B s io)

def toMEM : ExeMemBus := EXE.toMEM s.exeStage (exeInputs B s io)

def toMEMFire : Bool := EXE.toMEMFire s.exeStage (exeInputs B s io)

def toWB : MemWbBus := MEM.toWB s.memStage io.dbus

def toWBFire : Bool := MEM.toWBFire s.memStage io.dbus

def next : Regs where
  ifStage := IF.next B.config s.ifStage (ifInputs B s io)
  idStage := ID.next s.idStage (idInputs B s io) (toID B s io)
  exeStage :=
    EXE.next s.exeStage (exeInputs B s io) B.mulLatency B.divLatency (toEXE B s io)
  memStage := MEM.next s.memStage io.dbus (EXE.toMEMValid s.exeStage (exeInputs B s io))
    (toMEM B s io)
  fromMEM := RegEnable (toWB s io) (toWBFire s io) s.fromMEM
  regFiles := s.regFiles.write (WB.writePortWen s.fromMEM) s.fromMEM.rd (WB.regWdata s.fromMEM)
  csrRegs := CSRRegFile.next s.csrRegs (csrInputs B s io)

/-- The state after reset. The general registers and the results of the multiplier and the
divider have no reset value. -/
structure IsReset : Prop where
  ifStage : s.ifStage = IF.reset B.config
  idStage : s.idStage = ID.reset
  exeStage : ∃ product quotientRemainder, s.exeStage =
    ⟨.zero, false, ⟨false, 0, product⟩, ⟨false, 0, quotientRemainder⟩, false, false, false,
      false⟩
  memStage : s.memStage = MEM.reset
  fromMEM : s.fromMEM = .zero
  csrRegs : s.csrRegs = CSRRegFile.reset

def machine : Machine Regs Inputs where
  IsReset := IsReset B
  next := next B

variable {B}

/-- A build whose decoder takes every don't-care as zero. -/
def Build.zeros : Build := .elaborated (.resolve ⟨0, .zero, false⟩)

def Regs.reset (B : Build) (x : Word) : Regs :=
  ⟨IF.reset B.config, ID.reset, .reset, MEM.reset, .zero, fun _ => x, CSRRegFile.reset⟩

theorem isReset_reset (B : Build) (x : Word) : IsReset B (.reset B x) :=
  ⟨rfl, rfl, ⟨0, (0, 0), rfl⟩, rfl, rfl, rfl⟩

def Inputs.idle : Inputs where
  port := ⟨false, ⟨false, ⟨0⟩⟩⟩
  branchPredResp := .zero
  btbReady := true
  dbus := ⟨false, ⟨false, ⟨0⟩⟩, ⟨false, ⟨false⟩⟩⟩
  interrupt := ⟨false, false, false⟩

def Inputs.request : Inputs := { Inputs.idle with port := ⟨true, ⟨false, ⟨0⟩⟩⟩ }

def Inputs.fetch (inst : Word) : Inputs := { Inputs.idle with port := ⟨true, ⟨true, ⟨inst⟩⟩⟩ }

/-- csrrw x0, mie, x1; csrrw x0, mstatus, x1. Each has the two instructions after it flushed,
and the first of them is fetched again. -/
def enableInterrupts : List Inputs :=
  [.request, .fetch 0x30409073, .request, .fetch 0x13, .fetch 0x13, .fetch 0x30009073, .fetch 0x13,
    .fetch 0x13]

end FpgaNpc.Core
