import FpgaNpc.Sdram.Core

open FpgaNpc.Hardware FpgaNpc.Simulator.SDRAM

namespace FpgaNpc.Sdram

namespace Chip

/-- The states 0, 2, 3 and 4 of `sdramChisel`. -/
inductive State
  | idle | read | write | cas
  deriving DecidableEq

structure Regs where
  modeReg : BitVec 13
  state : State
  casCounter : BitVec 3
  burstCounter : BitVec 3
  aR : BitVec 13
  baR : BitVec 2
  deriving DecidableEq

def reset : Regs := ⟨0, .idle, 0, 0, 0, 0⟩

structure Pins where
  cke : Bool
  cmd : Cmd
  a : BitVec 13
  ba : BitVec 2
  dqm : BitVec 4

variable (s : Regs) (io : Pins)

def burstLength : BitVec 4 :=
  let bl : BitVec 3 := s.modeReg.setWidth 3
  if bl = 0 then 1
  else if bl = 1 then 2
  else if bl = 2 then 4
  else if bl = 3 then 8
  else 0

def casLast : Bool := s.casCounter = s.modeReg.extractLsb' 4 3 - 1

def burstLast : Bool := s.burstCounter.setWidth 4 = burstLength s - 1

def casNext : BitVec 3 := if casLast s then 0 else s.casCounter + 1

def burstNext : BitVec 3 := if burstLast s then 0 else s.burstCounter + 1

def burstA : BitVec 13 := s.aR + s.burstCounter.setWidth 13

def activeEnable : Bool := s.state = .idle && io.cmd = .ACTIVE

def readEnable : Bool := s.state = .read

def writeEnable : Bool := if s.state = .idle then io.cmd = .WRITE else s.state = .write

def writeA : BitVec 13 := if s.state = .idle then io.a else burstA s

/-- The registers, which stand still in reset until `cke` rises. -/
def next : Regs :=
  if io.cke then
    match s.state with
    | .idle =>
      match io.cmd with
      | .LOAD_MODE => { s with modeReg := io.a }
      | .READ => { s with state := .read, casCounter := casNext s, aR := io.a, baR := io.ba }
      | .WRITE =>
        { s with
          state := if burstLast s then .idle else .write
          burstCounter := burstNext s
          aR := io.a
          baR := io.ba }
      | _ => s
    | .cas => { s with state := if casLast s then .read else .cas, casCounter := casNext s }
    | .read => { s with state := if burstLast s then .idle else .read, burstCounter := burstNext s }
    | .write =>
      { s with state := if burstLast s then .idle else .write, burstCounter := burstNext s }
  else reset

def rdata (m : Option Ddr) : Option Word :=
  m.bind fun m => sdramRead m s.baR.toNat (burstA s).toNat

/-- What the three helpers make of the array in a cycle with `dq` on the data pins; nothing is left
of it once an assertion has failed. -/
def ddrNext (dq : Word) (m : Option Ddr) : Option Ddr :=
  if activeEnable s io then m.map fun m => sdramActive m io.ba.toNat io.a.toNat
  else if readEnable s then (rdata s m).bind fun _ => m
  else if writeEnable s io then
    m.bind fun m => sdramWrite m io.ba.toNat (writeA s io).toNat dq io.dqm
  else m

end Chip

structure Regs where
  core : Core.Regs
  chip : Chip.Regs
  ddr : Option Ddr

variable (s : Regs) (io : Core.Inport) (z : Word)

def pins : Chip.Pins := ⟨s.core.cke, s.core.command, s.core.addr, s.core.bank, s.core.dqm⟩

/-- The data pins, on which `z` stands while nobody drives them. -/
def dq : Word :=
  if !s.core.dataRdEn then s.core.data
  else if Chip.readEnable s.chip then (Chip.rdata s.chip s.ddr).getD 0
  else z

def next : Regs where
  core := Core.next s.core io (dq s z)
  chip := Chip.next s.chip (pins s)
  ddr := Chip.ddrNext s.chip (pins s) (dq s z) s.ddr

/-- The registers after reset, with an array that was loaded before. -/
def reset (m : Ddr) : Regs := ⟨Core.reset, Chip.reset, some m⟩

end FpgaNpc.Sdram
