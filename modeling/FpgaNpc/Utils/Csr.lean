import FpgaNpc.Utils.Bus

open FpgaNpc.Hardware FpgaNpc.ExceptionCodes

namespace FpgaNpc

namespace CsrConsts
abbrev Mstatus : BitVec 12 := 0x300
abbrev Mie : BitVec 12 := 0x304
abbrev Mip : BitVec 12 := 0x344
abbrev Mtvec : BitVec 12 := 0x305
abbrev Menvcfg : BitVec 12 := 0x30a
abbrev Mscratch : BitVec 12 := 0x340
abbrev Mepc : BitVec 12 := 0x341
abbrev Mcause : BitVec 12 := 0x342
abbrev Mtval : BitVec 12 := 0x343
abbrev Pmpcfg0 : BitVec 12 := 0x3a0
abbrev Pmpaddr0 : BitVec 12 := 0x3b0
abbrev Mvendorid : BitVec 12 := 0xf11
abbrev Marchid : BitVec 12 := 0xf12
abbrev Mimpid : BitVec 12 := 0xf13
abbrev Mhartid : BitVec 12 := 0xf14
abbrev ECALL : BitVec 12 := 0x000
abbrev MRET : BitVec 12 := 0x302

abbrev IRQ_SEIP := 1
abbrev IRQ_MEIP := 3
abbrev IRQ_STIP := 5
abbrev IRQ_MTIP := 7
abbrev IRQ_SSIP := 9
abbrev IRQ_MSIP := 11

def IntPriority : List Nat := [IRQ_MEIP, IRQ_MSIP, IRQ_MTIP, IRQ_SEIP, IRQ_SSIP, IRQ_STIP]
end CsrConsts

inductive PRIV
  | User | Supervisor | Reserved | Machine
  deriving DecidableEq

def PRIV.asUInt : PRIV → BitVec 2
  | .User => 0
  | .Supervisor => 1
  | .Reserved => 2
  | .Machine => 3

def PRIV.ofUInt (x : BitVec 2) : PRIV :=
  if x = 0 then .User else if x = 1 then .Supervisor else if x = 2 then .Reserved else .Machine

namespace CSRRegFile

open CsrConsts

structure Regs where
  privilege : PRIV
  mstatus : Word
  mie : Word
  mipReg : Word
  mtvec : Word
  menvcfg : Word
  mscratch : Word
  mepc : Word
  mcause : Word
  mtval : Word
  pmpcfg0 : Word
  pmpaddr0 : Word
  mvendorid : Word
  marchid : Word
  mimpid : Word
  mhartid : Word
  hadInterrupt : Bool
  flushQ : FlowQueue Bool
  deriving DecidableEq

def reset : Regs where
  privilege := .Machine
  mstatus := 0x00001800
  mie := 0
  mipReg := 0
  mtvec := 0
  menvcfg := 0
  mscratch := 0
  mepc := 0
  mcause := 0
  mtval := 0
  pmpcfg0 := 0
  pmpaddr0 := 0
  mvendorid := 0x79737978
  marchid := 0x23060051
  mimpid := 0
  mhartid := 0
  hadInterrupt := false
  flushQ := none

structure InterruptSimple where
  eip : Bool
  tip : Bool
  sip : Bool
  deriving DecidableEq

structure ExcepCMD where
  excepVec : BitVec 16
  mret : Bool
  pc : Word
  deriving DecidableEq

structure CSRWritePort where
  wen : Bool
  waddr : BitVec 12
  wdata : Word
  deriving DecidableEq

/-- What the stages and the interrupt controller drive. `setMtval` is the wire from MEM. -/
structure Inputs where
  interrupt : InterruptSimple
  writePort : CSRWritePort
  excepCmd : ExcepCMD
  intrCmd : Irrevocable Word
  redirectReady : Bool
  setMtval : Bool
  setMtval_val : Word

variable (s : Regs) (io : Inputs)

def mipWire (i : InterruptSimple) : BitVec 12 :=
  setBit (setBit (setBit 0 3 i.sip) 7 i.tip) 11 i.eip

def mip (i : InterruptSimple) : BitVec 12 := mipWire i ||| s.mipReg.setWidth 12

def firstOf {n : Nat} (v : BitVec n) : List Nat → Nat
  | [] => 0
  | i :: is => if v.getLsbD i then i else firstOf v is

def intrVec (i : InterruptSimple) : BitVec 12 := s.mie.extractLsb 11 0 &&& mip s i

def intrNo (i : InterruptSimple) : Nat := firstOf (intrVec s i) IntPriority

def raiseIntr (i : InterruptSimple) : Bool := orR (intrVec s i) && s.mstatus.getLsbD 3

def raiseExcep (cmd : ExcepCMD) : Bool := orR cmd.excepVec

def excepNo (cmd : ExcepCMD) : Nat := firstOf cmd.excepVec ExcepPriority

def causeNO : Word :=
  (bit (raiseIntr s io.interrupt) ++ (0 : BitVec 31)) |||
    .ofNat 32 (if raiseIntr s io.interrupt then intrNo s io.interrupt else excepNo io.excepCmd)

def tvalClear : Bool :=
  !(excepNo io.excepCmd == InstructionAccessFault ||
    excepNo io.excepCmd == InstructionAddressMisaligned ||
    excepNo io.excepCmd == LoadAccessFault ||
    excepNo io.excepCmd == LoadAddressMisaligned ||
    excepNo io.excepCmd == StoreAMOAccessFault ||
    excepNo io.excepCmd == StoreAMOAddressMisaligned) || raiseIntr s io.interrupt

def raiseIntrExcep (i : InterruptSimple) (cmd : ExcepCMD) (intrCmdValid : Bool) : Bool :=
  raiseExcep cmd || (raiseIntr s i && intrCmdValid)

def redirectValid (i : InterruptSimple) (cmd : ExcepCMD) (intrCmdValid : Bool) : Bool :=
  s.flushQ.deqValid (raiseIntrExcep s i cmd intrCmdValid || cmd.mret)

def redirectTarget (i : InterruptSimple) (cmd : ExcepCMD) (intrCmdValid : Bool) : Word :=
  if s.flushQ.deqBits (raiseIntrExcep s i cmd intrCmdValid) then s.mtvec else s.mepc

def intrCmdReady (i : InterruptSimple) (cmd : ExcepCMD) (intrCmdValid : Bool) : Bool :=
  (raiseIntr s i || s.hadInterrupt) && redirectValid s i cmd intrCmdValid && intrCmdValid

def redirectFire : Bool :=
  redirectValid s io.interrupt io.excepCmd io.intrCmd.valid && io.redirectReady

def MaskData (oldData newData fullmask : Word) : Word :=
  (newData &&& fullmask) ||| (oldData &&& ~~~fullmask)

/-- All bits but 31, 30 to 23, 16, 15, 6, 4, 2 and 0. -/
def mstatusMask : Word := 0x007e7faa

def rdata (i : InterruptSimple) (raddr : BitVec 12) : Word :=
  Mux1H [
    (raddr == Mstatus, s.mstatus),
    (raddr == Mie, s.mie),
    (raddr == Mip, (mip s i).setWidth 32),
    (raddr == Mtvec, s.mtvec),
    (raddr == Menvcfg, s.menvcfg),
    (raddr == Mscratch, s.mscratch),
    (raddr == Mepc, s.mepc),
    (raddr == Mcause, s.mcause),
    (raddr == Mtval, s.mtval),
    (raddr == Pmpcfg0, s.pmpcfg0),
    (raddr == Pmpaddr0, s.pmpaddr0),
    (raddr == Mvendorid, s.mvendorid),
    (raddr == Marchid, s.marchid),
    (raddr == Mimpid, s.mimpid),
    (raddr == Mhartid, s.mhartid)]

/-- `when(setMtval)` -/
def setMtvalStep (s : Regs) : Regs :=
  if io.setMtval then { s with mtval := io.setMtval_val } else s

/-- `handle mret`; the old values are those of `s`. -/
def mretStep (s t : Regs) : Regs :=
  if io.excepCmd.mret then
    { t with
      privilege := .ofUInt (s.mstatus.extractLsb 12 11)
      mstatus := setBit (setBit (setBit (setBit s.mstatus 3 (s.mstatus.getLsbD 7)) 7 true)
        11 false) 12 false }
  else t

/-- `handle interrupt and exception`; the old values are those of `s`. -/
def trapStep (s t : Regs) : Regs :=
  if raiseIntrExcep s io.interrupt io.excepCmd io.intrCmd.valid then
    { t with
      mcause := causeNO s io
      mepc := if raiseIntr s io.interrupt then io.intrCmd.bits else io.excepCmd.pc
      privilege := .Machine
      mstatus := setBit (setBit (setBit (setBit s.mstatus 7 (s.mstatus.getLsbD 3)) 3 false)
        11 (s.privilege.asUInt.getLsbD 0)) 12 (s.privilege.asUInt.getLsbD 1)
      mtval := if tvalClear s io then 0 else t.mtval }
  else t

/-- `MaskedRegMap.generate`: a register that the port writes, over what was chosen before. -/
def portWrite (addr : BitVec 12) (wmask old chosen : Word) : Word :=
  if io.writePort.wen && io.writePort.waddr == addr then
    MaskData old io.writePort.wdata wmask else chosen

def writeStep (s t : Regs) : Regs :=
  { t with
    mstatus := portWrite io Mstatus mstatusMask s.mstatus t.mstatus
    mie := portWrite io Mie (.allOnes 32) s.mie t.mie
    mtvec := portWrite io Mtvec (.allOnes 32) s.mtvec t.mtvec
    menvcfg := portWrite io Menvcfg (.allOnes 32) s.menvcfg t.menvcfg
    mscratch := portWrite io Mscratch (.allOnes 32) s.mscratch t.mscratch
    mepc := portWrite io Mepc (.allOnes 32) s.mepc t.mepc
    mcause := portWrite io Mcause (.allOnes 32) s.mcause t.mcause
    mtval := portWrite io Mtval (.allOnes 32) s.mtval t.mtval
    pmpcfg0 := portWrite io Pmpcfg0 (.allOnes 32) s.pmpcfg0 t.pmpcfg0
    pmpaddr0 := portWrite io Pmpaddr0 (.allOnes 32) s.pmpaddr0 t.pmpaddr0 }

/-- The later of two connections to a register wins, so the steps are taken in the order of
the source. -/
def next : Regs :=
  { writeStep io s (trapStep io s (mretStep io s (setMtvalStep io s))) with
    hadInterrupt := if raiseIntr s io.interrupt then true
      else if redirectFire s io then false else s.hadInterrupt
    flushQ := s.flushQ.next
      (raiseIntrExcep s io.interrupt io.excepCmd io.intrCmd.valid || io.excepCmd.mret)
      (raiseIntrExcep s io.interrupt io.excepCmd io.intrCmd.valid) io.redirectReady }

end CSRRegFile

end FpgaNpc
