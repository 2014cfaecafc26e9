import FpgaNpc.Peripheral.Arbiter

open FpgaNpc.Hardware FpgaNpc.AXI4

namespace FpgaNpc.CLINT

structure Regs where
  msip : Word
  mtimecmp : BitVec 64
  mtime : BitVec 64
  rdata : Word
  rValid : Bool
  bValid : Bool
  msipNext : Bool
  mtipNext : Bool
  deriving DecidableEq

section Wires

variable (s : Regs) (io : Master)

def r : Irrevocable R := ⟨s.rValid, ⟨0, s.rdata, true, 1⟩⟩

def b : Irrevocable B := ⟨s.bValid, ⟨0, 1⟩⟩

def msip : Bool := s.msipNext

def mtip : Bool := s.mtipNext

def arFire : Bool := io.ar.valid

def awFire : Bool := io.aw.valid

def wFire : Bool := io.w.valid

def raddr : BitVec 16 := io.ar.bits.addr.setWidth 16

def waddr : BitVec 16 := io.aw.bits.addr.setWidth 16

def rdataNext : Word :=
  Mux1H [(raddr io == 0x0000, s.msip),
    (raddr io == 0x4000, s.mtimecmp.extractLsb' 0 32),
    (raddr io == 0x4004, s.mtimecmp.extractLsb' 32 32),
    (raddr io == 0xbff8, s.mtime.extractLsb' 0 32),
    (raddr io == 0xbffc, s.mtime.extractLsb' 32 32)]

def writes (a : BitVec 16) : Bool := awFire io && wFire io && waddr io == a

end Wires

/-- The bus is idle while the reset is applied; the other registers that `RegNext` makes have no
reset value. -/
structure IsReset (s : Regs) : Prop where
  msip : s.msip = 0
  mtimecmp : s.mtimecmp = 0xffffffffffffffff
  mtime : s.mtime = 0
  rValid : s.rValid = false
  bValid : s.bValid = false

def reset : Regs := ⟨0, 0xffffffffffffffff, 0, 0, false, false, false, false⟩

theorem isReset_reset : IsReset reset := by constructor <;> rfl

def next (s : Regs) (io : Master) : Regs where
  msip := if writes io 0x0000 then io.w.bits.data else s.msip
  mtimecmp :=
    if writes io 0x4000 then s.mtimecmp.extractLsb' 32 32 ++ io.w.bits.data
    else if writes io 0x4004 then io.w.bits.data ++ s.mtimecmp.extractLsb' 0 32
    else s.mtimecmp
  mtime :=
    if writes io 0xbff8 then s.mtime.extractLsb' 32 32 ++ io.w.bits.data
    else if writes io 0xbffc then io.w.bits.data ++ s.mtime.extractLsb' 0 32
    else s.mtime + 1
  rdata := rdataNext s io
  rValid := arFire io
  bValid := awFire io && wFire io
  msipNext := s.msip.getLsbD 0
  mtipNext := decide (s.mtimecmp < s.mtime)

def machine : Machine Regs Master where
  IsReset := IsReset
  next := next

end FpgaNpc.CLINT
