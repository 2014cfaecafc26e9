import FpgaNpc.Hardware.Chisel

open FpgaNpc.Hardware

namespace FpgaNpc.Riscv

inductive AMOInst
  | AMOSWAP | AMOADD | AMOXOR | AMOAND | AMOOR | AMOMIN | AMOMAX | AMOMINU | AMOMAXU
  deriving DecidableEq

def AMOInst.result : AMOInst → Word → Word → Word
  | .AMOSWAP, _, b => b
  | .AMOADD, a, b => a + b
  | .AMOXOR, a, b => a ^^^ b
  | .AMOAND, a, b => a &&& b
  | .AMOOR, a, b => a ||| b
  | .AMOMIN, a, b => .ofInt 32 (min a.toInt b.toInt)
  | .AMOMAX, a, b => .ofInt 32 (max a.toInt b.toInt)
  | .AMOMINU, a, b => .ofNat 32 (min a.toNat b.toNat)
  | .AMOMAXU, a, b => .ofNat 32 (max a.toNat b.toNat)

variable {n : Nat}

theorem ofInt_min (a b : BitVec n) :
    BitVec.ofInt n (min a.toInt b.toInt) = if a.slt b then a else b := by
  by_cases h : a.toInt < b.toInt
  · simp [BitVec.slt, h, min_eq_left h.le]
  · simp [BitVec.slt, h, min_eq_right (not_lt.1 h)]

theorem ofInt_max (a b : BitVec n) :
    BitVec.ofInt n (max a.toInt b.toInt) = if b.slt a then a else b := by
  by_cases h : b.toInt < a.toInt
  · simp [BitVec.slt, h, max_eq_left h.le]
  · simp [BitVec.slt, h, max_eq_right (not_lt.1 h)]

theorem ofNat_min (a b : BitVec n) :
    BitVec.ofNat n (min a.toNat b.toNat) = if a.ult b then a else b := by
  by_cases h : a.toNat < b.toNat
  · simp [BitVec.ult, h, min_eq_left h.le]
  · simp [BitVec.ult, h, min_eq_right (not_lt.1 h)]

theorem ofNat_max (a b : BitVec n) :
    BitVec.ofNat n (max a.toNat b.toNat) = if b.ult a then a else b := by
  by_cases h : b.toNat < a.toNat
  · simp [BitVec.ult, h, max_eq_left h.le]
  · simp [BitVec.ult, h, max_eq_right (not_lt.1 h)]

end FpgaNpc.Riscv
