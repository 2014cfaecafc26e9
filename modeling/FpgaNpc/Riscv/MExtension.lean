import FpgaNpc.Hardware.Chisel

open FpgaNpc.Hardware

namespace FpgaNpc.Riscv

inductive DivInst
  | DIV | DIVU | REM | REMU
  deriving DecidableEq

def DivInst.result : DivInst → Word → Word → Word
  | .DIV, a, b => if b = 0 then -1 else .ofInt 32 (a.toInt.tdiv b.toInt)
  | .DIVU, a, b => if b = 0 then -1 else .ofNat 32 (a.toNat / b.toNat)
  | .REM, a, b => if b = 0 then a else .ofInt 32 (a.toInt.tmod b.toInt)
  | .REMU, a, b => if b = 0 then a else .ofNat 32 (a.toNat % b.toNat)

inductive MulInst
  | MUL | MULH | MULHSU | MULHU
  deriving DecidableEq

def MulInst.product : MulInst → Word → Word → Int
  | .MUL, a, b | .MULH, a, b => a.toInt * b.toInt
  | .MULHSU, a, b => a.toInt * b.toNat
  | .MULHU, a, b => a.toNat * b.toNat

/-- MUL keeps the lower half of the product and the others the upper half. -/
def MulInst.result (i : MulInst) (a b : Word) : Word :=
  if i = .MUL then .ofInt 32 (i.product a b) else .ofInt 32 (i.product a b / 2 ^ 32)

theorem ofInt_tdiv {n : Nat} (a b : BitVec n) :
    BitVec.ofInt n (a.toInt.tdiv b.toInt) = a.sdiv b := by
  apply BitVec.eq_of_toInt_eq
  rw [BitVec.toInt_sdiv, BitVec.toInt_ofInt]

theorem ofInt_tmod {n : Nat} (a b : BitVec n) :
    BitVec.ofInt n (a.toInt.tmod b.toInt) = a.srem b := by
  rw [← BitVec.toInt_srem, BitVec.ofInt_toInt]

theorem ofNat_div {n : Nat} (a b : BitVec n) :
    BitVec.ofNat n (a.toNat / b.toNat) = a / b := by
  rw [← BitVec.toNat_udiv, BitVec.ofNat_toNat, BitVec.setWidth_eq]

theorem ofNat_mod {n : Nat} (a b : BitVec n) :
    BitVec.ofNat n (a.toNat % b.toNat) = a % b := by
  rw [← BitVec.toNat_umod, BitVec.ofNat_toNat, BitVec.setWidth_eq]

end FpgaNpc.Riscv
