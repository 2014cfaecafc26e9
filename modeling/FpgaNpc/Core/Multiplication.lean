import FpgaNpc.Core.EXE
import FpgaNpc.Core.Division

open FpgaNpc.Hardware FpgaNpc.ControlSignals FpgaNpc.InterStage FpgaNpc.Riscv

namespace FpgaNpc

def Riscv.MulInst.mulOp : MulInst → BitVec 2
  | .MUL => MULOp.MUL
  | .MULH => MULOp.MULH
  | .MULHSU => MULOp.MULHSU
  | .MULHU => MULOp.MULHU

namespace EXE

structure IsMulInst (b : IdExeBus) (inst : MulInst) : Prop where
  fuType : b.decodeBundle.fuType = FuType.MUL
  aluSrc1 : b.decodeBundle.aluSrc1 = OpASrc.RS1
  aluSrc2 : b.decodeBundle.aluSrc2 = OpBSrc.RS2
  mulOp : b.decodeBundle.mulOp = inst.mulOp

section Words

variable (x y : Word)

theorem toNat_abs : (abs x).toNat = x.toInt.natAbs := by
  have hlt := x.isLt
  rw [abs_eq, BitVec.msb_eq_decide, BitVec.toInt_eq_toNat_cond]
  by_cases h : 2 * x.toNat < 2 ^ 32
  · rw [if_neg (by simp only [decide_eq_true_eq]; omega), if_pos h]
    omega
  · rw [if_pos (by simp only [decide_eq_true_eq]; omega), if_neg h, BitVec.toNat_neg]
    omega

theorem getLsbD_31_eq : x.getLsbD 31 = decide (x.toInt < 0) := by
  rw [← BitVec.msb_eq_toInt, BitVec.msb_eq_getLsbD_last]

theorem twoComp_eq_ofInt {n : Nat} (en : Bool) (m : BitVec n) :
    twoComp en m = BitVec.ofInt n (if en then -m.toNat else m.toNat) := by
  rw [twoComp_eq]
  cases en
  · simp
  · simp [BitVec.ofInt_neg]

theorem mul_eq_natAbs (a b : Int) : a * b =
    if decide (a < 0) ^^ decide (b < 0) then -(a.natAbs * b.natAbs : Int)
    else a.natAbs * b.natAbs := by
  rcases lt_or_ge a 0 with ha | ha <;> rcases lt_or_ge b 0 with hb | hb
  · rw [Int.ofNat_natAbs_of_nonpos ha.le, Int.ofNat_natAbs_of_nonpos hb.le]
    simp [ha, hb]
  · rw [Int.ofNat_natAbs_of_nonpos ha.le, Int.natAbs_of_nonneg hb]
    simp [ha, not_lt.2 hb]
  · rw [Int.natAbs_of_nonneg ha, Int.ofNat_natAbs_of_nonpos hb.le]
    simp [hb, not_lt.2 ha]
  · rw [Int.natAbs_of_nonneg ha, Int.natAbs_of_nonneg hb]
    simp [not_lt.2 ha, not_lt.2 hb]

theorem extractLsb_ofInt_low (z : Int) :
    (BitVec.ofInt 64 z).extractLsb 31 0 = BitVec.ofInt 32 z := by
  apply BitVec.eq_of_toNat_eq
  simp only [BitVec.extractLsb_toNat, BitVec.toNat_ofInt]
  omega

theorem extractLsb_ofInt_high (z : Int) :
    (BitVec.ofInt 64 z).extractLsb 63 32 = BitVec.ofInt 32 (z / 2 ^ 32) := by
  apply BitVec.eq_of_toNat_eq
  simp only [BitVec.extractLsb_toNat, BitVec.toNat_ofInt]
  omega

end Words

section Operands

variable {b : IdExeBus} {inst : MulInst} {product : BitVec 64}

theorem IsMulInst.opA (h : IsMulInst b inst) : opA b = b.rs1Data := by
  simp [EXE.opA, Mux1H, h.aluSrc1]

theorem IsMulInst.opB (h : IsMulInst b inst) : opB b = b.rs2Data := by
  simp [EXE.opB, Mux1H, h.aluSrc2]

theorem IsMulInst.twoComp_product (h : IsMulInst b inst)
    (hp : product.toNat = (mulAbsOpA b).toNat * (mulAbsOpB b).toNat) :
    twoComp (mulSigned b && isMultResultNeg b) product =
      BitVec.ofInt 64 (inst.product b.rs1Data b.rs2Data) := by
  have hunsigned (n : Nat) : ¬(n : Int) < 0 := by omega
  rw [twoComp_eq_ofInt, hp]
  congr 1
  cases inst
  case MULHU =>
    simp [mulSigned, mulSignedOpA, mulSignedOpB, mulAbsOpA, mulAbsOpB, h.mulOp, h.opA, h.opB,
      MulInst.mulOp, MulInst.product]
  all_goals
    rw [MulInst.product, mul_eq_natAbs]
    simp [mulSigned, mulSignedOpA, mulSignedOpB, mulAbsOpA, mulAbsOpB, isMultResultNeg, h.mulOp,
      h.opA, h.opB, MulInst.mulOp, getLsbD_31_eq, toNat_abs, hunsigned, -BitVec.getLsbD_eq_getElem]

theorem IsMulInst.mulRes_eq (h : IsMulInst b inst)
    (hp : product.toNat = (mulAbsOpA b).toNat * (mulAbsOpB b).toNat) :
    mulRes b product = inst.result b.rs1Data b.rs2Data := by
  rw [mulRes, h.twoComp_product hp, h.mulOp, MulInst.result]
  cases inst
  case MUL => exact extractLsb_ofInt_low _
  all_goals exact extractLsb_ofInt_high _

end Operands

end EXE

end FpgaNpc
