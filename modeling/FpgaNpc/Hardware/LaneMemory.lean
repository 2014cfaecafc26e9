import FpgaNpc.Hardware.Chisel

universe u

namespace FpgaNpc.Hardware

def lane (i : Nat) (x : Word) : BitVec 8 := x.extractLsb' (8 * i) 8

theorem getLsbD_lane (i j : Nat) (x : Word) :
    (lane i x).getLsbD j = (decide (j < 8) && x.getLsbD (8 * i + j)) := by
  rw [lane, BitVec.getLsbD_extractLsb']

theorem lane_append_two (x : Word) : lane 1 x ++ lane 0 x = x.setWidth 16 := by
  rw [BitVec.setWidth_eq_extractLsb' (by decide)]
  exact BitVec.extractLsb'_append_extractLsb'_eq_extractLsb' rfl

theorem lane_append_four (x : Word) : lane 3 x ++ lane 2 x ++ lane 1 x ++ lane 0 x = x := by
  have h32 : lane 3 x ++ lane 2 x = x.extractLsb' 16 16 :=
    BitVec.extractLsb'_append_extractLsb'_eq_extractLsb' rfl
  have h321 : x.extractLsb' 16 16 ++ lane 1 x = x.extractLsb' 8 24 :=
    BitVec.extractLsb'_append_extractLsb'_eq_extractLsb' rfl
  rw [h32, h321]
  exact BitVec.extractLsb'_append_extractLsb'

theorem lane_bytes (b : Nat → BitVec 8) {i : Nat} (hi : i < 4) :
    lane i (b 3 ++ b 2 ++ b 1 ++ b 0) = b i := by
  refine BitVec.eq_of_getLsbD_eq fun j hj => ?_
  rw [getLsbD_lane]
  simp only [BitVec.getLsbD_append, hj, decide_true, Bool.true_and]
  obtain rfl | rfl | rfl | rfl : i = 0 ∨ i = 1 ∨ i = 2 ∨ i = 3 := by omega
  · rw [if_pos (by omega), Nat.mul_zero, Nat.zero_add]
  · rw [if_neg (by omega), if_pos (by omega), show 8 * 1 + j - 8 = j by omega]
  · rw [if_neg (by omega), if_neg (by omega), if_pos (by omega),
      show 8 * 2 + j - 8 - 8 = j by omega]
  · rw [if_neg (by omega), if_neg (by omega), if_neg (by omega),
      show 8 * 3 + j - 8 - 8 - 8 = j by omega]

def wordOf (x : Word) : BitVec 30 := x.extractLsb' 2 30

def laneOf (x : Word) : Nat := x.toNat % 4

theorem laneOf_lt (x : Word) : laneOf x < 4 := Nat.mod_lt _ (by decide)

theorem toNat_wordOf (x : Word) : (wordOf x).toNat = x.toNat / 4 := by
  have := x.isLt
  simp only [wordOf, BitVec.extractLsb'_toNat, Nat.shiftRight_eq_div_pow]
  omega

theorem wordOf_eq_iff {x y : Word} : wordOf x = wordOf y ↔ x.toNat / 4 = y.toNat / 4 := by
  rw [← BitVec.toNat_inj, toNat_wordOf, toNat_wordOf]

/-- A memory of words: a write replaces the lanes that its strobe names, in the word that it
addresses. -/
structure LaneMemory (σ : Type u) where
  word : σ → BitVec 30 → Word
  write : σ → BitVec 30 → Word → BitVec 4 → σ
  lane_write : ∀ m a data strb b, ∀ i < 4, lane i (word (write m a data strb) b) =
    if b = a ∧ strb.getLsbD i = true then lane i data else lane i (word m b)

namespace LaneMemory

variable {σ : Type u} (M : LaneMemory σ) (m : σ)

/-- The memory as bytes, the least significant lane of a word at the least address. -/
def bytes (x : Word) : BitVec 8 := lane (laneOf x) (M.word m (wordOf x))

theorem bytes_write (a : BitVec 30) (data : Word) (strb : BitVec 4) (x : Word) :
    M.bytes (M.write m a data strb) x =
      if wordOf x = a ∧ strb.getLsbD (laneOf x) = true then lane (laneOf x) data
      else M.bytes m x :=
  M.lane_write m a data strb (wordOf x) _ (laneOf_lt x)

theorem bytes_add {x : Word} {k : Nat} (h : laneOf x + k < 4) :
    M.bytes m (x + BitVec.ofNat 32 k) = lane (laneOf x + k) (M.word m (wordOf x)) := by
  have hlt := x.isLt
  rw [laneOf] at h
  have hsum : (x + BitVec.ofNat 32 k).toNat = x.toNat + k := by
    rw [BitVec.toNat_add, BitVec.toNat_ofNat]
    omega
  have hword : wordOf (x + BitVec.ofNat 32 k) = wordOf x := by
    rw [wordOf_eq_iff, hsum]
    omega
  have hlane : laneOf (x + BitVec.ofNat 32 k) = laneOf x + k := by
    rw [laneOf, laneOf, hsum]
    omega
  rw [bytes, hword, hlane]

end LaneMemory

end FpgaNpc.Hardware
