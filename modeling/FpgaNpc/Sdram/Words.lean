import FpgaNpc.Simulator.SDRAM
import FpgaNpc.Utils.RegMap

open FpgaNpc.Hardware

namespace FpgaNpc.Simulator.SDRAM

def wordIndex (ram_addr : Word) : BitVec 23 := ram_addr.extractLsb' 2 23

/-- The first byte of a word in the array, where the banks take turns row by row. -/
def firstByte (w : BitVec 23) : Nat :=
  elem (w.toNat / 256 % 4) (w.toNat / 1024) (w.toNat % 256) 0

def image (m : Ddr) (w : BitVec 23) : Word :=
  m.sdram (firstByte w + 3) ++ m.sdram (firstByte w + 2) ++ m.sdram (firstByte w + 1) ++
    m.sdram (firstByte w)

def strobes : List (BitVec 4) := [0b0001, 0b0010, 0b0100, 0b1000, 0b0011, 0b1100, 0b1111]

theorem word_ext {x y : Word} (h : ∀ i < 4, lane i x = lane i y) : x = y := by
  rw [← lane_append_four x, ← lane_append_four y, h 0 (by decide), h 1 (by decide),
    h 2 (by decide), h 3 (by decide)]

theorem lane_image {m : Ddr} {w : BitVec 23} {i : Nat} (hi : i < 4) :
    lane i (image m w) = m.sdram (firstByte w + i) :=
  lane_bytes (fun i => m.sdram (firstByte w + i)) hi

theorem toNat_wordIndex (x : Word) : (wordIndex x).toNat = x.toNat / 4 % 8388608 := by
  simp [wordIndex, BitVec.extractLsb'_toNat, Nat.shiftRight_eq_div_pow]

theorem firstByte_eq (w : BitVec 23) : firstByte w =
    w.toNat / 256 % 4 * 16777216 + w.toNat / 1024 * 2048 + w.toNat % 256 * 4 := by
  simp [firstByte, elem_eq]

theorem firstByte_wordIndex (x : Word) : firstByte (wordIndex x) =
    elem (addr_bank x).toNat (addr_row x).toNat (addr_col x).toNat 0 := by
  rw [firstByte_eq, elem_eq, toNat_wordIndex, toNat_addr_bank, toNat_addr_row, toNat_addr_col]
  omega

theorem firstByte_add_inj {w w' : BitVec 23} {i j : Nat} (hi : i < 4) (hj : j < 4)
    (h : firstByte w + i = firstByte w' + j) : w = w' ∧ i = j := by
  have hw := w.isLt
  have hw' := w'.isLt
  rw [firstByte_eq, firstByte_eq] at h
  have hbank : w.toNat / 256 % 4 = w'.toNat / 256 % 4 := by omega
  have hrow : w.toNat / 1024 = w'.toNat / 1024 := by omega
  have hcol : w.toNat % 256 = w'.toNat % 256 := by omega
  exact ⟨BitVec.eq_of_toNat_eq (by omega), by omega⟩

section Access

variable {m : Ddr} {x : Word} (hrow : m.activedRows (addr_bank x).toNat = some (addr_row x).toNat)

include hrow

theorem sdramRead_of_row :
    sdramRead m (addr_bank x).toNat (addr_col x).toNat = some (image m (wordIndex x)) := by
  have hguard : (addr_bank x).toNat < SDRAM_NR_BANKS ∧ (addr_col x).toNat < SDRAM_NR_ROWS :=
    ⟨(addr_bank x).isLt, (addr_col x).isLt⟩
  simp only [sdramRead, hguard, and_self, if_true, hrow, Option.map_some, image,
    firstByte_wordIndex]

omit hrow in
theorem image_putLanes {v w : BitVec 23} {i n : Nat} {wdata : Word} {strb : BitVec 4}
    (h : ∀ k < 4, strb.getLsbD k = decide (i ≤ k ∧ k < i + n)) (hn : i + n ≤ 4) :
    image (putLanes m (firstByte v) i n wdata) w =
      if w = v then MaskData (image m w) wdata (MaskExpand strb) else image m w := by
  refine word_ext fun k hk => ?_
  rw [lane_image hk]
  simp only [putLanes]
  by_cases hw : w = v
  · subst hw
    rw [if_pos rfl, lane_MaskData _ _ _ hk, h k hk, lane_image hk, Nat.add_sub_cancel_left]
    simp [Nat.add_assoc]
  · rw [if_neg hw, if_neg, lane_image hk]
    intro hin
    exact hw (firstByte_add_inj (i := k) (j := firstByte w + k - firstByte v) hk (by omega)
      (by omega)).1

theorem sdramWrite_of_row (wdata : Word) {strb : BitVec 4} (hs : strb ∈ strobes) :
    ∃ m', sdramWrite m (addr_bank x).toNat (addr_col x).toNat wdata (~~~strb) = some m' ∧
      m'.activedRows = m.activedRows ∧ ∀ w, image m' w =
        if w = wordIndex x then MaskData (image m w) wdata (MaskExpand strb) else image m w := by
  have hguard : (addr_bank x).toNat < SDRAM_NR_BANKS ∧ (addr_col x).toNat < SDRAM_NR_ROWS :=
    ⟨(addr_bank x).isLt, (addr_col x).isLt⟩
  have hput : ∃ i n, i + n ≤ 4 ∧ (∀ k < 4, strb.getLsbD k = decide (i ≤ k ∧ k < i + n)) ∧
      sdramWrite m (addr_bank x).toNat (addr_col x).toNat wdata (~~~strb) =
        some (putLanes m (firstByte (wordIndex x)) i n wdata) := by
    rw [firstByte_wordIndex, sdramWrite, if_pos hguard, hrow]
    simp only [strobes, List.mem_cons, List.not_mem_nil, or_false] at hs
    obtain rfl | rfl | rfl | rfl | rfl | rfl | rfl := hs
    · exact ⟨0, 1, by decide, by decide, rfl⟩
    · exact ⟨1, 1, by decide, by decide, rfl⟩
    · exact ⟨2, 1, by decide, by decide, rfl⟩
    · exact ⟨3, 1, by decide, by decide, rfl⟩
    · exact ⟨0, 2, by decide, by decide, rfl⟩
    · exact ⟨2, 2, by decide, by decide, rfl⟩
    · exact ⟨0, 4, by decide, by decide, rfl⟩
  obtain ⟨i, n, hn, hbits, heq⟩ := hput
  exact ⟨_, heq, rfl, fun w => image_putLanes hbits hn⟩

end Access

end FpgaNpc.Simulator.SDRAM
