import FpgaNpc.Sdram.Pmem
import FpgaNpc.Sdram.Words
import Mathlib.Data.Nat.Bitwise
import Mathlib.Logic.Function.Iterate

open FpgaNpc.Hardware FpgaNpc.AXI4 FpgaNpc.Simulator.SDRAM

namespace FpgaNpc.Sdram.Pmem

namespace Address

def Legal (a : Address) : Prop := a.burst = .WRAP → a.len ∈ [0, 1, 3, 7, 15]

instance (a : Address) : Decidable a.Legal :=
  inferInstanceAs (Decidable (a.burst = .WRAP → a.len ∈ [0, 1, 3, 7, 15]))

/-- The address as the controller counts it up from beat to beat. -/
def counted (a : Address) (k : Nat) : Word :=
  (fun addr => calculateAddrNext addr a.burst a.len)^[k] a.addr

/-- The word of the `k`th beat: always the same one, or the words in their order, within the
aligned block of all beats if the burst wraps. -/
def beat (a : Address) (k : Nat) : BitVec 23 :=
  let w := (wordIndex a.addr).toNat
  let n := a.len.toNat + 1
  match a.burst with
  | .FIXED => .ofNat 23 w
  | .WRAP => .ofNat 23 (w - w % n + (w + k) % n)
  | _ => .ofNat 23 (w + k)

variable {a : Address}

@[simp] theorem counted_zero : a.counted 0 = a.addr := rfl

theorem counted_succ (k : Nat) :
    a.counted (k + 1) = calculateAddrNext (a.counted k) a.burst a.len :=
  Function.iterate_succ_apply' ..

end Address

theorem toNat_splice (x y : Word) {j : Nat} (hj : j ≤ 32) :
    ((x &&& ~~~BitVec.ofNat 32 (2 ^ j - 1)) ||| (y &&& BitVec.ofNat 32 (2 ^ j - 1))).toNat =
      2 ^ j * (x.toNat / 2 ^ j) + y.toNat % 2 ^ j := by
  apply Nat.eq_of_testBit_eq
  intro i
  rw [Nat.testBit_two_pow_mul_add _ (Nat.mod_lt _ (Nat.two_pow_pos j)), BitVec.testBit_toNat,
    BitVec.getLsbD_or, BitVec.getLsbD_and, BitVec.getLsbD_and, BitVec.getLsbD_not,
    BitVec.getLsbD_ofNat, Nat.testBit_two_pow_sub_one, Nat.testBit_mod_two_pow,
    Nat.testBit_div_two_pow, BitVec.testBit_toNat, BitVec.testBit_toNat]
  by_cases hi : i < j
  · simp [hi, show i < 32 by omega]
  · by_cases h32 : i < 32
    · simp [hi, h32, show i - j + j = i by omega]
    · simp [hi, h32, show i - j + j = i by omega, BitVec.getLsbD_of_ge x i (by omega)]

theorem toNat_wrap (x : Word) {j : Nat} (hj : j ≤ 32) :
    ((x &&& ~~~BitVec.ofNat 32 (2 ^ j - 1)) |||
      ((x + 4) &&& BitVec.ofNat 32 (2 ^ j - 1))).toNat =
      2 ^ j * (x.toNat / 2 ^ j) + (x.toNat + 4) % 2 ^ j := by
  have hdvd : 2 ^ j ∣ 2 ^ 32 := Nat.pow_dvd_pow 2 hj
  rw [toNat_splice x _ hj, BitVec.toNat_add, Nat.mod_mod_of_dvd _ hdvd]
  rfl

namespace Address

variable {a : Address}

theorem toNat_counted_wrap {j : Nat} (hj : j ≤ 32) (hb : a.burst = .WRAP)
    (hnext : ∀ x, calculateAddrNext x .WRAP a.len =
      (x &&& ~~~BitVec.ofNat 32 (2 ^ j - 1)) ||| ((x + 4) &&& BitVec.ofNat 32 (2 ^ j - 1)))
    (k : Nat) : (a.counted k).toNat =
      2 ^ j * (a.addr.toNat / 2 ^ j) + (a.addr.toNat + 4 * k) % 2 ^ j := by
  have hpos := Nat.two_pow_pos j
  induction k with
  | zero =>
    rw [counted_zero, Nat.mul_zero, Nat.add_zero, Nat.div_add_mod]
  | succ k ih =>
    have hmod : (a.addr.toNat + 4 * k) % 2 ^ j < 2 ^ j := Nat.mod_lt _ hpos
    rw [counted_succ, hb, hnext, toNat_wrap _ hj, ih]
    congr 1
    · rw [Nat.mul_add_div hpos, Nat.div_eq_of_lt hmod, Nat.add_zero]
    · rw [Nat.mul_add, ← Nat.add_assoc, Nat.add_assoc _ _ 4, Nat.mul_add_mod]
      rw [Nat.mod_add_mod]

theorem toNat_counted_incr (hb : a.burst ≠ .FIXED) (hb' : a.burst ≠ .WRAP) (k : Nat) :
    (a.counted k).toNat = (a.addr.toNat + 4 * k) % 2 ^ 32 := by
  induction k with
  | zero =>
    have := a.addr.isLt
    rw [counted_zero, Nat.mul_zero, Nat.add_zero, Nat.mod_eq_of_lt this]
  | succ k ih =>
    have hnext : calculateAddrNext (a.counted k) a.burst a.len = a.counted k + 4 := by
      cases h : a.burst <;> simp_all [calculateAddrNext]
    rw [counted_succ, hnext, BitVec.toNat_add, ih, show (4 : Word).toNat = 4 from rfl]
    omega

theorem counted_fixed (hb : a.burst = .FIXED) (k : Nat) : a.counted k = a.addr := by
  induction k with
  | zero => rfl
  | succ k ih => rw [counted_succ, ih, hb, calculateAddrNext]

theorem wordIndex_of_wrap {j n : Nat} (hn : 4 * n = 2 ^ j) (hj : j ≤ 6) (hb : a.burst = .WRAP)
    (hlen : a.len.toNat + 1 = n)
    (hnext : ∀ x, calculateAddrNext x .WRAP a.len =
      (x &&& ~~~BitVec.ofNat 32 (2 ^ j - 1)) ||| ((x + 4) &&& BitVec.ofNat 32 (2 ^ j - 1)))
    (k : Nat) : wordIndex (a.counted k) = a.beat k := by
  have hlt := a.addr.isLt
  apply BitVec.eq_of_toNat_eq
  rw [toNat_wordIndex, toNat_counted_wrap (by omega) hb hnext, beat, hb]
  simp only [hlen, BitVec.toNat_ofNat, toNat_wordIndex]
  obtain rfl | rfl | rfl | rfl | rfl : j = 2 ∨ j = 3 ∨ j = 4 ∨ j = 5 ∨ j = 6 := by
    have : j ≠ 0 := by rintro rfl; omega
    have : j ≠ 1 := by rintro rfl; omega
    omega
  · obtain rfl : n = 1 := by omega
    omega
  · obtain rfl : n = 2 := by omega
    omega
  · obtain rfl : n = 4 := by omega
    omega
  · obtain rfl : n = 8 := by omega
    omega
  · obtain rfl : n = 16 := by omega
    omega

theorem wordIndex_counted (h : a.Legal) (k : Nat) : wordIndex (a.counted k) = a.beat k := by
  cases hb : a.burst
  case FIXED => simp [counted_fixed hb, beat, hb]
  case WRAP =>
    have hlen := h hb
    simp only [List.mem_cons, List.not_mem_nil, or_false] at hlen
    rcases hlen with hlen | hlen | hlen | hlen | hlen
    · exact wordIndex_of_wrap (j := 2) (n := 1) rfl (by decide) hb (by rw [hlen]; rfl)
        (fun x => by rw [hlen]; rfl) k
    · exact wordIndex_of_wrap (j := 3) (n := 2) rfl (by decide) hb (by rw [hlen]; rfl)
        (fun x => by rw [hlen]; rfl) k
    · exact wordIndex_of_wrap (j := 4) (n := 4) rfl (by decide) hb (by rw [hlen]; rfl)
        (fun x => by rw [hlen]; rfl) k
    · exact wordIndex_of_wrap (j := 5) (n := 8) rfl (by decide) hb (by rw [hlen]; rfl)
        (fun x => by rw [hlen]; rfl) k
    · exact wordIndex_of_wrap (j := 6) (n := 16) rfl (by decide) hb (by rw [hlen]; rfl)
        (fun x => by rw [hlen]; rfl) k
  all_goals
    apply BitVec.eq_of_toNat_eq
    rw [toNat_wordIndex, toNat_counted_incr (by simp [hb]) (by simp [hb]), beat, hb]
    simp only [BitVec.toNat_ofNat, toNat_wordIndex]
    have := a.addr.isLt
    omega

end Address

end FpgaNpc.Sdram.Pmem
