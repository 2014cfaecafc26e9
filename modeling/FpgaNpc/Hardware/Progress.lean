import Mathlib.Data.List.Range

namespace FpgaNpc.Hardware

theorem exists_of_rank (P goal : Nat → Prop) (rank : Nat → Nat)
    (h : ∀ n, P n → ¬goal n → P (n + 1) ∧ rank (n + 1) < rank n) {n : Nat} (hn : P n) :
    ∃ k ≤ rank n, goal (n + k) ∧ P (n + k) := by
  induction hr : rank n using Nat.strong_induction_on generalizing n with
  | h r ih =>
    by_cases hg : goal n
    · exact ⟨0, Nat.zero_le _, hg, hn⟩
    · obtain ⟨hn', hlt⟩ := h n hn hg
      obtain ⟨k, hk, hgoal, hP⟩ := ih _ (hr ▸ hlt) hn' rfl
      rw [Nat.add_assoc, Nat.add_comm 1] at hgoal hP
      exact ⟨k + 1, by omega, hgoal, hP⟩

theorem le_countP_range {P : Nat → Bool} (start period : Nat) {count len : Nat}
    (hlen : start + period * count ≤ len)
    (h : ∀ j < count, ∃ k, start + period * j ≤ k ∧ k < start + period * (j + 1) ∧ P k = true) :
    count ≤ (List.range len).countP P := by
  induction count generalizing len with
  | zero => exact Nat.zero_le _
  | succ count ih =>
    obtain ⟨k, hk, hk', hP⟩ := h count (Nat.lt_succ_self _)
    have hfirst : count ≤ (List.range k).countP P :=
      ih hk fun j hj => h j (Nat.lt_succ_of_lt hj)
    obtain ⟨rest, rfl⟩ : ∃ rest, len = k + 1 + rest := ⟨len - (k + 1), by omega⟩
    rw [List.range_add, List.countP_append, List.range_succ, List.countP_append,
      List.countP_singleton, if_pos hP]
    omega

end FpgaNpc.Hardware
