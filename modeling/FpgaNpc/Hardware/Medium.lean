import Mathlib.Data.List.TakeDrop

universe u v w

namespace FpgaNpc.Hardware

/-- A memory: what it holds at first, and what an update makes of the word at its address. -/
structure Medium (υ : Type u) (α : Type v) (β : Type w) where
  image : α → β
  addr : υ → α
  put : υ → β → β

namespace Medium

variable {υ : Type u} {α : Type v} {β : Type w} [DecidableEq α] (M : Medium υ α β)

def after (us : List υ) (a : α) : β :=
  us.foldl (fun b u => if M.addr u = a then M.put u b else b) (M.image a)

/-- The word at `a` was `b` when at least `n` of the updates had been made. -/
def Seen (us : List υ) (n : Nat) (a : α) (b : β) : Prop :=
  ∃ m, n ≤ m ∧ m ≤ us.length ∧ b = M.after (us.take m) a

variable {M} {us vs : List υ} {n : Nat} {a : α} {b : β}

instance [DecidableEq β] : Decidable (M.Seen us n a b) :=
  decidable_of_iff (∃ m < us.length + 1, n ≤ m ∧ b = M.after (us.take m) a)
    ⟨fun ⟨m, hlt, hn, hb⟩ => ⟨m, hn, Nat.lt_succ_iff.1 hlt, hb⟩,
      fun ⟨m, hn, hm, hb⟩ => ⟨m, Nat.lt_succ_of_le hm, hn, hb⟩⟩

theorem seen_after (h : n ≤ us.length) : M.Seen us n a (M.after us a) :=
  ⟨us.length, h, Nat.le_refl _, by rw [List.take_length]⟩

theorem Seen.append (h : M.Seen us n a b) (vs : List υ) : M.Seen (us ++ vs) n a b := by
  obtain ⟨m, hn, hm, hb⟩ := h
  refine ⟨m, hn, ?_, by rw [List.take_append_of_le_length hm, hb]⟩
  rw [List.length_append]
  exact Nat.le_add_right_of_le hm

end Medium

end FpgaNpc.Hardware
