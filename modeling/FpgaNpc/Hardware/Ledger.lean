import Mathlib.Data.List.Nodup

universe u

namespace FpgaNpc.Hardware

/-- What has entered a queue, what has left it in order and what has been removed from it. -/
structure Ledger (α : Type u) where
  entered : List α
  left : List α
  removed : List α

namespace Ledger

variable {α : Type u} [DecidableEq α]

def empty : Ledger α := ⟨[], [], []⟩

def remaining (L : Ledger α) : List α := L.entered.filter (· ∉ L.removed)

/-- Nothing is lost, doubled or overtaken: what has left and what is still inside are what
remains of the entries. -/
structure Balanced (L : Ledger α) (inside : List α) : Prop where
  nodup : L.entered.Nodup
  removed : ∀ a ∈ L.removed, a ∈ L.entered
  conserved : L.left ++ inside = L.remaining

variable {L : Ledger α} {inside inside' new out gone : List α}

def step (L : Ledger α) (new out gone : List α) : Ledger α :=
  ⟨L.entered ++ new, L.left ++ out, L.removed ++ gone⟩

theorem Balanced.nodup_inside (h : L.Balanced inside) : (L.left ++ inside).Nodup := by
  rw [h.conserved]
  exact h.nodup.filter _

theorem Balanced.not_mem_left {a : α} (h : L.Balanced inside) (ha : a ∈ inside) :
    a ∉ L.left := fun hl => (List.nodup_append.1 h.nodup_inside).2.2 a hl a ha rfl

theorem Balanced.inside_mem {a : α} (h : L.Balanced inside) (ha : a ∈ inside) :
    a ∈ L.entered ∧ a ∉ L.removed := by
  have : a ∈ L.remaining := by
    rw [← h.conserved]
    exact List.mem_append_right _ ha
  simpa [remaining] using this

theorem Balanced.step (h : L.Balanced inside) (hnew : new.Nodup)
    (hfresh : ∀ a ∈ new, a ∉ L.entered) (hgone : ∀ a ∈ gone, a ∈ inside)
    (hstep : out ++ inside' = inside.filter (· ∉ gone) ++ new) :
    (L.step new out gone).Balanced inside' where
  nodup := by
    refine List.nodup_append.2 ⟨h.nodup, hnew, ?_⟩
    rintro a ha b hb rfl
    exact hfresh a hb ha
  removed a ha := by
    rcases List.mem_append.1 ha with ha | ha
    · exact List.mem_append_left _ (h.removed a ha)
    · exact List.mem_append_left _ (h.inside_mem (hgone a ha)).1
  conserved := by
    have hleft : L.left.filter (· ∉ gone) = L.left := by
      refine List.filter_eq_self.2 fun a ha => ?_
      simpa using fun hg => h.not_mem_left (hgone a hg) ha
    have hnew' : new.filter (· ∉ L.removed ++ gone) = new := by
      refine List.filter_eq_self.2 fun a ha => ?_
      simp only [List.mem_append, not_or, decide_eq_true_eq]
      exact ⟨fun hr => hfresh a ha (h.removed a hr),
        fun hg => hfresh a ha (h.inside_mem (hgone a hg)).1⟩
    have hold : L.entered.filter (· ∉ L.removed ++ gone) =
        (L.left ++ inside).filter (· ∉ gone) := by
      rw [h.conserved, remaining, List.filter_filter]
      exact List.filter_congr fun a _ => by simp [not_or, and_comm]
    have hremaining : (L.step new out gone).remaining =
        L.left ++ inside.filter (· ∉ gone) ++ new := by
      rw [← hleft, ← List.filter_append, ← hold, ← hnew', ← List.filter_append, hnew']
      rfl
    rw [hremaining, List.append_assoc, ← hstep]
    exact List.append_assoc ..

end Ledger

end FpgaNpc.Hardware
