import Mathlib.Data.List.Nodup
import Mathlib.Logic.Function.Basic

universe u

namespace FpgaNpc.Software

variable {ι : Type u} {next next' : ι → Option ι} {start mid stop : Option ι} {l l' : List ι}
  {i : ι}

/-- From `start` the links lead through the nodes of a list to `stop`. -/
def Segment (next : ι → Option ι) : Option ι → List ι → Option ι → Prop
  | start, [], stop => start = stop
  | start, i :: l, stop => start = some i ∧ Segment next (next i) l stop

instance instDecidableSegment [DecidableEq ι] :
    ∀ start l stop, Decidable (Segment next start l stop)
  | _, [], _ => decEq _ _
  | _, i :: l, stop => @instDecidableAnd _ _ _ (instDecidableSegment (next i) l stop)

def Chain (next : ι → Option ι) (start : Option ι) (l : List ι) : Prop := Segment next start l none

instance [DecidableEq ι] : Decidable (Chain next start l) :=
  inferInstanceAs (Decidable (Segment next start l none))

namespace Segment

theorem append : Segment next start (l ++ l') stop ↔
    ∃ mid, Segment next start l mid ∧ Segment next mid l' stop := by
  induction l generalizing start with
  | nil => simp [Segment]
  | cons i l ih => simp [Segment, ih, and_assoc]

theorem concat : Segment next start (l ++ [i]) stop ↔
    Segment next start l (some i) ∧ next i = stop := by
  simp [append, Segment]

theorem congr (h : ∀ i ∈ l, next' i = next i) :
    Segment next' start l stop ↔ Segment next start l stop := by
  induction l generalizing start with
  | nil => rfl
  | cons i l ih =>
    rw [Segment, Segment, h i (by simp), ih fun j hj => h j (by simp [hj])]

theorem update [DecidableEq ι] (hi : i ∉ l) (v : Option ι) :
    Segment (Function.update next i v) start l stop ↔ Segment next start l stop :=
  congr fun j hj => Function.update_of_ne (fun he : j = i => hi (he ▸ hj)) _ _

theorem start_eq (h : Segment next start l stop) : start = l.head?.or stop := by
  cases l with
  | nil => exact h
  | cons i l => exact h.1

end Segment

namespace Chain

theorem nil : Chain next start [] ↔ start = none := Iff.rfl

theorem cons : Chain next start (i :: l) ↔ start = some i ∧ Chain next (next i) l := Iff.rfl

theorem append : Chain next start (l ++ l') ↔
    ∃ mid, Segment next start l mid ∧ Chain next mid l' := Segment.append

theorem start_eq (h : Chain next start l) : start = l.head? := by
  simpa using Segment.start_eq h

theorem unique (h : Chain next start l) (h' : Chain next start l') : l = l' := by
  induction l generalizing start l' with
  | nil =>
    have hhead := h'.start_eq
    rw [nil.1 h] at hhead
    exact (List.head?_eq_none_iff.1 hhead.symm).symm
  | cons i l ih =>
    cases l' with
    | nil => simp [nil.1 h', cons] at h
    | cons j l' =>
      rw [cons] at h h'
      obtain rfl : i = j := Option.some.inj (h.1.symm.trans h'.1)
      rw [ih h.2 h'.2]

end Chain

def walk (next : ι → Option ι) : Option ι → Nat → List ι
  | none, _ => []
  | some _, 0 => []
  | some i, fuel + 1 => i :: walk next (next i) fuel

theorem Chain.walk_eq (h : Chain next start l) {fuel : Nat} (hfuel : l.length ≤ fuel) :
    walk next start fuel = l := by
  induction l generalizing start fuel with
  | nil => simp [nil.1 h, walk]
  | cons i l ih =>
    obtain ⟨rfl, hl⟩ := cons.1 h
    obtain ⟨fuel, rfl⟩ : ∃ k, fuel = k + 1 := ⟨fuel - 1, by simp at hfuel; omega⟩
    rw [walk, ih hl (by simpa using hfuel)]

end FpgaNpc.Software
