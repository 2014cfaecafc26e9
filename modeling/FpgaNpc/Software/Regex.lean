import Mathlib.Data.List.Nodup
import Mathlib.Order.Lattice

namespace FpgaNpc.Software.Regex

/-- A run of characters of one class, of at least and at most so many. -/
structure Piece where
  cls : Char → Bool
  least : Nat
  most : Option Nat

namespace Piece

def char (c : Char) : Piece := ⟨(· == c), 1, some 1⟩

def optional (c : Char) : Piece := ⟨(· == c), 0, some 1⟩

def repeated (cls : Char → Bool) : Piece := ⟨cls, 1, none⟩

def exactly (n : Nat) (cls : Char → Bool) : Piece := ⟨cls, n, some n⟩

def counts (p : Piece) (s : List Char) : List Nat :=
  (List.range ((s.takeWhile p.cls).length + 1)).filter fun k =>
    p.least ≤ k && p.most.all (k ≤ ·)

end Piece

def lengths : List Piece → List Char → List Nat
  | [], _ => [0]
  | p :: ps, s => (p.counts s).flatMap fun k => (lengths ps (s.drop k)).map (k + ·)

/-- A match at the start is the longest one. -/
def longest (ps : List Piece) (s : List Char) : Option Nat := (lengths ps s).max?

variable {p : Piece} {ps : List Piece} {s rest : List Char} {c a : Char} {cls : Char → Bool}
  {n k : Nat}

theorem mem_counts : k ∈ p.counts s ↔
    k ≤ (s.takeWhile p.cls).length ∧ p.least ≤ k ∧ ∀ m ∈ p.most, k ≤ m := by
  rw [Piece.counts, List.mem_filter, List.mem_range, Nat.lt_succ_iff]
  simp [Option.all_eq_true]

theorem mem_lengths_cons : n ∈ lengths (p :: ps) s ↔
    ∃ k ∈ p.counts s, ∃ m ∈ lengths ps (s.drop k), n = k + m := by
  simp [lengths, eq_comm]

theorem longest_eq_some : longest ps s = some n ↔
    n ∈ lengths ps s ∧ ∀ m ∈ lengths ps s, m ≤ n := List.max?_eq_some_iff

theorem longest_eq_none : longest ps s = none ↔ ∀ n, n ∉ lengths ps s := by
  rw [longest, List.max?_eq_none_iff, List.eq_nil_iff_forall_not_mem]

theorem counts_eq_singleton (h : ∀ j, j ∈ p.counts s ↔ j = k) : p.counts s = [k] := by
  have hnodup : (p.counts s).Nodup := List.nodup_range.filter _
  refine List.perm_singleton.1 ((List.perm_ext_iff_of_nodup hnodup (List.nodup_singleton k)).2 ?_)
  simpa using h

theorem longest_cons (h : ∀ n, n ∈ lengths (p :: ps) s ↔ ∃ m ∈ lengths ps rest, n = k + m) :
    longest (p :: ps) s = (longest ps rest).map (k + ·) := by
  cases hl : longest ps rest with
  | none =>
    refine longest_eq_none.2 fun n hn => ?_
    obtain ⟨m, hm, -⟩ := (h n).1 hn
    exact longest_eq_none.1 hl m hm
  | some m =>
    obtain ⟨hm, hmax⟩ := longest_eq_some.1 hl
    refine longest_eq_some.2 ⟨(h _).2 ⟨m, hm, rfl⟩, fun n hn => ?_⟩
    obtain ⟨m', hm', rfl⟩ := (h n).1 hn
    exact Nat.add_le_add_left (hmax m' hm') k

theorem longest_cons_of_counts (h : p.counts s = [k]) :
    longest (p :: ps) s = (longest ps (s.drop k)).map (k + ·) :=
  longest_cons fun n => by simp [mem_lengths_cons, h]

theorem longest_cons_of_nil (h : p.counts s = []) : longest (p :: ps) s = none := by
  refine longest_eq_none.2 fun n hn => ?_
  obtain ⟨k, hk, -⟩ := mem_lengths_cons.1 hn
  rw [h] at hk
  cases hk

theorem counts_of_not (hleast : 0 < p.least) (hc : p.cls c = false) : p.counts (c :: s) = [] := by
  refine List.eq_nil_iff_forall_not_mem.2 fun k hk => ?_
  obtain ⟨hle, hk, -⟩ := mem_counts.1 hk
  rw [List.takeWhile_cons, hc] at hle
  simp at hle
  omega

@[simp] theorem longest_nil : longest [] s = some 0 := rfl

@[simp] theorem longest_char : longest (.char a :: ps) (c :: s) =
    if c = a then (longest ps s).map (1 + ·) else none := by
  by_cases hc : c = a
  · have hcounts : (Piece.char a).counts (c :: s) = [1] := by
      refine counts_eq_singleton fun j => ?_
      rw [mem_counts]
      simp [Piece.char, hc]
      omega
    rw [if_pos hc, longest_cons_of_counts hcounts]
    rfl
  · have hcls : (Piece.char a).cls c = false := by simpa [Piece.char] using hc
    rw [if_neg hc, longest_cons_of_nil (counts_of_not Nat.one_pos hcls)]

@[simp] theorem longest_char_nil : longest (.char a :: ps) [] = none :=
  longest_cons_of_nil rfl

theorem longest_repeated : longest [.repeated cls] s =
    if s.takeWhile cls = [] then none else some (s.takeWhile cls).length := by
  have hmem : ∀ n, n ∈ lengths [.repeated cls] s ↔ n ≤ (s.takeWhile cls).length ∧ 1 ≤ n := by
    intro n
    simp [mem_counts, Piece.repeated, lengths]
  split
  next hnil =>
    refine longest_eq_none.2 fun n hn => ?_
    obtain ⟨hle, hpos⟩ := (hmem n).1 hn
    rw [hnil, List.length_nil] at hle
    omega
  next hne =>
    refine longest_eq_some.2 ⟨(hmem _).2 ⟨le_rfl, ?_⟩, fun n hn => ((hmem n).1 hn).1⟩
    exact List.length_pos_iff.2 hne

theorem longest_exactly : longest [.exactly n cls] s =
    if n ≤ (s.takeWhile cls).length then some n else none := by
  split
  next hle =>
    have hcounts : (Piece.exactly n cls).counts s = [n] := by
      refine counts_eq_singleton fun j => ?_
      rw [mem_counts]
      simp only [Piece.exactly, Option.mem_def, Option.some.injEq, forall_eq']
      omega
    rw [longest_cons_of_counts hcounts]
    rfl
  next hlt =>
    refine longest_cons_of_nil (List.eq_nil_iff_forall_not_mem.2 fun k hk => hlt ?_)
    obtain ⟨hle, hk, -⟩ := mem_counts.1 hk
    exact hk.trans hle

theorem longest_optional_of_ne (h : s.head? ≠ some a) :
    longest (.optional a :: ps) s = longest ps s := by
  have hcounts : (Piece.optional a).counts s = [0] := by
    have htake : s.takeWhile (Piece.optional a).cls = [] := by
      cases s with
      | nil => rfl
      | cons c s =>
        have hc : (Piece.optional a).cls c = false := by simpa [Piece.optional] using h
        rw [List.takeWhile_cons, hc]
        rfl
    refine counts_eq_singleton fun j => ?_
    rw [mem_counts, htake]
    simp [Piece.optional]
    omega
  rw [longest_cons_of_counts hcounts]
  simp

theorem longest_optional (h : longest ps (a :: s) = none) :
    longest (.optional a :: ps) (a :: s) = (longest ps s).map (1 + ·) := by
  have hmem : ∀ n, n ∈ lengths (.optional a :: ps) (a :: s) ↔ ∃ m ∈ lengths ps s, n = 1 + m := by
    intro n
    rw [mem_lengths_cons]
    constructor
    · rintro ⟨k, hk, m, hm, rfl⟩
      obtain ⟨-, -, hmost⟩ := mem_counts.1 hk
      obtain rfl | rfl : k = 0 ∨ k = 1 := by
        have hle := hmost 1 rfl
        omega
      · exact absurd hm (longest_eq_none.1 h m)
      · exact ⟨m, hm, rfl⟩
    · rintro ⟨m, hm, rfl⟩
      exact ⟨1, mem_counts.2 (by simp [Piece.optional]), m, hm, rfl⟩
  exact longest_cons hmem

end FpgaNpc.Software.Regex
