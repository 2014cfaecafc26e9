import Mathlib.Data.BitVec
import Mathlib.Logic.Function.Basic

universe u

namespace FpgaNpc.Hardware

/-- A ring buffer of `2 ^ w` slots: the write pointer is as many slots ahead of the read pointer as
there are entries. -/
structure Fifo (α : Type u) (w : Nat) where
  ram : BitVec w → α
  rdPtr : BitVec w
  wrPtr : BitVec w
  count : Nat
  ahead : wrPtr = rdPtr + BitVec.ofNat w count
  count_le : count ≤ 2 ^ w

namespace Fifo

variable {α : Type u} {w : Nat} (f : Fifo α w) (dataIn : α) (push pop : Bool)

def accept : Bool := f.count != 2 ^ w

def valid : Bool := f.count != 0

def dataOut : α := f.ram f.rdPtr

def pushes : Bool := push && f.accept

def pops : Bool := pop && f.valid

def reset (ram : BitVec w → α) : Fifo α w := ⟨ram, 0, 0, 0, by simp, Nat.zero_le _⟩

theorem lt_of_pushes {f : Fifo α w} {push : Bool} (h : f.pushes push = true) :
    f.count < 2 ^ w := by
  simp only [pushes, accept, Bool.and_eq_true, bne_iff_ne] at h
  exact Nat.lt_of_le_of_ne f.count_le h.2

theorem pos_of_pops {f : Fifo α w} {pop : Bool} (h : f.pops pop = true) : 0 < f.count := by
  simp only [pops, valid, Bool.and_eq_true, bne_iff_ne] at h
  exact Nat.pos_of_ne_zero h.2

def nextCount : Nat :=
  if f.pushes push && !f.pops pop then f.count + 1
  else if !f.pushes push && f.pops pop then f.count - 1
  else f.count

theorem nextCount_add :
    f.nextCount push pop + (f.pops pop).toNat = f.count + (f.pushes push).toNat := by
  have hpos := @pos_of_pops _ _ f pop
  rw [nextCount]
  cases hpush : f.pushes push <;> cases hpop : f.pops pop <;> simp
  have := hpos hpop
  omega

theorem nextCount_le : f.nextCount push pop ≤ 2 ^ w := by
  have hsum := f.nextCount_add push pop
  have hle := f.count_le
  cases hpush : f.pushes push
  case false =>
    rw [hpush] at hsum
    simp only [Bool.toNat_false] at hsum
    omega
  case true =>
    have hlt := lt_of_pushes hpush
    rw [hpush] at hsum
    simp only [Bool.toNat_true] at hsum
    omega

/-- What the buffer holds after the clock edge. A full buffer takes nothing in, also when an entry
leaves it. -/
def next : Fifo α w where
  ram k := if f.pushes push && k == f.wrPtr then dataIn else f.ram k
  rdPtr := if f.pops pop then f.rdPtr + 1 else f.rdPtr
  wrPtr := if f.pushes push then f.wrPtr + 1 else f.wrPtr
  count := f.nextCount push pop
  ahead := by
    have hsum := congrArg (BitVec.ofNat w) (f.nextCount_add push pop)
    rw [BitVec.ofNat_add, BitVec.ofNat_add] at hsum
    have hahead := f.ahead
    cases hpush : f.pushes push <;> cases hpop : f.pops pop <;>
      simp only [hpush, hpop, Bool.toNat_true, Bool.toNat_false, BitVec.ofNat_eq_ofNat,
        BitVec.add_zero, Bool.false_eq_true, if_false, if_true] at hsum ⊢ <;>
      grind
  count_le := f.nextCount_le push pop

/-- The entries, the one to leave first at the head. -/
def contents : List α := (List.range f.count).map fun k => f.ram (f.rdPtr + BitVec.ofNat w k)

section Laws

variable {f dataIn push pop}

@[simp] theorem length_contents : f.contents.length = f.count := by simp [contents]

@[simp] theorem contents_reset (ram : BitVec w → α) : (reset ram).contents = [] := rfl

theorem contents_eq_nil : f.contents = [] ↔ f.valid = false := by
  rw [← List.length_eq_zero_iff, length_contents, valid]
  simp

theorem contents_of_valid (h : f.valid = true) :
    f.contents = f.dataOut :: f.contents.tail := by
  obtain ⟨n, hn⟩ : ∃ n, f.count = n + 1 := ⟨f.count - 1, by simp [valid] at h; omega⟩
  simp [contents, hn, List.range_succ_eq_map, dataOut]

theorem accept_next (h : f.accept = true) (hpush : f.pushes push = false) :
    (f.next dataIn push pop).accept = true := by
  have hsum := f.nextCount_add push pop
  have hlt : f.count < 2 ^ w := by
    simp only [accept, bne_iff_ne] at h
    exact Nat.lt_of_le_of_ne f.count_le h
  rw [hpush, Bool.toNat_false] at hsum
  simp only [accept, next, bne_iff_ne]
  omega

theorem wrPtr_ne {k : Nat} (h : f.pushes push = true) (hk : k < f.count) :
    f.rdPtr + BitVec.ofNat w k ≠ f.wrPtr := by
  intro he
  have hlt := lt_of_pushes h
  rw [f.ahead, BitVec.add_right_inj] at he
  have hnat := congrArg BitVec.toNat he
  rw [BitVec.toNat_ofNat, BitVec.toNat_ofNat, Nat.mod_eq_of_lt (by omega),
    Nat.mod_eq_of_lt hlt] at hnat
  omega

theorem map_ram_next (pop : Bool) :
    ((List.range (f.count + (f.pushes push).toNat)).map fun k =>
      (f.next dataIn push pop).ram (f.rdPtr + BitVec.ofNat w k)) =
        f.contents ++ if f.pushes push then [dataIn] else [] := by
  cases hpush : f.pushes push
  case false => simp [contents, next, hpush]
  case true =>
    have hold : ∀ k ∈ List.range f.count,
        (f.next dataIn push pop).ram (f.rdPtr + BitVec.ofNat w k) =
          f.ram (f.rdPtr + BitVec.ofNat w k) := by
      intro k hk
      simp [next, wrPtr_ne hpush (List.mem_range.1 hk)]
    rw [Bool.toNat_true, List.range_succ, List.map_append, List.map_congr_left hold, contents,
      List.map_singleton, ← f.ahead]
    simp [next, hpush]

theorem ram_next_rdPtr (h : f.valid = true) :
    (f.next dataIn push pop).ram f.rdPtr = f.dataOut := by
  cases hpush : f.pushes push
  case false => simp [next, hpush, dataOut]
  case true =>
    have hne := wrPtr_ne (k := 0) hpush (by simp [valid] at h; omega)
    rw [BitVec.add_zero] at hne
    simp [next, hne, dataOut]

theorem contents_next (dataIn : α) (push pop : Bool) : (if f.pops pop then [f.dataOut] else []) ++
    (f.next dataIn push pop).contents =
      f.contents ++ if f.pushes push then [dataIn] else [] := by
  have hsum := f.nextCount_add push pop
  rw [← map_ram_next pop, ← hsum]
  cases hpop : f.pops pop
  case false => simp [contents, next, hpop]
  case true =>
    have hvalid : f.valid = true := by simp_all [pops]
    rw [Bool.toNat_true, List.range_succ_eq_map, List.map_cons, List.map_map, BitVec.add_zero,
      ram_next_rdPtr hvalid]
    have hptr : (f.next dataIn push pop).rdPtr = f.rdPtr + 1 := by simp [next, hpop]
    simp only [if_true, List.singleton_append, contents, hptr, List.cons.injEq, true_and]
    refine List.map_congr_left fun k _ => ?_
    rw [Function.comp_apply, Nat.succ_eq_add_one, BitVec.ofNat_add, BitVec.add_assoc,
      BitVec.add_comm 1]
    rfl

end Laws

end Fifo

end FpgaNpc.Hardware
