import Mathlib.Data.BitVec

universe u

namespace FpgaNpc.Hardware

abbrev Word := BitVec 32

/-- The payload of a ready-valid link with the valid signal of its producer. -/
structure Irrevocable (α : Type u) where
  valid : Bool
  bits : α
  deriving DecidableEq

/-- `RegEnable(next, _, enable)`: what the register holds after the clock edge. -/
def RegEnable {α : Type u} (next : α) (enable : Bool) (current : α) : α :=
  if enable then next else current

@[simp] theorem RegEnable_true {α : Type u} (next current : α) :
    RegEnable next true current = next := rfl

@[simp] theorem RegEnable_false {α : Type u} (next current : α) :
    RegEnable next false current = current := rfl

/-- The first selected alternative; the last one needs no selection. -/
def PriorityMux {α : Type u} [Inhabited α] : List (Bool × α) → α
  | [] => default
  | [(_, a)] => a
  | (c, a) :: b :: rest => if c then a else PriorityMux (b :: rest)

def Mux1H {n : Nat} : List (Bool × BitVec n) → BitVec n
  | [] => 0
  | (c, a) :: rest => (if c then a else 0) ||| Mux1H rest

theorem Mux1H_cons_congr {n : Nat} {c : Bool} {a b : BitVec n} {l r : List (Bool × BitVec n)}
    (h : c = true → a = b) (hr : Mux1H l = Mux1H r) :
    Mux1H ((c, a) :: l) = Mux1H ((c, b) :: r) := by
  rw [Mux1H, Mux1H, hr]
  cases c
  case false => rfl
  case true => rw [h rfl]

def orR {n : Nat} (x : BitVec n) : Bool := x != 0

abbrev bit (b : Bool) : BitVec 1 := BitVec.ofBool b

def setBit {n : Nat} (v : BitVec n) (i : Nat) (b : Bool) : BitVec n :=
  if b then v ||| BitVec.twoPow n i else v &&& ~~~BitVec.twoPow n i

theorem getLsbD_setBit {n : Nat} (v : BitVec n) (i j : Nat) (b : Bool) (hi : i < n) :
    (setBit v i b).getLsbD j = if j = i then b else v.getLsbD j := by
  by_cases hj : j < n
  · cases b <;> by_cases h : i = j <;> simp [setBit, hj, h, Ne.symm]
  · rw [if_neg (by omega), BitVec.getLsbD_of_ge _ _ (by omega),
      BitVec.getLsbD_of_ge _ _ (by omega)]

/-- The words of a vector as one vector of bits, the first word most significant. -/
def Cat : {n : Nat} → (Fin n → Word) → BitVec (32 * n)
  | 0, _ => 0
  | n + 1, words => (words 0 ++ Cat fun i => words i.succ).cast (by omega)

def PriorityEncoder {n : Nat} (x : BitVec n) : Nat :=
  ((List.range n).find? x.getLsbD).getD (n - 1)

theorem getLsbD_Cat {n : Nat} (words : Fin n → Word) (j : Nat) (hj : j < 32 * n) :
    (Cat words).getLsbD j = (words ⟨n - 1 - j / 32, by omega⟩).getLsbD (j % 32) := by
  induction n with
  | zero => omega
  | succ n ih =>
    rw [Cat, BitVec.getLsbD_cast, BitVec.getLsbD_append]
    by_cases h : j < 32 * n
    · rw [if_pos h, ih _ h]
      congr 2
      exact Fin.ext (by simp only [Fin.val_succ]; omega)
    · rw [if_neg h]
      congr 1
      · congr 1
        exact Fin.ext (by simp only [Fin.val_zero]; omega)
      · omega

theorem exists_getLsbD_of_ne_zero {n : Nat} {x : BitVec n} (h : x ≠ 0) :
    ∃ j < n, x.getLsbD j = true := by
  by_contra hn
  push Not at hn
  exact h (BitVec.eq_of_getLsbD_eq fun j hj => by simpa using hn j hj)

theorem getLsbD_PriorityEncoder {n : Nat} {x : BitVec n} (h : x ≠ 0) :
    PriorityEncoder x < n ∧ x.getLsbD (PriorityEncoder x) = true := by
  obtain ⟨j, hj, hx⟩ := exists_getLsbD_of_ne_zero h
  have hfind : ((List.range n).find? x.getLsbD).isSome := by
    simp only [List.find?_isSome, List.mem_range]
    exact ⟨j, hj, hx⟩
  obtain ⟨k, hk⟩ := Option.isSome_iff_exists.1 hfind
  rw [PriorityEncoder, hk, Option.getD_some]
  exact ⟨List.mem_range.1 (List.mem_of_find?_eq_some hk), List.find?_some hk⟩

theorem PriorityEncoder_le {n : Nat} {x : BitVec n} {j : Nat} (hj : j < n)
    (h : x.getLsbD j = true) : PriorityEncoder x ≤ j := by
  rw [PriorityEncoder]
  cases hfind : (List.range n).find? x.getLsbD with
  | none =>
    rw [List.find?_eq_none] at hfind
    exact absurd h (hfind j (List.mem_range.2 hj))
  | some k =>
    obtain ⟨-, -, hleast⟩ := List.find?_range_eq_some.1 hfind
    by_contra hlt
    have hclear := hleast j (by simpa using hlt)
    simp [h] at hclear

/-- `Queue(_, 1, flow = true)`: a slot that an entry passes by when it is empty. -/
abbrev FlowQueue (α : Type u) := Option α

namespace FlowQueue

variable {α : Type u} {q : FlowQueue α}

def enqReady (q : FlowQueue α) : Bool := q.isNone

def deqValid (q : FlowQueue α) (enqValid : Bool) : Bool := q.isSome || enqValid

def deqBits (q : FlowQueue α) (enqBits : α) : α := q.getD enqBits

def next (q : FlowQueue α) (enqValid : Bool) (enqBits : α) (deqReady : Bool) : FlowQueue α :=
  match q with
  | some a => if deqReady then none else some a
  | none => if enqValid && !deqReady then some enqBits else none

@[simp] theorem next_empty_ready (b : Bool) (a : α) :
    next (none : FlowQueue α) b a true = none := by simp [next]

@[simp] theorem next_full_ready (b : Bool) (a c : α) :
    next (some c : FlowQueue α) b a true = none := rfl

@[simp] theorem next_full_stalled (b : Bool) (a c : α) :
    next (some c : FlowQueue α) b a false = some c := rfl

theorem isSome_next_stalled (b : Bool) (a : α) :
    (next q b a false).isSome = q.deqValid b := by
  cases q <;> cases b <;> rfl

theorem length_next (b : Bool) (a : α) (r : Bool) : (next q b a r).toList.length =
    if r then 0 else q.toList.length + if b && q.enqReady then 1 else 0 := by
  cases q <;> cases b <;> cases r <;> simp [next, enqReady]

def enqueued (q : FlowQueue α) (enqValid : Bool) (enqBits : α) : List α :=
  if enqValid && q.enqReady then [enqBits] else []

def dequeued (q : FlowQueue α) (enqValid : Bool) (enqBits : α) (deqReady : Bool) : List α :=
  if q.deqValid enqValid && deqReady then [q.deqBits enqBits] else []

theorem dequeued_append_next (b : Bool) (a : α) (r : Bool) :
    q.dequeued b a r ++ (next q b a r).toList = q.toList ++ q.enqueued b a := by
  cases q <;> cases b <;> cases r <;>
    simp [dequeued, enqueued, next, deqValid, enqReady, deqBits]

theorem next_ready (b : Bool) (a : α) : next q b a true = none := by cases q <;> simp

end FlowQueue

end FpgaNpc.Hardware
