import Mathlib.Logic.Basic

universe u v w

namespace FpgaNpc.Hardware

/-- A synchronous circuit: what its registers may hold after reset, and what one clock edge
makes of them under the inputs of that cycle. -/
structure Machine (σ : Type u) (ι : Type v) where
  IsReset : σ → Prop
  next : σ → ι → σ

namespace Machine

variable {σ : Type u} {ι : Type v} {γ : Type w}
variable {M : Machine σ ι} {ok : σ → ι → Prop} {P : σ → Prop}

inductive Reaches (M : Machine σ ι) (ok : σ → ι → Prop) : σ → Prop
  | reset {s} : M.IsReset s → Reaches M ok s
  | next {s i} : Reaches M ok s → ok s i → Reaches M ok (M.next s i)

theorem Reaches.invariant (hreset : ∀ s, M.IsReset s → P s)
    (hnext : ∀ s i, P s → ok s i → P (M.next s i)) {s : σ} (h : M.Reaches ok s) : P s := by
  induction h with
  | reset h => exact hreset _ h
  | next _ hi ih => exact hnext _ _ ih hi

def run (M : Machine σ ι) : σ → List ι → σ
  | s, [] => s
  | s, i :: is => M.run (M.next s i) is

theorem run_append (M : Machine σ ι) (s : σ) (is js : List ι) :
    M.run s (is ++ js) = M.run (M.run s is) js := by
  induction is generalizing s with
  | nil => rfl
  | cons i is ih => exact ih (M.next s i)

def Runs (M : Machine σ ι) (ok : σ → ι → Prop) : σ → List ι → Prop
  | _, [] => True
  | s, i :: is => ok s i ∧ Runs M ok (M.next s i) is

instance instDecidableRuns [∀ s i, Decidable (ok s i)] :
    ∀ (s : σ) (is : List ι), Decidable (M.Runs ok s is)
  | _, [] => .isTrue trivial
  | s, _ :: is => @instDecidableAnd _ _ _ (instDecidableRuns (M.next s _) is)

theorem Reaches.run {s : σ} (hs : M.Reaches ok s) {is : List ι} (h : M.Runs ok s is) :
    M.Reaches ok (M.run s is) := by
  induction is generalizing s with
  | nil => exact hs
  | cons i is ih => exact ih (hs.next h.1) h.2

theorem reaches_run (M : Machine σ ι) (ok : σ → ι → Prop) (s : σ) (is : List ι)
    (hs : M.IsReset s) (h : M.Runs ok s is) : M.Reaches ok (M.run s is) :=
  Reaches.run (.reset hs) h

theorem Runs.related {τ : Type w} {N : Machine τ ι} {R : σ → τ → Prop}
    (hnext : ∀ s t i, R s t → ok s i → R (M.next s i) (N.next t i)) {is : List ι} {s : σ} {t : τ}
    (h : M.Runs ok s is) (hr : R s t) : R (M.run s is) (N.run t is) := by
  induction is generalizing s t with
  | nil => exact hr
  | cons i is ih => exact ih h.2 (hnext s t i hr h.1)

def trace (M : Machine σ ι) (s : σ) (i : Nat → ι) : Nat → σ
  | 0 => s
  | n + 1 => M.next (M.trace s i n) (i n)

theorem Reaches.trace {s : σ} (hs : M.Reaches ok s) {i : Nat → ι}
    (h : ∀ n, ok (M.trace s i n) (i n)) (n : Nat) : M.Reaches ok (M.trace s i n) := by
  induction n with
  | zero => exact hs
  | succ n ih => exact ih.next (h n)

/-- `M` beside an observer, which sees every cycle and influences none. -/
def monitor (M : Machine σ ι) (start : γ) (observe : σ → ι → γ → γ) : Machine (σ × γ) ι where
  IsReset p := M.IsReset p.1 ∧ p.2 = start
  next p i := (M.next p.1 i, observe p.1 i p.2)

theorem Reaches.monitor_invariant {P : σ → γ → Prop} {start : γ} {observe : σ → ι → γ → γ}
    {ok : σ × γ → ι → Prop} {p : σ × γ} (h : (M.monitor start observe).Reaches ok p)
    (hreset : ∀ s, M.IsReset s → P s start)
    (hnext : ∀ s g i, P s g → ok (s, g) i → P (M.next s i) (observe s i g)) : P p.1 p.2 := by
  refine h.invariant (P := fun p => P p.1 p.2) (fun p hp => ?_) fun p i => hnext p.1 p.2 i
  rw [hp.2]
  exact hreset p.1 hp.1

end Machine

end FpgaNpc.Hardware
