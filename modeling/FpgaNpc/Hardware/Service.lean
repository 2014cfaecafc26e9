import Mathlib.Data.Nat.Find

universe u v

namespace FpgaNpc.Hardware

/-- One run of a unit that takes requests and gives responses, cycle by cycle: the request offered,
whether the unit is busy, in which case it accepts none, the response on offer, and whether it is
taken. -/
structure Traffic (α : Type u) (β : Type v) where
  req : Nat → Option α
  busy : Nat → Bool
  resp : Nat → Option β
  respReady : Nat → Bool

namespace Traffic

variable {α : Type u} {β : Type v} (T : Traffic α β) (f : α → β)

def Accepts (t : Nat) : Prop := (T.req t).isSome = true ∧ T.busy t = false

def Answers (t : Nat) : Prop := (T.resp t).isSome = true ∧ T.respReady t = true

/-- The request accepted at `t` is answered at `h`, and not a second time: what else is answered
later answers a later request. -/
structure Answered (t h : Nat) : Prop where
  after : t < h
  own : T.resp h = (T.req t).map f
  taken : T.respReady h = true
  busy : ∀ u, t < u → u ≤ h → T.busy u = true
  once : ∀ u, t < u → u ≠ h → T.Answers u → ∃ v, h < v ∧ v < u ∧ T.Accepts v

/-- Every accepted request is answered once, with its own result, and the unit is busy until
then. -/
def Serves : Prop := ∀ t, T.Accepts t → ∃ h, T.Answered f t h

structure Starts : Prop where
  idle : T.busy 0 = false
  rises : ∀ t, T.busy (t + 1) = true → T.busy t = true ∨ T.Accepts t

variable {T f} {t u w : Nat}

theorem Starts.accepts_between (hT : T.Starts) (hw : T.busy w = false) (hwu : w ≤ u)
    (hu : T.busy u = true) : ∃ v, w ≤ v ∧ v < u ∧ T.Accepts v := by
  induction u, hwu using Nat.le_induction with
  | base => simp [hw] at hu
  | succ u hwu ih =>
    rcases hT.rises u hu with hb | ha
    · obtain ⟨v, hwv, hvu, ha⟩ := ih hb
      exact ⟨v, hwv, by omega, ha⟩
    · exact ⟨u, hwu, by omega, ha⟩

theorem Starts.accepts_first (hT : T.Starts) (h : (T.req u).isSome = true) :
    ∃ t, T.Accepts t ∧ ∀ v < t, T.req v = none := by
  classical
  have hex : ∃ t, (T.req t).isSome = true := ⟨u, h⟩
  have hnone (v : Nat) (hv : v < Nat.find hex) : T.req v = none := by
    simpa using Nat.find_min hex hv
  refine ⟨Nat.find hex, ⟨Nat.find_spec hex, ?_⟩, hnone⟩
  by_contra hb
  obtain ⟨v, -, hv, ha⟩ := hT.accepts_between hT.idle (Nat.zero_le _) (Bool.not_eq_false _ ▸ hb)
  exact absurd ha.1 (by simp [hnone v hv])

section Pulsed

variable {k : Nat}

/-- A unit that is busy only in the cycle after that of an acceptance, and that answers whatever is
offered, accepted or not, by a pulse `k` cycles later. -/
structure Pulsed (T : Traffic α β) (f : α → β) (k : Nat) : Prop where
  pos : 0 < k
  idle : T.busy 0 = false
  busy : ∀ t, T.busy (t + 1) = true ↔ T.Accepts t
  resp : ∀ t, T.resp t = if k ≤ t then (T.req (t - k)).map f else none

/-- The request accepted at `t` is answered in the next cycle, the response is taken, and what is
offered in that cycle, which is not accepted, gets no response. -/
def Prompt (T : Traffic α β) (k t : Nat) : Prop :=
  k = 1 ∧ T.respReady (t + 1) = true ∧
    ((T.req (t + 1)).isSome = true → T.respReady (t + 2) = false)

theorem Pulsed.starts (h : T.Pulsed f k) : T.Starts :=
  ⟨h.idle, fun t hb => .inr ((h.busy t).1 hb)⟩

theorem Pulsed.not_busy (h : T.Pulsed f k) (ha : T.Accepts t) : T.busy (t + 2) = false := by
  by_contra hb
  have hnext := (h.busy (t + 1)).1 (Bool.not_eq_false _ ▸ hb)
  simpa [(h.busy t).2 ha] using hnext.2

theorem Pulsed.answered_next (h : T.Pulsed f k) (ha : T.Accepts t) {w : Nat}
    (hw : T.Answered f t w) : w = t + 1 := by
  by_contra hne
  have hafter := hw.after
  have hbusy := hw.busy (t + 2) (by omega) (by omega)
  simp [h.not_busy ha] at hbusy

theorem Pulsed.one_of_serves (h : T.Pulsed f k) (hs : T.Serves f) (ha : T.Accepts t) : k = 1 := by
  obtain ⟨t₀, hfirst, hnone⟩ := h.starts.accepts_first ha.1
  obtain ⟨w, hw⟩ := hs t₀ hfirst
  obtain rfl := h.answered_next hfirst hw
  have hpos := h.pos
  have hown := hw.own
  rw [h.resp] at hown
  by_contra hk
  by_cases hle : k ≤ t₀ + 1
  · rw [if_pos hle, hnone _ (by omega)] at hown
    obtain ⟨x, hx⟩ := Option.isSome_iff_exists.1 hfirst.1
    simp [hx] at hown
  · rw [if_neg hle] at hown
    obtain ⟨x, hx⟩ := Option.isSome_iff_exists.1 hfirst.1
    simp [hx] at hown

theorem Pulsed.later_of_answers (h : T.Pulsed f 1) (hu : t < u) (hne : u ≠ t + 1)
    (hans : T.Answers u) (ha : T.Accepts t)
    (hnext : (T.req (t + 1)).isSome = true → T.respReady (t + 2) = false) :
    ∃ v, t + 1 < v ∧ v < u ∧ T.Accepts v := by
  have hreq : (T.req (u - 1)).isSome = true := by
    have hsome := hans.1
    rw [h.resp, if_pos (by omega)] at hsome
    simpa using hsome
  have hne' : u ≠ t + 2 := by
    rintro rfl
    simpa [hnext hreq] using hans.2
  cases hb : T.busy (u - 1)
  case false => exact ⟨u - 1, by omega, by omega, hreq, hb⟩
  case true =>
    have hne3 : u ≠ t + 3 := by
      rintro rfl
      simp [h.not_busy ha] at hb
    obtain ⟨w, rfl⟩ : ∃ w, u = w + 2 := ⟨u - 2, by omega⟩
    exact ⟨w, by omega, by omega, (h.busy w).1 hb⟩

theorem Pulsed.serves_iff (h : T.Pulsed f k) :
    T.Serves f ↔ ∀ t, T.Accepts t → T.Prompt k t := by
  constructor
  · intro hs t ha
    obtain rfl := h.one_of_serves hs ha
    obtain ⟨w, hw⟩ := hs t ha
    obtain rfl := h.answered_next ha hw
    refine ⟨rfl, hw.taken, fun hv => ?_⟩
    by_contra hr
    obtain ⟨v, hv₁, hv₂, -⟩ := hw.once (t + 2) (by omega) (by omega)
      ⟨by rw [h.resp]; simpa using hv, Bool.not_eq_false _ ▸ hr⟩
    omega
  · intro hp t ha
    obtain ⟨rfl, hready, hnext⟩ := hp t ha
    refine ⟨t + 1, by omega, by simp [h.resp], hready, fun u hu hu' => ?_, fun u hu hne hans => ?_⟩
    · obtain rfl : u = t + 1 := by omega
      exact (h.busy t).2 ha
    · exact h.later_of_answers hu hne hans ha hnext

end Pulsed

end Traffic

end FpgaNpc.Hardware
