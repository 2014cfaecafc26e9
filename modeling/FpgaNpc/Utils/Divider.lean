import FpgaNpc.Hardware.Machine
import FpgaNpc.Hardware.Service
import FpgaNpc.Utils.Exe

open FpgaNpc.Hardware

universe u

namespace FpgaNpc

namespace MultiCycle

section Step

variable {ρ : Type u} {c : Nat} {s : Regs ρ} {own : ρ}
variable (latency : Nat) (reqValid respReady : Bool) (result : ρ)

structure Working (s : Regs ρ) (own : ρ) (c : Nat) : Prop where
  busy : s.busy = true
  count : s.count = c
  result : s.result = own

theorem working_accept (hb : s.busy = false) :
    Working (next latency s true result respReady) result (latency - 1) := by
  constructor <;> simp [next, reqReady, done, hb]

theorem next_busy (hb : s.busy = false) :
    (next latency s reqValid result respReady).busy = reqValid := by
  cases reqValid <;> simp [next, reqReady, done, hb]

theorem Working.count_down (h : Working s own (c + 1)) :
    Working (next latency s reqValid result respReady) own c := by
  constructor <;> simp [next, reqReady, done, h.busy, h.count, h.result]

theorem Working.wait (h : Working s own 0) :
    Working (next latency s reqValid result false) own 0 := by
  constructor <;> simp [next, reqReady, done, h.busy, h.count, h.result]

theorem Working.answer (h : Working s own 0) :
    (next latency s reqValid result true).busy = false := by
  simp [next, done, h.busy, h.count]

end Step

end MultiCycle

namespace Divider

structure Inputs where
  reqValid : Bool
  divisor : Word
  dividend : Word
  respReady : Bool

def Inputs.req (io : Inputs) : Option (Word × Word) :=
  if io.reqValid then some (io.dividend, io.divisor) else none

def divide (r : Word × Word) : Word × Word := (r.1 / r.2, r.1 % r.2)

/-- `Divider` outside the FPGA build. The result has no reset value. -/
def machine (latency : Nat) : Machine (MultiCycle.Regs (Word × Word)) Inputs where
  IsReset s := s.busy = false ∧ s.count = 0
  next s io := Divider.next latency s io.reqValid io.dividend io.divisor io.respReady

def traffic (latency : Nat) (s : MultiCycle.Regs (Word × Word)) (io : Nat → Inputs) :
    Traffic (Word × Word) (Word × Word) where
  req t := (io t).req
  busy t := ((machine latency).trace s io t).busy
  resp t :=
    let s' := (machine latency).trace s io t
    if MultiCycle.done s' then some s'.result else none
  respReady t := (io t).respReady

section Run

variable {latency : Nat} {s : MultiCycle.Regs (Word × Word)} {io : Nat → Inputs} {t u w : Nat}
variable {own x : Word × Word}

theorem isSome_req (io : Inputs) : io.req.isSome = io.reqValid := by
  cases h : io.reqValid <;> simp [Inputs.req, h]

theorem starts (hs : (machine latency).IsReset s) (io : Nat → Inputs) :
    (traffic latency s io).Starts where
  idle := hs.1
  rises t hb := by
    cases hbt : (traffic latency s io).busy t
    case true => exact .inl rfl
    case false =>
      refine .inr ⟨?_, hbt⟩
      change ((machine latency).trace s io t).busy = false at hbt
      change (MultiCycle.next latency ((machine latency).trace s io t) (io t).reqValid
        (divide ((io t).dividend, (io t).divisor)) (io t).respReady).busy = true at hb
      rw [MultiCycle.next_busy _ _ _ _ hbt] at hb
      exact (isSome_req (io t)).trans hb

theorem working (ha : (traffic latency s io).Accepts t) (hx : (io t).req = some x) (j : Nat)
    (hj : j < latency) :
    MultiCycle.Working ((machine latency).trace s io (t + 1 + j)) (divide x) (latency - 1 - j) := by
  induction j with
  | zero =>
    obtain ⟨hv, rfl⟩ : (io t).reqValid = true ∧ x = ((io t).dividend, (io t).divisor) := by
      have hv := isSome_req (io t)
      rw [hx] at hv
      refine ⟨hv.symm, ?_⟩
      simpa [Inputs.req, ← hv] using hx.symm
    have haccept := MultiCycle.working_accept latency (io t).respReady
      (divide ((io t).dividend, (io t).divisor)) ha.2
    rw [← hv] at haccept
    exact haccept
  | succ j ih =>
    have h := ih (by omega)
    rw [show latency - 1 - j = (latency - 1 - (j + 1)) + 1 by omega] at h
    exact h.count_down latency _ _ _

theorem waiting (h : MultiCycle.Working ((machine latency).trace s io t) own 0) (htu : t ≤ u)
    (hready : ∀ v, t ≤ v → v < u → (io v).respReady = false) :
    MultiCycle.Working ((machine latency).trace s io u) own 0 := by
  induction u, htu using Nat.le_induction with
  | base => exact h
  | succ u htu ih =>
    have hu := ih fun v htv hvu => hready v htv (by omega)
    have hnext := hu.wait latency (io u).reqValid (divide ((io u).dividend, (io u).divisor))
    rw [← hready u htu (Nat.lt_succ_self u)] at hnext
    exact hnext

theorem done_of_answers (h : (traffic latency s io).Answers u) :
    ((machine latency).trace s io u).busy = true ∧
      ((machine latency).trace s io u).count = 0 := by
  obtain ⟨hsome, -⟩ := h
  have hd : MultiCycle.done ((machine latency).trace s io u) = true := by
    by_contra hd
    simp [traffic, hd] at hsome
  simpa [MultiCycle.done] using hd

theorem working_until (hl : 0 < latency) (ha : (traffic latency s io).Accepts t)
    (hx : (io t).req = some x)
    (hnot : ∀ v, t + latency ≤ v → v < w → (io v).respReady = false) (htu : t < u) (huw : u ≤ w) :
    MultiCycle.Working ((machine latency).trace s io u) (divide x) (t + latency - u) := by
  by_cases h : t + latency ≤ u
  · have h0 := working ha hx (latency - 1) (by omega)
    rw [Nat.sub_self, show t + 1 + (latency - 1) = t + latency by omega] at h0
    rw [Nat.sub_eq_zero_of_le h]
    exact waiting h0 h fun v hv hvu => hnot v hv (by omega)
  · have hw := working ha hx (u - t - 1) (by omega)
    rw [show t + 1 + (u - t - 1) = u by omega,
      show latency - 1 - (u - t - 1) = t + latency - u by omega] at hw
    exact hw

theorem answered (hl : 0 < latency) (hs : (machine latency).IsReset s)
    (ha : (traffic latency s io).Accepts t) (hdone : t + latency ≤ w)
    (htaken : (io w).respReady = true)
    (hnot : ∀ v, t + latency ≤ v → v < w → (io v).respReady = false) :
    (traffic latency s io).Answered divide t w := by
  obtain ⟨x, hx⟩ := Option.isSome_iff_exists.1 ha.1
  have hwork (u : Nat) (hu : t < u) (huw : u ≤ w) := working_until hl ha hx hnot hu huw
  have hlast := hwork w (by omega) (Nat.le_refl w)
  rw [Nat.sub_eq_zero_of_le hdone] at hlast
  refine ⟨by omega, ?_, htaken, fun u hu huw => (hwork u hu huw).busy, fun u hu hne hans => ?_⟩
  · rw [hx]
    simp [traffic, MultiCycle.done, hlast.busy, hlast.count, hlast.result]
  · obtain ⟨hbusy, hcount⟩ := done_of_answers hans
    rcases Nat.lt_or_gt_of_ne hne with hlt | hgt
    · have hle : t + latency ≤ u := by
        rw [(hwork u hu (by omega)).count] at hcount
        omega
      have hready : (io u).respReady = true := hans.2
      simp [hnot u hle hlt] at hready
    · have hfree : (traffic latency s io).busy (w + 1) = false := by
        have h := hlast.answer latency (io w).reqValid (divide ((io w).dividend, (io w).divisor))
        rw [← htaken] at h
        exact h
      obtain ⟨v, hv, hvu, hacc⟩ := (starts hs io).accepts_between hfree hgt hbusy
      exact ⟨v, by omega, hvu, hacc⟩

theorem serves (hl : 0 < latency) (hs : (machine latency).IsReset s) (io : Nat → Inputs)
    (hready : ∀ t, ∃ u, t ≤ u ∧ (io u).respReady = true) :
    (traffic latency s io).Serves divide := by
  classical
  intro t ha
  have hex : ∃ u, t + latency ≤ u ∧ (io u).respReady = true := hready _
  obtain ⟨hdone, htaken⟩ := Nat.find_spec hex
  refine ⟨Nat.find hex, answered hl hs ha hdone htaken fun v hv hlt => ?_⟩
  simpa [hv] using Nat.find_min hex hlt

end Run

end Divider

namespace DividerFPGA

open Divider

/-- The divider IP, a pipeline: what is valid at its inputs in a cycle goes in, and what is valid at
its output depends on what went in before. -/
structure IP (σ : Type u) where
  start : σ
  next : σ → Option (Word × Word) → σ
  dout : σ → Option (Word × Word)

variable {σ : Type u}

def IP.run (ip : IP σ) (req : Nat → Option (Word × Word)) : Nat → σ
  | 0 => ip.start
  | t + 1 => ip.next (ip.run req t) (req t)

/-- It emits one pulse, with quotient and remainder, `k` cycles after each cycle with `tvalid`. -/
structure IP.Pulses (ip : IP σ) (k : Nat) : Prop where
  pos : 0 < k
  dout : ∀ req t, ip.dout (ip.run req t) = if k ≤ t then (req (t - k)).map divide else none

structure Regs (σ : Type u) where
  busy : Bool
  count : Nat
  divider : σ

/-- `Divider` in the FPGA build. -/
def machine (ip : IP σ) (latency : Nat) : Machine (Regs σ) Inputs where
  IsReset s := s = ⟨false, 0, ip.start⟩
  next s io :=
    let reqFire := io.reqValid && !s.busy
    { busy := if s.busy && s.count != 0 then false else if reqFire then true else s.busy
      count := if reqFire then latency - 1 else s.count
      divider := ip.next s.divider io.req }

def traffic (ip : IP σ) (latency : Nat) (io : Nat → Inputs) :
    Traffic (Word × Word) (Word × Word) where
  req t := (io t).req
  busy t := ((machine ip latency).trace ⟨false, 0, ip.start⟩ io t).busy
  resp t := ip.dout ((machine ip latency).trace ⟨false, 0, ip.start⟩ io t).divider
  respReady t := (io t).respReady

section Run

variable {ip : IP σ} {latency k : Nat} {io : Nat → Inputs} {t u : Nat}

theorem trace_divider (t : Nat) : ((machine ip latency).trace ⟨false, 0, ip.start⟩ io t).divider =
    ip.run (fun t => (io t).req) t := by
  induction t with
  | zero => rfl
  | succ t ih =>
    rw [IP.run, ← ih]
    rfl

theorem count_of_busy (hl : 2 ≤ latency) (t : Nat)
    (h : ((machine ip latency).trace ⟨false, 0, ip.start⟩ io t).busy = true) :
    ((machine ip latency).trace ⟨false, 0, ip.start⟩ io t).count ≠ 0 := by
  induction t with
  | zero => simp [Machine.trace] at h
  | succ t ih =>
    rw [Machine.trace] at h ⊢
    generalize (machine ip latency).trace ⟨false, 0, ip.start⟩ io t = s at ih h ⊢
    cases hb : s.busy
    case true => simp [machine, hb, ih hb] at h
    case false =>
      cases hv : (io t).reqValid
      case false => simp [machine, hb, hv] at h
      case true =>
        simp only [machine, hb, hv, Bool.not_false, Bool.and_self, if_true]
        omega

theorem busy_succ (hl : 2 ≤ latency) (t : Nat) : (traffic ip latency io).busy (t + 1) = true ↔
    (traffic ip latency io).Accepts t := by
  have hcount : ((machine ip latency).trace ⟨false, 0, ip.start⟩ io t).busy = true →
      ((machine ip latency).trace ⟨false, 0, ip.start⟩ io t).count ≠ 0 := count_of_busy hl t
  rw [Traffic.Accepts]
  change ((machine ip latency).next _ (io t)).busy = true ↔ (io t).req.isSome = true ∧ _ = false
  rw [isSome_req]
  change _ ↔ _ ∧ ((machine ip latency).trace _ io t).busy = false
  generalize (machine ip latency).trace ⟨false, 0, ip.start⟩ io t = s at hcount ⊢
  cases hb : s.busy
  case true => simp [machine, hb, hcount hb]
  case false => simp [machine, hb]

theorem pulsed (hip : ip.Pulses k) (hl : 2 ≤ latency) (io : Nat → Inputs) :
    (traffic ip latency io).Pulsed divide k where
  pos := hip.pos
  idle := rfl
  busy := busy_succ hl
  resp t := by
    change ip.dout _ = _
    rw [trace_divider, hip.dout]
    rfl

theorem division_served_iff (hip : ip.Pulses k) (hl : 2 ≤ latency) (io : Nat → Inputs) :
    (traffic ip latency io).Serves divide ↔
      ∀ t, (traffic ip latency io).Accepts t → (traffic ip latency io).Prompt k t :=
  (pulsed hip hl io).serves_iff

end Run

section Runs

def pipeline (k : Nat) : IP (Nat → Option (Word × Word)) where
  start _ := none
  next s x j := if j + 1 = k then x.map divide else s (j + 1)
  dout s := s 0

theorem run_pipeline (k : Nat) (req : Nat → Option (Word × Word)) (t j : Nat) (hj : j < k) :
    (pipeline k).run req t j = if k ≤ t + j then (req (t + j - k)).map divide else none := by
  induction t generalizing j with
  | zero => rw [if_neg (by omega)]; rfl
  | succ t ih =>
    change (if j + 1 = k then (req t).map divide else (pipeline k).run req t (j + 1)) = _
    by_cases h : j + 1 = k
    · rw [if_pos h, if_pos (by omega), show t + 1 + j - k = t by omega]
    · rw [if_neg h, ih (j + 1) (by omega), show t + (j + 1) = t + 1 + j by omega]

theorem pulses_pipeline {k : Nat} (hk : 0 < k) : (pipeline k).Pulses k :=
  ⟨hk, fun req t => run_pipeline k req t 0 hk⟩

/-- 100 divided by 7 is asked for in the first cycle, and the response is waited for except in
cycle `stall`. -/
def onceStalled (stall : Nat) (t : Nat) : Inputs := ⟨t == 0, 7, 100, t != stall⟩

theorem division_served_iff_once :
    (traffic (pipeline 1) 34 (onceStalled 34)).Serves divide ↔
      ∀ t, (traffic (pipeline 1) 34 (onceStalled 34)).Accepts t →
        (traffic (pipeline 1) 34 (onceStalled 34)).Prompt 1 t :=
  division_served_iff (pulses_pipeline (by decide)) (by decide) (onceStalled 34)

theorem stalled_division_unanswered :
    (traffic (pipeline 34) 34 (onceStalled 34)).Accepts 0 ∧
      (∀ h, ¬(traffic (pipeline 34) 34 (onceStalled 34)).Answers h) ∧
      (traffic (pipeline 34) 34 (onceStalled 34)).busy 2 = false ∧
      ¬∀ (σ : Type) (ip : IP σ) k latency, ip.Pulses k → 2 ≤ latency → ∀ io : Nat → Inputs,
        (∀ t, ∃ u, t ≤ u ∧ (io u).respReady = true) →
          (traffic ip latency io).Serves divide := by
  have hpulsed : (traffic (pipeline 34) 34 (onceStalled 34)).Pulsed divide 34 :=
    pulsed (pulses_pipeline (by decide)) (by decide) _
  have hfirst : (traffic (pipeline 34) 34 (onceStalled 34)).Accepts 0 := ⟨rfl, rfl⟩
  refine ⟨hfirst, fun h hans => ?_, rfl, fun hall => ?_⟩
  · obtain ⟨hsome, hready⟩ := hans
    have hstall : h ≠ 34 := by
      rintro rfl
      exact absurd hready (by decide)
    rw [hpulsed.resp] at hsome
    by_cases hle : 34 ≤ h
    · rw [if_pos hle, Option.isSome_map] at hsome
      change (onceStalled 34 (h - 34)).req.isSome = true at hsome
      rw [isSome_req] at hsome
      simp only [onceStalled, beq_iff_eq] at hsome
      omega
    · simp [hle] at hsome
  · have hserves := hall _ _ 34 34 (pulses_pipeline (by decide)) (by decide) (onceStalled 34)
      fun t => ⟨t + 35, by omega, by simp [onceStalled]⟩
    exact absurd (hpulsed.one_of_serves hserves hfirst) (by decide)

end Runs

end DividerFPGA

end FpgaNpc
