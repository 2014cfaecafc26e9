import FpgaNpc.Hardware.Progress
import FpgaNpc.Sdram.Linear

open FpgaNpc.Hardware FpgaNpc.Simulator.SDRAM

namespace FpgaNpc.Sdram

namespace Core

/-- How many cycles it takes from a state to the refresh that is due. -/
def refreshCost (target : State) : State → Nat
  | .INIT => 5
  | .DELAY => 0
  | .IDLE => 4
  | .ACTIVATE => 10
  | .READ => 7
  | .READ_WAIT => 6
  | .WRITE0 => 5
  | .PRECHARGE => if target = .REFRESH then 3 else 13
  | .REFRESH => 0

def leftDelay (s : Regs) : Nat := if s.state = .DELAY then s.delay.toNat else 0

def refreshRank (s : Regs) : Nat := refreshCost s.targetState (heading s) + leftDelay s

section Laws

variable {s : Regs} {g : Option Inport} {q : Inport} {d : Word}

theorem nextStateR_ne_delay (h : Sched s g) (hk : Holds g q) : nextStateR s q ≠ .DELAY := by
  by_cases hs : s.state = .DELAY
  · have hplan := h.plan
    rw [Plan, heading, if_pos hs] at hplan
    intro he
    simp only [nextStateR, hs] at he
    simp [he] at hplan
  · exact (h.plan.next_of_state (d := 0) hk hs).2

theorem leftDelay_next (h : Sched s g) (hk : Holds g q) :
    leftDelay (next s q d) = (delayR s q).toNat := by
  have hne := nextStateR_ne_delay h hk
  rw [leftDelay, state_next]
  by_cases hR : delayR s q = 0
  · rw [if_neg (not_not.2 hR), if_neg hne, hR]
    rfl
  · rw [if_pos hR, if_pos rfl]
    rfl

theorem heading_next_of_sched (h : Sched s g) (hk : Holds g q) :
    heading (next s q d) = nextStateR s q := by
  have hne := nextStateR_ne_delay h hk
  by_cases hs : s.state = .DELAY
  · have hto : nextStateR s q = s.delayState := by simp [nextStateR, hs]
    rw [heading_next_of_delay hs (hto ▸ hne), heading, if_pos hs, hto]
  · exact heading_next hs hne

theorem refresh_next (h : s.refresh = true) (hs : s.state ≠ .REFRESH) :
    (next s q d).refresh = true := by
  simp [next, h, hs]

theorem refreshRank_next (h : Sched s g) (hk : Holds g q) (hr : s.refresh = true)
    (hs : s.state ≠ .REFRESH) : refreshRank (next s q d) < refreshRank s := by
  have htarget : (next s q d).targetState = targetStateR s q := rfl
  have hplan := h.plan
  rw [refreshRank, heading_next_of_sched h hk, leftDelay_next h hk, htarget, refreshRank, leftDelay]
  rw [Plan, heading] at hplan
  rw [heading]
  cases hstate : s.state <;> simp only [hstate, reduceCtorEq, if_false, if_true] at hplan ⊢
  case REFRESH => exact absurd hstate hs
  case DELAY =>
    have hne := h.delay hstate
    have hto : nextStateR s q = s.delayState := by simp [nextStateR, hstate]
    have hgoal : targetStateR s q = s.targetState := by simp [targetStateR, hstate]
    have hR : delayR s q = s.delay - 1 := by simp [delayR, hstate]
    rw [hto, hgoal, hR]
    bv_omega
  case ACTIVATE =>
    obtain ⟨r, -, -, ht, -⟩ := hplan
    have hto : nextStateR s q = access r := by simp [nextStateR, targetStateR, hstate, ht]
    have hR : (delayR s q).toNat = 2 := by
      simp only [delayR, hstate]
      rfl
    rw [hto, hR]
    obtain ⟨hacc, -⟩ | ⟨hacc, -⟩ := access_cases (q := r) <;> simp [hacc, refreshCost]
  case PRECHARGE =>
    have hgoal : targetStateR s q = s.targetState := by simp [targetStateR, hstate]
    have hR : (delayR s q).toNat = 2 := by
      simp only [delayR, hstate]
      rfl
    rw [hR, hgoal]
    by_cases ht : s.targetState = .REFRESH
    · simp [nextStateR, hstate, hgoal, ht, refreshCost]
    · simp [nextStateR, hstate, hgoal, ht, refreshCost]
  case READ_WAIT =>
    have hagain : readAgain s q = false := by simp [readAgain, hr]
    have hR : (delayR s q).toNat = 1 := by
      simp only [delayR, hstate, hagain]
      rfl
    simp [hR, nextStateR, hstate, hagain, refreshCost]
  case IDLE =>
    have hgoal : targetStateR s q = .REFRESH := by simp [targetStateR, hstate, hr]
    cases hor : orR s.rowOpen <;> simp [nextStateR, delayR, hstate, hr, hor, hgoal, refreshCost]
  all_goals simp [nextStateR, delayR, hstate, hr, refreshCost]

theorem refreshRank_le : refreshRank s ≤ 28 := by
  have hcost : refreshCost s.targetState (heading s) ≤ 13 := by
    cases heading s <;> simp only [refreshCost] <;> first | omega | (split_ifs <;> omega)
  have hleft : leftDelay s ≤ 15 := by
    rw [leftDelay]
    split_ifs
    · have := s.delay.isLt
      omega
    · exact Nat.zero_le _
  rw [refreshRank]
  omega

/-- Once the set-up is over, the timer counts out the periods. -/
def Timed (s : Regs) : Prop :=
  s.state = .INIT ∧ s.refresh = false ∨ s.refreshTimer.toNat ≤ SDRAM_REFRESH_CYCLES

theorem Timed.reset : Timed Core.reset := .inl ⟨rfl, rfl⟩

theorem Timed.next (h : Timed s) : Timed (Core.next s q d) := by
  have htimer := toNat_refreshTimer_next (s := s) (q := q) (w := d)
  by_cases h0 : s.refreshTimer.toNat = 0
  · rw [if_pos h0] at htimer
    exact .inr (Nat.le_of_eq htimer)
  · rw [if_neg h0] at htimer
    refine h.imp (fun ⟨hs, hr⟩ => ?_) fun hle => by omega
    have h0' : s.refreshTimer ≠ 0#17 := fun he => h0 (by rw [he]; rfl)
    simp [Core.next, delayR, nextStateR, hs, hr, h0']

theorem Timed.le (h : Timed s) (hs : s.state ≠ .INIT) :
    s.refreshTimer.toNat ≤ SDRAM_REFRESH_CYCLES :=
  h.resolve_left fun h => hs h.1

theorem refresh_next_of_timer (h : s.refreshTimer.toNat = 0) :
    (next s q d).refresh = true := by
  have h0 : s.refreshTimer = 0 := BitVec.eq_of_toNat_eq h
  simp [next, h0]

theorem command_next_of_refresh (h : s.state = .REFRESH) : (next s q d).command = .REFRESH := by
  simp [next, commandOutput, h]

end Laws

end Core

namespace Axi

open FpgaNpc.Sdram.Core (SDRAM_MHZ SDRAM_REFRESH_CNT SDRAM_REFRESH_CYCLES Timed refreshRank)
open Pmem (Bus)

variable {m : Ddr} {p : Regs × Owed} {io : Bus} {i : Nat → Bus × Word}

theorem sched_of_reached (h : Reached m p) (hk : p.2.Follows io) :
    ∃ g, Core.Sched p.1.memory.core g ∧ Core.Holds g (inport p.1 io) := by
  obtain ⟨g, _, _, _, _, hs⟩ := inStep_of_reached h
  exact ⟨g, hs.sched, hs.holds hk⟩

theorem timed_of_reached (h : Reached m p) : Timed p.1.memory.core := by
  refine h.invariant (P := fun p => Timed p.1.memory.core) ?_ fun p i hp _ => hp.next
  rintro p ⟨⟨requests, response, hr⟩, -⟩
  rw [hr]
  exact .reset

section Trace

def coreAt (m : Ddr) (p : Regs × Owed) (i : Nat → Bus × Word) (n : Nat) : Core.Regs :=
  ((observed m).trace p i n).1.memory.core

variable (hp : Reached m p) (hi : ∀ n, ((observed m).trace p i n).2.Follows (i n).1)

include hp hi

theorem coreAt_succ (n : Nat) : ∃ g q d, Core.Sched (coreAt m p i n) g ∧ Core.Holds g q ∧
    coreAt m p i (n + 1) = Core.next (coreAt m p i n) q d := by
  obtain ⟨g, hs, hk⟩ := sched_of_reached (hp.trace hi n) (hi n)
  exact ⟨g, _, _, hs, hk, rfl⟩

theorem coreAt_ne_init (hinit : p.1.memory.core.state ≠ .INIT) (n : Nat) :
    (coreAt m p i n).state ≠ .INIT := by
  induction n with
  | zero => exact hinit
  | succ n ih =>
    obtain ⟨g, q, d, hs, -, hnext⟩ := coreAt_succ hp hi n
    rw [hnext]
    exact Core.state_next_ne_init hs.plan ih

theorem timer_counts_down {n t : Nat} (h : (coreAt m p i n).refreshTimer.toNat = t) :
    (coreAt m p i (n + t)).refreshTimer.toNat = 0 := by
  induction t generalizing n with
  | zero => exact h
  | succ t ih =>
    obtain ⟨g, q, d, -, -, hnext⟩ := coreAt_succ hp hi n
    have htimer := Core.toNat_refreshTimer_next (s := coreAt m p i n) (q := q) (w := d)
    rw [← hnext, h, if_neg (Nat.succ_ne_zero t), Nat.add_sub_cancel] at htimer
    rw [Nat.add_comm t 1, ← Nat.add_assoc]
    exact ih htimer

theorem timer_periodic {n : Nat} (h : (coreAt m p i n).refreshTimer.toNat = 0) (j : Nat) :
    (coreAt m p i (n + (SDRAM_REFRESH_CYCLES + 1) * j)).refreshTimer.toNat = 0 := by
  induction j with
  | zero => exact h
  | succ j ih =>
    obtain ⟨g, q, d, -, -, hnext⟩ := coreAt_succ hp hi (n + (SDRAM_REFRESH_CYCLES + 1) * j)
    have htimer := Core.toNat_refreshTimer_next (q := q) (w := d)
      (s := coreAt m p i (n + (SDRAM_REFRESH_CYCLES + 1) * j))
    rw [← hnext, if_pos ih] at htimer
    have hzero := timer_counts_down hp hi htimer
    rwa [Nat.add_assoc, Nat.add_assoc, Nat.add_comm 1, ← Nat.mul_succ] at hzero

theorem refresh_told {n : Nat} (h : (coreAt m p i n).refreshTimer.toNat = 0) :
    ∃ k ≤ 28, (coreAt m p i (n + k + 2)).command = .REFRESH := by
  obtain ⟨g, q, d, -, -, hnext⟩ := coreAt_succ hp hi n
  have hdue : (coreAt m p i (n + 1)).refresh = true := by
    rw [hnext]
    exact Core.refresh_next_of_timer h
  obtain ⟨k, hk, hgoal, -⟩ := exists_of_rank
    (fun n => (coreAt m p i n).refresh = true) (fun n => (coreAt m p i n).state = .REFRESH)
    (fun n => refreshRank (coreAt m p i n)) (fun n hr hs => by
      obtain ⟨g, q, d, hsched, hholds, hnext⟩ := coreAt_succ hp hi n
      simp only [hnext]
      exact ⟨Core.refresh_next hr hs, Core.refreshRank_next hsched hholds hr hs⟩) hdue
  obtain ⟨g, q, d, -, -, hnext⟩ := coreAt_succ hp hi (n + 1 + k)
  refine ⟨k, hk.trans Core.refreshRank_le, ?_⟩
  rw [show n + k + 2 = n + 1 + k + 1 by omega, hnext]
  exact Core.command_next_of_refresh hgoal

/-- Whatever the traffic, every 64 ms bring a refresh for each row. -/
theorem rows_refreshed (hinit : p.1.memory.core.state ≠ .INIT) :
    SDRAM_REFRESH_CNT ≤ (List.range (64000 * SDRAM_MHZ)).countP fun n =>
      ((observed m).trace p i n).1.memory.core.command = .REFRESH := by
  obtain ⟨t, ht⟩ : ∃ t, t = p.1.memory.core.refreshTimer.toNat := ⟨_, rfl⟩
  have hle : t ≤ SDRAM_REFRESH_CYCLES := ht ▸ (timed_of_reached hp).le hinit
  have hfirst := timer_counts_down (n := 0) hp hi ht.symm
  refine le_countP_range (0 + t + 2) (SDRAM_REFRESH_CYCLES + 1) ?_ fun j _ => ?_
  · have hroom : SDRAM_REFRESH_CYCLES + 2 + (SDRAM_REFRESH_CYCLES + 1) * SDRAM_REFRESH_CNT ≤
        64000 * SDRAM_MHZ := by decide
    omega
  · obtain ⟨k, hk, hcommand⟩ := refresh_told hp hi (timer_periodic hp hi hfirst j)
    have hperiod : 28 < SDRAM_REFRESH_CYCLES + 1 := by decide
    refine ⟨_, ?_, ?_, decide_eq_true hcommand⟩
    · omega
    · rw [Nat.mul_succ]
      omega

end Trace

theorem reached_without (n : Nat) : Reached zeros ((observed zeros).run powerUp (without n)) := by
  refine reached_powerUp.run ?_
  rw [without]
  have hstay (g : Regs × Owed) (hg : g.2.aw = none ∧ g.2.w = none ∧ g.2.ar = none) :
      (observed zeros).Runs (fun p i => p.2.Follows i.1) g (.replicate n (idle, 0)) := by
    induction n generalizing g with
    | zero => exact trivial
    | succ n ih => exact ⟨Owed.follows_idle hg.1 hg.2.1 hg.2.2, ih _ ⟨rfl, rfl, rfl⟩⟩
  exact hstay powerUp ⟨rfl, rfl, rfl⟩

theorem owed_succ (n : Nat) : ((observed m).trace p i (n + 1)).2 =
    ((observed m).trace p i n).2.observe ((observed m).trace p i n).1 (i n).1 := rfl

theorem follows_idle_succ {n : Nat} (h : i n = (idle, 0)) :
    ((observed m).trace p i (n + 1)).2.Follows idle := by
  rw [owed_succ, h]
  exact Owed.follows_idle rfl rfl rfl

/-- In every cycle a burst of four words is read and a word is written. -/
def busy : Bus × Word :=
  ({ idle with
      aw := ⟨true, ⟨0xa0000104, 2, 0, .INCR⟩⟩
      w := ⟨true, ⟨0x12345678, 0b1111, true⟩⟩
      ar := ⟨true, ⟨0xa0000100, 1, 3, .WRAP⟩⟩ }, 0)

theorem follows_busy_succ {n : Nat} (h : i n = busy) :
    ((observed m).trace p i (n + 1)).2.Follows busy.1 := by
  rw [owed_succ, h]
  exact ⟨Pmem.stands_standing, Pmem.stands_standing, Pmem.stands_standing, fun _ => by decide,
    fun _ _ _ => by decide, fun _ => by decide, fun _ => by decide⟩

theorem rows_refreshed_busy :
    SDRAM_REFRESH_CNT ≤ (List.range (64000 * SDRAM_MHZ)).countP fun n =>
      ((observed zeros).trace ((observed zeros).run powerUp (without 62)) (fun _ => busy)
        n).1.memory.core.command = .REFRESH := by
  refine rows_refreshed (reached_without 62) (fun n => ?_) (by decide +kernel)
  cases n with
  | zero => decide +kernel
  | succ n => exact follows_busy_succ rfl

end Axi

end FpgaNpc.Sdram
