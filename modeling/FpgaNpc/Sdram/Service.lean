import FpgaNpc.Sdram.Refresh

open FpgaNpc.Hardware FpgaNpc.Simulator.SDRAM

namespace FpgaNpc.Sdram

namespace Core

/-- How many cycles it takes from a state to the request that waits, if no further refresh falls
due. -/
def serveCost (s : Regs) : State → Nat
  | .INIT => 19
  | .DELAY => 0
  | .IDLE => if s.refresh then 18 else 7
  | .ACTIVATE => 3
  | .READ => 0
  | .READ_WAIT => if s.refresh then 20 else 9
  | .WRITE0 => 0
  | .PRECHARGE => if s.targetState = .REFRESH then 17 else 6
  | .REFRESH => 14

def serveTime (s : Regs) : Nat := serveCost s (heading s) + leftDelay s

/-- A refresh that falls due on the way costs its own time. -/
def serveRank (s : Regs) : Nat :=
  if s.state = .INIT ∧ s.refresh = false then s.refreshTimer.toNat + 67
  else if s.refreshTimer.toNat ≤ serveTime s then serveTime s + 36 else serveTime s

section Laws

variable {s : Regs} {g : Option Inport} {q : Inport} {d : Word}

theorem serveTime_le : serveTime s ≤ 35 := by
  have hcost : serveCost s (heading s) ≤ 20 := by
    cases heading s <;> simp only [serveCost] <;> first | omega | (split_ifs <;> omega)
  have hleft : leftDelay s ≤ 15 := by
    rw [leftDelay]
    split_ifs
    · have := s.delay.isLt
      omega
    · exact Nat.zero_le _
  rw [serveTime]
  omega

theorem refresh_next_eq (h : s.refreshTimer.toNat ≠ 0) :
    (next s q d).refresh = (s.refresh && decide (s.state ≠ .REFRESH)) := by
  have h0 : s.refreshTimer ≠ 0 := fun he => h (by rw [he]; rfl)
  simp only [next, if_neg h0]
  split_ifs <;> simp_all

theorem serveTime_next (h : Sched s g) (hk : Holds g q) (hreq : req q = true)
    (ha : accept s = false) (ht : s.refreshTimer.toNat ≠ 0)
    (hinit : ¬(s.state = .INIT ∧ s.refresh = false)) :
    serveTime (next s q d) < serveTime s := by
  have htarget : (next s q d).targetState = targetStateR s q := rfl
  have hrefresh := refresh_next_eq (q := q) (d := d) ht
  have hplan := h.plan
  rw [serveTime, heading_next_of_sched h hk, leftDelay_next h hk, serveTime, leftDelay]
  rw [Plan, heading] at hplan
  rw [heading]
  simp only [accept, Bool.or_eq_false_iff, decide_eq_false_iff_not] at ha
  cases hstate : s.state <;> simp only [hstate, reduceCtorEq, if_false, if_true] at hplan ha ⊢
  case READ => exact absurd trivial ha.1
  case WRITE0 => exact absurd trivial ha.2
  case INIT =>
    have hr : s.refresh = true := by
      by_contra hr
      exact hinit ⟨hstate, by simpa using hr⟩
    simp [nextStateR, delayR, hstate, hr, hrefresh, serveCost]
  case DELAY =>
    have hne := h.delay hstate
    have hto : nextStateR s q = s.delayState := by simp [nextStateR, hstate]
    have hgoal : targetStateR s q = s.targetState := by simp [targetStateR, hstate]
    have hR : delayR s q = s.delay - 1 := by simp [delayR, hstate]
    have hcost : serveCost (next s q d) s.delayState = serveCost s s.delayState := by
      cases s.delayState <;> simp [serveCost, htarget, hgoal, hrefresh, hstate]
    rw [hto, hR, hcost]
    bv_omega
  case ACTIVATE =>
    obtain ⟨r, -, -, htar, -⟩ := hplan
    have hto : nextStateR s q = access r := by simp [nextStateR, targetStateR, hstate, htar]
    have hR : (delayR s q).toNat = 2 := by
      simp only [delayR, hstate]
      rfl
    rw [hto, hR]
    obtain ⟨hacc, -⟩ | ⟨hacc, -⟩ := access_cases (q := r) <;> simp [hacc, serveCost]
  case PRECHARGE =>
    have hgoal : targetStateR s q = s.targetState := by simp [targetStateR, hstate]
    have hR : (delayR s q).toNat = 2 := by
      simp only [delayR, hstate]
      rfl
    rw [hR]
    by_cases htar : s.targetState = .REFRESH
    · simp [nextStateR, hstate, hgoal, htar, serveCost]
    · simp [nextStateR, hstate, hgoal, htar, serveCost]
  case REFRESH =>
    have hR : (delayR s q).toNat = 6 := by
      simp only [delayR, hstate]
      rfl
    simp [nextStateR, hR, hstate, hrefresh, serveCost]
  case READ_WAIT =>
    cases hagain : readAgain s q
    case true => simp [nextStateR, delayR, hstate, hagain, serveCost]; split_ifs <;> omega
    case false =>
      have hR : (delayR s q).toNat = 1 := by
        simp only [delayR, hstate, hagain]
        rfl
      cases hr : s.refresh <;> simp [nextStateR, hR, hstate, hagain, hrefresh, hr, serveCost]
  case IDLE =>
    cases hr : s.refresh
    case true =>
      have hgoal : targetStateR s q = .REFRESH := by simp [targetStateR, hstate, hr]
      cases hor : orR s.rowOpen <;>
        simp [nextStateR, delayR, hstate, hr, hor, htarget, hgoal, serveCost]
    case false =>
      have hacc := access_cases (q := q)
      cases hhit : rowHit s q
      case true =>
        obtain ⟨hacc, -⟩ | ⟨hacc, -⟩ := hacc <;>
          simp [nextStateR, delayR, hstate, hr, hreq, hhit, hacc, serveCost]
      case false =>
        have hgoal : targetStateR s q = access q := by simp [targetStateR, hstate, hr, hreq, hhit]
        have hne : access q ≠ .REFRESH := by
          obtain ⟨hacc, -⟩ | ⟨hacc, -⟩ := hacc <;> simp [hacc]
        cases hop : opened s q <;>
          simp [nextStateR, delayR, hstate, hr, hreq, hhit, hop, htarget, hgoal, hne, serveCost]

theorem serveRank_next (h : Sched s g) (hk : Holds g q) (hreq : req q = true)
    (ha : accept s = false) : serveRank (next s q d) < serveRank s := by
  have htimer := toNat_refreshTimer_next (s := s) (q := q) (w := d)
  have hle := serveTime_le (s := next s q d)
  have hlong : 35 < SDRAM_REFRESH_CYCLES := by decide
  by_cases hinit : s.state = .INIT ∧ s.refresh = false
  · obtain ⟨hs, hr⟩ := hinit
    have hto : (next s q d).state = .INIT := by simp [next, delayR, nextStateR, hs, hr]
    have hnow : serveRank s = s.refreshTimer.toNat + 67 := if_pos ⟨hs, hr⟩
    rw [hnow, serveRank]
    by_cases ht : s.refreshTimer.toNat = 0
    · have hdue := refresh_next_of_timer (q := q) (d := d) ht
      rw [if_pos ht] at htimer
      rw [if_neg (by simp [hdue]), if_neg (by omega)]
      omega
    · have hstay := refresh_next_eq (q := q) (d := d) ht
      rw [hr, Bool.false_and] at hstay
      rw [if_neg ht] at htimer
      rw [if_pos ⟨hto, hstay⟩, htimer]
      omega
  · have hinit' : ¬((next s q d).state = .INIT ∧ (next s q d).refresh = false) := by
      rintro ⟨hs', hr'⟩
      by_cases hs : s.state = .INIT
      · have hr : s.refresh = true := by
          by_contra hr
          exact hinit ⟨hs, by simpa using hr⟩
        simp [next, delayR, nextStateR, hs, hr] at hs'
      · exact state_next_ne_init h.plan hs hs'
    rw [serveRank, if_neg hinit', serveRank, if_neg hinit]
    by_cases ht : s.refreshTimer.toNat = 0
    · rw [if_pos ht] at htimer
      rw [if_neg (by omega), if_pos (by omega)]
      omega
    · have hlt := serveTime_next (d := d) h hk hreq ha ht hinit
      rw [if_neg ht] at htimer
      split_ifs <;> omega

theorem serveRank_le (h : s.state ≠ .INIT) : serveRank s ≤ 71 := by
  have hle := serveTime_le (s := s)
  rw [serveRank, if_neg (fun hi => h hi.1)]
  split_ifs <;> omega

end Laws

end Core

namespace Axi

open FpgaNpc.Sdram.Core (SDRAM_START_DELAY rdAt serveRank)
open Pmem (Bus Request)

section Requests

variable {m : Ddr} {p : Regs × Owed} {io io' : Bus} {z : Word} {i : Nat → Bus × Word}

theorem request_stays (h : Reached m p) (hk : p.2.Follows io)
    (hreq : Core.req (inport p.1 io) = true) (ha : Core.accept p.1.memory.core = false)
    (hk' : (p.2.observe p.1 io).Follows io') :
    Core.req (inport (next p.1 io z) io') = true := by
  obtain ⟨g, reading, m', done, waiting, hs⟩ := inStep_of_reached h
  obtain ⟨_, _, _, hnext⟩ := hs.next_of_wait (z := z) hk ha
  have hholds := hnext.holds hk'
  rw [Core.held_of_not_accept hreq ha] at hholds
  rw [← Core.req_request, hholds _ rfl, Core.req_request, hreq]

theorem refreshTimer_le (h : Reached m p) :
    p.1.memory.core.refreshTimer.toNat ≤ SDRAM_START_DELAY + 100 := by
  refine h.invariant
    (P := fun p => p.1.memory.core.refreshTimer.toNat ≤ SDRAM_START_DELAY + 100) ?_ ?_
  · rintro p ⟨⟨requests, response, hr⟩, -⟩
    rw [hr]
    exact Nat.le_of_eq rfl
  · intro p i hle _
    have hlong : Core.SDRAM_REFRESH_CYCLES ≤ SDRAM_START_DELAY + 100 := by decide
    have htimer := Core.toNat_refreshTimer_next (s := p.1.memory.core)
      (q := inport p.1 i.1) (w := dq p.1.memory i.2)
    refine (Nat.le_of_eq htimer).trans ?_
    split_ifs <;> omega

/-- A request is accepted soon; the first one waits for the chip to be set up. -/
theorem request_accepted (hp : Reached m p)
    (hi : ∀ n, ((observed m).trace p i n).2.Follows (i n).1)
    (hreq : Core.req (inport p.1 (i 0).1) = true) :
    ∃ k ≤ (if p.1.memory.core.state = .INIT then SDRAM_START_DELAY + 167 else 71),
      Core.accept ((observed m).trace p i k).1.memory.core = true := by
  obtain ⟨k, hk, hgoal, -⟩ := exists_of_rank
    (fun n => Core.req (inport ((observed m).trace p i n).1 (i n).1) = true)
    (fun n => Core.accept (coreAt m p i n) = true) (fun n => serveRank (coreAt m p i n))
    (fun n hreq hn => by
      have ha : Core.accept (coreAt m p i n) = false := by simpa using hn
      obtain ⟨g, hs, hk⟩ := sched_of_reached (hp.trace hi n) (hi n)
      exact ⟨request_stays (hp.trace hi n) (hi n) hreq ha (hi (n + 1)),
        Core.serveRank_next hs hk hreq ha⟩) (n := 0) hreq
  rw [Nat.zero_add] at hgoal
  refine ⟨k, hk.trans ?_, hgoal⟩
  split_ifs with hinit
  · have hle := refreshTimer_le hp
    have htime := Core.serveTime_le (s := p.1.memory.core)
    change serveRank p.1.memory.core ≤ _
    rw [serveRank]
    split_ifs <;> omega
  · exact Core.serveRank_le hinit

def oneRead (n : Nat) : Bus × Word :=
  if n < 5 then ({ idle with ar := ⟨true, ⟨0xa0000104, 2, 0, .INCR⟩⟩ }, 0) else (idle, 0)

theorem request_accepted_oneRead : ∃ k ≤ 71, Core.accept ((observed zeros).trace
    ((observed zeros).run powerUp (without 62)) oneRead k).1.memory.core = true := by
  have hready : ((observed zeros).run powerUp (without 62)).1.memory.core.state ≠ .INIT := by
    decide +kernel
  obtain ⟨k, hk, ha⟩ := request_accepted (i := oneRead) (reached_without 62) (fun n => by
    match n with
    | 0 | 1 | 2 | 3 | 4 | 5 => decide +kernel
    | n + 6 =>
      have hidle (k : Nat) : oneRead (k + 5) = (idle, 0) := if_neg (by omega)
      rw [hidle (n + 1)]
      exact follows_idle_succ (hidle n)) (by decide +kernel)
  rw [if_neg hready] at hk
  exact ⟨k, hk, ha⟩

end Requests

end Axi

end FpgaNpc.Sdram
