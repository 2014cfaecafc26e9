import FpgaNpc.Sdram.Chip

open FpgaNpc.Hardware FpgaNpc.Simulator.SDRAM

namespace FpgaNpc.Sdram.Core

/-- What a request asks for, without the data of a write. -/
def Inport.request (io : Inport) : Inport := { io with writeData := 0 }

def held (s : Regs) (io : Inport) : Option Inport :=
  if req io && !accept s then some io.request else none

def Holds (g : Option Inport) (io : Inport) : Prop := ∀ r ∈ g, io.request = r

instance (g : Option Inport) (io : Inport) : Decidable (Holds g io) :=
  inferInstanceAs (Decidable (∀ r ∈ g, io.request = r))

def heading (s : Regs) : State := if s.state = .DELAY then s.delayState else s.state

/-- What the rows and the request are like on the way to each state. -/
def Plan (s : Regs) (g : Option Inport) : Prop :=
  match heading s with
  | .INIT => s.state = .INIT ∧ s.rowOpen = 0
  | .DELAY => False
  | .IDLE => True
  | .ACTIVATE => ∃ r, g = some r ∧ req r = true ∧ s.targetState = access r ∧ opened s r = false
  | .READ => ∃ r, g = some r ∧ r.rd = true ∧ rowHit s r = true
  | .READ_WAIT => s.state = .READ_WAIT
  | .WRITE0 => ∃ r, g = some r ∧ req r = true ∧ r.rd = false ∧ rowHit s r = true
  | .PRECHARGE => s.targetState = .REFRESH ∨ ∃ r, g = some r ∧ req r = true ∧
      s.targetState = access r
  | .REFRESH => s.rowOpen = 0

/-- The controller was in `READ` this many cycles before the last one. -/
def rdAt (s : Regs) (i : Nat) : Bool := s.rd.getLsbD i

/-- The reads whose data is on its way, as each state finds them. -/
def Pipe (s : Regs) : Prop :=
  match s.state with
  | .READ_WAIT => rdAt s 0 = true ∧ rdAt s 1 = false
  | .READ => rdAt s 0 = false ∧ rdAt s 2 = false
  | .DELAY => rdAt s 0 = false ∧ rdAt s 2 = false ∧
      (rdAt s 1 = true → s.delay = 1 ∧ s.delayState = .IDLE)
  | .IDLE => rdAt s 0 = false ∧ rdAt s 1 = false
  | _ => ∀ i, rdAt s i = false

structure Sched (s : Regs) (g : Option Inport) : Prop where
  plan : Plan s g
  delay : s.state = .DELAY → s.delay ≠ 0
  pipe : Pipe s

section Laws

variable {s : Regs} {g : Option Inport} {q : Inport} {d : Word}

@[simp] theorem req_request : req q.request = req q := rfl

@[simp] theorem access_request : access q.request = access q := rfl

@[simp] theorem opened_request : opened s q.request = opened s q := rfl

@[simp] theorem rowHit_request : rowHit s q.request = rowHit s q := rfl

@[simp] theorem rd_request : q.request.rd = q.rd := rfl

theorem access_cases : access q = .READ ∧ q.rd = true ∨ access q = .WRITE0 ∧ q.rd = false := by
  cases h : q.rd <;> simp [access, h]

theorem rdAt_next (i : Nat) :
    rdAt (next s q d) (i + 1) = (decide (i < 2) && rdAt s i) := by
  simp only [rdAt, next, BitVec.getLsbD_append, BitVec.getLsbD_setWidth]
  simp

theorem rdAt_next_zero : rdAt (next s q d) 0 = decide (s.state = .READ) := by
  simp only [rdAt, next, BitVec.getLsbD_append]
  simp

theorem heading_next_of_delay (h : s.state = .DELAY) (hne : s.delayState ≠ .DELAY) :
    heading (next s q d) = heading s := by
  by_cases hd : delayR s q = 0#4 <;> simp [heading, next, h, hd, nextStateR, hne]

theorem heading_next (h : s.state ≠ .DELAY) (hne : nextStateR s q ≠ .DELAY) :
    heading (next s q d) = nextStateR s q := by
  by_cases hd : delayR s q = 0#4 <;> simp [heading, next, h, hd, hne]

theorem held_of_not_accept (h : req q = true) (ha : accept s = false) :
    held s q = some q.request := by
  simp [held, h, ha]

@[simp] theorem getLsbD_setBit_bank (v : BitVec 4) (b b' : BitVec 2) (x : Bool) :
    (setBit v b.toNat x).getLsbD b'.toNat = if b' = b then x else v.getLsbD b'.toNat := by
  rw [getLsbD_setBit _ _ _ _ b.isLt]
  simp only [BitVec.toNat_inj]

theorem opened_congr {s' : Regs} (h : s'.rowOpen = s.rowOpen) : opened s' q = opened s q := by
  rw [opened, h, opened]

theorem rowHit_congr {s' : Regs} (h : s'.rowOpen = s.rowOpen) (ha : s'.activeRow = s.activeRow) :
    rowHit s' q = rowHit s q := by
  rw [rowHit, opened_congr h, ha, rowHit]

theorem Plan.next_of_delay (h : Plan s g) (hk : Holds g q) (hs : s.state = .DELAY) :
    Plan (Core.next s q d) (held s q) := by
  have hne : s.delayState ≠ .DELAY := by
    intro he
    simp [Plan, heading, hs, he] at h
  have hopen : (Core.next s q d).rowOpen = s.rowOpen := by simp [Core.next, commandOutput, hs]
  have hactive : (Core.next s q d).activeRow = s.activeRow := by
    simp [Core.next, commandOutput, hs]
  have htarget : (Core.next s q d).targetState = s.targetState := by
    simp [Core.next, targetStateR, hs]
  have ha : accept s = false := by simp [accept, hs]
  have hgoto := heading_next_of_delay (q := q) (d := d) hs hne
  rw [Plan, hgoto]
  rw [Plan] at h
  cases hto : heading s <;> simp only [hto] at h ⊢
  case INIT => simp [hs] at h
  case READ_WAIT => simp [hs] at h
  case ACTIVATE =>
    obtain ⟨r, rfl, hreq, ht, ho⟩ := h
    obtain rfl := hk r rfl
    exact ⟨_, held_of_not_accept hreq ha, hreq, htarget.trans ht, (opened_congr hopen).trans ho⟩
  case READ =>
    obtain ⟨r, rfl, hrd, hhit⟩ := h
    obtain rfl := hk r rfl
    have hrd' : q.rd = true := hrd
    exact ⟨_, held_of_not_accept (by simp [req, hrd']) ha, hrd,
      (rowHit_congr hopen hactive).trans hhit⟩
  case WRITE0 =>
    obtain ⟨r, rfl, hreq, hrd, hhit⟩ := h
    obtain rfl := hk r rfl
    exact ⟨_, held_of_not_accept hreq ha, hreq, hrd, (rowHit_congr hopen hactive).trans hhit⟩
  case PRECHARGE =>
    rw [htarget]
    refine h.imp_right fun ⟨r, hg, hreq, ht⟩ => ?_
    obtain rfl := hk r hg
    exact ⟨_, held_of_not_accept hreq ha, hreq, ht⟩
  case REFRESH => rw [hopen, h]

theorem rowOpen_next_of_init (hs : s.state = .INIT) :
    (Core.next s q d).rowOpen = s.rowOpen := by
  simp only [Core.next, commandOutput, hs]
  split_ifs <;> rfl

theorem orR_eq_false {n : Nat} {x : BitVec n} : orR x = false ↔ x = 0 := by simp [orR]

theorem Plan.next_of_idle (hs : s.state = .IDLE) :
    Plan (Core.next s q d) (held s q) ∧ nextStateR s q ≠ .DELAY := by
  have hopen : (Core.next s q d).rowOpen = s.rowOpen := by simp [Core.next, commandOutput, hs]
  have hactive : (Core.next s q d).activeRow = s.activeRow := by
    simp [Core.next, commandOutput, hs]
  have ha : accept s = false := by simp [accept, hs]
  have hto (x : State) (hx : x ≠ .DELAY) (h : nextStateR s q = x) :
      heading (Core.next s q d) = x := by
    rw [heading_next (by simp [hs]) (by rwa [h]), h]
  have htarget : (Core.next s q d).targetState = targetStateR s q := rfl
  cases hrefresh : s.refresh
  case true =>
    have hgoal : targetStateR s q = .REFRESH := by simp [targetStateR, hs, hrefresh]
    cases hor : orR s.rowOpen
    case true =>
      have hnext : nextStateR s q = .PRECHARGE := by simp [nextStateR, hs, hrefresh, hor]
      exact ⟨by simp [Plan, hto _ (by simp) hnext, htarget, hgoal], by simp [hnext]⟩
    case false =>
      have hnext : nextStateR s q = .REFRESH := by simp [nextStateR, hs, hrefresh, hor]
      exact ⟨by simp [Plan, hto _ (by simp) hnext, hopen, orR_eq_false.1 hor], by simp [hnext]⟩
  case false =>
    cases hreq : req q
    case false =>
      have hnext : nextStateR s q = .IDLE := by simp [nextStateR, hs, hrefresh, hreq]
      exact ⟨by simp [Plan, hto _ (by simp) hnext], by simp [hnext]⟩
    case true =>
      have hg := held_of_not_accept hreq ha
      cases hhit : rowHit s q
      case true =>
        have hnext : nextStateR s q = access q := by simp [nextStateR, hs, hrefresh, hreq, hhit]
        have hhit' := (rowHit_congr (q := q) hopen hactive).trans hhit
        obtain ⟨hacc, hrd⟩ | ⟨hacc, hrd⟩ := access_cases (q := q)
        · refine ⟨?_, by simp [hnext, hacc]⟩
          rw [Plan, hto _ (by simp) (hnext.trans hacc)]
          exact ⟨_, hg, hrd, hhit'⟩
        · refine ⟨?_, by simp [hnext, hacc]⟩
          rw [Plan, hto _ (by simp) (hnext.trans hacc)]
          exact ⟨_, hg, hreq, hrd, hhit'⟩
      case false =>
        have hgoal : targetStateR s q = access q := by
          simp [targetStateR, hs, hrefresh, hreq, hhit]
        cases hop : opened s q
        case true =>
          have hnext : nextStateR s q = .PRECHARGE := by
            simp [nextStateR, hs, hrefresh, hreq, hhit, hop]
          refine ⟨?_, by simp [hnext]⟩
          rw [Plan, hto _ (by simp) hnext]
          exact .inr ⟨_, hg, hreq, hgoal⟩
        case false =>
          have hnext : nextStateR s q = .ACTIVATE := by
            simp [nextStateR, hs, hrefresh, hreq, hhit, hop]
          refine ⟨?_, by simp [hnext]⟩
          rw [Plan, hto _ (by simp) hnext]
          exact ⟨_, hg, hreq, hgoal, (opened_congr hopen).trans hop⟩

theorem Plan.next_of_activate (h : Plan s g) (hk : Holds g q) (hs : s.state = .ACTIVATE) :
    Plan (Core.next s q d) (held s q) ∧ nextStateR s q ≠ .DELAY := by
  have hnow : heading s = .ACTIVATE := by simp [heading, hs]
  rw [Plan, hnow] at h
  obtain ⟨r, rfl, hreq, ht, -⟩ := h
  obtain rfl := hk r rfl
  have hreq' : req q = true := hreq
  have hg : held s q = some q.request := held_of_not_accept hreq' (by simp [accept, hs])
  have hnext : nextStateR s q = access q := by simp [nextStateR, targetStateR, hs, ht]
  have hhit : rowHit (Core.next s q d) q.request = true := by
    simp [rowHit, opened, Core.next, commandOutput, hs, Inport.request]
  obtain ⟨hacc, hrd⟩ | ⟨hacc, hrd⟩ := access_cases (q := q)
  · refine ⟨?_, by simp [hnext, hacc]⟩
    rw [Plan, heading_next (by simp [hs]) (by simp [hnext, hacc]), hnext, hacc]
    exact ⟨_, hg, hrd, hhit⟩
  · refine ⟨?_, by simp [hnext, hacc]⟩
    rw [Plan, heading_next (by simp [hs]) (by simp [hnext, hacc]), hnext, hacc]
    exact ⟨_, hg, hreq, hrd, hhit⟩

theorem Plan.next_of_precharge (h : Plan s g) (hk : Holds g q) (hs : s.state = .PRECHARGE) :
    Plan (Core.next s q d) (held s q) ∧ nextStateR s q ≠ .DELAY := by
  have hnow : heading s = .PRECHARGE := by simp [heading, hs]
  have hgoal : targetStateR s q = s.targetState := by simp [targetStateR, hs]
  rw [Plan, hnow] at h
  by_cases ht : s.targetState = .REFRESH
  · have hnext : nextStateR s q = .REFRESH := by simp [nextStateR, hs, hgoal, ht]
    refine ⟨?_, by simp [hnext]⟩
    rw [Plan, heading_next (by simp [hs]) (by simp [hnext]), hnext]
    simp [Core.next, commandOutput, hs, hgoal, ht]
  · obtain ⟨r, rfl, hreq, ht'⟩ := h.resolve_left ht
    obtain rfl := hk r rfl
    have hnext : nextStateR s q = .ACTIVATE := by simp [nextStateR, hs, hgoal, ht]
    refine ⟨?_, by simp [hnext]⟩
    rw [Plan, heading_next (by simp [hs]) (by simp [hnext]), hnext]
    refine ⟨_, held_of_not_accept hreq (by simp [accept, hs]), hreq, hgoal.trans ht', ?_⟩
    simp [opened, Core.next, commandOutput, hs, hgoal, ht, Inport.request]

theorem Plan.next_of_state (h : Plan s g) (hk : Holds g q) (hs : s.state ≠ .DELAY) :
    Plan (Core.next s q d) (held s q) ∧ nextStateR s q ≠ .DELAY := by
  have hto (x : State) (hx : x ≠ .DELAY) (h : nextStateR s q = x) :
      heading (Core.next s q d) = x := by
    rw [heading_next hs (by rwa [h]), h]
  cases hstate : s.state
  case DELAY => exact absurd hstate hs
  case IDLE => exact next_of_idle hstate
  case ACTIVATE => exact h.next_of_activate hk hstate
  case PRECHARGE => exact h.next_of_precharge hk hstate
  case INIT =>
    rw [Plan, heading, if_neg hs, hstate] at h
    cases hrefresh : s.refresh
    case true =>
      have hnext : nextStateR s q = .IDLE := by simp [nextStateR, hstate, hrefresh]
      exact ⟨by simp [Plan, hto _ (by simp) hnext], by simp [hnext]⟩
    case false =>
      have hnext : nextStateR s q = .INIT := by simp [nextStateR, hstate, hrefresh]
      have hdelay : delayR s q = 0 := by simp [delayR, hstate]
      refine ⟨?_, by simp [hnext]⟩
      rw [Plan, hto _ (by simp) hnext]
      exact ⟨by simp [Core.next, hdelay, hnext], (rowOpen_next_of_init hstate).trans h.2⟩
  case READ =>
    have hnext : nextStateR s q = .READ_WAIT := by simp [nextStateR, hstate]
    have hdelay : delayR s q = 0 := by simp [delayR, hstate]
    refine ⟨?_, by simp [hnext]⟩
    rw [Plan, hto _ (by simp) hnext]
    simp [Core.next, hdelay, hnext]
  case READ_WAIT =>
    cases hagain : readAgain s q
    case false =>
      have hnext : nextStateR s q = .IDLE := by simp [nextStateR, hstate, hagain]
      exact ⟨by simp [Plan, hto _ (by simp) hnext], by simp [hnext]⟩
    case true =>
      have hnext : nextStateR s q = .READ := by simp [nextStateR, hstate, hagain]
      simp only [readAgain, Bool.and_eq_true] at hagain
      refine ⟨?_, by simp [hnext]⟩
      rw [Plan, hto _ (by simp) hnext]
      refine ⟨_, held_of_not_accept hagain.1.1.2 (by simp [accept, hstate]), hagain.1.2, ?_⟩
      rw [rowHit_congr (s := s) (by simp [Core.next, commandOutput, hstate])
        (by simp [Core.next, commandOutput, hstate])]
      exact hagain.2
  case WRITE0 =>
    have hnext : nextStateR s q = .IDLE := by simp [nextStateR, hstate]
    exact ⟨by simp [Plan, hto _ (by simp) hnext], by simp [hnext]⟩
  case REFRESH =>
    have hnext : nextStateR s q = .IDLE := by simp [nextStateR, hstate]
    exact ⟨by simp [Plan, hto _ (by simp) hnext], by simp [hnext]⟩

theorem pipe_of_rdAt (h : ∀ i, rdAt s i = false) (hs : s.state ≠ .READ_WAIT) : Pipe s := by
  rw [Pipe]
  cases hstate : s.state <;> simp_all

theorem nextStateR_ne_readWait (h : Plan s g) (hs : s.state ≠ .READ) :
    nextStateR s q ≠ .READ_WAIT := by
  rw [Plan, heading] at h
  intro he
  rw [nextStateR, targetStateR] at he
  have hacc := access_cases (q := q)
  cases hstate : s.state <;> simp only [hstate] at h he hs
  case DELAY => simp [he] at h
  case ACTIVATE =>
    obtain ⟨r, -, -, ht, -⟩ := h
    rw [he] at ht
    obtain ⟨hr, -⟩ | ⟨hr, -⟩ := access_cases (q := r) <;> simp [hr] at ht
  all_goals grind

theorem rdAt_next_eq_false (h0 : rdAt s 0 = false) (h1 : rdAt s 1 = false)
    (hs : s.state ≠ .READ) (i : Nat) : rdAt (next s q d) i = false := by
  match i with
  | 0 => simp [rdAt_next_zero, hs]
  | 1 => simp [rdAt_next, h0]
  | 2 => simp [rdAt_next, h1]
  | i + 3 => simp [rdAt_next]

theorem state_next : (next s q d).state = if delayR s q ≠ 0 then .DELAY else nextStateR s q :=
  rfl

theorem Pipe.next (h : Pipe s) (hp : Plan s g) : Pipe (Core.next s q d) := by
  have hzero (h0 : rdAt s 0 = false) (h1 : rdAt s 1 = false) (hs : s.state ≠ .READ) :
      Pipe (Core.next s q d) := by
    refine pipe_of_rdAt (rdAt_next_eq_false h0 h1 hs) ?_
    have hne := nextStateR_ne_readWait (q := q) hp hs
    rw [state_next]
    split_ifs <;> simp_all
  have hto := state_next (s := s) (q := q) (d := d)
  rw [Pipe] at h
  cases hstate : s.state <;> simp only [hstate] at h
  case READ =>
    have hto' : (Core.next s q d).state = .READ_WAIT := by
      simp [hto, delayR, nextStateR, hstate]
    rw [Pipe, hto']
    simp [rdAt_next_zero, rdAt_next, hstate, h]
  case READ_WAIT =>
    cases hagain : readAgain s q
    case true =>
      have hto' : (Core.next s q d).state = .READ := by
        simp [hto, delayR, nextStateR, hstate, hagain]
      rw [Pipe, hto']
      simp [rdAt_next_zero, rdAt_next, hstate, h]
    case false =>
      have hto' : (Core.next s q d).state = .DELAY := by
        simp [hto, delayR, hstate, hagain]
      have hdelay : (Core.next s q d).delay = 1 := by
        simp [Core.next, delayR, hstate, hagain]
      have hidle : (Core.next s q d).delayState = .IDLE := by
        simp [Core.next, delayR, nextStateR, hstate, hagain]
      rw [Pipe, hto']
      simp [rdAt_next_zero, rdAt_next, hstate, h, hdelay, hidle]
  case IDLE => exact hzero h.1 h.2 (by simp [hstate])
  case DELAY =>
    by_cases hr : rdAt s 1 = true
    · obtain ⟨hone, hidle⟩ := h.2.2 hr
      have hto' : (Core.next s q d).state = .IDLE := by
        simp [hto, delayR, nextStateR, hstate, hone, hidle]
      rw [Pipe, hto']
      simp [rdAt_next_zero, rdAt_next, hstate, h]
    · exact hzero h.1 (by simpa using hr) (by simp [hstate])
  all_goals exact hzero (h 0) (h 1) (by simp [hstate])

theorem Sched.reset : Sched reset none where
  plan := ⟨rfl, rfl⟩
  delay h := by simp [Core.reset] at h
  pipe i := by simp [rdAt, Core.reset]

theorem Sched.next (h : Sched s g) (hk : Holds g q) :
    Sched (Core.next s q d) (held s q) := by
  refine ⟨?_, fun hs => ?_, h.pipe.next h.plan⟩
  · by_cases hs : s.state = .DELAY
    · exact h.plan.next_of_delay hk hs
    · exact (h.plan.next_of_state hk hs).1
  · rw [state_next] at hs
    by_cases hd : delayR s q = 0
    · rw [if_neg (by simp [hd])] at hs
      by_cases hs' : s.state = .DELAY
      · have hne := h.plan
        rw [Plan, heading, if_pos hs'] at hne
        rw [nextStateR, hs'] at hs
        simp only at hs
        simp [hs] at hne
      · exact absurd hs (h.plan.next_of_state (d := d) hk hs').2
    · exact hd

end Laws

end FpgaNpc.Sdram.Core
