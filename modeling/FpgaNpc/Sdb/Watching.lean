import FpgaNpc.Sdb.Expr
import FpgaNpc.Sdb.Lists
import FpgaNpc.Simulator.Exec

open FpgaNpc.Hardware FpgaNpc.Software

namespace FpgaNpc.Sdb

def whatSize : Nat := 65535

structure Report where
  NO : Nat
  What : List Char
  old_value : Word
  value : Word
  deriving DecidableEq

/-- What an instruction leaves behind: the registers, and what `npc_state` is set to, if anything,
in `exec_once` and by `difftest_step`. -/
structure Outcome where
  cpu : Cpu
  state : Option NPCState
  verdict : Option NPCState

/-- The debugger, with the turns that the loop of `excute` has left and what is printed of the
watchpoints. -/
structure Session where
  pool : Pool
  npc_state : NPCState
  n : Nat
  log : List Report

def WP.setValue (value : Word) (wp : WP) : WP := { wp with value := value }

def WP.setTriggerFlag (flag : Bool) (wp : WP) : WP := { wp with trigger_flag := flag }

section Functions

variable (depth : Nat)

/-- The loop of `check_diff` at `iter`, in at most `fuel` turns: the node that has changed, if any,
with its old value. -/
def checkDiffFrom (cpu : Cpu) (p : Pool) : Nat → WPPtr → Option (Pool × Option (Fin NR_WP × Word))
  | _, none => some (p, none)
  | 0, some _ => none
  | fuel + 1, some iter =>
    match expr cpu depth (p.wp_pool iter).What false with
    | .error _ => none
    | .ok (value, _) =>
      if value ≠ (p.wp_pool iter).value then
        some (p.setNode iter (WP.setValue value), some (iter, (p.wp_pool iter).value))
      else checkDiffFrom cpu p fuel (p.next iter)

def checkDiff (cpu : Cpu) (p : Pool) : Option (Pool × Option (Fin NR_WP × Word)) :=
  checkDiffFrom depth cpu p Pool.turns p.head

def traceAndDifftest (o : Outcome) (s : Session) : Option Session :=
  let s := { s with npc_state := o.verdict.getD s.npc_state }
  match checkDiff depth o.cpu s.pool with
  | none => none
  | some (pool, none) => some { s with pool := pool }
  | some (pool, some (diff, old_value)) =>
    let wp := pool.wp_pool diff
    if wp.trigger_flag = false then
      some { s with
        pool := pool.setNode diff (WP.setTriggerFlag true)
        npc_state := .NPC_STOP
        log := s.log ++ [⟨wp.NO, wp.What, old_value, wp.value⟩] }
    else some { s with pool := pool.setNode diff (WP.setTriggerFlag false) }

def leave (s : Session) : Session :=
  { s with
    n := 0
    npc_state := if s.npc_state = .NPC_RUNNING then .NPC_STOP else s.npc_state }

def loop (n : Nat) (s : Session) : Session := if n = 0 then leave s else { s with n := n }

def turn (o : Outcome) (n : Nat) (s : Session) : Option Session :=
  let s := { s with npc_state := o.state.getD s.npc_state }
  if s.npc_state ≠ .NPC_RUNNING then some (leave s)
  else (traceAndDifftest depth o s).map (loop n)

def cpuExec (n : BitVec 64) (s : Session) : Session :=
  match s.npc_state with
  | .NPC_END | .NPC_ABORT => s
  | .NPC_RUNNING | .NPC_STOP | .NPC_QUIT => loop n.toNat { s with npc_state := .NPC_RUNNING }

def cmdW (cpu : Cpu) (args : Option (List Char)) (s : Session) : Option Session :=
  match args with
  | none => some s
  | some args =>
    match expr cpu depth args false with
    | .error _ => none
    | .ok (_, false) => some s
    | .ok (result, true) =>
      match s.pool.newWp with
      | none => none
      | some (pool, none) => some { s with pool := pool }
      | some (pool, some watchpoint) =>
        if args.length < whatSize then
          some { s with
            pool := pool.setNode watchpoint fun wp => { wp with What := args, value := result } }
        else none

def cmdD (NO : Option Word) (s : Session) : Option Session :=
  match NO with
  | none => some s
  | some NO => (s.pool.freeWp NO).map fun pool => { s with pool := pool }

/-- The commands of the user, and the turns of the loop of `excute`, in which the core comes to
execute an instruction or not. -/
inductive Action
  | w (cpu : Cpu) (args : Option (List Char))
  | d (NO : Option Word)
  | cpu_exec (n : BitVec 64)
  | instruction (o : Outcome)
  | death_loop

/-- Commands are taken while no call of `cpu_exec` is under way. Nothing comes of a call that does
not return. -/
def debugger : Machine (Option Session) Action where
  IsReset s := ∃ p, s = some ⟨Pool.initWpPool p, .NPC_STOP, 0, []⟩
  next s a := s.bind fun s =>
    match a, s.n with
    | .w cpu args, 0 => cmdW depth cpu args s
    | .d NO, 0 => cmdD NO s
    | .cpu_exec n, 0 => some (cpuExec n s)
    | .instruction o, n + 1 => turn depth o n s
    | .death_loop, _ + 1 => some (leave { s with npc_state := .NPC_ABORT })
    | _, _ => some s

end Functions

structure Due where
  changes : List Report
  log : List Report

section Spec

variable (depth : Nat) (cpu : Cpu)

def newValue (wp : WP) : Option Word :=
  match expr cpu depth wp.What false with
  | .ok (value, true) => if value ≠ wp.value then some value else none
  | _ => none

def same (wp : WP) : Bool :=
  match expr cpu depth wp.What false with
  | .ok (value, _) => value == wp.value
  | .error _ => false

def changes (p : Pool) : List Report :=
  p.actives.filterMap fun i =>
    (newValue depth cpu (p.wp_pool i)).map fun value =>
      ⟨(p.wp_pool i).NO, (p.wp_pool i).What, (p.wp_pool i).value, value⟩

def firstDiff (p : Pool) : Option (Fin NR_WP) :=
  p.actives.find? fun i => !same depth cpu (p.wp_pool i)

def Triggers (p : Pool) : Prop :=
  ∃ i ∈ firstDiff depth cpu p, newValue depth cpu (p.wp_pool i) ≠ none ∧
    (p.wp_pool i).trigger_flag = false

instance : Decidable (Triggers depth cpu p) :=
  inferInstanceAs (Decidable (∃ i ∈ firstDiff depth cpu p, _))

/-- An instruction that changes a watchpoint is the last one of the call and leaves `npc_state`
running, and the first watchpoint to be seen triggers. -/
def Meets : Option Session → Action → Prop
  | some s, .instruction o => s.n ≠ 0 → changes depth o.cpu s.pool ≠ [] →
    s.n = 1 ∧ o.state.getD s.npc_state = .NPC_RUNNING ∧ Triggers depth o.cpu s.pool
  | _, _ => True

instance : ∀ s a, Decidable (Meets depth s a)
  | some _, .instruction _ => inferInstanceAs (Decidable (_ → _ → _ ∧ _ ∧ _))
  | some _, .w _ _ | some _, .d _ | some _, .cpu_exec _ | some _, .death_loop => .isTrue trivial
  | none, _ => .isTrue trivial

def observe (s : Option Session) (a : Action) (_ : Due) : Due :=
  match s, a with
  | some s, .instruction o => ⟨if s.n = 0 then [] else changes depth o.cpu s.pool, s.log⟩
  | some s, _ => ⟨[], s.log⟩
  | none, _ => ⟨[], []⟩

def observed : Machine (Option Session × Due) Action :=
  (debugger depth).monitor ⟨[], []⟩ (observe depth)

/-- After a change the debugger has stopped, the call has no turns left, and one of the changes is
what is printed. -/
def Obeyed (s : Option Session) (due : Due) : Prop :=
  due.changes ≠ [] → ∃ s', s = some s' ∧ s'.npc_state = .NPC_STOP ∧ s'.n = 0 ∧
    ∃ r ∈ due.changes, s'.log = due.log ++ [r]

end Spec

section Lists

variable {depth n : Nat} {cpu : Cpu} {p p' : Pool} {active free l : List (Fin NR_WP)}
  {i : Fin NR_WP} {iter : WPPtr} {f : WP → WP} {o : Outcome} {s s' : Session}

theorem lists_setNode (h : p.Lists active free) (hno : ∀ wp, (f wp).NO = wp.NO)
    (hnext : ∀ wp, (f wp).next = wp.next) : (p.setNode i f).Lists active free := by
  have hlinks := Pool.next_setNode (i := i) p hnext
  refine ⟨fun j => ?_, hlinks ▸ h.head_chain, hlinks ▸ h.free_chain, h.head_sorted, h.free_sorted,
    h.disjoint⟩
  have hj := h.numbered j
  by_cases hji : j = i
  · subst hji
    simpa [Pool.NO, Pool.setNode, hno] using hj
  · simpa [Pool.NO, Pool.setNode, hji] using hj

theorem checkDiffFrom_eq (h : Chain p.next iter l) {fuel : Nat} (hfuel : l.length ≤ fuel) :
    checkDiffFrom depth cpu p fuel iter =
      match l.find? fun i => !same depth cpu (p.wp_pool i) with
      | none => some (p, none)
      | some i =>
        match expr cpu depth (p.wp_pool i).What false with
        | .error _ => none
        | .ok (value, _) =>
          some (p.setNode i (WP.setValue value), some (i, (p.wp_pool i).value)) := by
  induction l generalizing iter fuel with
  | nil =>
    rw [Chain.nil.1 h]
    cases fuel <;> rfl
  | cons i l ih =>
    obtain ⟨rfl, hnext⟩ := Chain.cons.1 h
    obtain ⟨fuel, rfl⟩ : ∃ k, fuel = k + 1 := ⟨fuel - 1, by simp at hfuel; omega⟩
    rw [checkDiffFrom, List.find?_cons, ih hnext (by simpa using hfuel)]
    cases hexpr : expr cpu depth (p.wp_pool i).What false with
    | error _ => simp [same, hexpr]
    | ok v =>
      obtain ⟨value, success⟩ := v
      by_cases hv : value = (p.wp_pool i).value
      · simp [same, hexpr, hv]
      · have hsame : (value == (p.wp_pool i).value) = false := beq_eq_false_iff_ne.2 hv
        simp [same, hexpr, hv, hsame]

theorem checkDiff_eq (h : p.Lists active free) : checkDiff depth cpu p =
    match firstDiff depth cpu p with
    | none => some (p, none)
    | some i =>
      match expr cpu depth (p.wp_pool i).What false with
      | .error _ => none
      | .ok (value, _) =>
        some (p.setNode i (WP.setValue value), some (i, (p.wp_pool i).value)) := by
  rw [checkDiff, checkDiffFrom_eq h.head_chain (Pool.length_lt_turns h.head_sorted).le, firstDiff,
    Pool.actives, h.walk_eq]

theorem traceAndDifftest_none (h : s.pool.Lists active free)
    (hfirst : firstDiff depth o.cpu s.pool = none) :
    traceAndDifftest depth o s = some { s with npc_state := o.verdict.getD s.npc_state } := by
  simp only [traceAndDifftest, checkDiff_eq h, hfirst]

theorem traceAndDifftest_error (h : s.pool.Lists active free)
    (hfirst : firstDiff depth o.cpu s.pool = some i) {e : Fault}
    (hexpr : expr o.cpu depth (s.pool.wp_pool i).What false = .error e) :
    traceAndDifftest depth o s = none := by
  simp only [traceAndDifftest, checkDiff_eq h, hfirst, hexpr]

theorem traceAndDifftest_some (h : s.pool.Lists active free)
    (hfirst : firstDiff depth o.cpu s.pool = some i) {value : Word} {success : Bool}
    (hexpr : expr o.cpu depth (s.pool.wp_pool i).What false = .ok (value, success)) :
    traceAndDifftest depth o s = some
      { s with
        pool := (s.pool.setNode i (WP.setValue value)).setNode i
          (WP.setTriggerFlag !(s.pool.wp_pool i).trigger_flag)
        npc_state := if (s.pool.wp_pool i).trigger_flag then o.verdict.getD s.npc_state
          else .NPC_STOP
        log := if (s.pool.wp_pool i).trigger_flag then s.log
          else s.log ++ [⟨(s.pool.wp_pool i).NO, (s.pool.wp_pool i).What,
            (s.pool.wp_pool i).value, value⟩] } := by
  have hnode : (s.pool.setNode i (WP.setValue value)).wp_pool i =
      (s.pool.wp_pool i).setValue value := by
    simp [Pool.setNode]
  simp only [traceAndDifftest, checkDiff_eq h, hfirst, hexpr, hnode, WP.setValue]
  cases (s.pool.wp_pool i).trigger_flag <;> rfl

def Watched (s : Session) : Prop := ∃ active free, s.pool.Lists active free

theorem watched_traceAndDifftest (h : Watched s) (hs : traceAndDifftest depth o s = some s') :
    Watched s' := by
  obtain ⟨active, free, hlists⟩ := h
  cases hfirst : firstDiff depth o.cpu s.pool with
  | none =>
    rw [traceAndDifftest_none hlists hfirst] at hs
    obtain rfl := Option.some.inj hs
    exact ⟨active, free, hlists⟩
  | some i =>
    cases hexpr : expr o.cpu depth (s.pool.wp_pool i).What false with
    | error e =>
      rw [traceAndDifftest_error hlists hfirst hexpr] at hs
      cases hs
    | ok v =>
      rw [traceAndDifftest_some hlists hfirst hexpr] at hs
      obtain rfl := Option.some.inj hs
      have hvalue : (s.pool.setNode i (WP.setValue v.1)).Lists active free :=
        lists_setNode hlists (fun _ => rfl) fun _ => rfl
      exact ⟨active, free, lists_setNode hvalue (fun _ => rfl) fun _ => rfl⟩

theorem watched_loop (h : Watched s) (n : Nat) : Watched (loop n s) := by
  rw [loop]
  split <;> exact h

theorem watched_turn (h : Watched s) (hs : turn depth o n s = some s') : Watched s' := by
  rw [turn] at hs
  split at hs
  · obtain rfl := Option.some.inj hs
    exact h
  · obtain ⟨t, ht, rfl⟩ := Option.map_eq_some_iff.1 hs
    have hstate : Watched { s with npc_state := o.state.getD s.npc_state } := h
    exact watched_loop (watched_traceAndDifftest hstate ht) n

theorem watched_cpuExec (h : Watched s) (n : BitVec 64) : Watched (cpuExec n s) := by
  rw [cpuExec]
  split
  · exact h
  · exact h
  all_goals exact watched_loop (s := { s with npc_state := .NPC_RUNNING }) h _

theorem watched_cmdW (h : Watched s) {args : Option (List Char)}
    (hs : cmdW depth cpu args s = some s') : Watched s' := by
  obtain ⟨active, free, hlists⟩ := h
  cases args with
  | none =>
    obtain rfl := Option.some.inj hs
    exact ⟨active, free, hlists⟩
  | some args =>
    rw [cmdW] at hs
    cases hexpr : expr cpu depth args false with
    | error _ => simp [hexpr] at hs
    | ok v =>
      obtain ⟨result, success⟩ := v
      cases success with
      | false =>
        simp only [hexpr, Option.some.injEq] at hs
        subst hs
        exact ⟨active, free, hlists⟩
      | true =>
        cases free with
        | nil =>
          simp only [hexpr, Pool.newWp_full hlists, Option.some.injEq] at hs
          subst hs
          exact ⟨active, [], hlists⟩
        | cons node free =>
          obtain ⟨pool, active', hnew, hlists', -⟩ := Pool.newWp_spec hlists
          simp only [hexpr, hnew] at hs
          split at hs
          · obtain rfl := Option.some.inj hs
            exact ⟨active', free,
              lists_setNode (f := fun wp => { wp with What := args, value := result }) hlists'
                (fun _ => rfl) fun _ => rfl⟩
          · cases hs

theorem unlink_absent (hrest : Chain p.next iter l) {word : Word}
    (hl : ∀ i ∈ l, p.NO i ≠ word.toNat) {fuel : Nat} (hfuel : l.length ≤ fuel) (pre : WPPtr) :
    Pool.unlink word fuel p pre iter = some (p, none) := by
  induction l generalizing iter fuel pre with
  | nil =>
    rw [Chain.nil.1 hrest]
    cases fuel <;> rfl
  | cons i l ih =>
    obtain ⟨rfl, hnext⟩ := Chain.cons.1 hrest
    obtain ⟨fuel, rfl⟩ : ∃ k, fuel = k + 1 := ⟨fuel - 1, by simp at hfuel; omega⟩
    rw [Pool.unlink, if_neg (hl i (by simp))]
    exact ih hnext (fun j hj => hl j (by simp [hj])) (by simpa using hfuel) _

theorem watched_cmdD (h : Watched s) {NO : Option Word} (hs : cmdD NO s = some s') :
    Watched s' := by
  obtain ⟨active, free, hlists⟩ := h
  cases NO with
  | none =>
    obtain rfl := Option.some.inj hs
    exact ⟨active, free, hlists⟩
  | some NO =>
    obtain ⟨pool, hfree, rfl⟩ := Option.map_eq_some_iff.1 hs
    by_cases hbig : NO > 32
    · rw [Pool.freeWp, if_pos hbig] at hfree
      obtain rfl := Option.some.inj hfree
      exact ⟨active, free, hlists⟩
    by_cases hactive : ∃ i ∈ active, s.pool.NO i = NO.toNat
    · obtain ⟨i, hi, hno⟩ := hactive
      obtain ⟨p', free', hfree', hlists', -⟩ :=
        Pool.freeWp_spec hlists hi (hno.symm.trans (hlists.numbered i))
      obtain rfl := Option.some.inj (hfree'.symm.trans hfree)
      exact ⟨_, free', hlists'⟩
    · have habsent : ∀ i ∈ active, s.pool.NO i ≠ NO.toNat := fun i hi hno => hactive ⟨i, hi, hno⟩
      rw [Pool.freeWp, if_neg hbig, unlink_absent hlists.head_chain habsent
        (Pool.length_lt_turns hlists.head_sorted).le] at hfree
      cases hfree

theorem watched_next {st : Option Session} (h : ∀ s, st = some s → Watched s) (a : Action) :
    ∀ s, (debugger depth).next st a = some s → Watched s := by
  intro s' hs
  obtain ⟨s, rfl, hstep⟩ := Option.bind_eq_some_iff.1 hs
  have hw := h s rfl
  have hsame : some s = some s' → Watched s' := by
    intro he
    obtain rfl := Option.some.inj he
    exact hw
  cases a with
  | w cpu args =>
    cases hn : s.n with
    | zero => exact watched_cmdW hw (by simpa only [hn] using hstep)
    | succ n => exact hsame (by simpa only [hn] using hstep)
  | d NO =>
    cases hn : s.n with
    | zero => exact watched_cmdD hw (by simpa only [hn] using hstep)
    | succ n => exact hsame (by simpa only [hn] using hstep)
  | cpu_exec n =>
    cases hn : s.n with
    | zero =>
      simp only [hn, Option.some.injEq] at hstep
      subst hstep
      exact watched_cpuExec hw n
    | succ n => exact hsame (by simpa only [hn] using hstep)
  | instruction o =>
    cases hn : s.n with
    | zero => exact hsame (by simpa only [hn] using hstep)
    | succ n => exact watched_turn hw (by simpa only [hn] using hstep)
  | death_loop =>
    cases hn : s.n with
    | zero => exact hsame (by simpa only [hn] using hstep)
    | succ n =>
      simp only [hn, Option.some.injEq] at hstep
      subst hstep
      exact hw

end Lists

section Stops

variable {depth n : Nat} {cpu : Cpu} {p : Pool} {active free : List (Fin NR_WP)} {i : Fin NR_WP}
  {o : Outcome} {s s' : Session} {st : Option Session}

theorem mem_changes {r : Report} : r ∈ changes depth cpu p ↔ ∃ i ∈ p.actives, ∃ value,
    newValue depth cpu (p.wp_pool i) = some value ∧
      r = ⟨(p.wp_pool i).NO, (p.wp_pool i).What, (p.wp_pool i).value, value⟩ := by
  simp only [changes, List.mem_filterMap, Option.map_eq_some_iff, @eq_comm _ r]

theorem newValue_of_expr {wp : WP} {value : Word} {success : Bool}
    (hexpr : expr cpu depth wp.What false = .ok (value, success))
    (h : newValue depth cpu wp ≠ none) : newValue depth cpu wp = some value := by
  rw [newValue, hexpr] at h ⊢
  cases success with
  | false => exact absurd rfl h
  | true =>
    dsimp only at h ⊢
    split at h
    · rw [if_pos ‹_›]
    · exact absurd rfl h

theorem expr_of_newValue {wp : WP} (h : newValue depth cpu wp ≠ none) :
    ∃ value, expr cpu depth wp.What false = .ok (value, true) := by
  rw [newValue] at h
  split at h
  · exact ⟨_, ‹_›⟩
  · exact absurd rfl h

@[simp] theorem loop_log : (loop n s).log = s.log := by
  rw [loop]
  split <;> rfl

@[simp] theorem loop_n : (loop n s).n = n := by
  rw [loop]
  split
  · exact Eq.symm ‹_›
  · rfl

theorem loop_stop (h : s.npc_state = .NPC_STOP) : (loop n s).npc_state = .NPC_STOP := by
  rw [loop]
  split
  · simp [leave, h]
  · exact h

theorem newValue_of_report (h : p.Lists active free) {value : Word}
    (hr : ⟨(p.wp_pool i).NO, (p.wp_pool i).What, (p.wp_pool i).value, value⟩ ∈
      changes depth cpu p) : newValue depth cpu (p.wp_pool i) = some value := by
  obtain ⟨j, -, v, hv, heq⟩ := mem_changes.1 hr
  have hno : (i : Nat) = j :=
    (h.numbered i).symm.trans ((congrArg Report.NO heq).trans (h.numbered j))
  obtain rfl := Fin.ext hno
  obtain rfl := congrArg Report.value heq
  exact hv

theorem triggers_of_report (h : s.pool.Lists active free)
    (ht : traceAndDifftest depth o s = some s') {r : Report}
    (hr : r ∈ changes depth o.cpu s.pool) (hlog : s'.log = s.log ++ [r]) :
    Triggers depth o.cpu s.pool := by
  cases hfirst : firstDiff depth o.cpu s.pool with
  | none =>
    rw [traceAndDifftest_none h hfirst] at ht
    obtain rfl := Option.some.inj ht
    simp at hlog
  | some i =>
    cases hexpr : expr o.cpu depth (s.pool.wp_pool i).What false with
    | error e =>
      rw [traceAndDifftest_error h hfirst hexpr] at ht
      cases ht
    | ok v =>
      rw [traceAndDifftest_some h hfirst hexpr] at ht
      obtain rfl := Option.some.inj ht
      cases hflag : (s.pool.wp_pool i).trigger_flag with
      | true => simp [hflag] at hlog
      | false =>
        simp only [hflag, Bool.false_eq_true, if_false, List.append_cancel_left_eq,
          List.cons.injEq, and_true] at hlog
        subst hlog
        have hnew := newValue_of_report h hr
        exact ⟨i, hfirst, by simp [hnew], hflag⟩

theorem report_of_triggers (h : s.pool.Lists active free) (ht : Triggers depth o.cpu s.pool) :
    ∃ s', traceAndDifftest depth o s = some s' ∧ s'.npc_state = .NPC_STOP ∧
      ∃ r ∈ changes depth o.cpu s.pool, s'.log = s.log ++ [r] := by
  obtain ⟨i, hfirst, hnew, hflag⟩ := ht
  obtain ⟨value, hexpr⟩ := expr_of_newValue hnew
  have hmem : i ∈ s.pool.actives := List.mem_of_find?_eq_some hfirst
  refine ⟨_, traceAndDifftest_some h hfirst hexpr, ?_, _,
    mem_changes.2 ⟨i, hmem, value, newValue_of_expr hexpr hnew, rfl⟩, ?_⟩ <;> simp [hflag]

theorem obeyed_turn (h : s.pool.Lists active free) :
    Obeyed (turn depth o n s) ⟨changes depth o.cpu s.pool, s.log⟩ ↔
      (changes depth o.cpu s.pool ≠ [] →
        n = 0 ∧ o.state.getD s.npc_state = .NPC_RUNNING ∧ Triggers depth o.cpu s.pool) := by
  constructor
  · intro hobeyed hne
    obtain ⟨s', hturn, -, hn, r, hr, hlog⟩ := hobeyed hne
    have hstate : o.state.getD s.npc_state = .NPC_RUNNING := by
      by_contra hstate
      rw [turn, if_pos hstate] at hturn
      obtain rfl := Option.some.inj hturn
      simp [leave] at hlog
    rw [turn, if_neg (not_not.2 hstate)] at hturn
    obtain ⟨t, ht, rfl⟩ := Option.map_eq_some_iff.1 hturn
    rw [loop_n] at hn
    rw [loop_log] at hlog
    exact ⟨hn, hstate,
      triggers_of_report (s := { s with npc_state := o.state.getD s.npc_state }) h ht hr hlog⟩
  · intro hmeets hne
    obtain ⟨rfl, hstate, htriggers⟩ := hmeets hne
    obtain ⟨t, ht, hstop, r, hr, hlog⟩ :=
      report_of_triggers (s := { s with npc_state := o.state.getD s.npc_state }) h htriggers
    refine ⟨loop 0 t, ?_, loop_stop hstop, loop_n, r, hr, loop_log.trans hlog⟩
    rw [turn, if_neg (not_not.2 hstate), ht]
    rfl

end Stops

section Runs

variable {depth : Nat} {st : Option Session} {due : Due}

theorem obeyed_next (h : ∀ s, st = some s → Watched s) {a : Action} (ha : Meets depth st a) :
    Obeyed ((debugger depth).next st a) (observe depth st a due) := by
  cases st with
  | none => exact fun hne => absurd rfl hne
  | some s =>
    obtain ⟨active, free, hlists⟩ := h s rfl
    cases a with
    | instruction o =>
      cases hn : s.n with
      | zero =>
        intro hne
        simp [observe, hn] at hne
      | succ n =>
        have hturn : (debugger depth).next (some s) (.instruction o) = turn depth o n s := by
          simp [debugger, hn]
        have hdue : observe depth (some s) (.instruction o) due =
            ⟨changes depth o.cpu s.pool, s.log⟩ := by
          simp [observe, hn]
        rw [hturn, hdue, obeyed_turn hlists]
        intro hne
        have hmeets := ha (by omega) hne
        exact ⟨by omega, hmeets.2⟩
    | w _ _ | d _ | cpu_exec _ | death_loop => exact fun hne => absurd rfl hne

theorem changes_stop (h : (observed depth).Reaches (fun s => Meets depth s.1) (st, due)) :
    Obeyed st due := by
  have hinv : (∀ s, st = some s → Watched s) ∧ Obeyed st due := by
    refine h.monitor_invariant (P := fun st due => (∀ s, st = some s → Watched s) ∧ Obeyed st due)
      ?_ ?_
    · rintro _ ⟨p, rfl⟩
      refine ⟨fun s hs => ?_, fun hne => absurd rfl hne⟩
      obtain rfl := Option.some.inj hs
      exact ⟨_, _, Pool.lists_init p⟩
    · rintro st due a ⟨hw, -⟩ ha
      exact ⟨watched_next hw a, obeyed_next hw ha⟩
  exact hinv.2

def started : Option Session := some ⟨Pool.initWpPool Pool.zeros, .NPC_STOP, 0, []⟩

def cpuArgs (a0 a1 : Word) : Cpu where
  pc_if := 0x80000000
  gpr i := if i.val = 10 then a0 else if i.val = 11 then a1 else 0

def arguments (a0 a1 : Word) : Outcome := ⟨cpuArgs a0 a1, none, none⟩

/-- An instruction changes two watchpoints, of which the next one reports the second. -/
def twoChanges : List Action :=
  [.w (cpuArgs 0 0) (some ['$', 'a', '0']), .w (cpuArgs 0 0) (some ['$', 'a', '1']),
    .cpu_exec 1, .instruction (arguments 1 1), .cpu_exec 1, .instruction (arguments 1 1)]

theorem changes_stop_twoChanges :
    let s := (observed 1).run (started, ⟨[], []⟩) twoChanges
    s.2.changes = [⟨1, ['$', 'a', '1'], 0, 1⟩] ∧ Obeyed s.1 s.2 :=
  ⟨by decide +kernel, changes_stop (Machine.reaches_run (observed 1) (fun s => Meets 1 s.1)
    (started, ⟨[], []⟩) twoChanges ⟨⟨_, rfl⟩, rfl⟩ (by decide +kernel))⟩

/-- Two changes of one watchpoint, the second with more turns to go. -/
def secondChange : List Action :=
  [.w (cpuArgs 0 0) (some ['$', 'a', '0']), .cpu_exec 1, .instruction (arguments 1 0), .cpu_exec 2,
    .instruction (arguments 2 0)]

theorem second_change_runs_on :
    let s := (observed 1).run (started, ⟨[], []⟩) secondChange
    s.2.changes = [⟨0, ['$', 'a', '0'], 1, 2⟩] ∧
      s.1.map (fun s => (s.npc_state, s.n, s.log)) =
        some (.NPC_RUNNING, 1, [⟨0, ['$', 'a', '0'], 0, 1⟩]) ∧
      ¬∀ depth st due, (observed depth).Reaches (fun _ _ => True) (st, due) → Obeyed st due := by
  have hchanges : ((observed 1).run (started, ⟨[], []⟩) secondChange).2.changes =
      [⟨0, ['$', 'a', '0'], 1, 2⟩] := by decide +kernel
  have hstate : ((observed 1).run (started, ⟨[], []⟩) secondChange).1.map
      (fun s => (s.npc_state, s.n, s.log)) =
        some (.NPC_RUNNING, 1, [⟨0, ['$', 'a', '0'], 0, 1⟩]) := by decide +kernel
  refine ⟨hchanges, hstate, fun h => ?_⟩
  have hreach : (observed 1).Reaches (fun _ _ => True)
      ((observed 1).run (started, ⟨[], []⟩) secondChange) :=
    Machine.reaches_run _ _ _ secondChange ⟨⟨_, rfl⟩, rfl⟩ (by decide)
  generalize (observed 1).run (started, ⟨[], []⟩) secondChange = s at hchanges hstate hreach
  obtain ⟨st, due⟩ := s
  dsimp only at hchanges hstate
  obtain ⟨s', rfl, hstop, -⟩ := h 1 _ _ hreach (by simp [hchanges])
  simp [hstop] at hstate

end Runs

end FpgaNpc.Sdb
