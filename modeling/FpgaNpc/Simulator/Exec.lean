import FpgaNpc.Core.Reports

open FpgaNpc.Hardware FpgaNpc.InterStage FpgaNpc.Core

namespace FpgaNpc

inductive NPCState
  | NPC_RUNNING | NPC_STOP | NPC_END | NPC_ABORT | NPC_QUIT
  deriving DecidableEq

namespace Simulator

/-- What the simulator meets, cycle by cycle: what the rest of the chip drives, the SIGINTs of the
user, and what `difftest_step` and the watchpoints set `npc_state` to, if anything. -/
structure Host where
  io : Nat → Inputs
  sigint : Nat → Bool
  verdict : Nat → Option NPCState

/-- The simulator, with the journal of the core and the pcs of the difftest steps so far. -/
structure Sim where
  g_nr_cycle : Nat
  top : Regs × WB.Debug × Journal
  npc_state : NPCState
  steps : List Word

variable (B : Build) (diff_enable : Bool) (H : Host) (m : Sim)

def Sim.diffOk : Bool := m.top.2.1.done

def Sim.pcDone : Word := m.top.2.1.pc_done

/-- ID calls `ebreak` for what it hands on alive. -/
def ebreak : Bool :=
  let toEXE := toEXE B m.top.1 (H.io m.g_nr_cycle)
  !toEXE.nop && toEXE.inst == 0x100073

def eval : Sim where
  g_nr_cycle := m.g_nr_cycle + 1
  top := (reporting B diff_enable).next m.top (H.io m.g_nr_cycle)
  npc_state := if H.sigint m.g_nr_cycle then .NPC_STOP
    else if ebreak B H m then .NPC_END else m.npc_state
  steps := m.steps

def execOnce (m : Sim) : Nat → Sim
  | 0 => m
  | death_loop_counter + 1 =>
    let m := eval B diff_enable H m
    if death_loop_counter = 0 then { m with npc_state := .NPC_ABORT }
    else if m.diffOk then m
    else execOnce m death_loop_counter

def traceAndDifftest : Sim :=
  { m with
    npc_state := (H.verdict m.g_nr_cycle).getD m.npc_state
    steps := m.steps ++ [m.pcDone] }

def excute (m : Sim) : Nat → Sim
  | 0 => m
  | n + 1 =>
    let m := execOnce B diff_enable H m 20000
    if m.npc_state ≠ .NPC_RUNNING then m else excute (traceAndDifftest H m) n

def cpuExec (n : Nat) : Sim :=
  match m.npc_state with
  | .NPC_END | .NPC_ABORT => m
  | .NPC_RUNNING | .NPC_STOP | .NPC_QUIT =>
    let m := excute B diff_enable H { m with npc_state := .NPC_RUNNING } n
    if m.npc_state = .NPC_RUNNING then { m with npc_state := .NPC_STOP } else m

def start (s : Regs) : Sim := ⟨0, (s, .reset, .empty), .NPC_STOP, []⟩

/-- A session of the debugger: the arguments of its calls of `cpu_exec`. -/
def session (s : Regs) (ns : List Nat) : Sim := ns.foldl (cpuExec B diff_enable H) (start s)

def evals (m : Sim) : Nat → Sim
  | 0 => m
  | k + 1 => evals (eval B diff_enable H m) k

/-- No SIGINT comes in the cycle, and ID does not call `ebreak` in it. -/
def Calm : Prop := H.sigint m.g_nr_cycle = false ∧ ebreak B H m = false

/-- The first report from here on comes after `k` cycles without one. -/
def ReportsAt (k : Nat) : Prop :=
  (∀ j < k, (evals B diff_enable H m (j + 1)).diffOk = false) ∧
    (evals B diff_enable H m (k + 1)).diffOk = true

/-- If an `exec_once` from here ends with a report, then it began running, is no death loop, and
nothing has stopped the simulator on the way. -/
def Unbroken : Prop :=
  ∀ k < 20000, ReportsAt B diff_enable H m k → m.npc_state = .NPC_RUNNING ∧ k + 1 < 20000 ∧
    ∀ j ≤ k, Calm B H (evals B diff_enable H m j)

def turns (m : Sim) : Nat → List Sim
  | 0 => []
  | n + 1 =>
    let m' := execOnce B diff_enable H m 20000
    m :: if m'.npc_state ≠ .NPC_RUNNING then [] else turns (traceAndDifftest H m') n

def callTurns (n : Nat) : List Sim :=
  match m.npc_state with
  | .NPC_END | .NPC_ABORT => []
  | .NPC_RUNNING | .NPC_STOP | .NPC_QUIT =>
    turns B diff_enable H { m with npc_state := .NPC_RUNNING } n

def sessionTurns (m : Sim) : List Nat → List Sim
  | [] => []
  | n :: ns => callTurns B diff_enable H m n ++ sessionTurns (cpuExec B diff_enable H m n) ns

/-- From `m` to `m'` the reports have got a step each, in order, but for the last ones, of which
there are none just when the turns `ts` were unbroken. -/
def Stepped (m m' : Sim) (ts : List Sim) : Prop :=
  ∃ stepped rest, m'.steps = m.steps ++ stepped ∧
    m'.top.2.2.reports = m.top.2.2.reports ++ (stepped ++ rest) ∧
      (rest = [] ↔ ∀ t ∈ ts, Unbroken B diff_enable H t)

section Run

variable {B diff_enable H m}

theorem eval_reports (B : Build) (diff_enable : Bool) (H : Host) (m : Sim) :
    (eval B diff_enable H m).top.2.2.reports = m.top.2.2.reports ++
      if (eval B diff_enable H m).diffOk then [(eval B diff_enable H m).pcDone] else [] := rfl

theorem eval_running_iff : (eval B diff_enable H m).npc_state = .NPC_RUNNING ↔
    m.npc_state = .NPC_RUNNING ∧ Calm B H m := by
  rw [eval, Calm]
  cases H.sigint m.g_nr_cycle <;> cases ebreak B H m <;> simp

theorem evals_running_iff (k : Nat) : (evals B diff_enable H m k).npc_state = .NPC_RUNNING ↔
    m.npc_state = .NPC_RUNNING ∧ ∀ j < k, Calm B H (evals B diff_enable H m j) := by
  induction k generalizing m with
  | zero => simp [evals]
  | succ k ih =>
    rw [evals, ih, eval_running_iff, and_assoc, and_congr_right_iff]
    intro _
    constructor
    · rintro ⟨h0, h⟩ (_ | j) hj
      · exact h0
      · exact h j (by omega)
    · exact fun h => ⟨h 0 (by omega), fun j hj => h (j + 1) (by omega)⟩

theorem evals_steps (k : Nat) : (evals B diff_enable H m k).steps = m.steps := by
  induction k generalizing m with
  | zero => rfl
  | succ k ih => exact ih

theorem reportsAt_succ (k : Nat) : ReportsAt B diff_enable H m (k + 1) ↔
    (eval B diff_enable H m).diffOk = false ∧
      ReportsAt B diff_enable H (eval B diff_enable H m) k := by
  constructor
  · exact fun ⟨h, hk⟩ => ⟨h 0 (by omega), fun j hj => h (j + 1) (by omega), hk⟩
  · rintro ⟨h0, h, hk⟩
    refine ⟨?_, hk⟩
    rintro (_ | j) hj
    · exact h0
    · exact h j (by omega)

theorem ReportsAt.unique {k k' : Nat} (h : ReportsAt B diff_enable H m k)
    (h' : ReportsAt B diff_enable H m k') : k = k' := by
  rcases Nat.lt_trichotomy k k' with hlt | heq | hlt
  · exact absurd ((h'.1 k hlt).symm.trans h.2) (by decide)
  · exact heq
  · exact absurd ((h.1 k' hlt).symm.trans h'.2) (by decide)

theorem ReportsAt.reports {k : Nat} (h : ReportsAt B diff_enable H m k) :
    (evals B diff_enable H m (k + 1)).top.2.2.reports =
      m.top.2.2.reports ++ [(evals B diff_enable H m (k + 1)).pcDone] := by
  induction k generalizing m with
  | zero =>
    have hd : (eval B diff_enable H m).diffOk = true := h.2
    have hrep := eval_reports B diff_enable H m
    rwa [hd, if_pos rfl] at hrep
  | succ k ih =>
    obtain ⟨hd, h⟩ := (reportsAt_succ k).1 h
    have hrep := eval_reports B diff_enable H m
    rw [hd, if_neg Bool.false_ne_true, List.append_nil] at hrep
    rw [evals, ih h, hrep]

theorem ReportsAt.execOnce {k counter : Nat} (h : ReportsAt B diff_enable H m k)
    (hk : k < counter) : execOnce B diff_enable H m counter =
      if k + 1 = counter then { evals B diff_enable H m (k + 1) with npc_state := .NPC_ABORT }
      else evals B diff_enable H m (k + 1) := by
  induction counter generalizing m k with
  | zero => omega
  | succ counter ih =>
    cases k with
    | zero =>
      have hd : (eval B diff_enable H m).diffOk = true := h.2
      by_cases h0 : counter = 0
      · simp [Simulator.execOnce, evals, h0]
      · simp [Simulator.execOnce, evals, h0, hd]
    | succ k =>
      obtain ⟨hd, h⟩ := (reportsAt_succ k).1 h
      have h0 : counter ≠ 0 := by omega
      simp only [Simulator.execOnce, h0, hd, if_false, Bool.false_eq_true]
      rw [ih h (by omega)]
      simp [evals]

theorem execOnce_of_silent {counter : Nat} (hc : 0 < counter)
    (h : ∀ k < counter, ¬ReportsAt B diff_enable H m k) :
    (execOnce B diff_enable H m counter).top.2.2.reports = m.top.2.2.reports ∧
      (execOnce B diff_enable H m counter).steps = m.steps ∧
        (execOnce B diff_enable H m counter).npc_state ≠ .NPC_RUNNING := by
  induction counter generalizing m with
  | zero => omega
  | succ counter ih =>
    have hd : (eval B diff_enable H m).diffOk = false := by
      by_contra hd
      exact h 0 (by omega) ⟨fun j hj => by omega, Bool.not_eq_false _ ▸ hd⟩
    have hrep := eval_reports B diff_enable H m
    rw [hd, if_neg Bool.false_ne_true, List.append_nil] at hrep
    by_cases h0 : counter = 0
    · subst h0
      exact ⟨hrep, rfl, by simp [execOnce]⟩
    · obtain ⟨hr, hs, hn⟩ := ih (Nat.pos_of_ne_zero h0) fun k hk hat =>
        h (k + 1) (by omega) ((reportsAt_succ k).2 ⟨hd, hat⟩)
      simp only [execOnce, h0, hd, if_false, Bool.false_eq_true]
      exact ⟨hr.trans hrep, hs, hn⟩

theorem execOnce_spec (B : Build) (diff_enable : Bool) (H : Host) (m : Sim) : ∃ new,
    (execOnce B diff_enable H m 20000).top.2.2.reports = m.top.2.2.reports ++ new ∧
      (execOnce B diff_enable H m 20000).steps = m.steps ∧
      ((execOnce B diff_enable H m 20000).npc_state = .NPC_RUNNING →
        new = [(execOnce B diff_enable H m 20000).pcDone]) ∧
      (Unbroken B diff_enable H m ↔
        (execOnce B diff_enable H m 20000).npc_state = .NPC_RUNNING ∨ new = []) := by
  by_cases h : ∃ k < 20000, ReportsAt B diff_enable H m k
  case neg =>
    have hsilent : ∀ k < 20000, ¬ReportsAt B diff_enable H m k := fun k hk hat => h ⟨k, hk, hat⟩
    obtain ⟨hr, hs, hn⟩ := execOnce_of_silent (by decide) hsilent
    exact ⟨[], by simpa using hr, hs, fun hrun => absurd hrun hn,
      fun _ => .inr rfl, fun _ k hk hat => absurd hat (hsilent k hk)⟩
  case pos =>
    obtain ⟨k, hk, hat⟩ := h
    have heq := hat.execOnce hk
    by_cases hlast : k + 1 = 20000
    · rw [if_pos hlast] at heq
      rw [heq]
      refine ⟨_, hat.reports, evals_steps _, fun hrun => by simp at hrun, fun hu => ?_, ?_⟩
      · exact absurd (hu k hk hat).2.1 (by omega)
      · rintro (hrun | hnil)
        · simp at hrun
        · simp at hnil
    · rw [if_neg hlast] at heq
      rw [heq]
      refine ⟨_, hat.reports, evals_steps _, fun _ => rfl, fun hu => ?_, ?_⟩
      · obtain ⟨hrun, -, hcalm⟩ := hu k hk hat
        exact .inl ((evals_running_iff _).2 ⟨hrun, fun j hj => hcalm j (by omega)⟩)
      · rintro (hrun | hnil) k' hk' hat'
        · obtain rfl := hat.unique hat'
          obtain ⟨hrun, hcalm⟩ := (evals_running_iff _).1 hrun
          exact ⟨hrun, by omega, fun j hj => hcalm j (by omega)⟩
        · simp at hnil

theorem Stepped.cons {m₁ m₂ m₃ : Sim} {pc : Word} {ts : List Sim}
    (hsteps : m₂.steps = m₁.steps ++ [pc])
    (hreports : m₂.top.2.2.reports = m₁.top.2.2.reports ++ [pc])
    (hu : Unbroken B diff_enable H m₁) (h : Stepped B diff_enable H m₂ m₃ ts) :
    Stepped B diff_enable H m₁ m₃ (m₁ :: ts) := by
  obtain ⟨stepped, rest, hs, hr, hrest⟩ := h
  exact ⟨pc :: stepped, rest, by simp [hs, hsteps], by simp [hr, hreports], by simp [hrest, hu]⟩

theorem excute_stepped (n : Nat) : Stepped B diff_enable H m (excute B diff_enable H m n)
    (turns B diff_enable H m n) := by
  induction n generalizing m with
  | zero => exact ⟨[], [], by simp [excute, turns]⟩
  | succ n ih =>
    obtain ⟨new, hrep, hsteps, hrun, hu⟩ := execOnce_spec B diff_enable H m
    rw [excute, turns]
    generalize execOnce B diff_enable H m 20000 = m' at hrep hsteps hrun hu ⊢
    by_cases hr : m'.npc_state = .NPC_RUNNING
    · obtain rfl := hrun hr
      have hsteps' : (traceAndDifftest H m').steps = m.steps ++ [m'.pcDone] := by
        simp [traceAndDifftest, hsteps]
      simp only [hr, ne_eq, not_true_eq_false, if_false]
      exact Stepped.cons hsteps' hrep (hu.2 (.inl hr)) ih
    · simp only [hr, ne_eq, not_false_eq_true, if_true]
      exact ⟨[], new, by simp [hsteps], by simp [hrep], by simp [hu, hr]⟩

theorem cpuExec_stepped (n : Nat) : Stepped B diff_enable H m (cpuExec B diff_enable H m n)
    (callTurns B diff_enable H m n) := by
  have hex : Stepped B diff_enable H m
      (excute B diff_enable H { m with npc_state := .NPC_RUNNING } n)
      (turns B diff_enable H { m with npc_state := .NPC_RUNNING } n) :=
    excute_stepped n
  have hnone : Stepped B diff_enable H m m [] := ⟨[], [], by simp⟩
  rw [cpuExec, callTurns]
  cases m.npc_state <;> first | exact hnone | skip
  all_goals
    dsimp only
    split <;> exact hex

theorem session_stepped (ns : List Nat) {m' : Sim}
    (hm' : m' = ns.foldl (cpuExec B diff_enable H) m) :
    m.top.2.2.reports.length + m'.steps.length ≤ m'.top.2.2.reports.length + m.steps.length ∧
      (m.steps = m.top.2.2.reports → (m'.steps = m'.top.2.2.reports ↔
        ∀ t ∈ sessionTurns B diff_enable H m ns, Unbroken B diff_enable H t)) := by
  induction ns generalizing m with
  | nil =>
    subst hm'
    exact ⟨Nat.le_refl _, fun heq => by simp [sessionTurns, heq]⟩
  | cons n ns ih =>
    have hcall : Stepped B diff_enable H m (cpuExec B diff_enable H m n)
        (callTurns B diff_enable H m n) := cpuExec_stepped n
    obtain ⟨stepped, rest, hs, hr, hrest⟩ := hcall
    obtain ⟨hlen, hiff⟩ := ih hm'
    rw [hs, hr] at hlen
    simp only [List.length_append] at hlen
    refine ⟨by omega, fun heq => ?_⟩
    rw [sessionTurns]
    simp only [List.mem_append, or_imp, forall_and, ← hrest]
    by_cases hnil : rest = []
    · rw [hs, hr, heq, hnil, List.append_nil] at hiff
      simp [hnil, hiff rfl]
    · have hpos := List.length_pos_iff.2 hnil
      have hlen' := congrArg List.length heq
      refine ⟨fun hall => ?_, fun h => absurd h.1 hnil⟩
      have := congrArg List.length hall
      omega

def Runs (B : Build) (diff_enable : Bool) (m : Sim) : Prop :=
  (reporting B diff_enable).Reaches (fun _ _ => True) m.top

theorem Runs.execOnce (h : Runs B diff_enable m) (counter : Nat) :
    Runs B diff_enable (execOnce B diff_enable H m counter) := by
  induction counter generalizing m with
  | zero => exact h
  | succ counter ih =>
    have hnext : Runs B diff_enable (eval B diff_enable H m) := h.next trivial
    rw [Simulator.execOnce]
    split
    · exact hnext
    · split
      · exact hnext
      · exact ih hnext

theorem Runs.excute (h : Runs B diff_enable m) (n : Nat) :
    Runs B diff_enable (excute B diff_enable H m n) := by
  induction n generalizing m with
  | zero => exact h
  | succ n ih =>
    have honce := h.execOnce (H := H) 20000
    rw [Simulator.excute]
    generalize Simulator.execOnce B diff_enable H m 20000 = m' at honce ⊢
    split
    · exact honce
    · exact ih honce

theorem Runs.cpuExec (h : Runs B diff_enable m) (n : Nat) :
    Runs B diff_enable (cpuExec B diff_enable H m n) := by
  have hrun : Runs B diff_enable { m with npc_state := .NPC_RUNNING } := h
  have hex := hrun.excute (H := H) n
  rw [Simulator.cpuExec]
  generalize Simulator.excute B diff_enable H { m with npc_state := .NPC_RUNNING } n = m' at hex ⊢
  cases m.npc_state <;> first | exact h | skip
  all_goals
    dsimp only
    split <;> exact hex

theorem session_runs {s : Regs} (hs : IsReset B s) (ns : List Nat) :
    Runs B diff_enable (session B diff_enable H s ns) := by
  have hstart : Runs B diff_enable (start s) := .reset ⟨hs, rfl⟩
  rw [session]
  generalize start s = m at hstart
  induction ns generalizing m with
  | nil => exact hstart
  | cons n ns ih => exact ih _ (hstart.cpuExec n)

end Run

theorem commits_stepped (B : Build) (diff_enable : Bool) (H : Host) {s : Regs} (hs : IsReset B s)
    (ns : List Nat) : let m := session B diff_enable H s ns
    Accounted diff_enable m.top.1 m.top.2.2 ∧ (m.steps = m.top.2.2.reports ↔
      ∀ t ∈ sessionTurns B diff_enable H (start s) ns, Unbroken B diff_enable H t) :=
  ⟨commits_reported (session_runs hs ns), (session_stepped ns rfl).2 rfl⟩

/-- Two additions and behind the first one a load, which waits in MEM until the cycle 9 and so holds
the addition in WB. -/
def behindLoad : Host where
  io n := [.request, .fetch 0x13, .fetch 0x00002103, .fetch 0x13, .fetch 0x13, .idle, .idle,
    { Inputs.idle with dbus := ⟨true, ⟨false, ⟨0⟩⟩, ⟨false, ⟨false⟩⟩⟩ }, .idle,
    { Inputs.idle with dbus := ⟨false, ⟨true, ⟨5⟩⟩, ⟨false, ⟨false⟩⟩⟩ }].getD n (.fetch 0x13)
  sigint _ := false
  verdict _ := none

theorem commits_stepped_behindLoad :
    let m := session .zeros true behindLoad (.reset .zeros 0) [3]
    m.steps = [0x10000000, 0x10000004, 0x10000008] ∧ Accounted true m.top.1 m.top.2.2 ∧
      ∀ t ∈ sessionTurns .zeros true behindLoad (start (.reset .zeros 0)) [3],
        Unbroken .zeros true behindLoad t := by
  have hsteps : (session .zeros true behindLoad (.reset .zeros 0) [3]).steps =
      [0x10000000, 0x10000004, 0x10000008] := by decide +kernel
  have hreports : (session .zeros true behindLoad (.reset .zeros 0) [3]).top.2.2.reports =
      [0x10000000, 0x10000004, 0x10000008] := by decide +kernel
  have hall := commits_stepped .zeros true behindLoad (isReset_reset .zeros 0) [3]
  exact ⟨hsteps, hall.1, hall.2.1 (hsteps.trans hreports.symm)⟩

/-- Additions, with a watchpoint that changes after the first one. -/
def changing : Host where
  io n := if n = 0 then .request else .fetch 0x13
  sigint _ := false
  verdict n := if n = 7 then some .NPC_STOP else none

/-- The addition that is reported after the stop gets no step, and the session goes on. -/
theorem reported_unstepped :
    let m := session .zeros true changing (.reset .zeros 0) [3, 1]
    m.top.2.2.reports = [0x10000000, 0x10000004, 0x10000008] ∧
      m.steps = [0x10000000, 0x10000008] ∧
      ¬∀ B diff_enable H s, IsReset B s → ∀ ns,
        (session B diff_enable H s ns).steps = (session B diff_enable H s ns).top.2.2.reports := by
  have hreports : (session .zeros true changing (.reset .zeros 0) [3, 1]).top.2.2.reports =
      [0x10000000, 0x10000004, 0x10000008] := by decide +kernel
  have hsteps : (session .zeros true changing (.reset .zeros 0) [3, 1]).steps =
      [0x10000000, 0x10000008] := by decide +kernel
  refine ⟨hreports, hsteps, fun h => ?_⟩
  have hall := h .zeros true changing _ (isReset_reset _ 0) [3, 1]
  rw [hreports, hsteps] at hall
  simp at hall

end Simulator

end FpgaNpc
