import FpgaNpc.Core.Flush

open FpgaNpc.Hardware FpgaNpc.InterStage

namespace FpgaNpc.Core

/-- An instruction to report: one with a pc that commits or, under `diff_enable`, that an interrupt
has killed. -/
def reportable (diff_enable nop flushForIntr : Bool) (pc : Word) : Bool :=
  (!nop || (diff_enable && flushForIntr)) && orR pc

def MemReportable (diff_enable : Bool) (b : ExeMemBus) : Bool :=
  reportable diff_enable b.nop b.flushForIntr b.pc

def WBReportable (diff_enable : Bool) (b : MemWbBus) : Bool :=
  reportable diff_enable b.nop b.flushForIntr b.pc

/-- What MEM and WB have latched so far, and the pcs that the debug port has shown. -/
structure Journal where
  inMEM : List ExeMemBus
  inWB : List MemWbBus
  reports : List Word

def Journal.empty : Journal := ⟨[], [], []⟩

section Observe

variable (B : Build) (diff_enable : Bool) (s : Regs) (io : Inputs)

def nextDebug (d : WB.Debug) : WB.Debug := WB.nextDebug s.fromMEM diff_enable (toWBFire s io) d

def Journal.observe (j : Journal) (d' : WB.Debug) : Journal where
  inMEM := j.inMEM ++ if toMEMFire B s io then [toMEM B s io] else []
  inWB := j.inWB ++ if toWBFire s io then [toWB s io] else []
  reports := j.reports ++ if d'.done then [d'.pc_done] else []

end Observe

def reporting (B : Build) (diff_enable : Bool) : Machine (Regs × WB.Debug × Journal) Inputs :=
  (machine B).monitor (.reset, .empty) fun s io g =>
    (nextDebug diff_enable s io g.1, g.2.observe B s io (nextDebug diff_enable s io g.1))

/-- Every word that WB has latched, but the one it holds, has been reported once, in order, if it is
to be; and of the words it has latched, one is to be reported for each instruction that is, the one
in MEM having been passed on when `hasFired` says so. -/
structure Accounted (diff_enable : Bool) (s : Regs) (j : Journal) : Prop where
  reports : j.reports = (j.inWB.dropLast.filter (WBReportable diff_enable)).map (·.pc)
  once : (j.inWB.filter (WBReportable diff_enable)).map (·.pc) =
    ((if s.memStage.hasFired then j.inMEM else j.inMEM.dropLast).filter
      (MemReportable diff_enable)).map (·.pc)

/-- An instruction that an interrupt killed is followed by a bubble, and so does not linger. -/
structure KillLeaves (s : Regs) : Prop where
  nop : s.memStage.fromEXE.flushForIntr = true → s.memStage.fromEXE.nop = true
  behind : s.memStage.fromEXE.flushForIntr = true → s.exeStage.fromID.nop = true
  fresh : s.memStage.fromEXE.flushForIntr = true → s.memStage.hasFired = false

structure Journaled (diff_enable : Bool) (s : Regs) (j : Journal) : Prop where
  settled : Settled s
  kill : KillLeaves s
  mem : ∃ left, ExeMemBus.zero :: j.inMEM = left ++ [s.memStage.fromEXE] ∧
    (j.inWB.filter (WBReportable diff_enable)).map (·.pc) =
      ((left ++ if s.memStage.hasFired then [s.memStage.fromEXE] else []).filter
        (MemReportable diff_enable)).map (·.pc)
  wb : ∃ left, MemWbBus.zero :: j.inWB = left ++ [s.fromMEM] ∧
    j.reports = (left.filter (WBReportable diff_enable)).map (·.pc)

section Step

variable {B : Build} {diff_enable : Bool} {s : Regs} {io : Inputs} {d : WB.Debug} {j : Journal}

theorem KillLeaves.next (h : KillLeaves s) (hs : Settled s) : KillLeaves (next B s io) := by
  cases hfire : toMEMFire B s io
  case true =>
    have hfrom : (Core.next B s io).memStage.fromEXE = toMEM B s io := by
      rw [next_fromEXE, hfire, if_pos rfl]
    have hint (hk : (toMEM B s io).flushForIntr = true) : interrupt s io = true := by
      simpa [toMEM, EXE.toMEM, exeInputs] using (Bool.and_eq_true .. ▸ hk).2
    refine ⟨fun hk => ?_, fun hk => ?_, fun _ => ?_⟩
    · rw [hfrom] at hk ⊢
      simp [toMEM_nop hs.exeFired, kill, hint hk]
    · rw [hfrom] at hk
      rw [next_fromID, hfire, if_pos rfl]
      exact toEXE_nop_of_flush (flush_of_kill (by simp [kill, hint hk]))
    · simp [next_memStage_hasFired, hfire]
  case false =>
    have hfrom : (Core.next B s io).memStage.fromEXE = s.memStage.fromEXE := by
      rw [next_fromEXE, hfire, if_neg Bool.false_ne_true]
    have hno : s.memStage.fromEXE.flushForIntr = false := by
      by_contra hk
      have hk := Bool.not_eq_false _ ▸ hk
      simp [hs.toMEMFire_of_bubbles (h.nop hk) (h.behind hk)] at hfire
    refine ⟨?_, ?_, ?_⟩ <;> simp [hfrom, hno]

theorem KillLeaves.reportable_toWB (h : KillLeaves s) (diff_enable : Bool) (io : Inputs) :
    WBReportable diff_enable (toWB s io) =
      (MemReportable diff_enable s.memStage.fromEXE && !s.memStage.hasFired) := by
  change reportable diff_enable (s.memStage.fromEXE.nop || s.memStage.hasFired)
    s.memStage.fromEXE.flushForIntr s.memStage.fromEXE.pc = _
  cases hf : s.memStage.hasFired
  case false => simp [MemReportable]
  case true =>
    have hk : s.memStage.fromEXE.flushForIntr = false := by
      by_contra hk
      simp [h.fresh (Bool.not_eq_false _ ▸ hk)] at hf
    simp [reportable, hk]

theorem Journaled.mem_next (h : Journaled diff_enable s j) :
    ∃ left, ExeMemBus.zero :: (j.observe B s io d).inMEM =
        left ++ [(next B s io).memStage.fromEXE] ∧
      ((j.observe B s io d).inWB.filter (WBReportable diff_enable)).map (·.pc) =
        ((left ++ if (next B s io).memStage.hasFired then
          [(next B s io).memStage.fromEXE] else []).filter
            (MemReportable diff_enable)).map (·.pc) := by
  obtain ⟨left, hin, hwb⟩ := h.mem
  have hrep := h.kill.reportable_toWB diff_enable io
  have hpc : (toWB s io).pc = s.memStage.fromEXE.pc := rfl
  -- the instruction in MEM has been latched by WB once when it leaves
  have hpassed (hv : toWBFire s io = true) :
      ((j.observe B s io d).inWB.filter (WBReportable diff_enable)).map (·.pc) =
        ((left ++ [s.memStage.fromEXE]).filter (MemReportable diff_enable)).map (·.pc) := by
    simp only [Journal.observe, hv, if_true, List.filter_append, List.map_append, hwb]
    cases hf : s.memStage.hasFired
    case false =>
      cases hr : MemReportable diff_enable s.memStage.fromEXE <;> simp [hrep, hf, hr, hpc]
    case true => simp [hrep, hf]
  cases hfire : toMEMFire B s io
  case true =>
    refine ⟨left ++ [s.memStage.fromEXE], ?_, ?_⟩
    · rw [next_fromEXE, ← hin]
      simp [Journal.observe, hfire]
    · rw [hpassed (toWBFire_of_toMEMFire hfire), next_memStage_hasFired]
      simp [hfire]
  case false =>
    have hfrom : (next B s io).memStage.fromEXE = s.memStage.fromEXE := by
      rw [next_fromEXE, hfire, if_neg Bool.false_ne_true]
    refine ⟨left, ?_, ?_⟩
    · rw [hfrom, ← hin]
      simp [Journal.observe, hfire]
    · rw [next_memStage_hasFired, hfrom]
      cases hv : toWBFire s io
      case true =>
        rw [hpassed hv]
        simp [hfire]
      case false => simp [Journal.observe, hv, hfire, hwb]

theorem Journaled.wb_next (h : Journaled diff_enable s j) :
    ∃ left, MemWbBus.zero :: (j.observe B s io (nextDebug diff_enable s io d)).inWB =
        left ++ [(next B s io).fromMEM] ∧
      (j.observe B s io (nextDebug diff_enable s io d)).reports =
        (left.filter (WBReportable diff_enable)).map (·.pc) := by
  obtain ⟨left, hin, hrep⟩ := h.wb
  cases hv : toWBFire s io
  case false =>
    refine ⟨left, ?_, ?_⟩
    · simp [Journal.observe, hv, hin, next]
    · simp [Journal.observe, nextDebug, WB.nextDebug, hv, hrep]
  case true =>
    refine ⟨left ++ [s.fromMEM], ?_, ?_⟩
    · rw [← hin]
      simp [Journal.observe, hv, next]
    · have hdone : nextDebug diff_enable s io d =
          ⟨WBReportable diff_enable s.fromMEM, s.fromMEM.pc,
            (nextDebug diff_enable s io d).flushForIntr⟩ := by
        simp [nextDebug, WB.nextDebug, hv, WBReportable, reportable]
      rw [hdone]
      cases hr : WBReportable diff_enable s.fromMEM <;>
        simp [Journal.observe, hrep, hr]

theorem Journaled.next (h : Journaled diff_enable s j) : Journaled diff_enable (next B s io)
    (j.observe B s io (nextDebug diff_enable s io d)) :=
  ⟨h.settled.next B io, h.kill.next h.settled, h.mem_next, h.wb_next⟩

theorem IsReset.journaled (h : IsReset B s) : Journaled diff_enable s .empty where
  settled := h.settled
  kill := by
    constructor <;> simp [h.memStage, MEM.reset, ExeMemBus.zero]
  mem := ⟨[], by simp [Journal.empty, h.memStage, MEM.reset],
    by simp [Journal.empty, h.memStage, MEM.reset]⟩
  wb := ⟨[], by simp [Journal.empty, h.fromMEM], rfl⟩

/-- What came before the last of a list is the list without its last, as far as the word after
reset does not count. -/
theorem filter_left {α : Type} {p : α → Bool} {zero last : α} {left l : List α}
    (hz : p zero = false) (h : zero :: l = left ++ [last]) :
    left.filter p = l.dropLast.filter p := by
  have hleft : left = (zero :: l).dropLast := by simp [h]
  cases l with
  | nil => simp [hleft]
  | cons a l => simp [hleft, hz]

theorem Journaled.accounted (h : Journaled diff_enable s j) : Accounted diff_enable s j where
  reports := by
    obtain ⟨left, hin, hrep⟩ := h.wb
    rw [hrep, filter_left rfl hin]
  once := by
    obtain ⟨left, hin, hwb⟩ := h.mem
    rw [hwb]
    cases s.memStage.hasFired
    case false => simp [filter_left (p := MemReportable diff_enable) rfl hin]
    case true =>
      have hz : MemReportable diff_enable .zero = false := rfl
      simp [← hin, hz]

theorem commits_reported {p : Regs × WB.Debug × Journal}
    (h : (reporting B diff_enable).Reaches (fun _ _ => True) p) :
    Accounted diff_enable p.1 p.2.2 := by
  refine Journaled.accounted (h.monitor_invariant
    (P := fun s (g : WB.Debug × Journal) => Journaled diff_enable s g.2)
    (fun s hs => IsReset.journaled hs) fun s g io ih _ => ih.next)

end Step

end FpgaNpc.Core
