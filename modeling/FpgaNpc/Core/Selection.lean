import FpgaNpc.Core.Traps

open FpgaNpc.Hardware

namespace FpgaNpc

namespace CSRRegFile

open CsrConsts

inductive InterruptSource
  | machineExternal | machineSoftware | machineTimer
  | supervisorExternal | supervisorSoftware | supervisorTimer
  deriving DecidableEq

namespace InterruptSource

def number : InterruptSource → Nat
  | .machineExternal => 11
  | .machineSoftware => 3
  | .machineTimer => 7
  | .supervisorExternal => 9
  | .supervisorSoftware => 1
  | .supervisorTimer => 5

def byUrgency : List InterruptSource :=
  [.machineExternal, .machineSoftware, .machineTimer, .supervisorExternal, .supervisorSoftware,
    .supervisorTimer]

def code (src : InterruptSource) : Word := 0x80000000#32 ||| .ofNat 32 src.number

end InterruptSource

variable (c : Regs) (i : InterruptSimple)

def Pends (n : Nat) : Prop := c.mie.getLsbD n = true ∧ (mip c i).getLsbD n = true

instance (n : Nat) : Decidable (Pends c i n) := inferInstanceAs (Decidable (_ ∧ _))

def mostUrgent : Option InterruptSource :=
  InterruptSource.byUrgency.find? fun src => decide (Pends c i src.number)

theorem getLsbD_intrVec (n : Nat) : (intrVec c i).getLsbD n = decide (Pends c i n) := by
  rw [intrVec, BitVec.getLsbD_and, BitVec.getLsbD_extractLsb]
  by_cases hn : n < 12
  · simp [Pends, hn]
  · have hmip : (mip c i).getLsbD n = false := BitVec.getLsbD_of_ge _ _ (by omega)
    simp [Pends, hmip]

theorem raiseIntr_iff : raiseIntr c i = true ↔
    (∃ n, Pends c i n) ∧ c.mstatus.getLsbD 3 = true := by
  rw [raiseIntr, Bool.and_eq_true]
  refine and_congr ⟨fun h => ?_, fun ⟨n, hn⟩ => ?_⟩ Iff.rfl
  · obtain ⟨n, -, hn⟩ := exists_getLsbD_of_ne_zero (bne_iff_ne.1 h)
    exact ⟨n, by simpa [getLsbD_intrVec] using hn⟩
  · refine bne_iff_ne.2 fun hz => ?_
    have hbit := getLsbD_intrVec c i n
    simp [hz, hn] at hbit

/-- The machine software interrupt is taken before the external one, and so it is in supervisor
mode; the rest of the order is the standard one. -/
theorem intrNo_eq : intrNo c i =
    if Pends c i 3 then 3 else if Pends c i 11 then 11 else if Pends c i 7 then 7
    else if Pends c i 1 then 1 else if Pends c i 9 then 9 else if Pends c i 5 then 5
    else 0 := by
  simp only [intrNo, IntPriority, firstOf, getLsbD_intrVec, decide_eq_true_eq]

theorem intrNo_code_iff {src : InterruptSource} (h : mostUrgent c i = some src) :
    0x80000000#32 ||| .ofNat 32 (intrNo c i) = src.code ↔
      ¬(Pends c i 11 ∧ Pends c i 3) ∧
        (Pends c i 9 → Pends c i 1 → Pends c i 11 ∨ Pends c i 3 ∨ Pends c i 7) := by
  rw [intrNo_eq]
  revert h
  by_cases h11 : Pends c i 11 <;> by_cases h3 : Pends c i 3 <;>
    by_cases h7 : Pends c i 7 <;> by_cases h9 : Pends c i 9 <;>
    by_cases h1 : Pends c i 1 <;> by_cases h5 : Pends c i 5 <;>
    simp only [mostUrgent, InterruptSource.byUrgency, InterruptSource.number, List.find?, h11, h3,
      h7, h9, h1, h5, decide_true, decide_false, Option.some.injEq, reduceCtorEq, if_true,
      if_false, IsEmpty.forall_iff] <;> rintro rfl <;> decide

end CSRRegFile

namespace Core

open CSRRegFile

variable (c : CSRRegFile.Regs) (i : InterruptSimple)

/-- An interrupt is requested when one is pending and enabled and the mode admits interrupts, and
the most urgent one is the cause that the trap records, whatever the stages hold. -/
structure InterruptSelected : Prop where
  requested : raiseIntr c i = true ↔
    (∃ n, Pends c i n) ∧ (c.mstatus.getLsbD 3 = true ∨ c.privilege ≠ .Machine)
  recorded : raiseIntr c i = true → ∀ src ∈ mostUrgent c i, ∀ B s io, s.csrRegs = c →
    io.interrupt = i → interCMDValid s = true → (next B s io).csrRegs.mcause = src.code

/-- Below machine mode the interrupts are on when one is pending, and no software interrupt
contends with an external one of its mode for the first place. -/
structure Uncontended : Prop where
  enabled : c.mstatus.getLsbD 3 = true ∨ c.privilege = .Machine ∨ ∀ n, ¬Pends c i n
  machine : c.mstatus.getLsbD 3 = true → ¬(Pends c i 11 ∧ Pends c i 3)
  supervisor : c.mstatus.getLsbD 3 = true → Pends c i 9 → Pends c i 1 →
    Pends c i 11 ∨ Pends c i 3 ∨ Pends c i 7

variable {B : Build} {s : Regs} {io : Inputs}

theorem next_mcause_of_intr (hi : raiseIntr s.csrRegs io.interrupt = true)
    (hv : interCMDValid s = true) : (next B s io).csrRegs.mcause =
      0x80000000#32 ||| .ofNat 32 (intrNo s.csrRegs io.interrupt) := by
  rw [next_csrRegs_mcause, if_neg (writePort_of_intr hi hv _), raiseIntrExcep_of_intr hi hv,
    if_pos rfl, csrInputs_causeNO, if_pos hi]

variable {c i}

theorem exists_mostUrgent {src : InterruptSource} (h : Pends c i src.number) :
    ∃ first, mostUrgent c i = some first := by
  rw [← Option.isSome_iff_exists, mostUrgent, List.find?_isSome]
  exact ⟨src, by cases src <;> decide, decide_eq_true h⟩

theorem Uncontended.interruptSelected (h : Uncontended c i) : InterruptSelected c i where
  requested := by
    rw [raiseIntr_iff]
    refine ⟨fun ⟨hn, hm⟩ => ⟨hn, .inl hm⟩, fun ⟨⟨n, hn⟩, hm⟩ => ⟨⟨n, hn⟩, ?_⟩⟩
    rcases h.enabled with he | hp | hnone
    · exact he
    · exact hm.resolve_right fun hne => hne hp
    · exact absurd hn (hnone n)
  recorded hi src hsrc B s io hs hio hv := by
    subst hs hio
    have hon := ((raiseIntr_iff _ _).1 hi).2
    rw [next_mcause_of_intr hi hv]
    exact (intrNo_code_iff _ _ hsrc).2 ⟨h.machine hon, h.supervisor hon⟩

theorem exists_offered (c : CSRRegFile.Regs) :
    ∃ (_ : Build) (s : Regs), s.csrRegs = c ∧ interCMDValid s = true :=
  ⟨.zeros, { Regs.reset .zeros 0 with csrRegs := c }, rfl, rfl⟩

theorem InterruptSelected.contention (h : InterruptSelected c i) (src : InterruptSource)
    (hon : c.mstatus.getLsbD 3 = true) (hp : Pends c i src.number) :
    ¬(Pends c i 11 ∧ Pends c i 3) ∧
      (Pends c i 9 → Pends c i 1 → Pends c i 11 ∨ Pends c i 3 ∨ Pends c i 7) := by
  obtain ⟨first, hfirst⟩ := exists_mostUrgent hp
  obtain ⟨B, s, hs, hv⟩ := exists_offered c
  subst hs
  let io := { Inputs.idle with interrupt := i }
  have hi : raiseIntr s.csrRegs io.interrupt = true := (raiseIntr_iff _ _).2 ⟨⟨_, hp⟩, hon⟩
  have hcause := h.recorded hi first hfirst B s io rfl rfl hv
  rw [next_mcause_of_intr hi hv] at hcause
  exact (intrNo_code_iff _ _ hfirst).1 hcause

theorem InterruptSelected.uncontended (h : InterruptSelected c i) : Uncontended c i where
  enabled := by
    cases hon : c.mstatus.getLsbD 3
    case true => exact .inl rfl
    case false =>
      refine .inr (or_iff_not_imp_left.2 fun hp n hn => ?_)
      have hi := ((raiseIntr_iff _ _).1 (h.requested.2 ⟨⟨n, hn⟩, .inr hp⟩)).2
      rw [hon] at hi
      exact Bool.false_ne_true hi
  machine hon hp := (h.contention .machineExternal hon hp.1).1 hp
  supervisor hon h9 h1 := (h.contention .supervisorExternal hon h9).2 h9 h1

theorem interrupt_selected (c : CSRRegFile.Regs) (i : InterruptSimple) :
    InterruptSelected c i ↔ Uncontended c i :=
  ⟨InterruptSelected.uncontended, Uncontended.interruptSelected⟩

/-- The software and the external interrupt come together: the cause is 3, not 11. -/
theorem software_before_external : ¬∀ s, (machine .zeros).Reaches (fun _ _ => True) s →
    ∀ i, InterruptSelected s.csrRegs i := by
  intro h
  have hr := (machine .zeros).reaches_run (fun _ _ => True) (.reset .zeros 0x888)
    enableInterrupts (isReset_reset _ _) (by decide +kernel)
  have hm := (h _ hr ⟨true, false, true⟩).uncontended.machine (by decide +kernel)
  revert hm
  decide +kernel

end Core

end FpgaNpc
