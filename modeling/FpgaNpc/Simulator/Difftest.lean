import FpgaNpc.Simulator.Exec

open FpgaNpc.Hardware

universe u

namespace FpgaNpc.Simulator

inductive CSR
  | mstatus | mtvec | mscratch | mepc | mcause | satp | mvendorid | marchid
  deriving DecidableEq

def CSR.list : List CSR :=
  [.mstatus, .mtvec, .mscratch, .mepc, .mcause, .satp, .mvendorid, .marchid]

/-- The CSRs of which the difftest is to see differences. -/
def CSR.Checked : CSR → Prop
  | .mstatus | .mtvec | .mepc | .mcause | .satp => True
  | .mscratch | .mvendorid | .marchid => False

structure CsrCtx where
  csrs : CSR → Word
  pc : Word

structure DiffContext where
  gpr : Fin 32 → Word
  pc : Word
  csrs : CSR → Word

structure CpuState where
  pc_exe : Word
  pc_done : Word
  gpr : Fin 32 → Word
  csrs : CSR → Word
  /-- The register of WB, which is read by its name. -/
  flushForIntr : Bool

/-- The reference, which is loaded from a library. -/
structure Reference (ρ : Type u) where
  exec : ρ → ρ
  raiseIntr : Word → ρ → ρ
  toDut : ρ → DiffContext
  toRef : DiffContext → ρ → ρ

structure Difftest (ρ : Type u) where
  ref : ρ
  ctx : DiffContext
  pcs_to_skip : List Word
  pc_intr_triggered : Word
  causeNo_intr_triggered : Word
  diff_npc : Word
  csr_ctx_q : List CsrCtx
  npc_state : NPCState
  halt_pc : Word

namespace Difftest

variable {ρ : Type u}

section Functions

/- `skip_checkcsrs` compares a CSR's index with the distance of two unrelated addresses. -/
variable (R : Reference ρ) (skip_checkcsrs : CSR → Bool) (d : Difftest ρ) (cpu : CpuState)

def initDifftest (ref : ρ) : Difftest ρ :=
  let ctx : DiffContext :=
    { gpr := cpu.gpr
      pc := 0x10000000
      csrs := fun
        | .mstatus => cpu.csrs .mstatus
        | .mvendorid => 0x79737978
        | .marchid => 0x23060051
        | .mtvec | .mscratch | .mepc | .mcause | .satp => 0 }
  ⟨R.toRef ctx ref, ctx, [], 0, 0, 0, [], .NPC_STOP, 0⟩

def diffSkip (skip_pc : Word) : Difftest ρ := { d with pcs_to_skip := d.pcs_to_skip ++ [skip_pc] }

def diffRaiseIntr (causeNO : Word) : Difftest ρ :=
  { d with pc_intr_triggered := cpu.pc_exe, causeNo_intr_triggered := causeNO }

def csrCtx (pc : Word) : CsrCtx := ⟨cpu.csrs, pc⟩

/-- The queue that `update_csr` declares is its own, and the context is not even pushed on that. -/
def updateCsr (pc : Word) : Difftest ρ :=
  let _csr_ctx_q : List CsrCtx := []
  let _ctx := csrCtx cpu pc
  d

def checkNpc (pc : Word) : Bool := d.diff_npc == 0 || d.diff_npc == pc

def checkGprs (ref_r : DiffContext) : Bool := decide (∀ i, i ≠ 0 → ref_r.gpr i = cpu.gpr i)

def checkCsrs (ref_r : DiffContext) (csr_ctx_to_check : CsrCtx) : Bool :=
  CSR.list.all fun c => skip_checkcsrs c || ref_r.csrs c == csr_ctx_to_check.csrs c

def difftestCheckregs (ref_r : DiffContext) (pc : Word) : Difftest ρ × Bool :=
  let check := d.checkNpc pc && checkGprs cpu ref_r
  let d' := { d with diff_npc := ref_r.pc }
  match d.csr_ctx_q with
  | [] => (d', check)
  | csr_ctx_to_check :: q =>
    if csr_ctx_to_check.pc = pc then
      ({ d' with csr_ctx_q := q }, check && checkCsrs skip_checkcsrs ref_r csr_ctx_to_check)
    else (d', check)

def checkregs (ref_r : DiffContext) (pc : Word) : Difftest ρ :=
  let (d', check) := d.difftestCheckregs skip_checkcsrs cpu ref_r pc
  if check then d' else { d' with npc_state := .NPC_ABORT, halt_pc := pc }

/-- The reference takes the interrupt that killed the instruction in place of executing it. -/
def takesIntr (pc : Word) : Bool := pc == d.pc_intr_triggered && cpu.flushForIntr

def skipped : Bool := d.pcs_to_skip.head? == some cpu.pc_done

def advance (pc : Word) : Difftest ρ :=
  if d.takesIntr cpu pc then
    { d with
      ref := R.raiseIntr d.causeNo_intr_triggered d.ref
      pc_intr_triggered := 0
      causeNo_intr_triggered := 0 }
  else { d with ref := R.exec d.ref }

def difftestStep (pc : Word) : Difftest ρ :=
  if d.skipped cpu then
    let ctx : DiffContext :=
      { gpr := fun i => if i = 0 then d.ctx.gpr 0 else cpu.gpr i
        pc := cpu.pc_done + 4
        csrs := cpu.csrs }
    { d with
      ref := R.toRef ctx d.ref
      ctx := ctx
      diff_npc := cpu.pc_done + 4
      pcs_to_skip := d.pcs_to_skip.tail }
  else
    let d' := d.advance R cpu pc
    d'.checkregs skip_checkcsrs cpu (R.toDut d'.ref) pc

end Functions

inductive Event
  | update_csr (pc : Word) (cpu : CpuState)
  | diff_skip (skip_pc : Word)
  | diff_raise_intr (causeNO : Word) (cpu : CpuState)
  | difftest_step (cpu : CpuState)
  | npc_state (state : NPCState)

def machine (R : Reference ρ) (skip_checkcsrs : CSR → Bool) : Machine (Difftest ρ) Event where
  IsReset d := ∃ cpu ref, d = initDifftest R cpu ref
  next d
    | .update_csr pc cpu => d.updateCsr cpu pc
    | .diff_skip skip_pc => d.diffSkip skip_pc
    | .diff_raise_intr causeNO cpu => d.diffRaiseIntr cpu causeNO
    | .difftest_step cpu => d.difftestStep R skip_checkcsrs cpu cpu.pc_done
    | .npc_state state => { d with npc_state := state }

def recorded (i : Event) (g : List CsrCtx) : List CsrCtx :=
  match i with
  | .update_csr pc cpu => g ++ [csrCtx cpu pc]
  | .difftest_step cpu => g.eraseP (·.pc == cpu.pc_done)
  | .diff_skip _ | .diff_raise_intr _ _ | .npc_state _ => g

def watched (R : Reference ρ) (skip_checkcsrs : CSR → Bool) :
    Machine (Difftest ρ × List CsrCtx) Event :=
  (machine R skip_checkcsrs).monitor [] fun _ i g => recorded i g

def Differs (R : Reference ρ) (d : Difftest ρ) (g : List CsrCtx) (cpu : CpuState) : Prop :=
  ∃ r ∈ g.find? (·.pc == cpu.pc_done), ∃ c, CSR.Checked c ∧
    r.csrs c ≠ (R.toDut (d.advance R cpu cpu.pc_done).ref).csrs c

def Detects (R : Reference ρ) (skip_checkcsrs : CSR → Bool) (d : Difftest ρ) (g : List CsrCtx)
    (cpu : CpuState) : Prop :=
  d.npc_state = .NPC_RUNNING → d.skipped cpu = false → Differs R d g cpu →
    (d.difftestStep R skip_checkcsrs cpu cpu.pc_done).npc_state = .NPC_ABORT

def compared (d : Difftest ρ) (cpu : CpuState) : List CsrCtx :=
  if d.skipped cpu then [] else (d.csr_ctx_q.head?.filter (·.pc == cpu.pc_done)).toList

/-- A step that is not skipped compares the context recorded for its instruction and no other, and
finds the difference. -/
structure Checks (R : Reference ρ) (skip_checkcsrs : CSR → Bool) (d : Difftest ρ)
    (g : List CsrCtx) (cpu : CpuState) : Prop where
  compares : d.skipped cpu = false → compared d cpu = (g.find? (·.pc == cpu.pc_done)).toList
  detects : Detects R skip_checkcsrs d g cpu

def Unrecorded (d : Difftest ρ) (g : List CsrCtx) (cpu : CpuState) : Prop :=
  d.skipped cpu = false → g.find? (·.pc == cpu.pc_done) = none

def Shows (R : Reference ρ) (d : Difftest ρ) (cpu : CpuState) : Prop :=
  d.checkNpc cpu.pc_done = false ∨
    checkGprs cpu (R.toDut (d.advance R cpu cpu.pc_done).ref) = false

section Step

variable {R : Reference ρ} {skip_checkcsrs : CSR → Bool} {d : Difftest ρ} {cpu : CpuState}
variable {ok : Difftest ρ × List CsrCtx → Event → Prop}

theorem checkregs_of_nil (hq : d.csr_ctx_q = []) (ref_r : DiffContext) (pc : Word) :
    d.checkregs skip_checkcsrs cpu ref_r pc =
      if d.checkNpc pc && checkGprs cpu ref_r then { d with diff_npc := ref_r.pc }
      else { d with diff_npc := ref_r.pc, npc_state := .NPC_ABORT, halt_pc := pc } := by
  simp [checkregs, difftestCheckregs, hq]

theorem advance_frame (R : Reference ρ) (d : Difftest ρ) (cpu : CpuState) (pc : Word) :
    (d.advance R cpu pc).csr_ctx_q = d.csr_ctx_q ∧
    (d.advance R cpu pc).diff_npc = d.diff_npc ∧
      (d.advance R cpu pc).npc_state = d.npc_state := by
  rw [advance]
  split <;> exact ⟨rfl, rfl, rfl⟩

theorem difftestStep_of_nil (hq : d.csr_ctx_q = []) (hs : d.skipped cpu = false) (pc : Word) :
    (d.difftestStep R skip_checkcsrs cpu pc).csr_ctx_q = [] ∧
      (d.difftestStep R skip_checkcsrs cpu pc).npc_state =
        if d.checkNpc pc && checkGprs cpu (R.toDut (d.advance R cpu pc).ref) then d.npc_state
        else .NPC_ABORT := by
  obtain ⟨hq', hnpc, hstate⟩ := advance_frame R d cpu pc
  have hcheck : (d.advance R cpu pc).checkNpc pc = d.checkNpc pc := by simp [checkNpc, hnpc]
  rw [difftestStep, hs, if_neg Bool.false_ne_true]
  dsimp only
  rw [checkregs_of_nil (hq'.trans hq), hcheck]
  split
  · exact ⟨hq'.trans hq, hstate⟩
  · exact ⟨hq'.trans hq, rfl⟩

theorem csr_ctx_q_nil {p : Difftest ρ × List CsrCtx} (h : (watched R skip_checkcsrs).Reaches ok p) :
    p.1.csr_ctx_q = [] := by
  refine h.monitor_invariant (P := fun d _ => d.csr_ctx_q = []) (fun d hd => ?_)
    fun d g i ih _ => ?_
  · obtain ⟨cpu, ref, rfl⟩ := hd
    rfl
  · cases i with
    | update_csr | diff_skip | diff_raise_intr | npc_state => exact ih
    | difftest_step cpu =>
      cases hs : d.skipped cpu
      case true =>
        change (d.difftestStep R skip_checkcsrs cpu cpu.pc_done).csr_ctx_q = []
        rw [difftestStep, hs, if_pos rfl]
        exact ih
      case false => exact (difftestStep_of_nil ih hs cpu.pc_done).1

theorem detects_iff {p : Difftest ρ × List CsrCtx} (h : (watched R skip_checkcsrs).Reaches ok p)
    (cpu : CpuState) : Detects R skip_checkcsrs p.1 p.2 cpu ↔
      (p.1.npc_state = .NPC_RUNNING → p.1.skipped cpu = false → Differs R p.1 p.2 cpu →
        Shows R p.1 cpu) := by
  refine forall_congr' fun hr => forall_congr' fun hs => forall_congr' fun _ => ?_
  rw [(difftestStep_of_nil (csr_ctx_q_nil h) hs cpu.pc_done).2, hr, Shows]
  cases p.1.checkNpc cpu.pc_done <;>
    cases checkGprs cpu (R.toDut (p.1.advance R cpu cpu.pc_done).ref) <;> simp

theorem contexts_checked_iff {p : Difftest ρ × List CsrCtx}
    (h : (watched R skip_checkcsrs).Reaches ok p) (cpu : CpuState) :
    Checks R skip_checkcsrs p.1 p.2 cpu ↔ Unrecorded p.1 p.2 cpu := by
  have hcompared : compared p.1 cpu = [] := by
    rw [compared, csr_ctx_q_nil h]
    split <;> rfl
  constructor
  · intro hc hs
    have hfound := hc.compares hs
    rw [hcompared] at hfound
    exact Option.toList_eq_nil_iff.1 hfound.symm
  · intro hn
    refine ⟨fun hs => by rw [hcompared, hn hs]; rfl, (detects_iff h cpu).2 fun _ hs hd => ?_⟩
    obtain ⟨r, hr, -⟩ := hd
    rw [hn hs] at hr
    cases hr

end Step

section Runs

/-- A reference whose first instruction is a csrrw that writes 0x100 to mtvec. -/
def writesMtvec : Reference DiffContext where
  exec c := { c with pc := c.pc + 4, csrs := Function.update c.csrs .mtvec 0x100 }
  raiseIntr _ c := c
  toDut c := c
  toRef c _ := c

/-- The chip after its first instruction, with `x1` in that register and mtvec not written. -/
def cpuAfter (x1 : Word) : CpuState where
  pc_exe := 0x10000004
  pc_done := 0x10000000
  gpr i := if i = 1 then x1 else 0
  csrs _ := 0
  flushForIntr := false

def afterCsrrw (x1 : Word) : List Event :=
  [.npc_state .NPC_RUNNING, .update_csr 0x10000000 (cpuAfter x1)]

def beforeCsrrw : Difftest DiffContext × List CsrCtx :=
  (initDifftest writesMtvec { cpuAfter 0 with pc_done := 0 } ⟨fun _ => 0, 0, fun _ => 0⟩, [])

theorem reaches_afterCsrrw (x1 : Word) :
    (watched writesMtvec fun _ => false).Reaches (fun _ _ => True)
      ((watched writesMtvec fun _ => false).run beforeCsrrw (afterCsrrw x1)) :=
  Machine.reaches_run _ _ beforeCsrrw (afterCsrrw x1) ⟨⟨_, _, rfl⟩, rfl⟩
    ⟨trivial, trivial, trivial⟩

/-- Before the csrrw has recorded its context the step of an instruction checks all there is,
and after it none does. -/
theorem contexts_checked_iff_csrrw :
    Checks writesMtvec (fun _ => false) beforeCsrrw.1 beforeCsrrw.2 (cpuAfter 1) ∧
      let p := (watched writesMtvec fun _ => false).run beforeCsrrw (afterCsrrw 1)
      ¬Checks writesMtvec (fun _ => false) p.1 p.2 (cpuAfter 1) := by
  have hstart : (watched writesMtvec fun _ => false).Reaches (fun _ _ => True) beforeCsrrw :=
    .reset ⟨⟨_, _, rfl⟩, rfl⟩
  refine ⟨(contexts_checked_iff hstart _).2 fun _ => rfl, fun hc => ?_⟩
  have hnone := (contexts_checked_iff (reaches_afterCsrrw 1) _).1 hc (by decide +kernel)
  simp [beforeCsrrw, afterCsrrw, watched, Machine.monitor, Machine.run, recorded, csrCtx,
    cpuAfter] at hnone

theorem csr_difference_passes :
    let p := (watched writesMtvec fun _ => false).run beforeCsrrw (afterCsrrw 0)
    p.1.npc_state = .NPC_RUNNING ∧ p.1.skipped (cpuAfter 0) = false ∧
      Differs writesMtvec p.1 p.2 (cpuAfter 0) ∧
      (p.1.difftestStep writesMtvec (fun _ => false) (cpuAfter 0) 0x10000000).npc_state =
        .NPC_RUNNING ∧
      ¬∀ (R : Reference DiffContext) (skip_checkcsrs : CSR → Bool) p,
        (watched R skip_checkcsrs).Reaches (fun _ _ => True) p → ∀ cpu,
          Checks R skip_checkcsrs p.1 p.2 cpu := by
  have hdiffers : Differs writesMtvec
      ((watched writesMtvec fun _ => false).run beforeCsrrw (afterCsrrw 0)).1
      ((watched writesMtvec fun _ => false).run beforeCsrrw (afterCsrrw 0)).2 (cpuAfter 0) :=
    ⟨csrCtx (cpuAfter 0) 0x10000000, rfl, .mtvec, trivial, by decide +kernel⟩
  refine ⟨rfl, by decide +kernel, hdiffers, by decide +kernel, fun h => ?_⟩
  have habort := (h writesMtvec (fun _ => false) _ (reaches_afterCsrrw 0) (cpuAfter 0)).detects
    rfl (by decide +kernel) hdiffers
  have hruns : (((watched writesMtvec fun _ => false).run beforeCsrrw
      (afterCsrrw 0)).1.difftestStep writesMtvec (fun _ => false) (cpuAfter 0)
        0x10000000).npc_state = .NPC_RUNNING := by decide +kernel
  exact absurd (habort.symm.trans hruns) (by decide)

end Runs

end Difftest

end FpgaNpc.Simulator
