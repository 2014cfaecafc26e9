import FpgaNpc.Simulator.Difftest

open FpgaNpc.Hardware FpgaNpc.InterStage FpgaNpc.Core

universe u

namespace FpgaNpc

namespace MEM

section DiffSkip

variable (s : Regs) (io : Inputs)

def addrRangesToSkip : Bool :=
  (0x20000000 ≤ vaddr s && vaddr s < 0x21ffffff) ||
    (0x40000000 ≤ vaddr s && vaddr s < 0x43ffffff)

def skipEnable : Bool := addrRangesToSkip s && ((ren s || wen s) && reqFire s io) && !nop s

/-- Whether `diff_skip` is called at the clock edge, with the pc of the instruction. -/
def diffSkip : Bool := skipEnable s io || (s.fromEXE.isWFI && !nop s)

end DiffSkip

section Facts

variable {s : Regs} {io : Inputs} {fromEXEValid : Bool}

theorem access_of_reqFire (hs : Engaged s) (h : reqFire s io = true) : access s = true := by
  by_contra ha
  by_cases hst : s.state = .IDLE
  · simp [reqFire, req, hst, ha] at h
  · exact ha (hs hst)

theorem nextState_ne_idle (h : s.state ≠ .IDLE) (hwb : toWBFire s io = false) :
    nextState s io fromEXEValid ≠ .IDLE := by
  intro hidle
  cases hst : s.state <;>
    simp_all [nextState, toWBFire, toWBValid, rRespFire, wRespFire, rRespReady, wRespReady]
  all_goals split at hidle <;> cases hidle

theorem nextState_of_reqFire (hs : Engaged s) (h : reqFire s io = true) :
    nextState s io fromEXEValid ≠ .IDLE := by
  have ha := access_of_reqFire hs h
  cases hst : s.state
  case IDLE =>
    simp only [nextState, hst, ha, h, Bool.and_true, if_true]
    split <;> decide
  case AMO_LAUNCH_WRITE_REQ => simp [nextState, hst, h]
  all_goals simp [reqFire, req, hst] at h

end Facts

end MEM

namespace Simulator

def popSkip (pc_done : Word) (pcs_to_skip : List Word) : List Word :=
  if pcs_to_skip.head? = some pc_done then pcs_to_skip.tail else pcs_to_skip

section Calls

variable {ρ : Type u} (R : Reference ρ) (skip_checkcsrs : CSR → Bool) (d : Difftest ρ)
  (cpu : CpuState)

theorem Difftest.pcs_to_skip_advance (pc : Word) :
    (d.advance R cpu pc).pcs_to_skip = d.pcs_to_skip := by
  rw [advance]
  split <;> rfl

theorem Difftest.pcs_to_skip_difftestCheckregs (ref_r : DiffContext) (pc : Word) :
    (d.difftestCheckregs skip_checkcsrs cpu ref_r pc).1.pcs_to_skip = d.pcs_to_skip := by
  simp only [difftestCheckregs]
  split
  · rfl
  · split <;> rfl

theorem Difftest.pcs_to_skip_checkregs (ref_r : DiffContext) (pc : Word) :
    (d.checkregs skip_checkcsrs cpu ref_r pc).pcs_to_skip = d.pcs_to_skip := by
  simp only [checkregs]
  split <;> exact d.pcs_to_skip_difftestCheckregs skip_checkcsrs cpu ref_r pc

theorem Difftest.pcs_to_skip_next (e : Event) :
    ((machine R skip_checkcsrs).next d e).pcs_to_skip =
      match e with
      | .diff_skip skip_pc => d.pcs_to_skip ++ [skip_pc]
      | .difftest_step cpu => popSkip cpu.pc_done d.pcs_to_skip
      | .update_csr _ _ | .diff_raise_intr _ _ | .npc_state _ => d.pcs_to_skip := by
  cases e with
  | update_csr | diff_skip | diff_raise_intr | npc_state => rfl
  | difftest_step cpu =>
    change (d.difftestStep R skip_checkcsrs cpu cpu.pc_done).pcs_to_skip = _
    by_cases hs : d.pcs_to_skip.head? = some cpu.pc_done
    · simp [difftestStep, skipped, popSkip, hs]
    · have hskipped : d.skipped cpu = false := beq_eq_false_iff_ne.2 hs
      simp only [difftestStep, hskipped, Bool.false_eq_true, if_false, popSkip, if_neg hs]
      rw [pcs_to_skip_checkregs, pcs_to_skip_advance]

end Calls

/-- What the simulator meets in a cycle: what the rest of the chip drives, and whether the
`npc_state` that `exec_once` then returns with is running. -/
structure Cycle where
  io : Inputs
  running : Bool

structure Dut where
  core : Regs
  debug : WB.Debug
  pcs_to_skip : List Word

/-- The call of `diff_skip` comes at the clock edge, that of `difftest_step` after it. -/
def dut (B : Build) : Machine Dut Cycle where
  IsReset s := IsReset B s.core ∧ s.debug = .reset ∧ s.pcs_to_skip = []
  next s c :=
    let debug := nextDebug true s.core c.io s.debug
    let pcs_to_skip := s.pcs_to_skip ++
      if MEM.diffSkip s.core.memStage c.io.dbus then [s.core.memStage.fromEXE.pc] else []
    { core := next B s.core c.io
      debug := debug
      pcs_to_skip :=
        if debug.done && c.running then popSkip debug.pc_done pcs_to_skip else pcs_to_skip }

/-- The instructions to be skipped, WFIs and those that access the addresses of the ranges: whether
those in MEM and WB are, the pcs of those that left WB without a step, of those that WB has
latched, and of all that was pushed. -/
structure Skips where
  mem : Bool
  wb : Bool
  missed : List Word
  commits : List Word
  pushed : List Word

section Spec

variable (B : Build) (s : Regs) (io : Inputs) (g : Skips)

/-- The instruction in MEM is a WFI, or a request is accepted that it makes for an address of the
ranges. -/
def marks : Bool :=
  !s.memStage.fromEXE.nop && (s.memStage.fromEXE.isWFI ||
    (MEM.reqFire s.memStage io.dbus && MEM.addrRangesToSkip s.memStage))

def marked : Bool := g.mem || marks s io

def held (mem : Bool) : List Word :=
  if mem && !s.memStage.hasFired then [s.memStage.fromEXE.pc] else []

def heldWB : List Word := if g.wb then [s.fromMEM.pc] else []

def waiting : List Word := g.missed ++ heldWB s g ++ held s g.mem

def steps (c : Cycle) : Bool := toWBFire s c.io && WBReportable true s.fromMEM && c.running

def Skips.observe (c : Cycle) : Skips where
  mem := !toMEMFire B s c.io && marked s c.io g
  wb := if toWBFire s c.io then marked s c.io g && !s.memStage.hasFired else g.wb
  missed := g.missed ++ if toWBFire s c.io && !steps s c then heldWB s g else []
  commits := g.commits ++ if toWBFire s c.io then held s (marked s c.io g) else []
  pushed := g.pushed ++
    if MEM.diffSkip s.memStage c.io.dbus then [s.memStage.fromEXE.pc] else []

end Spec

def skipping (B : Build) : Machine (Dut × Skips) Cycle :=
  (dut B).monitor ⟨false, false, [], [], []⟩ fun s c g => g.observe B s.core c

/-- What was pushed is an entry for each instruction to be skipped, and those are queued that have
not been stepped. -/
structure Queued (s : Dut) (g : Skips) : Prop where
  pushed : g.pushed = g.commits ++ held s.core g.mem
  queue : s.pcs_to_skip = waiting s.core g

/-- No AMO writes to an address of the ranges. Those before the instruction that is stepped have
been stepped, as far as they have other pcs, and if it is not to be skipped, the first that is has
another pc. -/
structure Meets (s : Regs) (g : Skips) (c : Cycle) : Prop where
  once : s.memStage.state = .AMO_LAUNCH_WRITE_REQ → MEM.reqFire s.memStage c.io.dbus = true →
    MEM.addrRangesToSkip s.memStage = false
  first : steps s c = true → g.wb = true → ∀ pc ∈ g.missed, pc = s.fromMEM.pc
  other : steps s c = true → g.wb = false →
    (g.missed ++ held s (marked s c.io g)).head? ≠ some s.fromMEM.pc

instance (s : Regs) (g : Skips) (c : Cycle) : Decidable (Meets s g c) :=
  decidable_of_iff ((s.memStage.state = .AMO_LAUNCH_WRITE_REQ →
      MEM.reqFire s.memStage c.io.dbus = true → MEM.addrRangesToSkip s.memStage = false) ∧
    (steps s c = true → g.wb = true → g.missed.all (· == s.fromMEM.pc) = true) ∧
    (steps s c = true → g.wb = false →
      (g.missed ++ held s (marked s c.io g)).head? ≠ some s.fromMEM.pc))
    ⟨fun ⟨ho, hf, hn⟩ => ⟨ho, fun hs hw => by simpa using hf hs hw, hn⟩,
      fun ⟨ho, hf, hn⟩ => ⟨ho, fun hs hw => by simpa using hf hs hw, hn⟩⟩

section Wfi

theorem wfi_row (d : Decoder) {inst : Word} (h : Instructions.WFI.Matches inst) :
    (d.ctrlWord inst).decodeBundle.memRead = 0#4 ∧
      (d.ctrlWord inst).decodeBundle.memWrite = 0#4 := by
  obtain ⟨p, hp, hmask, hvalue, hr, hw⟩ : ∃ p ∈ ControlLogic.table,
      p.1.mask = Instructions.WFI.mask ∧ p.1.value = Instructions.WFI.value ∧
        p.2.memRead = ControlSignals.MemRead.N ∧ p.2.memWrite = ControlSignals.MemWrite.N := by
    decide +kernel
  have ha := d.row inst p hp (by rwa [BitPat.Matches, hmask, hvalue])
  exact ⟨ha.memRead _ hr, ha.memWrite _ hw⟩

end Wfi

structure Stationed (s : Regs) (g : Skips) : Prop where
  settled : Settled s
  wfiInEXE : s.exeStage.fromID.nop = false → s.exeStage.fromID.isWFI = true →
    s.exeStage.fromID.decodeBundle.memRead = 0#4 ∧ s.exeStage.fromID.decodeBundle.memWrite = 0#4
  wfiInMEM : s.memStage.fromEXE.nop = false → s.memStage.fromEXE.isWFI = true →
    MEM.access s.memStage = false
  /-- An instruction that is to be skipped and has not been passed on keeps MEM busy. -/
  busy : g.mem = true → s.memStage.hasFired = false → s.memStage.state ≠ .IDLE
  alive : g.mem = true → s.memStage.fromEXE.nop = false
  aliveWB : g.wb = true → s.fromMEM.nop = false

section Step

variable {B : Build} {s : Regs} {g : Skips} {c : Cycle} {io : Inputs}

theorem access_of_fromEXE {m m' : MEM.Regs} (h : m'.fromEXE = m.fromEXE) :
    MEM.access m' = MEM.access m := by
  simp [MEM.access, MEM.ren, MEM.wen, MEM.align, MEM.vaddr, MEM.byteWise, MEM.controlSignals, h]

theorem Stationed.idle_of_wfi (h : Stationed s g) (hn : s.memStage.fromEXE.nop = false)
    (hw : s.memStage.fromEXE.isWFI = true) : s.memStage.state = .IDLE := by
  by_contra hst
  have ha := h.settled.engaged hst
  rw [h.wfiInMEM hn hw] at ha
  cases ha

theorem Stationed.toWBFire_of_wfi (h : Stationed s g) (hn : s.memStage.fromEXE.nop = false)
    (hw : s.memStage.fromEXE.isWFI = true) : toWBFire s io = true := by
  have hidle := h.idle_of_wfi hn hw
  have hacc := h.wfiInMEM hn hw
  simp [toWBFire, MEM.toWBFire, MEM.toWBValid, hidle, hacc]

theorem Stationed.mem_of_call (h : Stationed s g) (hok : Meets s g c)
    (hcall : MEM.diffSkip s.memStage c.io.dbus = true) : g.mem = false := by
  simp only [MEM.diffSkip, MEM.skipEnable, MEM.nop, Bool.or_eq_true, Bool.and_eq_true,
    Bool.not_eq_true', Bool.or_eq_false_iff] at hcall
  by_contra hmem
  rw [Bool.not_eq_false] at hmem
  rcases hcall with ⟨⟨hrange, -, hreq⟩, -, hfired⟩ | ⟨hw, hn, hfired⟩
  · have hst := h.busy hmem hfired
    have hwrite : s.memStage.state = .AMO_LAUNCH_WRITE_REQ := by
      cases hst' : s.memStage.state <;> simp_all [MEM.reqFire, MEM.req]
    rw [hok.once hwrite hreq] at hrange
    cases hrange
  · exact h.busy hmem hfired (h.idle_of_wfi hn hw)

theorem Stationed.diffSkip_eq (h : Stationed s g) (hfired : s.memStage.hasFired = false) :
    MEM.diffSkip s.memStage io.dbus = marks s io := by
  cases hn : s.memStage.fromEXE.nop with
  | true => simp [MEM.diffSkip, MEM.skipEnable, MEM.nop, marks, hn]
  | false =>
    cases hreq : MEM.reqFire s.memStage io.dbus with
    | false => simp [MEM.diffSkip, MEM.skipEnable, MEM.nop, marks, hn, hreq, hfired]
    | true =>
      have hacc := MEM.access_of_reqFire h.settled.engaged hreq
      rw [MEM.access, Bool.and_eq_true] at hacc
      simp [MEM.diffSkip, MEM.skipEnable, MEM.nop, marks, hn, hreq, hfired, hacc.1, Bool.or_comm]

theorem Stationed.held_marked (h : Stationed s g) (hok : Meets s g c) :
    held s (marked s c.io g) = held s g.mem ++
      if MEM.diffSkip s.memStage c.io.dbus then [s.memStage.fromEXE.pc] else [] := by
  cases hfired : s.memStage.hasFired with
  | true =>
    have hcall : MEM.diffSkip s.memStage c.io.dbus = false := by
      simp [MEM.diffSkip, MEM.skipEnable, MEM.nop, hfired]
    simp [held, hfired, hcall]
  | false =>
    have hcall : MEM.diffSkip s.memStage c.io.dbus = marks s c.io := h.diffSkip_eq hfired
    cases hmarks : marks s c.io with
    | false => simp [held, marked, hfired, hcall, hmarks]
    | true =>
      have hmem := h.mem_of_call hok (hcall.trans hmarks)
      simp [held, marked, hfired, hcall, hmarks, hmem]

theorem marks_alive (h : marks s io = true) : s.memStage.fromEXE.nop = false := by
  simp only [marks, Bool.and_eq_true, Bool.not_eq_true'] at h
  exact h.1

theorem Stationed.marked_alive (h : Stationed s g) (hm : marked s io g = true) :
    s.memStage.fromEXE.nop = false := by
  rw [marked, Bool.or_eq_true] at hm
  exact hm.elim h.alive marks_alive

theorem Stationed.nextState_of_marked (h : Stationed s g) (hm : marked s io g = true)
    (hfired : s.memStage.hasFired = false) (hwb : toWBFire s io = false) (valid : Bool) :
    MEM.nextState s.memStage io.dbus valid ≠ .IDLE := by
  rw [marked, Bool.or_eq_true] at hm
  rcases hm with hm | hm
  · exact MEM.nextState_ne_idle (h.busy hm hfired) hwb
  · have hn := marks_alive hm
    simp only [marks, Bool.and_eq_true, Bool.or_eq_true] at hm
    rcases hm.2 with hw | ⟨hreq, -⟩
    · rw [h.toWBFire_of_wfi hn hw] at hwb
      cases hwb
    · exact MEM.nextState_of_reqFire h.settled.engaged hreq

theorem Stationed.wfi_next (h : Stationed s g) (io : Inputs)
    (hn : (next B s io).exeStage.fromID.nop = false)
    (hw : (next B s io).exeStage.fromID.isWFI = true) :
    (next B s io).exeStage.fromID.decodeBundle.memRead = 0#4 ∧
      (next B s io).exeStage.fromID.decodeBundle.memWrite = 0#4 := by
  rw [next_fromID] at hn hw ⊢
  cases hfire : toMEMFire B s io with
  | false =>
    simp only [hfire, Bool.false_eq_true, if_false] at hn hw ⊢
    exact h.wfiInEXE hn hw
  | true =>
    simp only [hfire, if_true] at hn hw ⊢
    have hbundle : (toEXE B s io).decodeBundle =
        (B.decoder.ctrlWord s.idStage.fromIF.inst).decodeBundle := ID.decodeBundle_of_alive hn
    rw [hbundle]
    exact wfi_row B.decoder (of_decide_eq_true hw)

theorem Stationed.access_next (h : Stationed s g) (io : Inputs)
    (hn : (next B s io).memStage.fromEXE.nop = false)
    (hw : (next B s io).memStage.fromEXE.isWFI = true) :
    MEM.access (next B s io).memStage = false := by
  have hfrom := next_fromEXE B s io
  cases hfire : toMEMFire B s io with
  | false =>
    rw [hfire, if_neg Bool.false_ne_true] at hfrom
    rw [hfrom] at hn hw
    rw [access_of_fromEXE hfrom]
    exact h.wfiInMEM hn hw
  | true =>
    rw [hfire, if_pos rfl] at hfrom
    rw [hfrom] at hn hw
    have halive : s.exeStage.fromID.nop = false := by
      rw [toMEM_nop h.settled.exeFired, Bool.or_eq_false_iff] at hn
      exact hn.1
    obtain ⟨hr, hwr⟩ := h.wfiInEXE halive hw
    simp [MEM.access, MEM.ren, MEM.wen, MEM.controlSignals, hfrom, toMEM, EXE.toMEM,
      EXE.controlSignals, hr, hwr, orR]

theorem Stationed.next (h : Stationed s g) (B : Build) (c : Cycle) :
    Stationed (next B s c.io) (g.observe B s c) where
  settled := h.settled.next B c.io
  wfiInEXE := h.wfi_next c.io
  wfiInMEM := h.access_next c.io
  busy hm hf := by
    simp only [Skips.observe, Bool.and_eq_true, Bool.not_eq_true'] at hm
    obtain ⟨hfire, hm⟩ := hm
    rw [next_memStage_hasFired, hfire, Bool.not_false, Bool.true_and, Bool.or_eq_false_iff] at hf
    exact h.nextState_of_marked hm hf.1 hf.2 _
  alive hm := by
    simp only [Skips.observe, Bool.and_eq_true, Bool.not_eq_true'] at hm
    rw [next_fromEXE, hm.1, if_neg Bool.false_ne_true]
    exact h.marked_alive hm.2
  aliveWB hm := by
    rw [next_fromMEM]
    cases hfire : toWBFire s c.io with
    | false =>
      simp only [Skips.observe, hfire, Bool.false_eq_true, if_false] at hm ⊢
      exact h.aliveWB hm
    | true =>
      simp only [Skips.observe, hfire, if_true, Bool.and_eq_true, Bool.not_eq_true'] at hm ⊢
      change (s.memStage.fromEXE.nop || s.memStage.hasFired) = false
      rw [h.marked_alive hm.1, hm.2]
      rfl

end Step

section Queue

variable {B : Build} {s : Dut} {g : Skips} {c : Cycle} {l r : List Word} {pc : Word}

theorem popSkip_of_first (h : ∀ x ∈ l, x = pc) : popSkip pc (l ++ pc :: r) = l ++ r := by
  cases l with
  | nil => simp [popSkip]
  | cons x l =>
    obtain rfl := h x (by simp)
    have hl : l = List.replicate l.length x :=
      List.eq_replicate_iff.2 ⟨rfl, fun y hy => h y (by simp [hy])⟩
    have hswap : l ++ x :: r = x :: l ++ r := by
      rw [hl, ← List.singleton_append (l := r), ← List.append_assoc, ← List.replicate_succ',
        List.replicate_succ]
    simp [popSkip, hswap]

theorem popSkip_of_other (h : l.head? ≠ some pc) : popSkip pc l = l := if_neg h

theorem held_next (B : Build) (s : Regs) (c : Cycle) (g : Skips) :
    held (next B s c.io) (g.observe B s c).mem =
      if toWBFire s c.io then [] else held s (marked s c.io g) := by
  have hfrom := next_fromEXE B s c.io
  rw [held, next_memStage_hasFired]
  cases hfire : toMEMFire B s c.io with
  | true => simp [Skips.observe, hfire, toWBFire_of_toMEMFire hfire]
  | false =>
    rw [hfire, if_neg Bool.false_ne_true] at hfrom
    cases hwb : toWBFire s c.io <;> simp [Skips.observe, hfire, hfrom, held]

theorem heldWB_next (B : Build) (s : Regs) (c : Cycle) (g : Skips) :
    heldWB (next B s c.io) (g.observe B s c) =
      if toWBFire s c.io then held s (marked s c.io g) else heldWB s g := by
  rw [heldWB, next_fromMEM]
  cases hfire : toWBFire s c.io with
  | true =>
    have hpc : (toWB s c.io).pc = s.memStage.fromEXE.pc := rfl
    simp [Skips.observe, hfire, held, hpc]
  | false => simp [Skips.observe, hfire, heldWB]

theorem next_pcs_to_skip (B : Build) (s : Dut) (c : Cycle) :
    ((dut B).next s c).pcs_to_skip =
      if steps s.core c then popSkip s.core.fromMEM.pc (s.pcs_to_skip ++
          if MEM.diffSkip s.core.memStage c.io.dbus then [s.core.memStage.fromEXE.pc] else [])
      else s.pcs_to_skip ++
        if MEM.diffSkip s.core.memStage c.io.dbus then [s.core.memStage.fromEXE.pc] else [] := by
  cases hfire : toWBFire s.core c.io with
  | false => simp [dut, nextDebug, WB.nextDebug, steps, hfire]
  | true => simp [dut, nextDebug, WB.nextDebug, steps, hfire, WBReportable, reportable]

theorem Queued.next (h : Queued s g) (hs : Stationed s.core g) (hok : Meets s.core g c) :
    Queued ((dut B).next s c) (g.observe B s.core c) := by
  have hcore : ((dut B).next s c).core = Core.next B s.core c.io := rfl
  have hheld := hs.held_marked hok
  constructor
  · have hpushed : (g.observe B s.core c).pushed =
        g.commits ++ held s.core (marked s.core c.io g) := by
      rw [hheld, ← List.append_assoc, ← h.pushed]
      rfl
    rw [hpushed, hcore, held_next, Skips.observe]
    cases toWBFire s.core c.io <;> simp
  · have hqueue : s.pcs_to_skip ++
        (if MEM.diffSkip s.core.memStage c.io.dbus then [s.core.memStage.fromEXE.pc] else []) =
        g.missed ++ (heldWB s.core g ++ held s.core (marked s.core c.io g)) := by
      rw [hheld, h.queue, waiting]
      simp only [List.append_assoc]
    have hwaiting : waiting (Core.next B s.core c.io) (g.observe B s.core c) = g.missed ++
        ((if steps s.core c then [] else heldWB s.core g) ++
          held s.core (marked s.core c.io g)) := by
      rw [waiting, held_next, heldWB_next, Skips.observe]
      cases hfire : toWBFire s.core c.io with
      | false => simp [steps, hfire]
      | true => cases steps s.core c <;> simp
    rw [next_pcs_to_skip, hqueue, hcore, hwaiting]
    cases hsteps : steps s.core c with
    | false => rfl
    | true =>
      cases hwb : g.wb with
      | true =>
        have hfirst := hok.first hsteps hwb
        simpa [heldWB, hwb] using popSkip_of_first hfirst
      | false =>
        have hother := hok.other hsteps hwb
        simpa [heldWB, hwb] using popSkip_of_other hother

theorem stationed_reset {s : Regs} (h : IsReset B s) :
    Stationed s ⟨false, false, [], [], []⟩ := by
  obtain ⟨_, _, hexe⟩ := h.exeStage
  have hmem := h.memStage
  refine ⟨h.settled, ?_, ?_, ?_, ?_, ?_⟩ <;>
    simp [hexe, hmem, MEM.reset, IdExeBus.zero, ExeMemBus.zero]

theorem queue_in_order {p : Dut × Skips}
    (h : (skipping B).Reaches (fun p c => Meets p.1.core p.2 c) p) : Queued p.1 p.2 := by
  have hinv : Stationed p.1.core p.2 ∧ Queued p.1 p.2 := by
    refine h.monitor_invariant (P := fun s g => Stationed s.core g ∧ Queued s g) ?_ ?_
    · rintro s ⟨hreset, -, hqueue⟩
      exact ⟨stationed_reset hreset, ⟨rfl, hqueue⟩⟩
    · rintro s g c ⟨hs, hq⟩ hok
      exact ⟨hs.next B c, hq.next hs hok⟩
  exact hinv.2

end Queue

section Runs

def served (read write : Bool) (inst : Word) : Cycle where
  io := { Inputs.fetch inst with dbus := ⟨true, ⟨read, ⟨0⟩⟩, ⟨write, ⟨false⟩⟩⟩ }
  running := true

def started (x : Word) : Dut × Skips := (⟨.reset .zeros x, .reset, []⟩, ⟨false, false, [], [], []⟩)

/-- lw x2, 0(x1); wfi, with the address in every register. -/
def loadThenWfi : List Cycle :=
  [⟨.request, true⟩, ⟨.fetch 0x13, true⟩, ⟨.fetch 0x0000a103, true⟩, served false false 0x10500073,
    served false false 0x13, served false false 0x13, served true false 0x13,
    served false false 0x13, served false false 0x13, served false false 0x13]

theorem queue_in_order_loadThenWfi :
    let p := (skipping .zeros).run (started 0x20000000) loadThenWfi
    p.2.commits = [0x10000000, 0x10000004] ∧ p.1.pcs_to_skip = [] ∧ Queued p.1 p.2 := by
  have hr := (skipping .zeros).reaches_run (fun p c => Meets p.1.core p.2 c) (started 0x20000000)
    loadThenWfi ⟨⟨isReset_reset _ _, rfl, rfl⟩, rfl⟩ (by decide +kernel)
  exact ⟨by decide +kernel, by decide +kernel, queue_in_order hr⟩

/-- amoadd.w x2, x1, (x1) -/
def amoAdd : List Cycle :=
  [⟨.request, true⟩, ⟨.fetch 0x13, true⟩, ⟨.fetch 0x0010a12f, true⟩, served false false 0x13,
    served false false 0x13, served false false 0x13, served true false 0x13,
    served false false 0x13, served false false 0x13, served false true 0x13,
    served false false 0x13, served false false 0x13]

theorem amo_queued_twice :
    let p := (skipping .zeros).run (started 0x20000000) amoAdd
    p.2.commits = [0x10000000] ∧ p.2.pushed = [0x10000000, 0x10000000] ∧
      waiting p.1.core p.2 = [] ∧ p.1.pcs_to_skip = [0x10000000] ∧
      ¬∀ B p, (skipping B).Reaches (fun _ _ => True) p → Queued p.1 p.2 := by
  have hcommits : ((skipping .zeros).run (started 0x20000000) amoAdd).2.commits =
      [0x10000000] := by decide +kernel
  have hpushed : ((skipping .zeros).run (started 0x20000000) amoAdd).2.pushed =
      [0x10000000, 0x10000000] := by decide +kernel
  have hwaiting : waiting ((skipping .zeros).run (started 0x20000000) amoAdd).1.core
      ((skipping .zeros).run (started 0x20000000) amoAdd).2 = [] := by decide +kernel
  have hqueue : ((skipping .zeros).run (started 0x20000000) amoAdd).1.pcs_to_skip =
      [0x10000000] := by decide +kernel
  refine ⟨hcommits, hpushed, hwaiting, hqueue, fun h => ?_⟩
  have hreach := Machine.reaches_run (skipping .zeros) (fun _ _ => True) (started 0x20000000)
    amoAdd ⟨⟨isReset_reset _ _, rfl, rfl⟩, rfl⟩ (by decide)
  have hright := (h .zeros _ hreach).queue
  rw [hqueue, hwaiting] at hright
  cases hright

end Runs

end Simulator

end FpgaNpc
