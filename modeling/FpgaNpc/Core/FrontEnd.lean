import FpgaNpc.Core.Effects
import FpgaNpc.Core.Fetch
import FpgaNpc.Core.Follow

open FpgaNpc.Hardware FpgaNpc.InterStage FpgaNpc.ControlSignals FpgaNpc.Riscv

namespace FpgaNpc

namespace IF

/-- The port as the stage finds it, which does not see whether it is ready when it asks for
nothing. -/
def asking (s : Regs) (io : Inputs) : Inputs := { io with arReady := arFire s io.toInstPort }

variable {config : RVConfig} {s : Regs} {io : Inputs} {g : Port}

theorem arFire_asking : arFire s (asking s io).toInstPort = arFire s io.toInstPort := by
  simp [asking, arFire]

theorem reqValid_asking : reqValid s (asking s io).toInstPort = reqValid s io.toInstPort := by
  rw [reqValid, reqValid, arFire_asking]

theorem toIDValid_asking :
    toIDValid config s (asking s io).toInstPort = toIDValid config s io.toInstPort := by
  rw [toIDValid, toIDValid, reqValid_asking]
  rfl

theorem toIDFire_asking : toIDFire config s (asking s io) = toIDFire config s io := by
  rw [toIDFire, toIDFire, toIDValid_asking]
  rfl

theorem next_asking : next config s (asking s io) = next config s io := by
  rw [next, next, toIDFire_asking, arFire_asking]
  rfl

theorem observe_asking : g.observe config s (asking s io) = g.observe config s io := by
  simp only [Port.observe, toIDFire_asking, arFire_asking, excepCMDReady, jumpBusReady,
    toIDValid_asking]
  rfl

end IF

namespace Core

variable (B : Build) (prog : Word → Word) (s : Regs) (io : Inputs) (g : IF.Port) (pc : Word)

/-- What comes to EXE out of reset is no instruction of the program, and does nothing. -/
structure ResetWord (b : IdExeBus) : Prop extends EXE.Harmless b where
  pc : b.pc = 0
  redirect : EXE.redirect b = false
  regWrite : b.decodeBundle.regWrite = false
  memRead : b.decodeBundle.memRead = 0
  memWrite : b.decodeBundle.memWrite = 0

/-- The instruction port fetches the program, and the predictor keeps to its answer. What IF hands
over at `PC_INIT` has come, and a load that was predicted to be taken does not leave EXE while ID
waits for what it loads. -/
structure Fetches : Prop where
  accepts : IF.arFire s.ifStage io.port = true →
    g.pending = none ∨ IF.rFire s.ifStage io.port = true
  word : io.port.r.valid = true → ∃ a ∈ g.pending, io.port.r.bits.rdata = prog a
  pred : ∀ p ∈ g.pred,
    (io.branchPredResp.branchPred, io.branchPredResp.branchPredTarget) = p
  boot : g.handed = 0 → io.branchPredResp.branchPred = false
  first : g.handed = 1 → io.port.r.valid = false ∧
    ((ifInputs B s io).toIDReady = true → IF.reqValid s.ifStage io.port = true)
  again : 2 ≤ g.handed → s.ifStage.PC = B.config.PC_INIT → (ifInputs B s io).toIDReady = true →
    IF.instValid s.ifStage io.port = true ∧ IF.reqValid s.ifStage io.port = true
  load : toMEMFire B s io = true → s.exeStage.fromID.branchPred = true →
    (loadInst s.exeStage.fromID.inst).isSome → toIDFire B s io = true

instance : Decidable (Fetches B prog s io g) :=
  decidable_of_iff
    ((IF.arFire s.ifStage io.port = true →
        g.pending = none ∨ IF.rFire s.ifStage io.port = true) ∧
      (io.port.r.valid = true → g.pending.any fun a => io.port.r.bits.rdata = prog a) ∧
      (g.pred.all fun p =>
        (io.branchPredResp.branchPred, io.branchPredResp.branchPredTarget) = p) ∧
      (g.handed = 0 → io.branchPredResp.branchPred = false) ∧
      (g.handed = 1 → io.port.r.valid = false ∧
        ((ifInputs B s io).toIDReady = true → IF.reqValid s.ifStage io.port = true)) ∧
      (2 ≤ g.handed → s.ifStage.PC = B.config.PC_INIT → (ifInputs B s io).toIDReady = true →
        IF.instValid s.ifStage io.port = true ∧ IF.reqValid s.ifStage io.port = true) ∧
      (toMEMFire B s io = true → s.exeStage.fromID.branchPred = true →
        (loadInst s.exeStage.fromID.inst).isSome → toIDFire B s io = true))
    (by simp only [Option.all_eq_true, Option.any_eq_true, decide_eq_true_eq]
        exact ⟨fun ⟨ha, hw, hp, hb, hf, hg, hl⟩ => ⟨ha, hw, hp, hb, hf, hg, hl⟩,
          fun ⟨ha, hw, hp, hb, hf, hg, hl⟩ => ⟨ha, hw, hp, hb, hf, hg, hl⟩⟩)

/-- The instruction is one that the ISA executes without a trap and that EXE steers right. -/
structure Executable (b : IdExeBus) : Prop where
  aligned : b.pc.toNat % 4 = 0
  base : (baseInst b.inst).isSome
  even : ∀ t ∈ transfer b.inst, t.target b.inst b.pc b.rs1Data = t.sum b.inst b.pc b.rs1Data
  boot : EXE.isaNextPc b ≠ B.config.PC_INIT - 4

def jumps (b : IdExeBus) : Bool := EXE.redirect b || b.decodeBundle.fencei || EXE.isCSR b

def Held : Prop := s.ifStage.instGetted = true ∧ s.ifStage.reqFired = true ∨
  s.ifStage.PC = B.config.PC_INIT

structure Booting : Prop where
  id : s.idStage.fromIF = .zero
  exe : s.exeStage.fromID.nop = false → ResetWord s.exeStage.fromID
  fresh : s.idStage.hasFired = false → s.exeStage.fromID = .zero ∧ s.memStage = MEM.reset ∧
    s.ifStage.instGetted = false ∧ g.pending = none

/-- IF, ID and EXE hold words of the program, the next of them at `pc`. -/
structure FrontInv : Prop where
  fetch : IF.Phase B.config s.ifStage g
  latched : ∀ q ∈ g.latched, q.2 = prog q.1
  excepHeld : g.excepHeld = none
  raised : ∀ t ∈ g.raised, s.exeStage.fromID.nop = false ∧ jumps s.exeStage.fromID = true ∧
    EXE.jumpTarget s.exeStage.fromID = t
  asked : s.exeStage.fromID.nop = false → jumps s.exeStage.fromID = true →
    s.ifStage.reqFired = true → g.raised = some (EXE.jumpTarget s.exeStage.fromID)
  jumpFired : s.exeStage.jumpBusFired = true → s.exeStage.fromID.nop = false ∧
    jumps s.exeStage.fromID = true ∧ Held B s
  booting : g.handed = 0 → pc = B.config.PC_INIT ∧ Booting s g
  id : g.handed ≠ 0 → IDAlive s →
    s.idStage.fromIF.ComesFrom prog ∧ s.ifStage.PC = idPredicted s
  exe : g.handed ≠ 0 → s.exeStage.fromID.nop = false →
    s.exeStage.fromID.ComesFrom B.decoder prog ∧
      (EXE.predicted s.exeStage.fromID ≠ B.config.PC_INIT - 4 →
        FrontAt s (EXE.predicted s.exeStage.fromID))
  stream : g.handed ≠ 0 → pc ≠ B.config.PC_INIT - 4 ∧ StreamAt s pc

variable {B prog s io g pc}

section Calm

variable (hd : diverts s io = false) (hf : s.exeStage.hasFired = false)
include hd

theorem interrupt_of_calm : interrupt s io = false := by
  by_contra hi
  have hvalid := (interrupt_spec (Bool.not_eq_false _ ▸ hi)).2.1
  rw [(not_diverts hd).1] at hvalid
  exact Bool.false_ne_true hvalid

theorem kill_of_calm : kill s io = false := by
  rw [kill, (not_diverts hd).2, interrupt_of_calm hd, Bool.or_false]

include hf

theorem toMEM_nop_of_calm : (toMEM B s io).nop = s.exeStage.fromID.nop := by
  rw [toMEM_nop hf, kill_of_calm hd, Bool.or_false]

theorem exe_nop_of_calm :
    EXE.nop s.exeStage (exeInputs B s io) = s.exeStage.fromID.nop :=
  toMEM_nop_of_calm (B := B) hd hf

theorem jumpBusValid_of_calm : EXE.jumpBusValid s.exeStage (exeInputs B s io) =
    (jumps s.exeStage.fromID && !s.exeStage.fromID.nop) := by
  rw [EXE.jumpBusValid, exe_nop_of_calm hd hf, jumps]

theorem flush_of_calm : flush B s io =
    ((jumps s.exeStage.fromID || orR s.exeStage.fromID.excepVec) && !s.exeStage.fromID.nop) := by
  have hint : (exeInputs B s io).interrupt = false := interrupt_of_calm hd
  have hmem : (exeInputs B s io).flushFromMEM = false := (not_diverts hd).2
  rw [flush, (not_diverts hd).1, EXE.flush, jumpBusValid_of_calm hd hf, exe_nop_of_calm hd hf,
    hint, hmem, jumps]
  cases s.exeStage.fromID.nop <;> cases EXE.redirect s.exeStage.fromID <;>
    cases EXE.isCSR s.exeStage.fromID <;> simp

end Calm

section Held

theorem Held.toIDValid (h : Held B s) (port : IF.InstPort) :
    IF.toIDValid B.config s.ifStage port = true := by
  rcases h with ⟨hg, hr⟩ | hpc
  · simp [IF.toIDValid, IF.instValid, IF.reqValid, hg, hr]
  · simp [IF.toIDValid, hpc]

theorem Held.next (hv : IF.toIDValid B.config s.ifStage io.port = true)
    (hfire : toIDFire B s io = false) : Held B (next B s io) := by
  have hnext : (Core.next B s io).ifStage = _ :=
    IF.next_of_wait hfire
  rw [Held, hnext]
  simp only [IF.toIDValid, Bool.or_eq_true, Bool.and_eq_true, beq_iff_eq] at hv
  exact hv.imp (fun h => ⟨h.1, h.2⟩) id

end Held

section Port

theorem FrontInv.PC_booting (h : FrontInv B prog s g pc) (h0 : g.handed = 0) :
    s.ifStage.PC = B.config.PC_INIT - 4 := by
  cases h.fetch with
  | boot _ hpc => exact hpc
  | bootAsked _ hpc => exact hpc
  | bootGot _ hpc => exact hpc
  | first hh => omega
  | firstAsked _ hh => omega
  | waiting _ hh => omega
  | got hh => omega
  | ahead _ hh => omega

variable (h : FrontInv B prog s g pc) (hd : diverts s io = false)
  (hf : s.exeStage.hasFired = false)
include h hd hf

theorem FrontInv.jumpBus {t : Word} (ht : t ∈ g.raised) :
    EXE.jumpBus s.exeStage (exeInputs B s io) = ⟨true, ⟨t⟩⟩ := by
  obtain ⟨ha, hj, rfl⟩ := h.raised t ht
  rw [EXE.jumpBus, jumpBusValid_of_calm hd hf, hj, ha]
  rfl

theorem FrontInv.kept (hi : Fetches B prog s io g) :
    g.Kept s.ifStage (IF.asking s.ifStage (ifInputs B s io)) where
  accepts := hi.accepts
  answers hr := by
    obtain ⟨a, ha, -⟩ := hi.word hr
    exact Option.isSome_iff_exists.2 ⟨a, ha⟩
  excep t ht := by
    rw [h.excepHeld] at ht
    cases ht
  flush hv := absurd ((not_diverts hd).1.symm.trans hv) Bool.false_ne_true
  jump t ht _ := .inl (h.jumpBus hd hf ht)
  raise hv hr := by
    have hv : EXE.jumpBusValid s.exeStage (exeInputs B s io) = true := hv
    rw [jumpBusValid_of_calm hd hf, Bool.and_eq_true, Bool.not_eq_true'] at hv
    exact h.asked hv.2 hv.1 hr
  pred := hi.pred

theorem FrontInv.npc_booting (hi : Fetches B prog s io g) (h0 : g.handed = 0) :
    IF.npc s.ifStage (ifInputs B s io) = B.config.PC_INIT := by
  obtain ⟨-, hb⟩ := h.booting h0
  have hjump : EXE.jumpBusValid s.exeStage (exeInputs B s io) = false := by
    rw [jumpBusValid_of_calm hd hf]
    cases hn : s.exeStage.fromID.nop
    case true => rw [Bool.not_true, Bool.and_false]
    case false =>
      have hw := hb.exe hn
      have hcsr : EXE.isCSR s.exeStage.fromID = false := by
        rcases hw.fuType with hu | hu | hu <;> simp [EXE.isCSR, hu]
      rw [jumps, hw.redirect, hw.fencei, hcsr]
      rfl
  have hpred : (ifInputs B s io).branchPredResp.branchPred = false := hi.boot h0
  have hexcep : (ifInputs B s io).excepCMD.valid = false := (not_diverts hd).1
  have hbus : (ifInputs B s io).jumpBus.valid = false := hjump
  rw [IF.npc_eq, hexcep, hbus, hpred, h.PC_booting h0]
  simp

theorem FrontInv.wordArrived (hi : Fetches B prog s io g) :
    IF.WordArrived B.config s.ifStage (IF.asking s.ifStage (ifInputs B s io)) g where
  boot h0 := h.npc_booting hd hf hi h0
  first h1 := by
    rw [IF.reqValid_asking]
    exact hi.first h1
  again := by
    rw [IF.reqValid_asking]
    exact hi.again
  jump _ ht _ _ := .inl (h.jumpBus hd hf ht)

end Port

section Leaving

variable (h : FrontInv B prog s g pc)
  (hx : g.handed ≠ 0 → Executable B s.exeStage.fromID)
include h hx

theorem FrontInv.harmless (ha : s.exeStage.fromID.nop = false) :
    EXE.Harmless s.exeStage.fromID := by
  by_cases h0 : g.handed = 0
  case pos => exact ((h.booting h0).2.exe ha).toHarmless
  case neg =>
    obtain ⟨i, hi⟩ := Option.isSome_iff_exists.1 (hx h0).base
    exact EXE.harmless_of_baseInst (h.exe h0 ha).1 (hx h0).aligned hi

theorem FrontInv.jumps_eq (ha : s.exeStage.fromID.nop = false) :
    jumps s.exeStage.fromID = EXE.redirect s.exeStage.fromID := by
  have hw := h.harmless hx ha
  have hcsr : EXE.isCSR s.exeStage.fromID = false := by
    rcases hw.fuType with hu | hu | hu <;> simp [EXE.isCSR, hu]
  rw [jumps, hw.fencei, hcsr, Bool.or_false, Bool.or_false]

theorem FrontInv.no_stall (hi : Fetches B prog s io g) (hfire : toMEMFire B s io = true)
    (ha : s.exeStage.fromID.nop = false) (hr : EXE.redirect s.exeStage.fromID = true) :
    ID.stall (idInputs B s io) = false := by
  by_contra hst
  rw [Bool.not_eq_false] at hst
  obtain ⟨hval, rs, -, hmatch⟩ := stall_spec (toWBFire_of_toMEMFire hfire) hst
  have h0 : g.handed ≠ 0 := fun h0 =>
    absurd (((h.booting h0).2.exe ha).redirect.symm.trans hr) Bool.false_ne_true
  obtain ⟨i, hbase⟩ := Option.isSome_iff_exists.1 (hx h0).base
  have hcomes := (h.exe h0 ha).1
  obtain ⟨p, hp, hm⟩ := inTable_of_baseInst hbase
  have hadmits := B.decoder.row _ p hp hm
  obtain ⟨hfu, hreg, -⟩ :=
    ControlLogic.table_baseInst p hp i (ControlLogic.baseInst_of_matches hp hm ▸ hbase)
  have hfuType : s.exeStage.fromID.decodeBundle.fuType = i.fuType := by
    rw [hcomes.bundle, hadmits.fuType _ hfu]
  have hwrite : i.regWrite = true := by
    simp only [BypassNetwork.matched, EXE.bypass, Bool.and_eq_true] at hmatch
    rw [← hadmits.regWrite _ hreg, ← hcomes.bundle]
    exact hmatch.2.1
  cases i with
  | int | transfer => simp [EXE.bypass, hfuType, BaseInst.fuType] at hval
  | store => simp [BaseInst.regWrite] at hwrite
  | load i =>
    have hpred : s.exeStage.fromID.branchPred = true := by
      have hbru : EXE.isBRU s.exeStage.fromID = false := by
        rw [EXE.isBRU, hfuType]
        rfl
      simpa [EXE.redirect, EXE.jump, hbru] using hr
    have hid := hi.load hfire hpred (by rw [baseInst_load hbase]; rfl)
    rw [(toIDFire_spec hid).2] at hst
    exact Bool.false_ne_true hst

theorem FrontInv.toIDFire_of_redirect (hi : Fetches B prog s io g)
    (hfire : toMEMFire B s io = true) (ha : s.exeStage.fromID.nop = false)
    (hnop : EXE.nop s.exeStage (exeInputs B s io) = false)
    (hr : EXE.redirect s.exeStage.fromID = true) : toIDFire B s io = true := by
  have hst := h.no_stall hx hi hfire ha hr
  have hexe : EXE.fromIDReady s.exeStage (exeInputs B s io) = true :=
    (toEXEFire_eq B s io).trans hfire
  have hbus : EXE.jumpBusValid s.exeStage (exeInputs B s io) = true := by
    simp [EXE.jumpBusValid, hr, hnop]
  have hvalid : IF.toIDValid B.config s.ifStage io.port = true := by
    simp only [toMEMFire, EXE.toMEMFire, EXE.toMEMValid, EXE.jumpValid, EXE.jumpBusFire, hbus,
      Bool.and_eq_true, Bool.or_eq_true, Bool.not_true, Bool.false_eq_true, or_false,
      true_and] at hfire
    rcases hfire.1.1 with hready | hfired
    · exact hready
    · exact (h.jumpFired hfired).2.2.toIDValid io.port
  rw [toIDFire, ID.fromIFFire, ID.fromIFReady, hst]
  simp [idInputs, hvalid, hexe]

end Leaving

section Boot

theorem resetWord_zero : ResetWord .zero where
  fuType := .inl rfl
  fencei := rfl
  csrWrite := rfl
  mret := rfl
  excepVec := rfl
  pc := rfl
  redirect := by decide
  regWrite := rfl
  memRead := rfl
  memWrite := rfl

theorem resetWord_toEXE (hid : s.idStage.fromIF = .zero) (ha : (toEXE B s io).nop = false) :
    ResetWord (toEXE B s io) := by
  obtain ⟨p, hp, hmatch, hfu, hf, hc, hw, hr, hm⟩ : ∃ p ∈ ControlLogic.table, p.1.Matches 0 ∧
      p.2.fuType = some FuType.ALU ∧ p.2.fencei = some false ∧ p.2.csrWrite = some false ∧
        p.2.regWrite = some false ∧ p.2.memRead = some 0#4 ∧ p.2.memWrite = some 0#4 := by
    decide +kernel
  have hadmits := B.decoder.row 0 p hp hmatch
  have hcomes : s.idStage.fromIF.ComesFrom fun _ => 0 := by
    rw [hid]
    exact ⟨rfl, by decide⟩
  have hexe : (toEXE B s io).ComesFrom B.decoder fun _ => 0 := hcomes.toEXE ha
  have hpc : (toEXE B s io).pc = 0 := congrArg IfIdBus.pc hid
  have hbundle : (toEXE B s io).decodeBundle = (B.decoder.ctrlWord 0).decodeBundle := by
    rw [hexe.bundle, hexe.inst]
  have hop : opcode (toEXE B s io).inst ≠ 0b1110011 := by
    rw [hexe.inst]
    decide
  have hfuType : (toEXE B s io).decodeBundle.fuType = FuType.ALU := by
    rw [hbundle, hadmits.fuType _ hfu]
  have hpred : (toEXE B s io).branchPred = false := congrArg IfIdBus.branchPred hid
  constructor
  case toHarmless =>
    refine ⟨.inl hfuType, ?_, ?_, hexe.mret hop, hexe.excepVec (by rw [hpc]; decide) ?_ hop⟩
    · rw [hbundle, hadmits.fencei _ hf]
    · rw [hbundle, hadmits.csrWrite _ hc]
    · rw [hexe.inst]
      exact ⟨p, hp, hmatch⟩
  case pc => exact hpc
  case redirect =>
    have hbru : EXE.isBRU (toEXE B s io) = false := by
      rw [EXE.isBRU, hfuType]
      rfl
    rw [EXE.redirect, EXE.jump, hbru, hpred]
    rfl
  case regWrite => rw [hbundle, hadmits.regWrite _ hw]
  case memRead => rw [hbundle, hadmits.memRead _ hr]; rfl
  case memWrite => rw [hbundle, hadmits.memWrite _ hm]; rfl

theorem ResetWord.jumps {b : IdExeBus} (h : ResetWord b) : Core.jumps b = false := by
  have hcsr : EXE.isCSR b = false := by
    rcases h.fuType with hu | hu | hu <;> simp [EXE.isCSR, hu]
  rw [Core.jumps, h.redirect, h.fencei, hcsr]
  rfl

end Boot

section Step

variable (h : FrontInv B prog s g pc) (hd : diverts s io = false)
  (hf : s.exeStage.hasFired = false) (hi : Fetches B prog s io g)
include h hd hf hi

theorem FrontInv.fetch_next : IF.Phase B.config (next B s io).ifStage
    (g.observe B.config s.ifStage (ifInputs B s io)) := by
  have hnext := h.fetch.next (h.kept hd hf hi) (h.wordArrived hd hf hi)
  rwa [IF.next_asking, IF.observe_asking] at hnext

omit hd hf in
theorem FrontInv.latched_next : ∀ q ∈ (g.observe B.config s.ifStage (ifInputs B s io)).latched,
    q.2 = prog q.1 := by
  intro q hq
  simp only [IF.Port.observe] at hq
  split at hq
  case isTrue hr =>
    have hv : io.port.r.valid = true := by
      simp only [IF.rFire, Bool.and_eq_true] at hr
      exact hr.1
    obtain ⟨a, ha, hword⟩ := hi.word hv
    rw [Option.mem_def.1 ha] at hq
    obtain rfl := Option.mem_some.1 hq
    exact hword
  case isFalse => exact h.latched q hq

omit h hf hi in
theorem excepHeld_next :
    (g.observe B.config s.ifStage (ifInputs B s io)).excepHeld = none := by
  have hexcep : (ifInputs B s io).excepCMD.valid = false := (not_diverts hd).1
  simp [IF.Port.observe, hexcep]

theorem FrontInv.raised_next
    (hx : toMEMFire B s io = true → s.exeStage.fromID.nop = false → g.handed ≠ 0 →
      Executable B s.exeStage.fromID) :
    ∀ t ∈ (g.observe B.config s.ifStage (ifInputs B s io)).raised,
      (next B s io).exeStage.fromID.nop = false ∧ jumps (next B s io).exeStage.fromID = true ∧
        EXE.jumpTarget (next B s io).exeStage.fromID = t := by
  intro t ht
  have hbus : (ifInputs B s io).jumpBus =
      ⟨EXE.jumpBusValid s.exeStage (exeInputs B s io), ⟨EXE.jumpTarget s.exeStage.fromID⟩⟩ := rfl
  simp only [IF.Port.observe, toIDFire_eq, hbus, jumpBusValid_of_calm hd hf] at ht
  split at ht
  case isFalse => cases ht
  case isTrue hv =>
    obtain rfl := Option.mem_some.1 ht
    simp only [Bool.and_eq_true, Bool.not_eq_true'] at hv
    obtain ⟨⟨hj, ha⟩, hid⟩ := hv
    have hstay : toMEMFire B s io = false := by
      by_contra hfire
      rw [Bool.not_eq_false] at hfire
      rw [h.jumps_eq (hx hfire ha) ha] at hj
      have hnop := (exe_nop_of_calm (B := B) hd hf).trans ha
      rw [h.toIDFire_of_redirect (hx hfire ha) hi hfire ha hnop hj] at hid
      cases hid
    rw [next_fromID, hstay, if_neg Bool.false_ne_true]
    exact ⟨ha, hj, rfl⟩

omit h hi in
theorem jumpFired_next (hfired : s.exeStage.jumpBusFired = true → s.exeStage.fromID.nop = false ∧
      jumps s.exeStage.fromID = true ∧ Held B s)
    (hn : (next B s io).exeStage.jumpBusFired = true) :
    (next B s io).exeStage.fromID.nop = false ∧ jumps (next B s io).exeStage.fromID = true ∧
      Held B (next B s io) := by
  have hnext : (next B s io).exeStage.jumpBusFired =
      if EXE.jumpBusFire s.exeStage (exeInputs B s io) && !toMEMFire B s io then true
      else RegEnable false (EXE.jumpBusFire s.exeStage (exeInputs B s io))
        s.exeStage.jumpBusFired := rfl
  have hbus : EXE.jumpBusFire s.exeStage (exeInputs B s io) =
      ((jumps s.exeStage.fromID && !s.exeStage.fromID.nop) &&
        IF.toIDValid B.config s.ifStage io.port) := by
    rw [EXE.jumpBusFire, jumpBusValid_of_calm hd hf]
    rfl
  rw [hnext] at hn
  split at hn
  case isTrue hv =>
    rw [hbus] at hv
    simp only [Bool.and_eq_true, Bool.not_eq_true'] at hv
    obtain ⟨⟨⟨hj, ha⟩, hvalid⟩, hstay⟩ := hv
    refine ⟨?_, ?_, .next hvalid (toIDFire_of_stall hstay)⟩ <;>
      rwa [next_fromID, hstay, if_neg Bool.false_ne_true]
  case isFalse =>
    cases hfire : EXE.jumpBusFire s.exeStage (exeInputs B s io)
    case true =>
      rw [hfire] at hn
      exact absurd hn Bool.false_ne_true
    case false =>
      rw [hfire] at hn
      obtain ⟨ha, hj, hheld⟩ := hfired hn
      rw [hbus, hj, ha, hheld.toIDValid] at hfire
      cases hfire

omit hd hf in
theorem FrontInv.toIDValid_of_asked (h0 : g.handed ≠ 0)
    (hreq : (next B s io).ifStage.reqFired = true) (hwait : toIDFire B s io = false) :
    IF.toIDValid B.config s.ifStage io.port = true := by
  have hnext : (next B s io).ifStage = _ :=
    IF.next_of_wait hwait
  have hask : IF.reqValid s.ifStage io.port = true := by
    rw [hnext] at hreq
    exact hreq
  cases h.fetch with
  | boot hh => exact absurd hh h0
  | bootAsked hh => exact absurd hh h0
  | bootGot hh => exact absurd hh h0
  | first _ hpc => simp [IF.toIDValid, hpc]
  | firstAsked _ _ hpc => simp [IF.toIDValid, hpc]
  | waiting a _ hr _ hp =>
    have har : IF.arFire s.ifStage io.port = true := by
      rwa [IF.reqValid, hr, Bool.or_false] at hask
    rcases hi.accepts har with hn | hrf
    · rw [hp] at hn
      cases hn
    · simp [IF.toIDValid, IF.instValid, hrf, hask]
  | got _ _ hg => simp [IF.toIDValid, IF.instValid, hg, hask]
  | ahead _ _ _ hg => simp [IF.toIDValid, IF.instValid, hg, hask]

theorem FrontInv.asked_next (ha : (next B s io).exeStage.fromID.nop = false)
    (hj : jumps (next B s io).exeStage.fromID = true)
    (hreq : (next B s io).ifStage.reqFired = true) :
    (g.observe B.config s.ifStage (ifInputs B s io)).raised =
      some (EXE.jumpTarget (next B s io).exeStage.fromID) := by
  have hbus : (ifInputs B s io).jumpBus =
      ⟨EXE.jumpBusValid s.exeStage (exeInputs B s io), ⟨EXE.jumpTarget s.exeStage.fromID⟩⟩ := rfl
  have hwait : toIDFire B s io = false := by
    by_contra hid
    have hnext : (next B s io).ifStage = _ :=
      IF.next_of_fire (Bool.not_eq_false _ ▸ hid)
    rw [hnext] at hreq
    cases hreq
  rw [next_fromID] at ha hj ⊢
  cases hfire : toMEMFire B s io
  case false =>
    simp only [hfire, Bool.false_eq_true, if_false] at ha hj ⊢
    simp [IF.Port.observe, toIDFire_eq, hbus, jumpBusValid_of_calm hd hf, hj, ha, hwait]
  case true =>
    simp only [hfire, if_true] at ha hj ⊢
    obtain ⟨-, hst, -, -⟩ := toEXE_alive ha
    have h0 : g.handed ≠ 0 := fun h0 =>
      absurd ((resetWord_toEXE (h.booting h0).2.id ha).jumps.symm.trans hj) Bool.false_ne_true
    have hvalid := h.toIDValid_of_asked hi h0 hreq hwait
    have hexe : EXE.fromIDReady s.exeStage (exeInputs B s io) = true :=
      (toEXEFire_eq B s io).trans hfire
    rw [toIDFire, ID.fromIFFire, ID.fromIFReady, hst] at hwait
    simp [idInputs, hvalid, hexe] at hwait

omit hd hf in
theorem FrontInv.waits_fresh (h0 : g.handed = 0) (hfresh : s.idStage.hasFired = false) :
    toIDFire B s io = false := by
  obtain ⟨-, -, hget, hpend⟩ := (h.booting h0).2.fresh hfresh
  have hvalid : io.port.r.valid = false := by
    by_contra hv
    obtain ⟨a, ha, -⟩ := hi.word (Bool.not_eq_false _ ▸ hv)
    rw [hpend] at ha
    cases ha
  have hpc : s.ifStage.PC ≠ B.config.PC_INIT := by
    rw [h.PC_booting h0]
    bv_omega
  simp [toIDFire, ID.fromIFFire, idInputs, IF.toIDValid, IF.instValid, IF.rFire, IF.rReady, hget,
    hvalid, hpc]

theorem FrontInv.id_next (h0 : (g.observe B.config s.ifStage (ifInputs B s io)).handed ≠ 0)
    (ha : IDAlive (next B s io)) : (next B s io).idStage.fromIF.ComesFrom prog ∧
      (next B s io).ifStage.PC = idPredicted (next B s io) := by
  rw [idPredicted, next_ifStage_PC]
  rw [IDAlive] at ha
  rw [next_idStage] at ha ⊢
  cases hfire : toIDFire B s io
  case true =>
    simp only [hfire, if_true] at ha ⊢
    have hflush : flush B s io = false := by
      have hn := ha.1
      simp only [toID, IF.toID, ifInputs, Bool.or_eq_false_iff] at hn
      exact hn.2
    have hsource := h.fetch.handsFetched (h.kept hd hf hi) (h.wordArrived hd hf hi)
      (IF.toIDFire_asking.trans hfire) ha.1
    exact ⟨⟨h.latched_next hi _ hsource, rfl⟩, npc_of_no_flush hflush⟩
  case false =>
    simp only [hfire, Bool.false_eq_true, if_false, Bool.not_false, Bool.true_and,
      Bool.or_eq_false_iff] at ha ⊢
    have hhanded : g.handed ≠ 0 := by
      simpa [IF.Port.observe, toIDFire_eq, hfire] using h0
    exact h.id hhanded ⟨ha.1, ha.2.1⟩

omit hd hf in
theorem FrontInv.exe_next (h0 : (g.observe B.config s.ifStage (ifInputs B s io)).handed ≠ 0)
    (ha : (next B s io).exeStage.fromID.nop = false) :
    (next B s io).exeStage.fromID.ComesFrom B.decoder prog ∧
      (EXE.predicted (next B s io).exeStage.fromID ≠ B.config.PC_INIT - 4 →
        FrontAt (next B s io) (EXE.predicted (next B s io).exeStage.fromID)) := by
  rw [next_fromID] at ha ⊢
  cases hfire : toMEMFire B s io
  case false =>
    simp only [hfire, Bool.false_eq_true, if_false] at ha ⊢
    have hhanded : g.handed ≠ 0 := by
      simpa [IF.Port.observe, toIDFire_eq, toIDFire_of_stall hfire] using h0
    obtain ⟨hcomes, hfront⟩ := h.exe hhanded ha
    exact ⟨hcomes, fun hne => (hfront hne).stay hfire⟩
  case true =>
    simp only [hfire, if_true] at ha ⊢
    obtain ⟨hnop, hst, hfired, hflush⟩ := toEXE_alive ha
    have hhanded : g.handed ≠ 0 := by
      intro hz
      simp [IF.Port.observe, toIDFire_eq, h.waits_fresh hi hz hfired, hz] at h0
    obtain ⟨hcomes, hpc⟩ := h.id hhanded ⟨hnop, hfired⟩
    refine ⟨hcomes.toEXE ha, fun hne => ?_⟩
    have hpc : s.ifStage.PC = EXE.predicted (toEXE B s io) := hpc
    cases hid : toIDFire B s io
    case true => exact .of_fire hid hflush hpc hne
    case false =>
      have hdead : ¬IDAlive (Core.next B s io) := by
        rw [IDAlive, next_idStage, hid]
        simp [toEXEFire_eq, hfire, hst]
      refine ⟨fun hd => absurd hd hdead, fun _ => ?_⟩
      rw [next_ifStage_PC, hid]
      exact hpc

theorem FrontInv.stream_of_leaving (h0 : g.handed ≠ 0) (hfire : toMEMFire B s io = true)
    (ha : s.exeStage.fromID.nop = false) (hx : Executable B s.exeStage.fromID) :
    StreamAt (next B s io) (EXE.isaNextPc s.exeStage.fromID) := by
  obtain ⟨i, hbase⟩ := Option.isSome_iff_exists.1 hx.base
  obtain ⟨hcomes, hfront⟩ := h.exe h0 ha
  have htarget := (EXE.steers_of_comesFrom hcomes hbase).jumpTarget_eq hx.even
  have hw := h.harmless (fun _ => hx) ha
  rw [← htarget]
  cases hr : EXE.redirect s.exeStage.fromID
  case true =>
    have hnop := (exe_nop_of_calm (B := B) hd hf).trans ha
    have hid := h.toIDFire_of_redirect (fun _ => hx) hi hfire ha hnop hr
    have hflush : flush B s io = true := by
      rw [flush_of_calm hd hf, h.jumps_eq (fun _ => hx) ha, hr, ha]
      rfl
    have hnpc : IF.npc s.ifStage (ifInputs B s io) = EXE.jumpTarget s.exeStage.fromID := by
      have hvalid : EXE.jumpBusValid s.exeStage (exeInputs B s io) = true := by
        simp [EXE.jumpBusValid, hr, hnop]
      simp [IF.npc, PriorityMux, ifInputs, (not_diverts hd).1, EXE.jumpBus, hvalid]
    refine ⟨fun hn => ?_, fun _ => ⟨fun hn => ?_, fun _ => ?_⟩⟩
    · rw [next_fromID, hfire, if_pos rfl, toEXE_nop_of_flush hflush] at hn
      cases hn
    · rw [IDAlive, next_idStage, hid, if_pos rfl, toID_nop_of_flush hflush] at hn
      cases hn.1
    · rw [next_ifStage_PC, hid, if_pos rfl, hnpc]
  case false =>
    have hflush : flush B s io = false := by
      rw [flush_of_calm hd hf, h.jumps_eq (fun _ => hx) ha, hr, hw.excepVec]
      rfl
    have hne : EXE.predicted s.exeStage.fromID ≠ B.config.PC_INIT - 4 := by
      rw [EXE.predicted_of_no_redirect hr, htarget]
      exact hx.boot
    have hadvance := (hfront hne).advance hne hflush hfire
    rwa [EXE.predicted_of_no_redirect hr] at hadvance

theorem FrontInv.stream_of_booting (h0 : g.handed = 0) (hfire : toIDFire B s io = true) :
    StreamAt (next B s io) B.config.PC_INIT := by
  have hfired : s.idStage.hasFired = true := by
    by_contra hn
    rw [h.waits_fresh hi h0 (Bool.not_eq_true _ ▸ hn)] at hfire
    cases hfire
  have hmem := (toIDFire_spec hfire).1
  have hexe : (next B s io).exeStage.fromID.nop = true := by
    rw [next_fromID, hmem, if_pos rfl]
    simp [toEXE, ID.toEXE, ID.nop, hfired]
  have hdead : ¬IDAlive (next B s io) := by
    rw [IDAlive, next_idStage, hfire]
    simp [toID, IF.toID, h.PC_booting h0]
  refine ⟨fun hn => absurd (hexe.symm.trans hn) (by decide),
    fun _ => ⟨fun hn => absurd hn hdead, fun _ => ?_⟩⟩
  rw [next_ifStage_PC, hfire, if_pos rfl, h.npc_booting hd hf hi h0]

omit hd hf hi in
theorem FrontInv.booting_next (h0 : (g.observe B.config s.ifStage (ifInputs B s io)).handed = 0) :
    Booting (next B s io) (g.observe B.config s.ifStage (ifInputs B s io)) := by
  have hwait : toIDFire B s io = false := by
    by_contra hid
    rw [Bool.not_eq_false] at hid
    simp [IF.Port.observe, toIDFire_eq, hid] at h0
  have hhanded : g.handed = 0 := by simpa [IF.Port.observe, toIDFire_eq, hwait] using h0
  obtain ⟨-, hb⟩ := h.booting hhanded
  constructor
  case id => rw [next_idStage, hwait, if_neg Bool.false_ne_true, hb.id]
  case exe =>
    rw [next_fromID]
    cases toMEMFire B s io
    case false => exact hb.exe
    case true => exact resetWord_toEXE hb.id
  case fresh =>
    intro hn
    rw [next_idStage, hwait] at hn
    simp only [Bool.not_false, Bool.true_and, Bool.or_eq_false_iff] at hn
    obtain ⟨hfresh, hgo⟩ := hn
    obtain ⟨hexe, hmem, -, -⟩ := hb.fresh hfresh
    have hready : (exeInputs B s io).toMEMReady = true := by
      change MEM.toWBValid s.memStage io.dbus = true
      rw [hmem]
      rfl
    have hfire : toMEMFire B s io = true := by
      have hjump : EXE.jumpBusValid s.exeStage (exeInputs B s io) = false := by
        have hj : jumps s.exeStage.fromID = false := by rw [hexe]; exact resetWord_zero.jumps
        rw [jumps] at hj
        rw [EXE.jumpBusValid, hj, Bool.false_and]
      have hunit : EXE.mulOrDivEnable s.exeStage (exeInputs B s io) = false := by
        rw [EXE.mulOrDivEnable, hexe]
        rfl
      simp [toMEMFire, EXE.toMEMFire, EXE.toMEMValid, EXE.jumpValid, EXE.mulOrDivValid, hjump,
        hunit, hready]
    have hst : ID.stall (idInputs B s io) = false := by
      by_contra hst
      have hval := (stall_spec (toWBFire_of_toMEMFire hfire) (Bool.not_eq_false _ ▸ hst)).1
      rw [EXE.bypass, hexe] at hval
      cases hval
    rw [toEXEFire_eq, hfire, hst] at hgo
    cases hgo

theorem FrontInv.next_of_stream {pc' : Word}
    (hx : toMEMFire B s io = true → s.exeStage.fromID.nop = false → g.handed ≠ 0 →
      Executable B s.exeStage.fromID) (hpc : g.handed = 0 → pc' = B.config.PC_INIT)
    (hs : (g.observe B.config s.ifStage (ifInputs B s io)).handed ≠ 0 →
      pc' ≠ B.config.PC_INIT - 4 ∧ StreamAt (next B s io) pc') :
    FrontInv B prog (next B s io) (g.observe B.config s.ifStage (ifInputs B s io)) pc' where
  fetch := h.fetch_next hd hf hi
  latched := h.latched_next hi
  excepHeld := excepHeld_next hd
  raised := h.raised_next hd hf hi hx
  asked := h.asked_next hd hf hi
  jumpFired := jumpFired_next hd hf h.jumpFired
  booting h0 := by
    refine ⟨hpc ?_, h.booting_next h0⟩
    by_contra hz
    simp only [IF.Port.observe] at h0
    split at h0 <;> omega
  id := h.id_next hd hf hi
  exe := h.exe_next hi
  stream := hs

theorem FrontInv.next_leaving (h0 : g.handed ≠ 0) (hfire : toMEMFire B s io = true)
    (ha : s.exeStage.fromID.nop = false) (hx : Executable B s.exeStage.fromID) :
    FrontInv B prog (next B s io) (g.observe B.config s.ifStage (ifInputs B s io))
      (EXE.isaNextPc s.exeStage.fromID) :=
  h.next_of_stream hd hf hi (fun _ _ _ => hx) (fun hz => absurd hz h0)
    fun _ => ⟨hx.boot, h.stream_of_leaving hd hf hi h0 hfire ha hx⟩

theorem FrontInv.next_staying (hn : toMEMFire B s io = true → s.exeStage.fromID.nop = false →
      g.handed = 0) :
    FrontInv B prog (next B s io) (g.observe B.config s.ifStage (ifInputs B s io)) pc := by
  refine h.next_of_stream hd hf hi (fun hfire ha h0 => absurd (hn hfire ha) h0)
    (fun h0 => (h.booting h0).1) fun hh => ?_
  by_cases h0 : g.handed = 0
  case pos =>
    have hfire : toIDFire B s io = true := by
      by_contra hw
      simp [IF.Port.observe, toIDFire_eq, hw, h0] at hh
    rw [(h.booting h0).1]
    exact ⟨by bv_omega, h.stream_of_booting hd hf hi h0 hfire⟩
  case neg =>
    obtain ⟨hne, hs⟩ := h.stream h0
    refine ⟨hne, hs.keep hf hne hd ?_⟩
    rw [toMEM_nop_of_calm hd hf]
    cases hfire : toMEMFire B s io
    case false => rfl
    case true =>
      cases ha : s.exeStage.fromID.nop
      case false => exact absurd (hn hfire ha) h0
      case true => rfl

end Step

end Core

end FpgaNpc
