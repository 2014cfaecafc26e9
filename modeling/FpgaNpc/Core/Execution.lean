import FpgaNpc.Core.FrontEnd
import FpgaNpc.Core.Operands
import FpgaNpc.Core.Reports

universe u

open FpgaNpc.Hardware FpgaNpc.InterStage FpgaNpc.ControlSignals FpgaNpc.Riscv

namespace FpgaNpc

namespace CSRRegFile

structure Quiet (s : Regs) : Prop where
  mie : s.mie = 0
  flushQ : s.flushQ = none

variable {s : Regs} {io : Inputs}

theorem Quiet.raiseIntr (h : Quiet s) (i : InterruptSimple) : raiseIntr s i = false := by
  have hvec : intrVec s i = 0 := by
    rw [intrVec, h.mie]
    exact BitVec.zero_and
  rw [CSRRegFile.raiseIntr, hvec]
  rfl

theorem Quiet.redirectValid (h : Quiet s) (i : InterruptSimple) {cmd : ExcepCMD}
    (he : cmd.excepVec = 0#16) (hm : cmd.mret = false) (intrCmdValid : Bool) :
    redirectValid s i cmd intrCmdValid = false := by
  simp [CSRRegFile.redirectValid, FlowQueue.deqValid, h.flushQ, raiseIntrExcep, raiseExcep,
    h.raiseIntr, he, hm, orR]

theorem Quiet.next (h : Quiet s) (he : io.excepCmd.excepVec = 0#16)
    (hm : io.excepCmd.mret = false) (hw : io.writePort.wen = false) : Quiet (next s io) where
  mie := by
    have hmie : (mretStep io s (setMtvalStep io s)).mie = s.mie := by
      rw [mretStep, hm, if_neg Bool.false_ne_true, setMtvalStep]
      split <;> rfl
    have htrap : (trapStep io s (mretStep io s (setMtvalStep io s))).mie = s.mie := by
      rw [trapStep]
      split <;> exact hmie
    change portWrite io CsrConsts.Mie (.allOnes 32) s.mie _ = 0
    rw [portWrite, hw, Bool.false_and, if_neg Bool.false_ne_true, htrap, h.mie]
  flushQ := by
    simp [CSRRegFile.next, h.flushQ, raiseIntrExcep, raiseExcep, h.raiseIntr, he, hm, orR,
      FlowQueue.next]

end CSRRegFile

namespace Core

section Definitions

variable {σ : Type u} (B : Build) (M : LaneMemory σ) (prog : Word → Word) (start : Hart)
  (s : Regs) (io : Inputs)

structure World (σ : Type u) where
  inst : IF.Port
  data : MEM.Port
  asked : Word
  mem : σ
  /-- How many instructions have left EXE, and how many of them MEM has passed on. -/
  issued : Nat
  passed : Nat

def World.idle (m : σ) : World σ := ⟨.idle, .idle, 0, m, 0, 0⟩

variable (g : World σ)

def World.observe : World σ where
  inst := g.inst.observe B.config s.ifStage (ifInputs B s io)
  data := g.data.observe s.memStage io.dbus (EXE.toMEMValid s.exeStage (exeInputs B s io))
  asked := if MEM.reqFire s.memStage io.dbus then (MEM.req s.memStage).bits.addr else g.asked
  mem := if MEM.reqFire s.memStage io.dbus && (MEM.req s.memStage).bits.wr then
      M.write g.mem (wordOf (MEM.req s.memStage).bits.addr) (MEM.req s.memStage).bits.wdata
        (MEM.req s.memStage).bits.wstrb
    else g.mem
  issued := if toMEMFire B s io && MemReportable false (toMEM B s io) then g.issued + 1
    else g.issued
  passed := if toWBFire s io && WBReportable false (toWB s io) then g.passed + 1 else g.passed

def running (R : RegFiles) (m : σ) : Machine (Regs × World σ) Inputs :=
  Machine.monitor { machine B with IsReset := fun s => IsReset B s ∧ s.regFiles = R } (.idle m)
    (World.observe B M)

/-- The instruction port fetches the program, and the data port reads the words of the memory. -/
structure Serves : Prop extends Fetches B prog s io g.inst where
  kept : g.data.Kept io.dbus
  read : io.dbus.rResp.valid = true → io.dbus.rResp.bits.rdata = M.word g.mem (wordOf g.asked)

instance : Decidable (Serves B M prog s io g) :=
  decidable_of_iff (Fetches B prog s io g.inst ∧ g.data.Kept io.dbus ∧
      (io.dbus.rResp.valid = true → io.dbus.rResp.bits.rdata = M.word g.mem (wordOf g.asked)))
    ⟨fun ⟨hf, hk, hr⟩ => ⟨hf, hk, hr⟩, fun ⟨hf, hk, hr⟩ => ⟨hf, hk, hr⟩⟩

/-- The ISA executes the instruction at the pc without a trap, and not one that the core takes
amiss: a JALR to an odd sum, or an instruction at 0 or in front of the first one. -/
structure Suits (h : Hart) : Prop where
  step : (h.step prog).isSome
  even : ∀ t ∈ transfer (h.inst prog), t.target (h.inst prog) h.pc (h.op1 prog) =
    t.sum (h.inst prog) h.pc (h.op1 prog)
  boot : h.nextPc prog ≠ B.config.PC_INIT - 4
  reported : h.nextPc prog ≠ 0

instance (h : Hart) : Decidable (Suits B prog h) :=
  decidable_of_iff ((h.step prog).isSome ∧
      (∀ t ∈ transfer (h.inst prog), t.target (h.inst prog) h.pc (h.op1 prog) =
        t.sum (h.inst prog) h.pc (h.op1 prog)) ∧
      h.nextPc prog ≠ B.config.PC_INIT - 4 ∧ h.nextPc prog ≠ 0)
    ⟨fun ⟨hs, he, hb, hr⟩ => ⟨hs, he, hb, hr⟩, fun ⟨hs, he, hb, hr⟩ => ⟨hs, he, hb, hr⟩⟩

def Suited (n : Nat) : Prop := ∀ k < n, ∀ h ∈ start.run prog k, Suits B prog h

instance (n : Nat) : Decidable (Suited B prog start n) :=
  inferInstanceAs (Decidable (∀ k < n, ∀ h ∈ start.run prog k, _))

def Storing : Prop := s.memStage.fromEXE.nop = false ∧ s.memStage.hasFired = false ∧
  s.memStage.state = .WAIT_RESP ∧ MEM.wen s.memStage = true

instance : Decidable (Storing s) := inferInstanceAs (Decidable (_ ∧ _))

def pending : Bool := !MEM.nop s.memStage && orR s.memStage.fromEXE.pc

/-- The core shows the state of the hart: its registers once WB has written, its memory, which is a
store ahead while the store is answered, and its instruction as the next one to be passed on. No
trap comes up. -/
structure Shows (h : Hart) : Prop where
  regs : ∀ r, (written s).read r = h.regs r
  mem : ¬Storing s → M.bytes g.mem = h.mem
  stored : Storing s → ∀ a ∈ h.step prog, M.bytes g.mem = a.mem
  passes : toWBFire s io = true → WBReportable false (toWB s io) = true →
    (toWB s io).pc = h.pc ∧ (toWB s io).inst = h.inst prog
  calm : diverts s io = false

structure InMEM (h : Hart) (e : Effect) : Prop where
  aligned : e.Aligned
  carries : s.memStage.fromEXE.Carries e
  excepVec : s.memStage.fromEXE.excepVec = 0#16
  mret : s.memStage.fromEXE.mret = false
  reset : s.memStage.fromEXE.pc = 0 → e = .nothing
  asks : pending s = true → h.effect prog = some e ∧ s.memStage.fromEXE.pc = h.pc ∧
    s.memStage.fromEXE.inst = h.inst prog

/-- The hart `h` has executed what MEM has passed on, and `a` what has left EXE. -/
structure ExecInv (h a : Hart) : Prop where
  front : FrontInv B prog s g.inst a.pc
  operands : OperandsInv s g.data
  csr : CSRRegFile.Quiet s.csrRegs
  wb : s.fromMEM.nop = false → s.fromMEM.excepVec = 0#16 ∧ s.fromMEM.mret = false
  mem : s.memStage.fromEXE.nop = false → ∃ e, InMEM prog s h e
  passed : start.run prog g.passed = some h
  issued : start.run prog g.issued = some a
  count : g.issued = if pending s then g.passed + 1 else g.passed
  reported : a.pc ≠ 0
  regs : ∀ r, (written s).read r = h.regs r
  memory : M.bytes g.mem = if Storing s then a.mem else h.mem
  asked : s.memStage.state = .WAIT_RESP → g.asked = MEM.vaddr s.memStage

structure Issues (a : Hart) (e : Effect) : Prop where
  executable : Executable B s.exeStage.fromID
  pc : s.exeStage.fromID.pc = a.pc
  inst : s.exeStage.fromID.inst = a.inst prog
  nextPc : EXE.isaNextPc s.exeStage.fromID = a.nextPc prog
  effect : a.effect prog = some e
  carries : ∀ io, (EXE.toMEM s.exeStage io).Carries e

end Definitions

variable {σ : Type u} {B : Build} {M : LaneMemory σ} {prog : Word → Word} {start h a : Hart}
  {s : Regs} {io : Inputs} {g : World σ} {e : Effect}

section State

theorem ExecInv.ahead (hi : ExecInv B M prog start s g h a) :
    if pending s then h.step prog = some a else a = h := by
  have hissued := hi.issued
  rw [hi.count] at hissued
  cases hp : pending s
  case true =>
    rw [hp, if_pos rfl, Hart.run, hi.passed] at hissued
    exact hissued
  case false =>
    rw [hp, if_neg Bool.false_ne_true, hi.passed] at hissued
    exact (Option.some.inj hissued).symm

theorem ExecInv.csrCmd (hi : ExecInv B M prog start s g h a) :
    (csrCmd s).excepVec = 0#16 ∧ (csrCmd s).mret = false := by
  cases hn : s.fromMEM.nop
  case true => simp [Core.csrCmd, WB.csrCmd, hn]
  case false =>
    obtain ⟨he, hm⟩ := hi.wb hn
    simp [Core.csrCmd, WB.csrCmd, hn, he, hm]

theorem ExecInv.calm (hi : ExecInv B M prog start s g h a) (io : Inputs) :
    diverts s io = false := by
  obtain ⟨he, hm⟩ := hi.csrCmd
  have hvalid : redirectValid s io = false := hi.csr.redirectValid _ he hm _
  rw [diverts, hvalid, Bool.false_or]
  cases hn : s.memStage.fromEXE.nop
  case true => simp [MEM.flush2EXE, MEM.ren, MEM.wen, hn]
  case false =>
    obtain ⟨e, he⟩ := hi.mem hn
    exact MEM.flush2EXE_of_carries he.carries hn he.aligned

theorem pending_spec : pending s = true ↔ s.memStage.fromEXE.nop = false ∧
    s.memStage.hasFired = false ∧ s.memStage.fromEXE.pc ≠ 0 := by
  simp [pending, MEM.nop, orR, and_assoc]

theorem ExecInv.state (hi : ExecInv B M prog start s g h a) : s.memStage.state = .IDLE ∨
    s.memStage.state = .WAIT_RESP ∧ s.memStage.fromEXE.nop = false := by
  by_cases hidle : s.memStage.state = .IDLE
  · exact .inl hidle
  · have haccess := hi.operands.engaged hidle
    have ha := MEM.not_nop_of_access haccess
    refine .inr ⟨?_, ha⟩
    by_contra hwait
    obtain ⟨hren, hwen⟩ := hi.operands.served.amo hidle hwait
    obtain ⟨e, he⟩ := hi.mem ha
    rw [MEM.ren_of_carries he.carries ha] at hren
    rw [MEM.wen_of_carries he.carries ha] at hwen
    cases e <;> simp_all [Effect.reads, Effect.writes]

theorem InMEM.pending (he : InMEM prog s h e) (ha : s.memStage.fromEXE.nop = false)
    (hf : s.memStage.hasFired = false) (hm : (e.reads || e.writes) = true) :
    Core.pending s = true := by
  refine pending_spec.2 ⟨ha, hf, fun hpc => ?_⟩
  rw [he.reset hpc] at hm
  cases hm

theorem ExecInv.not_reqFire (hi : ExecInv B M prog start s g h a) (hfire : toWBFire s io = true) :
    MEM.reqFire s.memStage io.dbus = false := by
  rw [MEM.reqFire, MEM.req]
  rcases hi.state with hidle | ⟨hwait, -⟩
  case inr => simp only [hwait]; rfl
  case inl =>
    simp only [hidle]
    cases hacc : MEM.access s.memStage
    case false => rfl
    case true =>
      have ha := MEM.not_nop_of_access hacc
      obtain ⟨e, he⟩ := hi.mem ha
      have hsc := MEM.isSC_of_carries he.carries
      simp [toWBFire, MEM.toWBFire, MEM.toWBValid, hidle, hacc, hsc] at hfire

end State

section Commit

variable (hi : ExecInv B M prog start s g h a)
include hi

theorem ExecInv.load_data (hs : Serves B M prog s io g) {i : LoadInst} {rd : BitVec 5}
    {addr : Word} (he : InMEM prog s h (.load i rd addr)) (ha : s.memStage.fromEXE.nop = false)
    (hfire : toWBFire s io = true) :
    MEM.regWdata s.memStage io.dbus = i.value (M.bytes g.mem) addr := by
  have hload := MEM.isLoad_of_carries he.carries ha he.aligned
  have hwait : s.memStage.state = .WAIT_RESP := by
    rcases hi.state with hidle | hwait
    case inr => exact hwait.1
    case inl =>
      have hacc := MEM.access_of_carries he.carries ha he.aligned
      simp [toWBFire, MEM.toWBFire, MEM.toWBValid, hidle, hacc, Effect.reads,
        MEM.isSC_of_carries he.carries] at hfire
  have hr : io.dbus.rResp.valid = true := by
    simp only [toWBFire, MEM.toWBFire, MEM.toWBValid, hwait, Bool.or_eq_true] at hfire
    refine hfire.resolve_right fun hw => ?_
    have hout := hi.operands.served.waiting hwait
    rw [hs.kept.write hw, hload.ren] at hout
    cases hout
  have hdata := hs.read hr
  rw [hi.asked hwait] at hdata
  rw [hload.regWdata M g.mem hdata]
  congr 1
  exact he.carries.payload.2.1

omit hi in
theorem InMEM.regWrite (he : InMEM prog s h e) (ha : s.memStage.fromEXE.nop = false) :
    MEM.regWrite s.memStage = e.regWrite := by
  have hw : (MEM.controlSignals s.memStage).regWrite = e.regWrite := he.carries.regWrite
  rw [MEM.regWrite, MEM.ren_of_carries he.carries ha, hw]
  cases e with
  | load i rd addr =>
    rw [MEM.align_of_carries he.carries he.aligned rfl]
    rfl
  | nothing | write | store => rfl

omit hi in
theorem names_iff (rd r : BitVec 5) : true = true ∧ rd = r ∧ r ≠ 0 ↔ r = rd ∧ r ≠ 0 := by
  rw [and_iff_right rfl, eq_comm]

theorem ExecInv.writtenBack_eq (hs : Serves B M prog s io g) (he : InMEM prog s h e)
    (ha : s.memStage.fromEXE.nop = false) (hf : s.memStage.hasFired = false)
    (hfire : toWBFire s io = true) (r : BitVec 5) :
    (writtenBack s io).read r = (h.apply e).regs r := by
  have hwrite : (toWB s io).regWrite = e.regWrite := by
    change (MEM.regWrite s.memStage && !MEM.nop s.memStage) = _
    rw [he.regWrite ha, MEM.nop, ha, hf]
    exact Bool.and_true _
  rw [writtenBack_read, hwrite, hi.regs]
  cases e with
  | nothing | store => rfl
  | write rd value =>
    obtain ⟨hrd, hvalue⟩ := he.carries.payload
    have hren := MEM.ren_of_carries he.carries ha
    have hdata : MEM.regWdata s.memStage io.dbus = value := by
      rw [← hvalue]
      simp [MEM.regWdata, PriorityMux, he.carries.fuTypeAMO, hren, Effect.reads, MEM.controlSignals]
    rw [hdata, hrd]
    exact if_congr (names_iff rd r) rfl rfl
  | load i rd addr =>
    obtain ⟨hrd, -⟩ := he.carries.payload
    have hmem : M.bytes g.mem = h.mem := by
      have hnot : ¬Storing s := fun hst => by
        have hw := hst.2.2.2
        rw [MEM.wen_of_carries he.carries ha] at hw
        cases hw
      rw [hi.memory, if_neg hnot]
    rw [hi.load_data hs he ha hfire, hrd, hmem]
    exact if_congr (names_iff rd r) rfl rfl

theorem ExecInv.regs_passing (hs : Serves B M prog s io g) (hfire : toWBFire s io = true)
    (r : BitVec 5) : (written (next B s io)).read r = a.regs r := by
  have hahead := hi.ahead
  rw [written_next hfire]
  cases hp : Core.pending s
  case true =>
    obtain ⟨ha, hf, -⟩ := pending_spec.1 hp
    obtain ⟨e, he⟩ := hi.mem ha
    rw [hp, if_pos rfl, Hart.step_eq (he.asks hp).1] at hahead
    rw [hi.writtenBack_eq hs he ha hf hfire, ← Option.some.inj hahead]
  case false =>
    rw [hp, if_neg Bool.false_ne_true] at hahead
    have hwrite : (toWB s io).regWrite = false := by
      change (MEM.regWrite s.memStage && !MEM.nop s.memStage) = false
      cases hn : MEM.nop s.memStage
      case true => exact Bool.and_false _
      case false =>
        obtain ⟨ha, hf⟩ := Bool.or_eq_false_iff.1 hn
        obtain ⟨e, he⟩ := hi.mem ha
        have hpc : s.memStage.fromEXE.pc = 0 := by
          by_contra hne
          rw [pending_spec.2 ⟨ha, hf, hne⟩] at hp
          cases hp
        rw [he.regWrite ha, he.reset hpc]
        rfl
    rw [writtenBack_read, hwrite, hi.regs, hahead]
    exact if_neg fun hc => absurd hc.1 Bool.false_ne_true

theorem ExecInv.mem_passing (hfire : toWBFire s io = true) :
    M.bytes (g.observe B M s io).mem = a.mem := by
  have hahead := hi.ahead
  have hmem : (g.observe B M s io).mem = g.mem := by
    rw [World.observe]
    simp only [hi.not_reqFire hfire, Bool.false_and, Bool.false_eq_true, if_false]
  rw [hmem, hi.memory]
  split
  case isTrue => rfl
  case isFalse hst =>
    cases hp : Core.pending s
    case false =>
      rw [hp, if_neg Bool.false_ne_true] at hahead
      rw [hahead]
    case true =>
      obtain ⟨ha, hf, -⟩ := pending_spec.1 hp
      obtain ⟨e, he⟩ := hi.mem ha
      rw [hp, if_pos rfl, Hart.step_eq (he.asks hp).1] at hahead
      rw [← Option.some.inj hahead]
      cases e with
      | nothing | write | load => rfl
      | store w addr data =>
        have hacc := MEM.access_of_carries he.carries ha he.aligned
        have hwen := MEM.wen_of_carries he.carries ha
        rcases hi.state with hidle | hwait
        · simp [toWBFire, MEM.toWBFire, MEM.toWBValid, hidle, hacc, Effect.writes,
            MEM.isSC_of_carries he.carries] at hfire
        · exact absurd ⟨ha, hf, hwait.1, hwen⟩ hst

end Commit

section Issue

theorem ResetWord.carries {s : EXE.Regs} (h : ResetWord s.fromID) (io : EXE.Inputs) :
    (EXE.toMEM s io).Carries .nothing where
  fuTypeAMO := by
    change (s.fromID.decodeBundle.fuType == FuType.AMO) = false
    rcases h.fuType with hu | hu | hu <;> rw [hu] <;> rfl
  memRead := by
    change (orR s.fromID.decodeBundle.memRead && !s.fromID.nop) = false
    rw [h.memRead]
    rfl
  memWrite := by
    change (orR s.fromID.decodeBundle.memWrite && !s.fromID.nop) = false
    rw [h.memWrite]
    rfl
  regWrite := h.regWrite
  payload := trivial

variable (hi : ExecInv B M prog start s g h a)
include hi

theorem ExecInv.scPasses (io : Inputs) : SCPasses B s io := by
  intro _ hacc hsc
  have ha := MEM.not_nop_of_access hacc
  obtain ⟨e, he⟩ := hi.mem ha
  rw [MEM.isSC_of_carries he.carries] at hsc
  cases hsc

theorem ExecInv.issues (hs : Serves B M prog s io g) (hsuits : Suits B prog a)
    (h0 : g.inst.handed ≠ 0) (hfire : toMEMFire B s io = true)
    (ha : s.exeStage.fromID.nop = false) : ∃ e, Issues B prog s a e := by
  have hwb := toWBFire_of_toMEMFire hfire
  have hcomes := (hi.front.exe h0 ha).1
  have hpc : s.exeStage.fromID.pc = a.pc := (hi.front.stream h0).2.exe ha
  have hinst : s.exeStage.fromID.inst = a.inst prog := by rw [hcomes.inst, hpc]; rfl
  have hop1 : s.exeStage.fromID.rs1Data = a.op1 prog := by
    rw [(hi.operands.rs1 ha).writtenBack, ← written_next (B := B) hwb,
      hi.regs_passing hs hwb, hinst]
    rfl
  have hop2 : s.exeStage.fromID.rs2Data = a.op2 prog := by
    rw [(hi.operands.rs2 ha).writtenBack, ← written_next (B := B) hwb,
      hi.regs_passing hs hwb, hinst]
    rfl
  obtain ⟨e, he⟩ := Hart.effect_isSome hsuits.step
  obtain ⟨haligned, -, i, hbase, rfl⟩ := Hart.effect_spec he
  have hnext : EXE.isaNextPc s.exeStage.fromID = a.nextPc prog := by
    rw [EXE.isaNextPc, hinst, hpc, hop1, hop2]
    rfl
  refine ⟨_, ⟨⟨?_, ?_, ?_, ?_⟩, hpc, hinst, hnext, he, fun io => ?_⟩⟩
  · rwa [hpc]
  · rw [hinst, hbase]
    rfl
  · rw [hinst, hpc, hop1]
    exact hsuits.even
  · rw [hnext]
    exact hsuits.boot
  · rw [← hinst, ← hpc, ← hop1, ← hop2]
    exact EXE.carries_toMEM hcomes ha (hinst ▸ hbase)

theorem ExecInv.harmless (hs : Serves B M prog s io g)
    (hsuits : g.inst.handed ≠ 0 → Suits B prog a) (hfire : toMEMFire B s io = true)
    (ha : s.exeStage.fromID.nop = false) : EXE.Harmless s.exeStage.fromID :=
  hi.front.harmless (fun h0 => (hi.issues hs (hsuits h0) h0 hfire ha).elim fun _ he =>
    he.executable) ha

theorem ExecInv.csr_next (hs : Serves B M prog s io g)
    (hsuits : toMEMFire B s io = true → s.exeStage.fromID.nop = false → g.inst.handed ≠ 0 →
      Suits B prog a) : CSRRegFile.Quiet (next B s io).csrRegs := by
  obtain ⟨he, hm⟩ := hi.csrCmd
  refine CSRRegFile.Quiet.next hi.csr he hm ?_
  by_contra hw
  obtain ⟨hfire, hn, hcsr⟩ := csrWen_spec (Bool.not_eq_false _ ▸ hw)
  rw [toMEM_nop_of_calm (hi.calm io) hi.operands.exeFired] at hn
  rw [(hi.harmless hs (hsuits hfire hn) hfire hn).csrWrite] at hcsr
  cases hcsr

theorem ExecInv.wb_next (hn : (next B s io).fromMEM.nop = false) :
    (next B s io).fromMEM.excepVec = 0#16 ∧ (next B s io).fromMEM.mret = false := by
  rw [next_fromMEM] at hn ⊢
  cases hfire : toWBFire s io
  case false =>
    rw [hfire, if_neg Bool.false_ne_true] at hn
    exact hi.wb hn
  case true =>
    rw [hfire, if_pos rfl] at hn
    obtain ⟨ha, -⟩ := Bool.or_eq_false_iff.1 (show MEM.nop s.memStage = false from hn)
    obtain ⟨e, he⟩ := hi.mem ha
    exact ⟨MEM.excepVec_of_carries he.carries ha he.aligned he.excepVec, he.mret⟩

end Issue

section Step

variable (hi : ExecInv B M prog start s g h a) (hs : Serves B M prog s io g)
include hi hs

omit hs in
theorem ExecInv.passed_next (hfire : toWBFire s io = true) :
    start.run prog (g.observe B M s io).passed = some a ∧
      (g.observe B M s io).passed = g.issued := by
  have hpassed : (g.observe B M s io).passed = g.issued := by
    have hp : WBReportable false (toWB s io) = pending s := by
      simp [WBReportable, reportable, pending, toWB, MEM.toWB]
    rw [World.observe, hi.count]
    simp only [hfire, hp, Bool.true_and]
  exact ⟨by rw [hpassed]; exact hi.issued, hpassed⟩

theorem ExecInv.reqFire_spec (hreq : MEM.reqFire s.memStage io.dbus = true) :
    s.memStage.state = .IDLE ∧ (MEM.req s.memStage).bits.addr = MEM.vaddr s.memStage ∧
      ∃ e, InMEM prog s h e ∧ s.memStage.fromEXE.nop = false ∧ s.memStage.hasFired = false ∧
        e.reads ≠ e.writes ∧ (MEM.req s.memStage).bits.wr = e.writes := by
  have hidle : s.memStage.state = .IDLE := by
    refine hi.state.resolve_right fun ⟨hwait, _⟩ => ?_
    simp [MEM.reqFire, MEM.req, hwait] at hreq
  cases hacc : MEM.access s.memStage
  case false => simp [MEM.reqFire, MEM.req, hidle, hacc] at hreq
  case true =>
    have ha := MEM.not_nop_of_access hacc
    obtain ⟨e, he⟩ := hi.mem ha
    have hm := (MEM.access_of_carries he.carries ha he.aligned).symm.trans hacc
    have hf : s.memStage.hasFired = false := by
      by_contra hf
      have hv := (hi.operands.again (Bool.not_eq_false _ ▸ hf) ha io.dbus hs.kept).1
      simp [MEM.toWBValid, hidle, hacc, MEM.isSC_of_carries he.carries] at hv
    have hreq' : (MEM.req s.memStage).bits.addr = MEM.vaddr s.memStage ∧
        (MEM.req s.memStage).bits.wr = (!MEM.ren s.memStage && MEM.wen s.memStage) := by
      rw [MEM.req, hidle]
      simp [hacc]
    rw [MEM.ren_of_carries he.carries ha, MEM.wen_of_carries he.carries ha] at hreq'
    refine ⟨hidle, hreq'.1, e, he, ha, hf, ?_, ?_⟩
    · cases e <;> simp_all [Effect.reads, Effect.writes]
    · rw [hreq'.2]
      cases e <;> rfl

omit hi hs in
theorem next_state_of_holding (hfire : toWBFire s io = false)
    (hst : s.memStage.state = .IDLE ∨ s.memStage.state = .WAIT_RESP)
    (hreq : MEM.reqFire s.memStage io.dbus = false) :
    (next B s io).memStage.state = s.memStage.state := by
  change MEM.nextState s.memStage io.dbus _ = _
  rcases hst with hidle | hwait
  · simp [MEM.nextState, hidle, hreq]
  · simp only [toWBFire, MEM.toWBFire, MEM.toWBValid, hwait, Bool.or_eq_false_iff] at hfire
    simp [MEM.nextState, hwait, MEM.rRespFire, MEM.wRespFire, hfire.1, hfire.2]

theorem ExecInv.memory_holding (hfire : toWBFire s io = false)
    (hfrom : (next B s io).memStage.fromEXE = s.memStage.fromEXE)
    (hfired : (next B s io).memStage.hasFired = s.memStage.hasFired) :
    M.bytes (g.observe B M s io).mem = if Storing (next B s io) then a.mem else h.mem := by
  have hwen : MEM.wen (next B s io).memStage = MEM.wen s.memStage := by
    simp [MEM.wen, MEM.controlSignals, hfrom]
  cases hreq : MEM.reqFire s.memStage io.dbus
  case false =>
    have hstate := next_state_of_holding (B := B) hfire (hi.state.imp_right And.left) hreq
    have hmem : (g.observe B M s io).mem = g.mem := by simp [World.observe, hreq]
    rw [hmem, hi.memory]
    refine if_congr ?_ rfl rfl
    rw [Storing, Storing, hfrom, hfired, hstate, hwen]
  case true =>
    obtain ⟨hidle, -, e, he, ha, hf, hone, hwr⟩ := hi.reqFire_spec hs hreq
    have hbefore : M.bytes g.mem = h.mem := by
      rw [hi.memory, if_neg fun hst => by simp [Storing, hidle] at hst]
    cases e with
    | nothing | write => exact absurd rfl hone
    | load i rd addr =>
      have hmem : (g.observe B M s io).mem = g.mem := by
        simp [World.observe, hwr, Effect.writes]
      have hnot : ¬Storing (next B s io) := fun hst => by
        have hw := hst.2.2.2
        rw [hwen, MEM.wen_of_carries he.carries ha] at hw
        cases hw
      rw [hmem, if_neg hnot, hbefore]
    | store w addr data =>
      have hstore := MEM.isStore_of_carries he.carries ha he.aligned hidle
      have hmem : (g.observe B M s io).mem =
          M.write g.mem (wordOf (MEM.req s.memStage).bits.addr) (MEM.req s.memStage).bits.wdata
            (MEM.req s.memStage).bits.wstrb := by
        simp [World.observe, hreq, hwr, Effect.writes]
      have hst : Storing (next B s io) := by
        have hstate : (next B s io).memStage.state = .WAIT_RESP := by
          change MEM.nextState s.memStage io.dbus _ = _
          simp [MEM.nextState, hidle, hstore.access, hreq, hstore.ren]
        exact ⟨hfrom ▸ ha, hfired ▸ hf, hstate, hwen ▸ hstore.wen⟩
      have hahead := hi.ahead
      have hp := he.pending ha hf rfl
      rw [hp, if_pos rfl, Hart.step_eq (he.asks hp).1] at hahead
      obtain ⟨haddr, -, hdata⟩ := he.carries.payload
      rw [hmem, if_pos hst, hstore.bytes M g.mem, hbefore, ← Option.some.inj hahead]
      exact congrArg₂ (h.mem.store w) haddr hdata

theorem ExecInv.asked_holding (hfire : toWBFire s io = false)
    (hfrom : (next B s io).memStage.fromEXE = s.memStage.fromEXE)
    (hw : (next B s io).memStage.state = .WAIT_RESP) :
    (g.observe B M s io).asked = MEM.vaddr (next B s io).memStage := by
  have hvaddr : MEM.vaddr (next B s io).memStage = MEM.vaddr s.memStage := by
    simp [MEM.vaddr, MEM.controlSignals, hfrom]
  rw [hvaddr]
  cases hreq : MEM.reqFire s.memStage io.dbus
  case false =>
    rw [next_state_of_holding hfire (hi.state.imp_right And.left) hreq] at hw
    rw [← hi.asked hw]
    simp [World.observe, hreq]
  case true =>
    rw [← (hi.reqFire_spec hs hreq).2.1]
    simp [World.observe, hreq]

theorem ExecInv.next_holding (hfire : toWBFire s io = false) :
    ExecInv B M prog start (next B s io) (g.observe B M s io) h a := by
  have hmem : toMEMFire B s io = false := by
    by_contra hf
    rw [toWBFire_of_toMEMFire (Bool.not_eq_false _ ▸ hf)] at hfire
    cases hfire
  have hfrom : (next B s io).memStage.fromEXE = s.memStage.fromEXE := by
    rw [next_fromEXE, hmem, if_neg Bool.false_ne_true]
  have hfired : (next B s io).memStage.hasFired = s.memStage.hasFired := by
    rw [next_memStage_hasFired, hmem, hfire, Bool.or_false, Bool.not_false, Bool.true_and]
  have hpending : pending (next B s io) = pending s := by
    rw [pending, pending, MEM.nop, MEM.nop, hfrom, hfired]
  have hpassed : (g.observe B M s io).passed = g.passed := by
    simp [World.observe, hfire]
  have hissued : (g.observe B M s io).issued = g.issued := by
    simp [World.observe, hmem]
  refine ⟨hi.front.next_staying (hi.calm io) hi.operands.exeFired hs.toFetches
      (fun hf => absurd (hmem.symm.trans hf) Bool.false_ne_true),
    hi.operands.next hs.kept (hi.scPasses io), hi.csr_next hs (fun hf => ?_), hi.wb_next,
    fun ha => ?_, by rw [hpassed]; exact hi.passed, by rw [hissued]; exact hi.issued,
    by rw [hissued, hpassed, hpending]; exact hi.count, hi.reported, fun r => ?_, ?_, fun hw => ?_⟩
  · rw [hmem] at hf
    cases hf
  · rw [hfrom] at ha
    obtain ⟨e, he⟩ := hi.mem ha
    refine ⟨e, he.aligned, ?_, ?_, ?_, ?_, ?_⟩
    · rw [hfrom]
      exact he.carries
    · rw [hfrom]
      exact he.excepVec
    · rw [hfrom]
      exact he.mret
    · rw [hfrom]
      exact he.reset
    · rw [hpending, hfrom]
      exact he.asks
  · rw [written_next_read r hfire, hi.regs]
  · exact hi.memory_holding hs hfire hfrom hfired
  · exact hi.asked_holding hs hfire hfrom hw

theorem ExecInv.next_passing (hfire : toWBFire s io = true) (hmem : toMEMFire B s io = false) :
    ExecInv B M prog start (next B s io) (g.observe B M s io) a a := by
  have hfrom : (next B s io).memStage.fromEXE = s.memStage.fromEXE := by
    rw [next_fromEXE, hmem, if_neg Bool.false_ne_true]
  have hfired : (next B s io).memStage.hasFired = true := by
    rw [next_memStage_hasFired, hmem, hfire, Bool.or_true]
    rfl
  have hpending : pending (next B s io) = false := by
    rw [pending, MEM.nop, hfired, Bool.or_true]
    rfl
  have hissued : (g.observe B M s io).issued = g.issued := by
    simp [World.observe, hmem]
  obtain ⟨hrun, hpassed⟩ := hi.passed_next hfire
  refine ⟨hi.front.next_staying (hi.calm io) hi.operands.exeFired hs.toFetches
      (fun hf => absurd (hmem.symm.trans hf) Bool.false_ne_true),
    hi.operands.next hs.kept (hi.scPasses io), hi.csr_next hs (fun hf => ?_), hi.wb_next,
    fun ha => ?_, hrun, by rw [hissued]; exact hi.issued,
    by rw [hissued, hpassed, hpending]; rfl, hi.reported, hi.regs_passing hs hfire, ?_,
    fun hw => ?_⟩
  · rw [hmem] at hf
    cases hf
  · rw [hfrom] at ha
    obtain ⟨e, he⟩ := hi.mem ha
    refine ⟨e, he.aligned, ?_, ?_, ?_, ?_, fun hp => ?_⟩
    · rw [hfrom]
      exact he.carries
    · rw [hfrom]
      exact he.excepVec
    · rw [hfrom]
      exact he.mret
    · rw [hfrom]
      exact he.reset
    · rw [hpending] at hp
      cases hp
  · rw [hi.mem_passing hfire, if_neg fun hst => ?_]
    exact Bool.false_ne_true (hst.2.1.symm.trans hfired)
  · have hreq := hi.not_reqFire hfire
    have hwait : s.memStage.state = .WAIT_RESP := by
      rcases hi.state with hidle | hwait
      case inr => exact hwait.1
      case inl =>
        have hnext : MEM.nextState s.memStage io.dbus _ = .WAIT_RESP := hw
        simp [MEM.nextState, hidle, hreq] at hnext
    have hvaddr : MEM.vaddr (next B s io).memStage = MEM.vaddr s.memStage := by
      simp [MEM.vaddr, MEM.controlSignals, hfrom]
    rw [hvaddr, ← hi.asked hwait]
    simp [World.observe, hreq]

theorem ExecInv.next_moving {a' : Hart} (hmem : toMEMFire B s io = true)
    (hsuits : s.exeStage.fromID.nop = false → g.inst.handed ≠ 0 → Suits B prog a)
    (hfront : FrontInv B prog (next B s io) (g.observe B M s io).inst a'.pc)
    (hword : s.exeStage.fromID.nop = false → ∃ e : Effect, e.Aligned ∧
      (toMEM B s io).Carries e ∧ (s.exeStage.fromID.pc = 0 → e = .nothing) ∧
        (s.exeStage.fromID.pc ≠ 0 → a.effect prog = some e ∧ s.exeStage.fromID.pc = a.pc ∧
          s.exeStage.fromID.inst = a.inst prog))
    (hissued : start.run prog (g.observe B M s io).issued = some a') (hpc : a'.pc ≠ 0) :
    ExecInv B M prog start (next B s io) (g.observe B M s io) a a' := by
  have hfire := toWBFire_of_toMEMFire hmem
  have hfrom : (next B s io).memStage.fromEXE = toMEM B s io := by
    rw [next_fromEXE, hmem, if_pos rfl]
  have hfired : (next B s io).memStage.hasFired = false := by
    rw [next_memStage_hasFired, hmem]
    rfl
  have hidle : (next B s io).memStage.state = .IDLE := MEM.nextState_of_fire hmem
  have hnop := toMEM_nop_of_calm (B := B) (hi.calm io) hi.operands.exeFired
  have hpending : pending (next B s io) = MemReportable false (toMEM B s io) := by
    simp [pending, MEM.nop, hfrom, hfired, MemReportable, reportable]
  obtain ⟨hrun, hpassed⟩ := hi.passed_next hfire
  refine ⟨hfront, hi.operands.next hs.kept (hi.scPasses io), hi.csr_next hs fun _ => hsuits,
    hi.wb_next, fun ha => ?_, hrun, hissued, ?_, hpc, hi.regs_passing hs hfire, ?_, fun hw => ?_⟩
  · rw [hfrom, hnop] at ha
    obtain ⟨e, haligned, hcarries, hzero, hasks⟩ := hword ha
    have hharmless := hi.harmless hs (hsuits ha) hmem ha
    refine ⟨e, haligned, hfrom ▸ hcarries, ?_, ?_, ?_, fun hp => ?_⟩
    · rw [hfrom]
      exact hharmless.excepVec
    · rw [hfrom]
      exact hharmless.mret
    · rw [hfrom]
      exact hzero
    · have hne := (pending_spec.1 hp).2.2
      rw [hfrom] at hne ⊢
      exact hasks hne
  · rw [hpassed, hpending, World.observe, hmem]
    simp only [Bool.true_and]
  · rw [hi.mem_passing hfire, if_neg fun hst => ?_]
    rw [hst.2.2.1] at hidle
    cases hidle
  · rw [hw] at hidle
    cases hidle

theorem ExecInv.next (hl : Suited B prog start (g.observe B M s io).issued) :
    ∃ h' a', ExecInv B M prog start (next B s io) (g.observe B M s io) h' a' := by
  have hnop := toMEM_nop_of_calm (B := B) (hi.calm io) hi.operands.exeFired
  cases hmem : toMEMFire B s io
  case false =>
    cases hfire : toWBFire s io
    case false => exact ⟨h, a, hi.next_holding hs hfire⟩
    case true => exact ⟨a, a, hi.next_passing hs hfire hmem⟩
  case true =>
    by_cases hleaves : s.exeStage.fromID.nop = false ∧ g.inst.handed ≠ 0
    case pos =>
      obtain ⟨ha, h0⟩ := hleaves
      have hpc : s.exeStage.fromID.pc = a.pc := (hi.front.stream h0).2.exe ha
      have hissued : (g.observe B M s io).issued = g.issued + 1 := by
        have hpc' : (toMEM B s io).pc ≠ 0 := fun hz => hi.reported (hpc.symm.trans hz)
        simpa [World.observe, hmem, MemReportable, reportable, hnop, ha, orR] using hpc'
      have hsuits : Suits B prog a := hl g.issued (by omega) a hi.issued
      obtain ⟨e, he⟩ := hi.issues hs hsuits h0 hmem ha
      have hstep := Hart.step_eq he.effect
      refine ⟨a, { a.apply e with pc := a.nextPc prog }, hi.next_moving hs hmem
        (fun _ _ => hsuits) ?_ (fun _ => ?_) ?_ hsuits.reported⟩
      · rw [← he.nextPc]
        exact hi.front.next_leaving (hi.calm io) hi.operands.exeFired hs.toFetches h0 hmem ha
          he.executable
      · refine ⟨e, (Hart.effect_spec he.effect).2.1, he.carries _, fun hz => ?_,
          fun _ => ⟨he.effect, hpc, he.inst⟩⟩
        exact absurd (hpc.symm.trans hz) hi.reported
      · rw [hissued, Hart.run, hi.issued]
        exact hstep
    case neg =>
      have hboot : s.exeStage.fromID.nop = false → g.inst.handed = 0 := fun ha => by
        by_contra h0
        exact hleaves ⟨ha, h0⟩
      have hissued : (g.observe B M s io).issued = g.issued := by
        cases ha : s.exeStage.fromID.nop
        case true => simp [World.observe, MemReportable, reportable, hnop, ha]
        case false =>
          have hzero : (toMEM B s io).pc = 0 := ((hi.front.booting (hboot ha)).2.exe ha).pc
          simp [World.observe, MemReportable, reportable, hzero, orR]
      refine ⟨a, a, hi.next_moving hs hmem (fun ha h0 => absurd (hboot ha) h0) ?_ (fun ha => ?_)
        (by rw [hissued]; exact hi.issued) hi.reported⟩
      · exact hi.front.next_staying (hi.calm io) hi.operands.exeFired hs.toFetches fun _ => hboot
      · have hw := (hi.front.booting (hboot ha)).2.exe ha
        exact ⟨.nothing, trivial, hw.carries _, fun _ => rfl, fun hne => absurd hw.pc hne⟩

end Step

section Runs

def Inputs.accept (io : Inputs) : Inputs :=
  { io with dbus := ⟨true, ⟨false, ⟨0⟩⟩, ⟨false, ⟨false⟩⟩⟩ }

end Runs

end Core

end FpgaNpc
