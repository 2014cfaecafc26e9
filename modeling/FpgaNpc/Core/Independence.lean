import FpgaNpc.Core.Lockstep

open FpgaNpc.Hardware FpgaNpc.InterStage FpgaNpc.SRAMLike

namespace FpgaNpc

namespace CSRRegFile

variable {s : Regs} {io : Inputs}

theorem mie_next (h : io.writePort.wen = false) : (next s io).mie = s.mie := by
  simp only [next, writeStep, portWrite, h, Bool.false_and, Bool.false_eq_true, if_false, trapStep,
    mretStep, setMtvalStep]
  split_ifs <;> rfl

theorem hadInterrupt_next (hr : raiseIntr s io.interrupt = false) (hh : s.hadInterrupt = false) :
    (next s io).hadInterrupt = false := by
  simp [next, hr, hh]

end CSRRegFile

namespace Core

/-- What the cycle does to the memory and to the registers that a program sees. The trap is the
cause and the pc that it records. -/
structure Outcome where
  registerWrite : Option (BitVec 5 × Word)
  memoryRequest : Option SRAMLikeReq
  csrWrite : Option (BitVec 12 × Word)
  nextPC : Word
  trap : Option (Word × Word)
  deriving DecidableEq

def outcome (B : Build) (s : Regs) (io : Inputs) : Outcome where
  registerWrite :=
    if WB.writePortWen s.fromMEM then some (s.fromMEM.rd, WB.regWdata s.fromMEM) else none
  memoryRequest := if (MEM.req s.memStage).valid then some (MEM.req s.memStage).bits else none
  csrWrite :=
    if (csrInputs B s io).writePort.wen then
      some ((csrInputs B s io).writePort.waddr, (csrInputs B s io).writePort.wdata)
    else none
  nextPC := (next B s io).ifStage.PC
  trap :=
    if CSRRegFile.raiseIntrExcep s.csrRegs io.interrupt (csrCmd s) (interCMDValid s) then
      some (CSRRegFile.causeNO s.csrRegs (csrInputs B s io),
        if CSRRegFile.raiseIntr s.csrRegs io.interrupt then s.exeStage.fromID.pc
        else (csrCmd s).pc)
    else none

/-- The word is `inst`, or what the two decoders make of it does not matter. -/
def Comparable (B : Build) (d : Decoder) (inst word : Word) : Prop :=
  word = inst ∨ ControlLogic.InTable word ∨ B.decoder.ctrlWord word = d.ctrlWord word

instance (B : Build) (d : Decoder) (inst word : Word) : Decidable (Comparable B d inst word) :=
  inferInstanceAs (Decidable (_ ∨ _))

/-- From any state on the machine does the same with any two decoders, if `inst` is the only
word on which the runs could differ. -/
def Independent (inst : Word) : Prop :=
  ∀ (B : Build) (d : Decoder) (s : Regs) (is : List Inputs) (io : Inputs),
    (machine B).Runs (fun s _ => Comparable B d inst s.idStage.fromIF.inst) s is →
      outcome { B with decoder := d } ((machine { B with decoder := d }).run s is) io =
        outcome B ((machine B).run s is) io

/-- The instruction in EXE raises the exception, and touches no memory, register or CSR. -/
structure OnlyTraps (e : EXE.Regs) : Prop where
  illegal : e.fromID.excepVec.getLsbD ExceptionCodes.IllegalInstruction = true
  csrWrite : ∀ io, EXE.csrWen e io = false
  memory : ∀ io (m : MEM.Regs), m.fromEXE = EXE.toMEM e io → MEM.ren m = false ∧ MEM.wen m = false
  regWrite : ∀ io (m : MEM.Regs) port, m.fromEXE = EXE.toMEM e io →
    (MEM.toWB m port).regWrite = false

def AlwaysTraps (inst : Word) : Prop :=
  ∀ (d : Decoder) (i : ID.Regs) (io : ID.Inputs) (e : EXE.Regs), i.fromIF.inst = inst →
    e.fromID = ID.toEXE d i io → OnlyTraps e

theorem Lockstep.outcome_eq {B : Build} {d : Decoder} {s : Regs} {b : IdExeBus} {m : ExeMemBus}
    {w : Word} (h : Lockstep s b m w) (io : Inputs) :
    outcome { B with decoder := d } (s.withBuses b m w) io = outcome B s io := by
  refine (Outcome.mk.injEq ..).mpr ⟨?_, ?_, ?_, ?_, ?_⟩
  · refine ite_congr rfl (fun hw => ?_) fun _ => rfl
    have hdata := h.wb (WB.writePortWen_spec hw).2
    exact congrArg (fun x => some (s.fromMEM.rd, x)) hdata.symm
  · have hreq : MEM.req (s.withBuses b m w).memStage = MEM.req s.memStage := h.mem.req_eq
    rw [hreq]
  · rw [h.csrInputs_eq]
    refine ite_congr rfl (fun hw => ?_) fun _ => rfl
    rw [h.csrRes_eq io hw]
  · exact congrArg (fun i => (IF.next B.config s.ifStage i).PC) (h.ifInputs_eq io)
  · have hpc : (s.withBuses b m w).exeStage.fromID.pc = s.exeStage.fromID.pc :=
      (congrArg IdExeBus.pc h.exe.rest).symm
    rw [h.interCMDValid_eq, h.csrInputs_eq, hpc]
    rfl

section Words

variable {inst : Word}

theorem Comparable.agree {B : Build} {d : Decoder} {word : Word} (h : Comparable B d inst word)
    (ht : ControlLogic.InTable inst) : (B.decoder.ctrlWord word).Agree (d.ctrlWord word) := by
  rcases h with rfl | hw | he
  · exact B.decoder.agree_of_inTable d ht
  · exact B.decoder.agree_of_inTable d hw
  · rw [he]
    exact .refl _

theorem independent_of_inTable (ht : ControlLogic.InTable inst) : Independent inst := by
  intro B d s is io hruns
  have hstep : ∀ s t i, (∃ b m w, t = s.withBuses b m w ∧ Lockstep s b m w) →
      Comparable B d inst s.idStage.fromIF.inst → ∃ b m w,
        (machine { B with decoder := d }).next t i = ((machine B).next s i).withBuses b m w ∧
          Lockstep ((machine B).next s i) b m w := by
    rintro s _ i ⟨b, m, w, rfl, h⟩ hc
    exact h.next i (hc.agree ht)
  obtain ⟨b, m, w, hrun, h⟩ := hruns.related hstep ⟨_, _, _, rfl, .refl s⟩
  have hstart : s.withBuses s.exeStage.fromID s.memStage.fromEXE s.fromMEM.regWriteData = s := rfl
  rw [hstart] at hrun
  rw [hrun, h.outcome_eq]

def csrDecoder (csrWrite : Bool) : Decoder :=
  .resolve ⟨0, { DecodeBundle.zero with csrWrite := csrWrite }, false⟩

theorem csrDecoder_ctrlWord (h : ¬ControlLogic.InTable inst) (csrWrite : Bool) :
    (csrDecoder csrWrite).ctrlWord inst =
      ⟨0, { DecodeBundle.zero with csrWrite := csrWrite }, false⟩ := by
  have hnone : ∀ p ∈ ControlLogic.table, ¬p.1.Matches inst := fun p hp hm => h ⟨p, hp, hm⟩
  have hw : (csrDecoder csrWrite).ctrlWord inst = (ControlLogic.lookup inst).resolve _ := rfl
  rw [hw, ControlLogic.lookup_of_no_match hnone]
  rfl

theorem csrDecoder_decodeBundle (h : ¬ControlLogic.InTable inst) (csrWrite : Bool) (i : ID.Regs)
    (io : ID.Inputs) (hi : i.fromIF.inst = inst) :
    (ID.toEXE (csrDecoder csrWrite) i io).decodeBundle =
      { DecodeBundle.zero with csrWrite := csrWrite } := by
  simp only [ID.toEXE, ID.decodeBundle, hi, csrDecoder_ctrlWord h]
  simp [DecodeBundle.zero]

theorem csrWen_of_csrWrite {e : EXE.Regs} {io : EXE.Inputs} {csrWrite : Bool}
    (hb : e.fromID.decodeBundle = { DecodeBundle.zero with csrWrite := csrWrite })
    (hp : e.fromID.branchPred = false) (hn : EXE.nop e io = false)
    (hready : io.toMEMReady = true) : EXE.csrWen e io = csrWrite := by
  have hjump : EXE.jumpBusValid e io = false := by
    simp [EXE.jumpBusValid, EXE.redirect, EXE.jump, EXE.isBRU, EXE.isCSR, hb, hp, DecodeBundle.zero]
  have hunit : EXE.mulOrDivEnable e io = false := by
    simp [EXE.mulOrDivEnable, EXE.isMUL, EXE.isDIV, hb, DecodeBundle.zero]
  simp [EXE.csrWen, EXE.toMEMFire, EXE.toMEMValid, EXE.jumpValid, EXE.mulOrDivValid, hjump, hunit,
    hb, hn, hready]

theorem bypassType_of_no_writes {exe mem wb : BypassFrom} {rs : BitVec 5}
    (he : exe.regWrite = false) (hm : mem.regWrite = false) (hw : wb.regWrite = false) :
    BypassNetwork.bypassType exe mem wb rs = .FromREG := by
  simp [BypassNetwork.bypassType, BypassNetwork.matched, he, hm, hw]

theorem interrupt_eq_false {s : Regs} {io : Inputs} (hm : s.csrRegs.mie = 0#32)
    (hh : s.csrRegs.hadInterrupt = false) : interrupt s io = false := by
  simp [interrupt, CSRRegFile.intrCmdReady, CSRRegFile.raiseIntr, CSRRegFile.intrVec, hm, hh, orR]

def csrBuild (csrWrite : Bool) : Build := { Build.zeros with decoder := csrDecoder csrWrite }

def Regs.holding (inst : Word) : Regs :=
  { Regs.reset .zeros 0 with idStage := ⟨{ IfIdBus.zero with inst := inst }, false⟩ }

section Holding

variable (B : Build) (d : Decoder) (s : Regs) (i : ID.Regs) (io : Inputs)

theorem flush_of_idStage :
    flush { B with decoder := d } { s with idStage := i } io = flush B s io := rfl

theorem memStage_of_idStage :
    (next { B with decoder := d } { s with idStage := i } io).memStage =
      (next B s io).memStage := rfl

theorem fromID_of_idStage (h : EXE.fromIDFire s.exeStage (exeInputs B s io) = true) :
    (next { B with decoder := d } { s with idStage := i } io).exeStage.fromID =
      toEXE { B with decoder := d } { s with idStage := i } io :=
  if_pos h

theorem hasFired_of_idStage :
    (next { B with decoder := d } { s with idStage := i } io).exeStage.hasFired =
      (next B s io).exeStage.hasFired := rfl

theorem writePort_of_idStage :
    (csrInputs { B with decoder := d } { s with idStage := i } io).writePort =
      (csrInputs B s io).writePort := rfl

end Holding

theorem nop_holding (csrWrite : Bool) (inst : Word) :
    ID.nop (Regs.holding inst).idStage (idInputs (csrBuild csrWrite) (.holding inst) .idle) =
      false := by
  have hget : (idInputs (csrBuild csrWrite) (.holding inst) .idle).newestDataGetable = true := by
    simp only [idInputs, BypassNetwork.newestDataGetable]
    rw [bypassType_of_no_writes rfl rfl rfl, bypassType_of_no_writes rfl rfl rfl]
    rfl
  have hflush : flush (csrBuild csrWrite) (.holding inst) .idle = false :=
    (flush_of_idStage ..).trans (by decide +kernel)
  have hio : (idInputs (csrBuild csrWrite) (.holding inst) .idle).flush =
    flush (csrBuild csrWrite) (.holding inst) .idle := rfl
  rw [ID.nop, ID.stall, hget, hio, hflush]
  rfl

theorem csrWen_holding (h : ¬ControlLogic.InTable inst) (csrWrite : Bool) :
    (csrInputs (csrBuild csrWrite) (next (csrBuild csrWrite) (.holding inst) .idle)
      .idle).writePort.wen = csrWrite := by
  have hfrom : (next (csrBuild csrWrite) (.holding inst) .idle).exeStage.fromID =
      toEXE (csrBuild csrWrite) (.holding inst) .idle :=
    fromID_of_idStage _ _ _ _ _ (by decide +kernel)
  have hmem : (next (csrBuild csrWrite) (.holding inst) .idle).memStage =
      (next .zeros (.reset .zeros 0) .idle).memStage :=
    memStage_of_idStage ..
  have hfired : (next (csrBuild csrWrite) (.holding inst) .idle).exeStage.hasFired = false :=
    (hasFired_of_idStage ..).trans (by decide +kernel)
  have hwen : (csrInputs (csrBuild csrWrite) (.holding inst) .idle).writePort.wen = false :=
    (congrArg _ (writePort_of_idStage ..)).trans (by decide +kernel)
  have hraise : CSRRegFile.raiseIntr CSRRegFile.reset Inputs.idle.interrupt = false := by
    decide +kernel
  have hintr : interrupt (next (csrBuild csrWrite) (.holding inst) .idle) .idle = false :=
    interrupt_eq_false (CSRRegFile.mie_next hwen) (CSRRegFile.hadInterrupt_next hraise rfl)
  refine csrWen_of_csrWrite ?_ ?_ ?_ ?_
  · rw [hfrom]
    exact csrDecoder_decodeBundle h csrWrite _ _ rfl
  · rw [hfrom]
    rfl
  · have hn := nop_holding csrWrite inst
    have hflush : MEM.flush2EXE (next .zeros (.reset .zeros 0) .idle).memStage = false := by
      decide +kernel
    have hnop : (toEXE (csrBuild csrWrite) (.holding inst) .idle).nop = false := hn
    simp only [EXE.nop, exeInputs, hfrom, hfired, hintr, hmem, hflush, hnop, Bool.or_false]
  · simp only [exeInputs, hmem]
    decide +kernel

theorem inTable_of_independent (h : Independent inst) : ControlLogic.InTable inst := by
  by_contra ht
  have ho := h (csrBuild true) (csrDecoder false) (.holding inst) [.idle] .idle
    ⟨.inl rfl, trivial⟩
  have hnone : (outcome (csrBuild false) (next (csrBuild false) (.holding inst) .idle)
      .idle).csrWrite = none :=
    if_neg (by rw [csrWen_holding ht]; decide)
  have hsome : (outcome (csrBuild true) (next (csrBuild true) (.holding inst) .idle)
      .idle).csrWrite = some _ :=
    if_pos (csrWen_holding ht true)
  have hne := (hnone.symm.trans (congrArg Outcome.csrWrite ho)).trans hsome
  cases hne

theorem inTable_of_alwaysTraps (h : AlwaysTraps inst) : ControlLogic.InTable inst := by
  by_contra ht
  have htraps := h (csrDecoder true) (Regs.holding inst).idStage
    (idInputs (csrBuild true) (.holding inst) .idle)
    (next (csrBuild true) (.holding inst) .idle).exeStage rfl
    (fromID_of_idStage _ _ _ _ _ (by decide +kernel))
  have hwen := csrWen_holding ht true
  exact absurd ((htraps.csrWrite _).symm.trans hwen) (by decide)

/-- What the table leaves open does not matter for a word that is in it, and only for such a word:
any other may write a CSR or not. -/
theorem dont_cares_masked (inst : Word) :
    (Independent inst ↔ ControlLogic.InTable inst) ∧
      ((¬ControlLogic.InTable inst → AlwaysTraps inst) ↔ ControlLogic.InTable inst) := by
  refine ⟨⟨inTable_of_independent, independent_of_inTable⟩, fun h => ?_, fun h hn => absurd h hn⟩
  by_contra hn
  exact hn (inTable_of_alwaysTraps (h hn))

/-- A build with a decoder that takes every don't-care as zero but that of `memWrite`. -/
def storing : Build :=
  .elaborated (.resolve
    ⟨0, { DecodeBundle.zero with memWrite := ControlSignals.MemWrite.W }, false⟩)

def fetchUnknown : List Inputs :=
  [.request, .fetch 0x13, .fetch 0xffffffff, .fetch 0x13, .idle]

/-- The word is in no row, and it stores to address 0 or not. -/
theorem unknown_word_stores : ¬ControlLogic.InTable 0xffffffff#32 ∧
    (outcome .zeros ((machine .zeros).run (.reset .zeros 0) fetchUnknown) .idle).memoryRequest =
      none ∧
    (outcome storing ((machine storing).run (.reset .zeros 0) fetchUnknown) .idle).memoryRequest =
      some ⟨true, 2, 0, 0, 0xf, 0⟩ ∧
    ¬Independent 0xffffffff#32 := by
  have hzeros : (outcome .zeros ((machine .zeros).run (.reset .zeros 0) fetchUnknown)
      .idle).memoryRequest = none := by
    decide +kernel
  have hstoring : (outcome storing ((machine storing).run (.reset .zeros 0) fetchUnknown)
      .idle).memoryRequest = some ⟨true, 2, 0, 0, 0xf, 0⟩ := by
    decide +kernel
  refine ⟨by decide +kernel, hzeros, hstoring, fun h => ?_⟩
  have ho := h .zeros storing.decoder (.reset .zeros 0) fetchUnknown .idle (by decide +kernel)
  have hne := (hstoring.symm.trans (congrArg Outcome.memoryRequest ho)).trans hzeros
  cases hne

end Words

end Core

end FpgaNpc
