import FpgaNpc.Core.Privilege

open FpgaNpc.Hardware FpgaNpc.InterStage FpgaNpc.ExceptionCodes

namespace FpgaNpc

namespace Instructions

def csrAccesses : List (BitPat 32) := [CSRRW, CSRRS, CSRRC, CSRRWI, CSRRSI, CSRRCI]

end Instructions

namespace Core

open Instructions CSRRegFile

def csrAddr (inst : Word) : BitVec 12 := inst.extractLsb 31 20

variable (B : Build) (s : Regs) (io : Inputs)

/-- ID takes the instruction that it holds for an mret or an environment call exactly when it is
in that row of the table, and a CSR instruction reads and writes the CSR that it names. -/
structure SystemAgrees : Prop where
  mret : (toEXE B s io).mret = true ↔ MRET.Matches s.idStage.fromIF.inst
  csrData : (toEXE B s io).csrData = rdata s.csrRegs io.interrupt
    (if MRET.Matches s.idStage.fromIF.inst then CsrConsts.Mepc else csrAddr s.idStage.fromIF.inst)
  ecall : ECALL.Matches s.idStage.fromIF.inst → s.csrRegs.privilege ≠ .Reserved →
    RaisesEnvCall s.csrRegs.privilege (toEXE B s io).excepVec
  other : ¬ECALL.Matches s.idStage.fromIF.inst →
    ∀ c ∈ [UserEnvironmentCall, SupervisorEnvironmentCall, MachineEnvironmentCall],
      (toEXE B s io).excepVec.getLsbD c = false
  access : (∃ p ∈ csrAccesses, p.Matches s.idStage.fromIF.inst) → (toEXE B s io).mret = false ∧
    (toEXE B s io).csrData = rdata s.csrRegs io.interrupt (csrAddr s.idStage.fromIF.inst) ∧
    ∀ c ∈ [UserEnvironmentCall, SupervisorEnvironmentCall, MachineEnvironmentCall],
      (toEXE B s io).excepVec.getLsbD c = false
  waddr : toMEMFire B s io = true → ∀ io',
    (csrInputs B (next B s io) io').writePort.waddr = csrAddr s.idStage.fromIF.inst

/-- The decoders agree on the word, whatever the stages hold and the ports do. -/
def SystemDecodesAgree (inst : Word) : Prop :=
  ∀ (B : Build) (s : Regs) (io : Inputs), s.idStage.fromIF.inst = inst → SystemAgrees B s io

variable {B s io} {inst : Word} {b : IfIdBus}

theorem word_eq_iff {v w : Word} : v = w ↔ v.extractLsb 31 20 = w.extractLsb 31 20 ∧
    v.extractLsb 19 7 = w.extractLsb 19 7 ∧ v.extractLsb 6 0 = w.extractLsb 6 0 := by
  constructor
  · rintro rfl
    exact ⟨rfl, rfl, rfl⟩
  · rintro ⟨hf, hm, ho⟩
    rw [← append_fields v, ← append_fields w, hf, hm, ho]

theorem ecall_matches : ECALL.Matches inst ↔ csrAddr inst = CsrConsts.ECALL ∧
    inst.extractLsb 19 7 = 0#13 ∧ inst.extractLsb 6 0 = 0x73#7 := by
  rw [BitPat.Matches, show ECALL.mask = BitVec.allOnes 32 by decide, BitVec.and_allOnes,
    word_eq_iff]
  exact Iff.rfl

theorem mret_matches : MRET.Matches inst ↔ csrAddr inst = CsrConsts.MRET ∧
    inst.extractLsb 19 7 = 0#13 ∧ inst.extractLsb 6 0 = 0x73#7 := by
  rw [BitPat.Matches, show MRET.mask = BitVec.allOnes 32 by decide, BitVec.and_allOnes,
    word_eq_iff]
  exact Iff.rfl

theorem isECALL_iff : ID.isECALL b = true ↔
    csrAddr b.inst = CsrConsts.ECALL ∧ b.inst.extractLsb 6 0 = 0x73#7 := by
  rw [ID.isECALL, Bool.and_eq_true, beq_iff_eq, beq_iff_eq, and_comm]
  exact Iff.rfl

theorem isMRET_iff : ID.isMRET b = true ↔
    csrAddr b.inst = CsrConsts.MRET ∧ b.inst.extractLsb 6 0 = 0x73#7 := by
  rw [ID.isMRET, Bool.and_eq_true, beq_iff_eq, beq_iff_eq, and_comm]
  exact Iff.rfl

theorem csrAccesses_disjoint : ∀ p ∈ csrAccesses, p.Disjoint ECALL ∧ p.Disjoint MRET := by
  decide +kernel

/-- No SYSTEM instruction but ecall and mret themselves has their funct12. -/
def OnlyCalls (inst : Word) : Prop := inst.extractLsb 6 0 = 0x73#7 →
  csrAddr inst = CsrConsts.ECALL ∨ csrAddr inst = CsrConsts.MRET → inst.extractLsb 19 7 = 0#13

theorem OnlyCalls.isECALL_iff (h : OnlyCalls b.inst) :
    ID.isECALL b = true ↔ ECALL.Matches b.inst := by
  rw [Core.isECALL_iff, ecall_matches]
  exact ⟨fun ⟨hf, ho⟩ => ⟨hf, h ho (.inl hf), ho⟩, fun ⟨hf, _, ho⟩ => ⟨hf, ho⟩⟩

theorem OnlyCalls.isMRET_iff (h : OnlyCalls b.inst) :
    ID.isMRET b = true ↔ MRET.Matches b.inst := by
  rw [Core.isMRET_iff, mret_matches]
  exact ⟨fun ⟨hf, ho⟩ => ⟨hf, h ho (.inr hf), ho⟩, fun ⟨hf, _, ho⟩ => ⟨hf, ho⟩⟩

theorem toEXE_excepVec_other (h : ID.isECALL s.idStage.fromIF = false) :
    ∀ c ∈ [UserEnvironmentCall, SupervisorEnvironmentCall, MachineEnvironmentCall],
      (toEXE B s io).excepVec.getLsbD c = false := by
  intro c hc
  refine (excepVec_envCall B.decoder s.idStage (idInputs B s io) hc).trans ?_
  rw [h, Bool.false_and]

theorem toEXE_csrData : (toEXE B s io).csrData = rdata s.csrRegs io.interrupt
    (if ID.isMRET s.idStage.fromIF = true then CsrConsts.Mepc
      else csrAddr s.idStage.fromIF.inst) := rfl

theorem OnlyCalls.systemAgrees (h : OnlyCalls s.idStage.fromIF.inst) : SystemAgrees B s io where
  mret := h.isMRET_iff
  csrData := by
    rw [toEXE_csrData]
    congr 1
    exact if_congr h.isMRET_iff rfl rfl
  ecall he hp := raisesEnvCall_of_isECALL (i := idInputs B s io) (h.isECALL_iff.2 he) hp
  other he := toEXE_excepVec_other (Bool.eq_false_iff.2 fun hi => he (h.isECALL_iff.1 hi))
  access := by
    rintro ⟨p, hp, hm⟩
    obtain ⟨hecall, hmret⟩ := csrAccesses_disjoint p hp
    have hr : ID.isMRET s.idStage.fromIF = false :=
      Bool.eq_false_iff.2 fun hi => hmret.not_matches hm (h.isMRET_iff.1 hi)
    have he : ID.isECALL s.idStage.fromIF = false :=
      Bool.eq_false_iff.2 fun hi => hecall.not_matches hm (h.isECALL_iff.1 hi)
    refine ⟨hr, ?_, toEXE_excepVec_other he⟩
    rw [toEXE_csrData, hr, if_neg Bool.false_ne_true]
  waddr hfire io' := by
    change (next B s io).exeStage.fromID.funct12 = _
    rw [next_fromID, hfire]
    rfl

theorem SystemAgrees.onlyCalls (h : SystemAgrees B s io) (hp : s.csrRegs.privilege ≠ .Reserved) :
    OnlyCalls s.idStage.fromIF.inst := by
  rintro ho (hf | hf)
  · by_contra hm
    have hother := h.other fun he => hm (ecall_matches.1 he).2.1
    obtain ⟨code, hcode, hbit⟩ := raisesEnvCall_of_isECALL (d := B.decoder) (b := s.idStage)
      (i := idInputs B s io) (isECALL_iff.2 ⟨hf, ho⟩) hp
    have hmem : code ∈
        [UserEnvironmentCall, SupervisorEnvironmentCall, MachineEnvironmentCall] := by
      cases hpriv : (idInputs B s io).privilege <;> simp_all [envCall]
    have hraised : (toEXE B s io).excepVec.getLsbD code = true := (hbit code hmem).2 rfl
    rw [hother code hmem] at hraised
    exact Bool.false_ne_true hraised
  · exact (mret_matches.1 (h.mret.1 (isMRET_iff.2 ⟨hf, ho⟩))).2.1

theorem system_decodes_agree (inst : Word) : SystemDecodesAgree inst ↔ OnlyCalls inst := by
  constructor
  · intro h
    let s := Regs.reset .zeros 0
    let holding : Regs := { s with idStage := ⟨{ IfIdBus.zero with inst := inst }, false⟩ }
    exact (h .zeros holding .idle rfl).onlyCalls PRIV.noConfusion
  · rintro h B s io rfl
    exact h.systemAgrees

/-- csrr x5, medeleg, until it is in ID. -/
def readMedeleg : List Inputs := [.request, .fetch 0x13, .fetch 0x302022f3]

theorem medeleg_returns : ¬∀ s, (machine .zeros).Reaches (fun _ _ => True) s → ∀ io,
    (toEXE .zeros s io).nop = false → SystemAgrees .zeros s io := by
  intro h
  have hr := (machine .zeros).reaches_run (fun _ _ => True) (.reset .zeros 0) readMedeleg
    (isReset_reset _ _) (by decide +kernel)
  have hmret := (h _ hr .idle (by decide +kernel)).mret
  revert hmret
  decide +kernel

end Core

end FpgaNpc
