import FpgaNpc.Core.Order

open FpgaNpc.Hardware FpgaNpc.InterStage FpgaNpc.ControlSignals

namespace FpgaNpc

section Mret

/-- What ID takes for an mret, whatever rd, rs1 and funct3 are. -/
def mretPattern : BitPat 32 := ⟨0xfff0007f, 0x30200073⟩

theorem append_fields (inst : Word) :
    inst.extractLsb 31 20 ++ (inst.extractLsb 19 7 ++ inst.extractLsb 6 0) = inst := by
  have hlow : inst.extractLsb' 7 13 ++ inst.extractLsb' 0 7 = inst.extractLsb' 0 20 :=
    BitVec.extractLsb'_append_extractLsb'_eq_extractLsb' rfl
  change inst.extractLsb' 20 12 ++ (inst.extractLsb' 7 13 ++ inst.extractLsb' 0 7) = inst
  rw [hlow]
  exact BitVec.extractLsb'_append_extractLsb'

theorem matches_mretPattern {inst : Word} (hop : inst.extractLsb 6 0 = 0x73#7)
    (hf : inst.extractLsb 31 20 = CsrConsts.MRET) : mretPattern.Matches inst := by
  rw [BitPat.Matches, ← append_fields inst, hop, hf]
  change (0x302#12 ++ (inst.extractLsb 19 7 ++ 0x73#7)) &&& (0xfff#12 ++ (0#13 ++ 0x7f#7)) = _
  rw [BitVec.and_append, BitVec.and_append]
  simp [mretPattern]

theorem ControlLogic.table_mret : ∀ p ∈ table,
    p.2.fuType = FuType.CSR ∨ p.1.Disjoint mretPattern := by
  decide +kernel

theorem Decoder.fuType_of_mret (d : Decoder) {inst : Word}
    (hlegal : (d.ctrlWord inst).legal = true) (h : mretPattern.Matches inst) :
    (d.ctrlWord inst).decodeBundle.fuType = FuType.CSR := by
  obtain ⟨p, hp, hm, ha⟩ := d.row_of_legal hlegal
  rcases ControlLogic.table_mret p hp with hf | hd
  · exact ha.fuType _ hf
  · exact absurd h (hd.not_matches hm)

end Mret

namespace Core

structure Decoded (d : Decoder) (b : IdExeBus) : Prop where
  bundle : b.decodeBundle = (d.ctrlWord b.inst).decodeBundle
  legal : b.excepVec = 0#16 → (d.ctrlWord b.inst).legal = true
  funct12 : b.funct12 = b.inst.extractLsb 31 20
  mret : b.mret = (b.inst.extractLsb 6 0 == 0x73#7 && b.funct12 == CsrConsts.MRET)

variable (B : Build) (W : Word → Prop) (s : Regs) (io : Inputs)

def CommitsInMEM : Prop := s.memStage.fromEXE.nop = false ∧
  (s.memStage.fromEXE.excepVec ≠ 0#16 ∨ s.memStage.fromEXE.mret = true)

def CommitsInWB : Prop := (csrCmd s).excepVec ≠ 0#16 ∨ (csrCmd s).mret = true

/-- An instruction with an exception leaves EXE alive while the one in ID waits for its
result, and so is not flushed. -/
structure FaultAwaited : Prop where
  leaves : toMEMFire B s io = true
  alive : (toMEM B s io).nop = false
  fault : s.exeStage.fromID.excepVec ≠ 0#16
  awaited : ID.stall (idInputs B s io) = true
  behind : s.idStage.fromIF.nop = false
  fresh : s.idStage.hasFired = false

instance : Decidable (FaultAwaited B s io) :=
  decidable_of_iff (toMEMFire B s io = true ∧ (toMEM B s io).nop = false ∧
      s.exeStage.fromID.excepVec ≠ 0#16 ∧ ID.stall (idInputs B s io) = true ∧
      s.idStage.fromIF.nop = false ∧ s.idStage.hasFired = false)
    ⟨fun ⟨hl, ha, hf, hw, hb, hr⟩ => ⟨hl, ha, hf, hw, hb, hr⟩,
      fun ⟨hl, ha, hf, hw, hb, hr⟩ => ⟨hl, ha, hf, hw, hb, hr⟩⟩

structure Killed : Prop where
  hadInterrupt : s.csrRegs.hadInterrupt = true
  pending : s.csrRegs.flushQ.isSome = true
  offered : interCMDValid s = true

/-- Nothing is alive behind an instruction that traps or returns, but for what waited for its
result and meets `W`. -/
structure Guarded : Prop extends Settled s where
  decoded : s.exeStage.fromID.nop = false → s.exeStage.fromID ≠ .zero →
    Decoded B.decoder s.exeStage.fromID
  inMEM : CommitsInMEM s → s.exeStage.fromID.nop = true ∧
    (s.idStage.fromIF.nop = true ∨ s.idStage.hasFired = true ∨ W s.idStage.fromIF.inst)
  inWB : CommitsInWB s → s.memStage.fromEXE.nop = true ∧
    (s.exeStage.fromID.nop = true ∨ W s.exeStage.fromID.inst)

variable {B W s io}

theorem Decoded.fuType_of_mret {d : Decoder} {b : IdExeBus} (h : Decoded d b)
    (hm : b.mret = true) (he : b.excepVec = 0#16) : b.decodeBundle.fuType = FuType.CSR := by
  rw [h.mret, h.funct12] at hm
  simp only [Bool.and_eq_true, beq_iff_eq] at hm
  rw [h.bundle]
  exact d.fuType_of_mret (h.legal he) (matches_mretPattern hm.1 hm.2)

theorem decoded_toEXE (h : (toEXE B s io).nop = false) : Decoded B.decoder (toEXE B s io) where
  bundle := ID.decodeBundle_of_alive h
  legal he := ID.legal_of_excepVec he
  funct12 := rfl
  mret := rfl

theorem Killed.interrupt (h : Killed s) : Core.interrupt s io = true := by
  simp [Core.interrupt, CSRRegFile.intrCmdReady, CSRRegFile.redirectValid, FlowQueue.deqValid,
    h.hadInterrupt, h.pending, h.offered]

theorem interrupt_of_raise (hr : CSRRegFile.raiseIntr s.csrRegs io.interrupt = true)
    (hv : interCMDValid s = true) : interrupt s io = true := by
  simp [interrupt, CSRRegFile.intrCmdReady, CSRRegFile.redirectValid, FlowQueue.deqValid,
    CSRRegFile.raiseIntrExcep, hr, hv]

theorem interrupt_of_bubble (h : s.exeStage.fromID.nop = true) : interrupt s io = false := by
  by_contra hi
  simp [(interCMDValid_spec (interrupt_spec (Bool.not_eq_false _ ▸ hi)).2.2).1] at h

theorem killed_next (hi : interrupt s io = true) (hfire : toMEMFire B s io = false)
    (hok : NoDivStarts s io) (hf : s.exeStage.hasFired = false) : Killed (next B s io) := by
  obtain ⟨hh, hq, hv⟩ := interrupt_lasts hi hfire hok hf
  exact ⟨hh, hq, hv⟩

theorem noDivStarts_of_fuType (h : s.exeStage.fromID.decodeBundle.fuType ≠ FuType.DIV) :
    NoDivStarts s io := by
  intro _ hreq
  simp only [EXE.dividerReqValid, EXE.isDIV, Bool.and_eq_true, beq_iff_eq] at hreq
  exact absurd hreq.2.1.1 h

theorem CommitsInWB.redirectValid (h : CommitsInWB s) : redirectValid s io = true := by
  rcases h with h | h <;> simp [Core.redirectValid, CSRRegFile.redirectValid,
    FlowQueue.deqValid, CSRRegFile.raiseIntrExcep, CSRRegFile.raiseExcep, orR, h]

theorem csrCmd_spec (h : CommitsInWB s) : s.fromMEM.nop = false ∧
    (s.fromMEM.excepVec ≠ 0#16 ∨ s.fromMEM.mret = true) := by
  cases hn : s.fromMEM.nop <;> simp_all [CommitsInWB, csrCmd, WB.csrCmd]

theorem Guarded.isCSR_of_mret (h : Guarded B W s) (ha : (toMEM B s io).nop = false)
    (hm : s.exeStage.fromID.mret = true) (he : s.exeStage.fromID.excepVec = 0#16) :
    s.exeStage.fromID.decodeBundle.fuType = FuType.CSR := by
  rw [toMEM_nop h.exeFired, Bool.or_eq_false_iff] at ha
  exact (h.decoded ha.1 fun hz => by simp [hz, IdExeBus.zero] at hm).fuType_of_mret hm he

theorem Guarded.flush (h : Guarded B W s) (ha : (toMEM B s io).nop = false)
    (hc : s.exeStage.fromID.excepVec ≠ 0#16 ∨ s.exeStage.fromID.mret = true) :
    Core.flush B s io = true := by
  by_cases he : s.exeStage.fromID.excepVec = 0#16
  case neg => exact flush_of_excep ha he
  case pos =>
    have hcsr := h.isCSR_of_mret ha (hc.resolve_left (not_not.2 he)) he
    change EXE.nop s.exeStage (exeInputs B s io) = false at ha
    simp [Core.flush, EXE.flush, ha, EXE.isCSR, hcsr]

theorem Guarded.faultAwaited (h : Guarded B W s) (hfire : toMEMFire B s io = true)
    (ha : (toMEM B s io).nop = false)
    (hc : s.exeStage.fromID.excepVec ≠ 0#16 ∨ s.exeStage.fromID.mret = true)
    (hst : ID.stall (idInputs B s io) = true) (hn : s.idStage.fromIF.nop = false)
    (hf : s.idStage.hasFired = false) : FaultAwaited B s io := by
  refine ⟨hfire, ha, fun he => ?_, hst, hn, hf⟩
  have hcsr := h.isCSR_of_mret ha (hc.resolve_left (not_not.2 he)) he
  have hval := (stall_spec (toWBFire_of_toMEMFire hfire) hst).1
  simp [EXE.bypass, hcsr] at hval

theorem Guarded.inMEM_next (h : Guarded B W s)
    (hok : FaultAwaited B s io → W s.idStage.fromIF.inst) (hc : CommitsInMEM (next B s io)) :
    (next B s io).exeStage.fromID.nop = true ∧ ((next B s io).idStage.fromIF.nop = true ∨
      (next B s io).idStage.hasFired = true ∨ W (next B s io).idStage.fromIF.inst) := by
  rw [CommitsInMEM, next_fromEXE] at hc
  rw [next_fromID, next_idStage]
  cases hfire : toMEMFire B s io
  case false =>
    simp only [hfire, Bool.false_eq_true, if_false] at hc
    have h1 := toIDFire_of_stall hfire
    simp only [h1, toEXEFire_eq, hfire, Bool.false_eq_true, if_false, Bool.not_false,
      Bool.true_and, Bool.false_and, Bool.or_false]
    exact h.inMEM hc
  case true =>
    simp only [hfire, if_true] at hc ⊢
    obtain ⟨ha, hc⟩ := hc
    have hflush := h.flush ha hc
    refine ⟨toEXE_nop_of_flush hflush, ?_⟩
    cases h1 : toIDFire B s io
    case true => simp [toID_nop_of_flush hflush]
    case false =>
      cases hst : ID.stall (idInputs B s io)
      case false => simp [toEXEFire_eq, hfire]
      case true =>
        cases hn : s.idStage.fromIF.nop
        case true => simp [hn]
        case false =>
          cases hf : s.idStage.hasFired
          case true => simp
          case false => simp [hok (h.faultAwaited hfire ha hc hst hn hf)]

theorem Guarded.commits_next (h : Guarded B W s) (hc : CommitsInWB (next B s io)) :
    toWBFire s io = true ∧ (CommitsInMEM s ∨ MEM.flush2EXE s.memStage = true) := by
  obtain ⟨hn, hc⟩ := csrCmd_spec hc
  cases hwb : toWBFire s io
  case false =>
    have hsame : (Core.next B s io).fromMEM = s.fromMEM := by simp [Core.next, hwb]
    rw [hsame] at hn hc
    have hcommit : CommitsInWB s := by simpa [CommitsInWB, csrCmd, WB.csrCmd, hn] using hc
    simp [h.toWBFire_of_nop (h.inWB hcommit).1] at hwb
  case true =>
    have hnext : (Core.next B s io).fromMEM = toWB s io := by simp [Core.next, hwb]
    rw [hnext] at hn hc
    have halive : s.memStage.fromEXE.nop = false := by
      simp only [toWB, MEM.toWB, MEM.nop, Bool.or_eq_false_iff] at hn
      exact hn.1
    refine ⟨rfl, ?_⟩
    rcases hc with he | hm
    · exact (MEM.excepVec_cases he).imp_left fun he => ⟨halive, .inl he⟩
    · exact .inl ⟨halive, .inr hm⟩

theorem Guarded.inWB_next (h : Guarded B W s) (hc : CommitsInWB (next B s io)) :
    (next B s io).memStage.fromEXE.nop = true ∧
      ((next B s io).exeStage.fromID.nop = true ∨ W (next B s io).exeStage.fromID.inst) := by
  obtain ⟨hwb, hc⟩ := h.commits_next hc
  rw [next_fromEXE, next_fromID]
  rcases hc with hc | hm
  · obtain ⟨hexe, hid⟩ := h.inMEM hc
    have hfire : toMEMFire B s io = true := by rw [toMEMFire_of_bubble hexe, hwb]
    simp only [hfire, if_true, toMEM_nop h.exeFired, hexe, Bool.true_or, true_and]
    rcases hid with hid | hid | hid
    · exact .inl (IDDead.toEXE_nop (.inl hid))
    · exact .inl (IDDead.toEXE_nop (.inr (.inl hid)))
    · exact .inr hid
  · have hfire : toMEMFire B s io = true := h.toMEMFire_of_flush2EXE hm
    have hkill : kill s io = true := by simp [kill, hm]
    simp [hfire, toMEM_nop h.exeFired, hkill, toEXE_nop_of_flush (flush_of_kill hkill)]

theorem Guarded.next (h : Guarded B W s)
    (hok : FaultAwaited B s io → W s.idStage.fromIF.inst) : Guarded B W (next B s io) where
  toSettled := h.toSettled.next B io
  decoded ha hz := by
    rw [next_fromID] at ha hz ⊢
    cases hfire : toMEMFire B s io
    case true =>
      simp only [hfire, if_true] at ha ⊢
      exact decoded_toEXE ha
    case false =>
      simp only [hfire, Bool.false_eq_true, if_false] at ha hz ⊢
      exact h.decoded ha hz
  inMEM := h.inMEM_next hok
  inWB := h.inWB_next

theorem IsReset.guarded (h : IsReset B s) : Guarded B W s := by
  obtain ⟨_, _, hexe⟩ := h.exeStage
  have hmem := h.memStage
  have hwb := h.fromMEM
  refine ⟨h.settled, ?_, ?_, ?_⟩ <;>
    simp [hexe, hmem, hwb, MEM.reset, CommitsInMEM, CommitsInWB, csrCmd, WB.csrCmd,
      ExeMemBus.zero, MemWbBus.zero]

end Core

end FpgaNpc
