import FpgaNpc.Core.Handshake

open FpgaNpc.Hardware FpgaNpc.InterStage

namespace FpgaNpc.Core

def kill (s : Regs) (io : Inputs) : Bool := MEM.flush2EXE s.memStage || interrupt s io

def RedirectPending (s : Regs) : Prop :=
  s.csrRegs.flushQ.isSome = true ∨ (WB.csrCmd s.fromMEM).excepVec ≠ 0#16

def IDDead (s : Regs) : Prop :=
  s.idStage.fromIF.nop = true ∨ s.idStage.hasFired = true ∨ RedirectPending s

structure Settled (s : Regs) : Prop where
  exeFired : s.exeStage.hasFired = false
  engaged : MEM.Engaged s.memStage
  table : s.exeStage.fromID.nop = false → s.exeStage.fromID.excepVec = 0#16 →
    s.exeStage.fromID.decodeBundle.FromTable
  bubble : s.exeStage.fromID.nop = true → s.exeStage.fromID.decodeBundle.regWrite = false ∧
    s.exeStage.fromID.decodeBundle.memRead = 0 ∧ s.exeStage.fromID.decodeBundle.memWrite = 0
  /-- A misaligned access leaves with what it kills. -/
  sent : s.memStage.hasFired = true → MEM.flush2EXE s.memStage = false
  faulted : s.memStage.fromEXE.nop = false → s.memStage.fromEXE.excepVec ≠ 0#16 →
    s.exeStage.fromID.nop = true
  /-- An instruction killed in EXE is followed by a bubble and by nothing alive in ID. -/
  behind : s.memStage.fromEXE.nop = true → s.memStage.fromEXE.controlSignals.regWrite = true →
    s.exeStage.fromID.nop = true ∧ IDDead s
  faultedWB : (WB.csrCmd s.fromMEM).excepVec ≠ 0#16 → s.memStage.fromEXE.nop = true

variable {B : Build} {s : Regs} {io : Inputs}

theorem toMEM_nop (h : s.exeStage.hasFired = false) :
    (toMEM B s io).nop = (s.exeStage.fromID.nop || kill s io) := by
  change (s.exeStage.fromID.nop || s.exeStage.hasFired || interrupt s io ||
    MEM.flush2EXE s.memStage) = _
  rw [h, kill, Bool.or_false, Bool.or_assoc, Bool.or_comm (interrupt s io)]

theorem toEXE_alive (h : (toEXE B s io).nop = false) : s.idStage.fromIF.nop = false ∧
    ID.stall (idInputs B s io) = false ∧ s.idStage.hasFired = false ∧ flush B s io = false := by
  simpa [toEXE, ID.toEXE, ID.nop, idInputs, and_assoc] using h

theorem toEXE_nop_of_flush (h : flush B s io = true) : (toEXE B s io).nop = true := by
  simp [toEXE, ID.toEXE, ID.nop, idInputs, h]

theorem flush_of_kill (h : kill s io = true) : flush B s io = true := by
  rw [kill, Bool.or_eq_true] at h
  rcases h with h | h
  · simp [flush, EXE.flush, exeInputs, h]
  · simp [flush, (interrupt_spec h).2.1]

theorem flush_of_excep (h : (toMEM B s io).nop = false)
    (he : s.exeStage.fromID.excepVec ≠ 0#16) : flush B s io = true := by
  change EXE.nop s.exeStage (exeInputs B s io) = false at h
  simp [flush, EXE.flush, h, orR, he]

theorem RedirectPending.redirectValid (h : RedirectPending s) : redirectValid s io = true := by
  rcases h with h | h
  · simp [Core.redirectValid, CSRRegFile.redirectValid, FlowQueue.deqValid, h]
  · simp [Core.redirectValid, CSRRegFile.redirectValid, FlowQueue.deqValid, csrCmd,
      CSRRegFile.raiseIntrExcep, CSRRegFile.raiseExcep, orR, h]

theorem flush_of_redirect (h : redirectValid s io = true) : flush B s io = true := by
  simp [flush, h]

theorem IDDead.toEXE_nop (h : IDDead s) : (toEXE B s io).nop = true := by
  rcases h with h | h | h
  · simp [toEXE, ID.toEXE, ID.nop, h]
  · simp [toEXE, ID.toEXE, ID.nop, h]
  · exact toEXE_nop_of_flush (flush_of_redirect h.redirectValid)

theorem toID_nop_of_flush (h : flush B s io = true) : (toID B s io).nop = true := by
  simp [toID, IF.toID, ifInputs, h]

theorem RedirectPending.of_redirect (h : Core.redirectValid s io = true)
    (hready : (csrInputs B s io).redirectReady = false) : RedirectPending (next B s io) := by
  refine .inl ?_
  change (FlowQueue.next s.csrRegs.flushQ _ _ (csrInputs B s io).redirectReady).isSome = true
  rw [hready, FlowQueue.isSome_next_stalled]
  exact h

theorem IDDead.of_redirect (h : redirectValid s io = true) : IDDead (next B s io) := by
  cases hfire : toIDFire B s io
  case true =>
    exact .inl (by simp [next_idStage, hfire, toID_nop_of_flush (flush_of_redirect h)])
  case false =>
    exact .inr (.inr (.of_redirect h (redirectReady_of_stall hfire)))

theorem IsReset.settled (h : IsReset B s) : Settled s := by
  obtain ⟨_, _, hexe⟩ := h.exeStage
  have hmem := h.memStage
  have hwb := h.fromMEM
  refine ⟨?_, fun hs => absurd (by rw [hmem]; rfl) hs, fun _ _ => ⟨?_, ?_, ?_⟩, ?_, ?_, ?_, ?_,
    ?_⟩ <;>
    simp [hexe, hmem, hwb, MEM.reset, IdExeBus.zero, DecodeBundle.zero, ExeMemBus.zero,
      ExeMemSignalsBundle.zero, WB.csrCmd, MemWbBus.zero]

theorem Settled.toMEMFire_of_flush2EXE (h : Settled s)
    (hf : MEM.flush2EXE s.memStage = true) : toMEMFire B s io = true := by
  have hnop : EXE.nop s.exeStage (exeInputs B s io) = true := by
    simp [EXE.nop, exeInputs, hf]
  rw [toMEMFire, EXE.toMEMFire_of_nop hnop]
  exact h.engaged.toWBValid_of_flush2EXE hf

theorem toMEMFire_of_bubble (h : s.exeStage.fromID.nop = true) :
    toMEMFire B s io = toWBFire s io :=
  EXE.toMEMFire_of_nop (by simp [EXE.nop, h])

theorem Settled.toWBFire_of_nop (h : Settled s) (hn : s.memStage.fromEXE.nop = true) :
    toWBFire s io = true := MEM.Engaged.toWBValid_of_nop h.engaged hn

theorem csrCmd_excepVec {b : MemWbBus} (h : (WB.csrCmd b).excepVec ≠ 0#16) :
    b.nop = false ∧ b.excepVec ≠ 0#16 := by
  cases hn : b.nop <;> simp_all [WB.csrCmd]

theorem Settled.toMEM_nop_of_excep (h : Settled s) (hfire : toWBFire s io = true)
    (he : (WB.csrCmd (toWB s io)).excepVec ≠ 0#16) :
    toMEMFire B s io = true ∧ (toMEM B s io).nop = true := by
  obtain ⟨hnop, he⟩ := csrCmd_excepVec he
  have halive : s.memStage.fromEXE.nop = false := by
    simp only [toWB, MEM.toWB, MEM.nop, Bool.or_eq_false_iff] at hnop
    exact hnop.1
  rw [toMEM_nop h.exeFired]
  rcases MEM.excepVec_cases he with he | hf
  · have hb := h.faulted halive he
    exact ⟨by rw [toMEMFire_of_bubble hb, hfire], by simp [hb]⟩
  · exact ⟨h.toMEMFire_of_flush2EXE hf, by simp [kill, hf]⟩

theorem Settled.toMEMFire_of_bubbles (h : Settled s) (hm : s.memStage.fromEXE.nop = true)
    (he : s.exeStage.fromID.nop = true) : toMEMFire B s io = true := by
  rw [toMEMFire_of_bubble he]
  exact h.toWBFire_of_nop hm

theorem Settled.behind_kill (h : Settled s) (hfire : toMEMFire B s io = true)
    (halive : s.exeStage.fromID.nop = false) (hn : (toMEM B s io).nop = true) :
    (next B s io).exeStage.fromID.nop = true ∧ IDDead (next B s io) := by
  have hkill : kill s io = true := by simpa [toMEM_nop h.exeFired, halive] using hn
  rw [next_fromID, hfire, if_pos rfl]
  refine ⟨toEXE_nop_of_flush (flush_of_kill hkill), ?_⟩
  rw [kill, Bool.or_eq_true] at hkill
  rcases hkill with hf | hi
  · refine .inr (.inr (.inr ?_))
    have hfired : s.memStage.hasFired = false := by
      by_contra hs
      simp [h.sent (Bool.not_eq_false _ ▸ hs)] at hf
    have hwb : (Core.next B s io).fromMEM = toWB s io := by
      simp [Core.next, toWBFire_of_toMEMFire hfire]
    have hnop : (toWB s io).nop = false := by
      simp [toWB, MEM.toWB, MEM.nop, MEM.nop_of_flush2EXE hf, hfired]
    rw [hwb, WB.csrCmd, hnop]
    exact MEM.excepVec_of_flush2EXE hf
  · exact IDDead.of_redirect (interrupt_spec hi).2.1

theorem Settled.next (h : Settled s) (B : Build) (io : Inputs) : Settled (next B s io) where
  exeFired := next_exeStage_hasFired h.exeFired
  engaged := h.engaged.next
  table ha he := by
    rw [next_fromID] at ha he ⊢
    cases hfire : toMEMFire B s io
    case false =>
      simp only [hfire, Bool.false_eq_true, if_false] at ha he ⊢
      exact h.table ha he
    case true =>
      simp only [hfire, if_true] at ha he ⊢
      have hnop : ID.nop s.idStage (idInputs B s io) = false := ha
      have htable := B.decoder.fromTable_of_legal (ID.legal_of_excepVec he)
      rw [← ID.decodeBundle_of_alive hnop] at htable
      exact htable
  bubble hn := by
    rw [next_fromID] at hn ⊢
    cases hfire : toMEMFire B s io
    case true =>
      simp only [hfire, if_true, toEXE, ID.toEXE] at hn ⊢
      simp [ID.decodeBundle, hn, fill]
    case false => simpa [hfire] using h.bubble (by simpa [hfire] using hn)
  sent hs := by
    rw [next_memStage_hasFired, Bool.and_eq_true, Bool.not_eq_true'] at hs
    have hflush : MEM.flush2EXE (Core.next B s io).memStage = MEM.flush2EXE s.memStage := by
      simp [MEM.flush2EXE, MEM.ren, MEM.wen, MEM.align, MEM.vaddr, MEM.byteWise,
        MEM.controlSignals, next_fromEXE, hs.1]
    rw [hflush]
    by_contra hf
    simp [h.toMEMFire_of_flush2EXE (Bool.not_eq_false _ ▸ hf)] at hs
  faulted hn he := by
    rw [next_fromEXE] at hn he
    rw [next_fromID]
    cases hfire : toMEMFire B s io
    case true =>
      simp only [hfire, if_true] at hn he ⊢
      exact toEXE_nop_of_flush (flush_of_excep hn he)
    case false =>
      simp only [hfire, Bool.false_eq_true, if_false] at hn he ⊢
      exact h.faulted hn he
  behind hn hw := by
    have hfrom := next_fromEXE B s io
    cases hfire : toMEMFire B s io
    case true =>
      simp only [hfire, if_true] at hfrom
      rw [hfrom] at hn hw
      have halive : s.exeStage.fromID.nop = false := by
        by_contra hb
        have hb := (h.bubble (Bool.not_eq_false _ ▸ hb)).1
        simp [toMEM, EXE.toMEM, EXE.controlSignals, hb] at hw
      exact h.behind_kill hfire halive hn
    case false =>
      simp only [hfire, Bool.false_eq_true, if_false] at hfrom
      rw [hfrom] at hn hw
      simp [h.toMEMFire_of_bubbles hn (h.behind hn hw).1] at hfire
  faultedWB he := by
    cases hfire : toWBFire s io
    case true =>
      have hwb : (Core.next B s io).fromMEM = toWB s io := by simp [Core.next, hfire]
      rw [hwb] at he
      obtain ⟨hmem, hnop⟩ := h.toMEM_nop_of_excep (B := B) hfire he
      simp [next_fromEXE, hmem, hnop]
    case false =>
      have hwb : (Core.next B s io).fromMEM = s.fromMEM := by simp [Core.next, hfire]
      rw [hwb] at he
      simp [h.toWBFire_of_nop (h.faultedWB he)] at hfire

end FpgaNpc.Core
