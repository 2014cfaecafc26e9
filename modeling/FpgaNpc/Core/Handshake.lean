import FpgaNpc.Core.Pipeline
import FpgaNpc.Core.Division

universe u

open FpgaNpc.Hardware FpgaNpc.InterStage

namespace FpgaNpc

section Interrupt

variable {s : CSRRegFile.Regs} {i : CSRRegFile.InterruptSimple} {cmd : CSRRegFile.ExcepCMD}
variable {intrCmdValid : Bool}

theorem CSRRegFile.intrCmdReady_spec (h : intrCmdReady s i cmd intrCmdValid = true) :
    (raiseIntr s i = true ∨ s.hadInterrupt = true) ∧
      redirectValid s i cmd intrCmdValid = true ∧ intrCmdValid = true := by
  simpa [intrCmdReady, and_assoc] using h

end Interrupt

theorem MultiCycle.next_idle {ρ : Type u} {latency : Nat} {s : Regs ρ} {reqValid : Bool}
    {result : ρ} {respReady : Bool} (h : s.busy = false) (hr : reqValid = false) :
    (next latency s reqValid result respReady).busy = false := by
  simp [next, h, hr]

section EXE

variable {s : EXE.Regs} {io : EXE.Inputs}

theorem EXE.toMEMFire_of_nop (h : nop s io = true) : toMEMFire s io = io.toMEMReady := by
  simp [toMEMFire, toMEMValid, jumpValid, mulOrDivValid, mulOrDivEnable, jumpBusValid, h]

theorem EXE.next_fromID (mulLatency divLatency : Nat) (toEXE : IdExeBus) :
    (EXE.next s io mulLatency divLatency toEXE).fromID =
      if toMEMFire s io then toEXE else s.fromID := by
  simp [EXE.next, fromIDFire_eq, RegEnable]

end EXE

section ID

variable (s : ID.Regs) (io : ID.Inputs)

theorem ID.next_eq (toID : IfIdBus) : next s io toID =
    ⟨if fromIFFire io then toID else s.fromIF,
      !fromIFFire io && (s.hasFired || (toEXEFire io && !stall io))⟩ := by
  have hle : fromIFFire io = true → toEXEFire io = true := fun h => by
    simp only [fromIFFire, fromIFReady, Bool.and_eq_true] at h
    exact h.2.1
  cases h1 : fromIFFire io <;> cases h2 : toEXEFire io <;> cases h3 : stall io <;>
    cases h4 : s.hasFired <;> simp_all [next, RegEnable]

variable {s io}

theorem ID.legal_of_excepVec {d : Decoder}
    (h : ID.excepVec d s io = 0#16) : (d.ctrlWord s.fromIF.inst).legal = true := by
  have hbit : (ID.excepVec d s io).getLsbD 2 = !(d.ctrlWord s.fromIF.inst).legal := by
    simp only [ID.excepVec]
    rw [getLsbD_setBit _ _ _ _ (by decide), getLsbD_setBit _ _ _ _ (by decide),
      getLsbD_setBit _ _ _ _ (by decide), getLsbD_setBit _ _ _ _ (by decide)]
    rfl
  simpa [h] using hbit.symm

theorem ID.decodeBundle_of_alive {d : Decoder}
    (h : ID.nop s io = false) :
    ID.decodeBundle d s io = (d.ctrlWord s.fromIF.inst).decodeBundle := by
  have hfill : ∀ x : BitVec 4, x &&& 15#4 = x := by decide
  simp [ID.decodeBundle, h, fill, hfill]

end ID

section MEM

variable {s : MEM.Regs} {io : MEM.Inputs} {fromEXEValid : Bool} {toMEM : ExeMemBus}

theorem MEM.flush2EXE_congr {s' : Regs} (hfrom : s'.fromEXE = s.fromEXE) :
    flush2EXE s' = flush2EXE s := by
  simp [flush2EXE, ren, wen, align, vaddr, byteWise, controlSignals, hfrom]

theorem MEM.next_hasFired : (next s io fromEXEValid toMEM).hasFired =
    (!fromEXEFire s io fromEXEValid && (s.hasFired || toWBFire s io)) := by
  have hle : fromEXEFire s io fromEXEValid = true → toWBFire s io = true := fun h => by
    simp only [fromEXEFire, Bool.and_eq_true] at h
    exact h.2
  cases h3 : fromEXEFire s io fromEXEValid <;> cases h4 : toWBFire s io <;>
    cases h5 : s.hasFired <;> simp_all [next, RegEnable]

theorem MEM.access_eq_false_of_flush2EXE (h : flush2EXE s = true) : access s = false := by
  simp only [flush2EXE, Bool.and_eq_true, Bool.not_eq_true'] at h
  simp [access, h.2]

theorem MEM.excepVec_of_flush2EXE (h : flush2EXE s = true) : excepVec s ≠ 0#16 := by
  simp only [flush2EXE, Bool.and_eq_true, Bool.or_eq_true, Bool.not_eq_true'] at h
  obtain ⟨hr | hw, ha⟩ := h
  · have hbit : (excepVec s).getLsbD 4 = true := by
      rw [excepVec, getLsbD_setBit _ _ _ _ (by decide), getLsbD_setBit _ _ _ _ (by decide)]
      simp [ha, hr]
    exact fun hz => by simp [hz] at hbit
  · have hbit : (excepVec s).getLsbD 6 = true := by
      rw [excepVec, getLsbD_setBit _ _ _ _ (by decide)]
      simp [ha, hw]
    exact fun hz => by simp [hz] at hbit

theorem MEM.flush2EXE_of_bit
    (h : (excepVec s).getLsbD 4 = true ∨ (excepVec s).getLsbD 6 = true) :
    flush2EXE s = true := by
  rcases h with h | h
  · rw [excepVec, getLsbD_setBit _ _ _ _ (by decide), getLsbD_setBit _ _ _ _ (by decide)] at h
    have : MEM.align s = false ∧ ren s = true := by simpa using h
    simp [flush2EXE, this]
  · rw [excepVec, getLsbD_setBit _ _ _ _ (by decide)] at h
    have : MEM.align s = false ∧ wen s = true := by simpa using h
    simp [flush2EXE, this]

theorem MEM.excepVec_cases (h : excepVec s ≠ 0#16) :
    s.fromEXE.excepVec ≠ 0#16 ∨ flush2EXE s = true := by
  refine or_iff_not_imp_right.2 fun hf he => h ?_
  have hr : (!align s && ren s) = false := by
    cases ha : align s <;> simp_all [flush2EXE]
  have hw : (!align s && wen s) = false := by
    cases ha : align s <;> simp_all [flush2EXE]
  simp [excepVec, hr, hw, he, setBit]

theorem MEM.nop_of_flush2EXE (h : flush2EXE s = true) : s.fromEXE.nop = false := by
  cases hn : s.fromEXE.nop
  · rfl
  · simp [flush2EXE, ren, wen, hn] at h

theorem MEM.not_nop_of_access (h : access s = true) : s.fromEXE.nop = false := by
  by_contra hn
  simp [access, ren, wen, hn] at h

def MEM.Engaged (s : Regs) : Prop := s.state ≠ .IDLE → access s = true

theorem MEM.Engaged.toWBValid_of_flush2EXE (h : Engaged s) (hf : flush2EXE s = true) :
    toWBValid s io = true := by
  have ha := access_eq_false_of_flush2EXE hf
  have hs : s.state = .IDLE := by
    by_contra hs
    simp [h hs] at ha
  simp [toWBValid, hs, ha]

theorem MEM.Engaged.toWBValid_of_nop (h : Engaged s) (hn : s.fromEXE.nop = true) :
    toWBValid s io = true := by
  have ha : access s = false := by simp [access, ren, wen, hn]
  have hs : s.state = .IDLE := by
    by_contra hs
    simp [h hs] at ha
  simp [toWBValid, hs, ha]

theorem MEM.nextState_of_fire (h : fromEXEFire s io fromEXEValid = true) :
    nextState s io fromEXEValid = .IDLE := by
  simp only [fromEXEFire, fromEXEReady, Bool.and_eq_true] at h
  obtain ⟨hv, hready⟩ := h
  by_contra hne
  cases hst : s.state <;>
    simp_all [nextState, toWBValid, rRespFire, wRespFire, rRespReady, wRespReady, reqFire, req]

theorem MEM.Engaged.next (h : Engaged s) : Engaged (next s io fromEXEValid toMEM) := by
  intro hs
  have hstate : nextState s io fromEXEValid ≠ .IDLE := hs
  have hstay : fromEXEFire s io fromEXEValid = false := by
    by_contra hf
    exact hstate (nextState_of_fire (Bool.not_eq_false _ ▸ hf))
  have hfrom : (MEM.next s io fromEXEValid toMEM).fromEXE = s.fromEXE := by
    simp [MEM.next, hstay]
  have hacc : access (MEM.next s io fromEXEValid toMEM) = access s := by
    simp [access, ren, wen, align, vaddr, byteWise, controlSignals, hfrom]
  rw [hacc]
  by_cases hst : s.state = .IDLE
  · by_contra ha
    rw [Bool.not_eq_true] at ha
    simp [nextState, hst, ha] at hstate
  · exact h hst

end MEM

namespace Core

variable {B : Build} {s : Regs} {io : Inputs}

theorem toEXEFire_eq (B : Build) (s : Regs) (io : Inputs) :
    toEXEFire B s io = toMEMFire B s io :=
  EXE.fromIDFire_eq _ _

theorem toWBFire_of_toMEMFire (h : toMEMFire B s io = true) : toWBFire s io = true :=
  EXE.toMEMReady_of_fire h

theorem toIDFire_spec (h : toIDFire B s io = true) :
    toMEMFire B s io = true ∧ ID.stall (idInputs B s io) = false := by
  rw [← toEXEFire_eq]
  simp only [toIDFire, ID.fromIFFire, ID.fromIFReady, Bool.and_eq_true, Bool.not_eq_true'] at h
  exact h.2

theorem toIDFire_of_stall (h : toMEMFire B s io = false) : toIDFire B s io = false := by
  by_contra h1
  simp [(toIDFire_spec (Bool.not_eq_false _ ▸ h1)).1] at h

theorem interrupt_spec (h : interrupt s io = true) :
    (CSRRegFile.raiseIntr s.csrRegs io.interrupt = true ∨ s.csrRegs.hadInterrupt = true) ∧
      redirectValid s io = true ∧ interCMDValid s = true :=
  CSRRegFile.intrCmdReady_spec h

theorem interCMDValid_spec (h : interCMDValid s = true) :
    s.exeStage.fromID.nop = false ∧ s.exeStage.hasFired = false ∧
      MEM.flush2EXE s.memStage = false ∧ s.exeStage.multiplier.busy = false ∧
      s.exeStage.divider.busy = false := by
  simpa [interCMDValid, EXE.interCMDValid, and_assoc] using h

theorem next_idStage (B : Build) (s : Regs) (io : Inputs) : (next B s io).idStage =
    ⟨if toIDFire B s io then toID B s io else s.idStage.fromIF,
      !toIDFire B s io && (s.idStage.hasFired ||
        (toEXEFire B s io && !ID.stall (idInputs B s io)))⟩ :=
  ID.next_eq _ _ _

theorem next_fromID (B : Build) (s : Regs) (io : Inputs) : (next B s io).exeStage.fromID =
    if toMEMFire B s io then toEXE B s io else s.exeStage.fromID :=
  EXE.next_fromID _ _ _

theorem next_exeStage_hasFired (h : s.exeStage.hasFired = false) :
    (next B s io).exeStage.hasFired = false := by
  simp [next, EXE.next, EXE.fromIDFire_eq, RegEnable, h]

theorem fromEXEFire_eq (B : Build) (s : Regs) (io : Inputs) :
    MEM.fromEXEFire s.memStage io.dbus (EXE.toMEMValid s.exeStage (exeInputs B s io)) =
      toMEMFire B s io := rfl

theorem next_fromEXE (B : Build) (s : Regs) (io : Inputs) : (next B s io).memStage.fromEXE =
    if toMEMFire B s io then toMEM B s io else s.memStage.fromEXE := by
  rw [← fromEXEFire_eq]
  rfl

theorem next_fromMEM (B : Build) (s : Regs) (io : Inputs) :
    (next B s io).fromMEM = if toWBFire s io then toWB s io else s.fromMEM := rfl

theorem next_memStage_hasFired (B : Build) (s : Regs) (io : Inputs) :
    (next B s io).memStage.hasFired =
      (!toMEMFire B s io && (s.memStage.hasFired || toWBFire s io)) := by
  rw [← fromEXEFire_eq]
  exact MEM.next_hasFired

theorem toIDFire_eq (B : Build) (s : Regs) (io : Inputs) :
    IF.toIDFire B.config s.ifStage (ifInputs B s io) = toIDFire B s io := rfl

theorem matched_of_bypassType {exe mem wb : BypassFrom} {rs : BitVec 5}
    (h : BypassNetwork.bypassType exe mem wb rs = .FromEXE) :
    BypassNetwork.matched exe rs = true := by
  rw [BypassNetwork.bypassType] at h
  by_contra hm
  rw [if_neg hm] at h
  split at h
  · simp at h
  · split at h <;> simp at h

theorem stall_spec (hv : toWBFire s io = true) (hst : ID.stall (idInputs B s io) = true) :
    (EXE.bypass s.exeStage (exeInputs B s io)).valid = false ∧
      ∃ rs ∈ [ID.rs1Addr s.idStage.fromIF, ID.rs2Addr s.idStage.fromIF],
        BypassNetwork.matched (EXE.bypass s.exeStage (exeInputs B s io)) rs = true := by
  have hmem : (MEM.bypass s.memStage io.dbus).valid = true := hv
  simp only [ID.stall, idInputs, BypassNetwork.newestDataGetable, Bool.not_not, hmem,
    Bool.not_true, Bool.and_false, Bool.or_false, Bool.or_eq_true, Bool.and_eq_true,
    beq_iff_eq, Bool.not_eq_true'] at hst
  rcases hst with ⟨hrs, hval⟩ | ⟨hrs, hval⟩
  · exact ⟨hval, _, by simp, matched_of_bypassType hrs⟩
  · exact ⟨hval, _, by simp, matched_of_bypassType hrs⟩

theorem redirectReady_of_stall (h : toIDFire B s io = false) :
    (csrInputs B s io).redirectReady = false := by
  simp [csrInputs, IF.excepCMDReady, toIDFire_eq, h]

theorem csrWen_spec (h : (csrInputs B s io).writePort.wen = true) :
    toMEMFire B s io = true ∧ (toMEM B s io).nop = false ∧
      s.exeStage.fromID.decodeBundle.csrWrite = true := by
  have h' : (s.exeStage.fromID.decodeBundle.csrWrite && toMEMFire B s io &&
    !(toMEM B s io).nop) = true := h
  simp only [Bool.and_eq_true, Bool.not_eq_true'] at h'
  exact ⟨h'.1.2, h'.2, h'.1.1⟩

end Core

end FpgaNpc
