import FpgaNpc.Core.Commit
import FpgaNpc.Core.Mtval
import FpgaNpc.Core.Return

open FpgaNpc.Hardware FpgaNpc.InterStage FpgaNpc.ControlSignals FpgaNpc.ExceptionCodes

namespace FpgaNpc.Core

open CSRRegFile

abbrev ecall : Word := 0x00000073

def envCall : PRIV → Option Nat
  | .User => some UserEnvironmentCall
  | .Supervisor => some SupervisorEnvironmentCall
  | .Reserved => none
  | .Machine => some MachineEnvironmentCall

def RaisesEnvCall (p : PRIV) (v : BitVec 16) : Prop :=
  ∃ code, envCall p = some code ∧
    ∀ c ∈ [UserEnvironmentCall, SupervisorEnvironmentCall, MachineEnvironmentCall],
      v.getLsbD c = true ↔ c = code

variable (B : Build) (s : Regs) (io : Inputs)

/-- An mret commits only when mstatus.MPP holds a mode. -/
def MretLegal : Prop := (csrCmd s).mret = true → trap s io = false →
  PRIV.ofUInt (s.csrRegs.mstatus.extractLsb 12 11) ≠ .Reserved

instance : Decidable (MretLegal s io) := inferInstanceAs (Decidable (_ = _ → _ = _ → _ ≠ _))

/-- The mode is none that is reserved, and an ecall that commits raises the call of its mode. -/
structure PrivilegeRight : Prop where
  legal : s.csrRegs.privilege ≠ .Reserved
  ecall : s.fromMEM.nop = false → s.fromMEM.inst = Core.ecall →
    RaisesEnvCall s.csrRegs.privilege s.fromMEM.excepVec

structure PrivilegeInv : Prop extends Guarded B (· ≠ ecall) s where
  legal : s.csrRegs.privilege ≠ .Reserved
  exe : s.exeStage.fromID.nop = false → s.exeStage.fromID.inst = ecall →
    RaisesEnvCall s.csrRegs.privilege s.exeStage.fromID.excepVec ∨ Killed s
  mem : s.memStage.fromEXE.nop = false → s.memStage.fromEXE.inst = ecall →
    RaisesEnvCall s.csrRegs.privilege s.memStage.fromEXE.excepVec
  wb : s.fromMEM.nop = false → s.fromMEM.inst = ecall →
    RaisesEnvCall s.csrRegs.privilege s.fromMEM.excepVec

variable {B s io}

theorem RaisesEnvCall.ne_zero {p : PRIV} {v : BitVec 16} (h : RaisesEnvCall p v) : v ≠ 0#16 := by
  rintro rfl
  obtain ⟨code, hp, h⟩ := h
  have := (h code (by cases p <;> simp_all [envCall])).2 rfl
  simp at this

theorem excepVec_envCall (d : Decoder) (b : ID.Regs) (i : ID.Inputs) {c : Nat}
    (hc : c ∈ [UserEnvironmentCall, SupervisorEnvironmentCall, MachineEnvironmentCall]) :
    (ID.excepVec d b i).getLsbD c =
      (ID.isECALL b.fromIF && decide (envCall i.privilege = some c)) := by
  rw [ID.excepVec, getLsbD_setBit _ _ _ _ (by decide), getLsbD_setBit _ _ _ _ (by decide),
    getLsbD_setBit _ _ _ _ (by decide)]
  have hc' : c = 8 ∨ c = 9 ∨ c = 11 := by simpa using hc
  rcases hc' with rfl | rfl | rfl <;> cases i.privilege <;> simp [envCall]

theorem raisesEnvCall_of_isECALL {d : Decoder} {b : ID.Regs} {i : ID.Inputs}
    (he : ID.isECALL b.fromIF = true) (hp : i.privilege ≠ .Reserved) :
    RaisesEnvCall i.privilege (ID.excepVec d b i) := by
  obtain ⟨code, hcode⟩ : ∃ code, envCall i.privilege = some code := by
    cases hm : i.privilege
    case Reserved => exact absurd hm hp
    all_goals exact ⟨_, rfl⟩
  refine ⟨code, hcode, fun c hc => ?_⟩
  rw [excepVec_envCall d b i hc, he, hcode]
  simp [eq_comm]

theorem raisesEnvCall_of_excepVec {d : Decoder} {b : ID.Regs} {i : ID.Inputs}
    (hb : b.fromIF.inst = ecall) (hp : i.privilege ≠ .Reserved) :
    RaisesEnvCall i.privilege (ID.excepVec d b i) := by
  refine raisesEnvCall_of_isECALL ?_ hp
  rw [ID.isECALL, ID.funct12, hb]
  decide

theorem next_privilege_eq (ht : trap s io = false) (hm : (csrCmd s).mret = false) :
    (next B s io).csrRegs.privilege = s.csrRegs.privilege := by
  have ht' : CSRRegFile.traps s.csrRegs (csrInputs B s io) = false := ht
  have hm' : (csrInputs B s io).excepCmd.mret = false := hm
  exact (next_privilege).trans (by simp [ht', hm'])

theorem next_privilege_of_quiet (hw : ¬CommitsInWB s) (hi : interrupt s io = false) :
    (next B s io).csrRegs.privilege = s.csrRegs.privilege := by
  rw [CommitsInWB, not_or, not_not, Bool.not_eq_true] at hw
  refine next_privilege_eq ?_ hw.2
  by_contra ht
  rw [Bool.not_eq_false, trap, raiseIntrExcep, Bool.or_eq_true, Bool.and_eq_true] at ht
  rcases ht with ht | ⟨hr, hv⟩
  · simp [raiseExcep, hw.1, orR] at ht
  · simp [interrupt_of_raise hr hv] at hi

theorem PrivilegeInv.legal_next (h : PrivilegeInv B s) (hok : MretLegal s io) :
    (next B s io).csrRegs.privilege ≠ .Reserved := by
  have hnext : (next B s io).csrRegs.privilege = if trap s io then .Machine
      else if (csrCmd s).mret then .ofUInt (s.csrRegs.mstatus.extractLsb 12 11)
      else s.csrRegs.privilege := next_privilege
  rw [hnext]
  split
  case isTrue => simp
  case isFalse ht =>
    split
    case isTrue hm => exact hok hm (Bool.not_eq_true _ ▸ ht)
    case isFalse => exact h.legal

theorem PrivilegeInv.privilege_of_mem (h : PrivilegeInv B s)
    (hn : s.memStage.fromEXE.nop = false) (hinst : s.memStage.fromEXE.inst = ecall) :
    (next B s io).csrRegs.privilege = s.csrRegs.privilege := by
  have hcommit : CommitsInMEM s := ⟨hn, .inl (h.mem hn hinst).ne_zero⟩
  refine next_privilege_of_quiet (fun hw => ?_) (interrupt_of_bubble (h.inMEM hcommit).1)
  simp [(h.inWB hw).1] at hn

theorem PrivilegeInv.privilege_of_exe (h : PrivilegeInv B s)
    (hn : s.exeStage.fromID.nop = false) (hinst : s.exeStage.fromID.inst = ecall)
    (hi : interrupt s io = false) :
    (next B s io).csrRegs.privilege = s.csrRegs.privilege :=
  next_privilege_of_quiet (fun hw => by simpa [hn, hinst] using (h.inWB hw).2) hi

theorem ecall_not_awaited (h : FaultAwaited B s io) : s.idStage.fromIF.inst ≠ ecall := by
  intro hinst
  obtain ⟨-, rs, hmem, hrs⟩ := stall_spec (toWBFire_of_toMEMFire h.leaves) h.awaited
  simp only [BypassNetwork.matched, Bool.and_eq_true, bne_iff_ne] at hrs
  simp only [ID.rs1Addr, ID.rs2Addr, hinst, List.mem_cons, List.not_mem_nil, or_false] at hmem
  rcases hmem with rfl | rfl <;> exact hrs.1.1 (by decide)

theorem fuType_of_ecall (d : Decoder) :
    (d.ctrlWord ecall).decodeBundle.fuType = FuType.CSR := by
  have hrow : ∃ p ∈ ControlLogic.table, p.1.Matches ecall ∧ p.2.fuType = FuType.CSR := by
    decide +kernel
  obtain ⟨p, hp, hm, hf⟩ := hrow
  exact (d.row ecall p hp hm).fuType _ hf

theorem PrivilegeInv.exe_next (h : PrivilegeInv B s)
    (hn : (next B s io).exeStage.fromID.nop = false)
    (hinst : (next B s io).exeStage.fromID.inst = ecall) :
    RaisesEnvCall (next B s io).csrRegs.privilege (next B s io).exeStage.fromID.excepVec ∨
      Killed (next B s io) := by
  rw [next_fromID] at hn hinst ⊢
  cases hfire : toMEMFire B s io
  case true =>
    simp only [hfire, if_true] at hn hinst ⊢
    have hflush := (toEXE_alive hn).2.2.2
    have hpriv : (next B s io).csrRegs.privilege = s.csrRegs.privilege := next_privilege_of_quiet
      (fun hw => by simp [flush_of_redirect hw.redirectValid] at hflush)
      (by
        by_contra hi
        simp [flush_of_redirect (interrupt_spec (Bool.not_eq_false _ ▸ hi)).2.1] at hflush)
    rw [hpriv]
    exact .inl (raisesEnvCall_of_excepVec (i := idInputs B s io) hinst h.legal)
  case false =>
    simp only [hfire, Bool.false_eq_true, if_false] at hn hinst ⊢
    cases hi : interrupt s io
    case true =>
      refine .inr (killed_next hi hfire (noDivStarts_of_fuType ?_) h.exeFired)
      have hz : s.exeStage.fromID ≠ .zero := fun hz => by simp [hz, IdExeBus.zero] at hinst
      rw [(h.decoded hn hz).bundle, hinst, fuType_of_ecall]
      decide
    case false =>
      rw [h.privilege_of_exe hn hinst hi]
      exact (h.exe hn hinst).imp_right fun hk => by simp [hk.interrupt] at hi

theorem PrivilegeInv.mem_next (h : PrivilegeInv B s)
    (hn : (next B s io).memStage.fromEXE.nop = false)
    (hinst : (next B s io).memStage.fromEXE.inst = ecall) :
    RaisesEnvCall (next B s io).csrRegs.privilege (next B s io).memStage.fromEXE.excepVec := by
  rw [next_fromEXE] at hn hinst ⊢
  cases hfire : toMEMFire B s io
  case true =>
    simp only [hfire, if_true] at hn hinst ⊢
    rw [toMEM_nop h.exeFired, Bool.or_eq_false_iff, kill, Bool.or_eq_false_iff] at hn
    obtain ⟨halive, -, hi⟩ := hn
    rw [h.privilege_of_exe halive hinst hi]
    exact (h.exe halive hinst).resolve_right fun hk => by simp [hk.interrupt] at hi
  case false =>
    simp only [hfire, Bool.false_eq_true, if_false] at hn hinst ⊢
    rw [h.privilege_of_mem hn hinst]
    exact h.mem hn hinst

theorem raisesEnvCall_toWB {p : PRIV} (h : RaisesEnvCall p s.memStage.fromEXE.excepVec) :
    RaisesEnvCall p (toWB s io).excepVec := by
  obtain ⟨code, hp, h⟩ := h
  refine ⟨code, hp, fun c hc => ?_⟩
  rw [← h c hc]
  have hc' : c = 8 ∨ c = 9 ∨ c = 11 := by simpa using hc
  change (MEM.excepVec s.memStage).getLsbD c = true ↔ _
  rw [MEM.excepVec, getLsbD_setBit _ _ _ _ (by decide), getLsbD_setBit _ _ _ _ (by decide)]
  rcases hc' with rfl | rfl | rfl <;> simp

theorem PrivilegeInv.wb_next (h : PrivilegeInv B s) (hn : (next B s io).fromMEM.nop = false)
    (hinst : (next B s io).fromMEM.inst = ecall) :
    RaisesEnvCall (next B s io).csrRegs.privilege (next B s io).fromMEM.excepVec := by
  cases hwb : toWBFire s io
  case true =>
    have hnext : (Core.next B s io).fromMEM = toWB s io := by simp [Core.next, hwb]
    rw [hnext] at hn hinst ⊢
    have halive : s.memStage.fromEXE.nop = false := by
      simp only [toWB, MEM.toWB, MEM.nop, Bool.or_eq_false_iff] at hn
      exact hn.1
    rw [h.privilege_of_mem halive hinst]
    exact raisesEnvCall_toWB (h.mem halive hinst)
  case false =>
    have hsame : (Core.next B s io).fromMEM = s.fromMEM := by simp [Core.next, hwb]
    rw [hsame] at hn hinst
    have hcommit : CommitsInWB s := .inl (by
      simpa [csrCmd, WB.csrCmd, hn] using (h.wb hn hinst).ne_zero)
    simp [h.toWBFire_of_nop (h.inWB hcommit).1] at hwb

theorem PrivilegeInv.next (h : PrivilegeInv B s) (hok : MretLegal s io) :
    PrivilegeInv B (next B s io) where
  toGuarded := h.toGuarded.next ecall_not_awaited
  legal := h.legal_next hok
  exe := h.exe_next
  mem := h.mem_next
  wb := h.wb_next

theorem IsReset.privilegeInv (h : IsReset B s) : PrivilegeInv B s := by
  obtain ⟨_, _, hexe⟩ := h.exeStage
  have hmem := h.memStage
  have hwb := h.fromMEM
  have hcsr := h.csrRegs
  refine ⟨h.guarded, ?_, ?_, ?_, ?_⟩ <;>
    simp [hexe, hmem, hwb, hcsr, MEM.reset, CSRRegFile.reset, IdExeBus.zero, ExeMemBus.zero,
      MemWbBus.zero]

theorem privilege_right (h : (machine B).Reaches MretLegal s) : PrivilegeRight s := by
  have hinv : PrivilegeInv B s := h.invariant (P := PrivilegeInv B)
    (fun s hs => IsReset.privilegeInv hs) fun s io ih hok => ih.next hok
  exact ⟨hinv.legal, hinv.wb⟩

theorem privilege_right_ecall :
    let s := (machine .zeros).run (.reset .zeros 0x888) enableEcall
    s.fromMEM.nop = false ∧ s.fromMEM.inst = ecall ∧ PrivilegeRight s := by
  have hr := (machine .zeros).reaches_run MretLegal (.reset .zeros 0x888) enableEcall
    (isReset_reset _ _) (by decide +kernel)
  exact ⟨by decide +kernel, by decide +kernel, privilege_right hr⟩

def returnToReserved : List Inputs :=
  [.request, .fetch 0x30009073, .request, .fetch 0x13, .fetch 0x13, .fetch 0x30200073,
    .fetch 0x13, .fetch 0x13, .fetch 0x13, .fetch 0x13]

theorem privilege_reserved :
    ¬∀ s, (machine .zeros).Reaches (fun _ _ => True) s → PrivilegeRight s := by
  intro h
  have hr := (machine .zeros).reaches_run (fun _ _ => True) (.reset .zeros 0x1000)
    returnToReserved (isReset_reset _ _) (by decide +kernel)
  have hlegal := (h _ hr).legal
  revert hlegal
  decide +kernel

end FpgaNpc.Core
