import FpgaNpc.Core.Flush
import FpgaNpc.Core.Traps
import FpgaNpc.Hardware.Machine

open FpgaNpc.Hardware FpgaNpc.InterStage

namespace FpgaNpc

theorem CSRRegFile.firstOf_spec {n : Nat} {v : BitVec n} {is : List Nat} {i : Nat}
    (h : firstOf v is = i) (hi : i ≠ 0) : v.getLsbD i = true := by
  induction is with
  | nil => exact absurd h.symm hi
  | cons j is ih =>
    rw [firstOf] at h
    split at h
    case isTrue hj => exact h ▸ hj
    case isFalse => exact ih h

namespace Core

open CSRRegFile CsrConsts ExceptionCodes

variable (B : Build) (s : Regs) (io : Inputs)

/-- What mtval has to hold. There is no such value from the cycle in which a misaligned access
is in MEM until it traps. -/
structure TvalHistory where
  addr : Word
  tval : Option Word

def accessTrap : Bool :=
  raiseExcep (csrCmd s) && !raiseIntr s.csrRegs io.interrupt &&
    (excepNo (csrCmd s) == LoadAddressMisaligned ||
      excepNo (csrCmd s) == StoreAMOAddressMisaligned)

def trapValue (g : TvalHistory) : Option Word :=
  if raiseIntr s.csrRegs io.interrupt then some 0
  else if accessTrap s io then some g.addr
  else if excepNo (csrCmd s) = InstructionAddressMisaligned then some s.fromMEM.pc
  else if excepNo (csrCmd s) ∈ [IllegalInstruction, UserEnvironmentCall,
    SupervisorEnvironmentCall, MachineEnvironmentCall] then some 0
  else none

def trap : Bool := raiseIntrExcep s.csrRegs io.interrupt (csrCmd s) (interCMDValid s)

def TvalHistory.observe (g : TvalHistory) : TvalHistory where
  addr := if toWBFire s io then MEM.vaddr s.memStage else g.addr
  tval :=
    if trap s io then trapValue s io g
    else if MEM.flush2EXE s.memStage then none
    else if writesCsr B s io Mtval then some (csrInputs B s io).writePort.wdata
    else g.tval

def withTval : Machine (Regs × TvalHistory) Inputs :=
  (machine B).monitor ⟨0, some 0⟩ (TvalHistory.observe B)

/-- mtval holds what it has to, and with the address of a misaligned access goes its pc. -/
structure TvalRight (g : TvalHistory) : Prop where
  mtval : ∀ v ∈ g.tval, s.csrRegs.mtval = v
  mepc : accessTrap s io = true → (next B s io).csrRegs.mepc = s.fromMEM.pc

/-- What was killed in EXE has no misaligned address, no exception in WB is a misaligned pc, and
none comes together with a write of mtval or mepc by EXE. -/
structure TvalUndisturbed : Prop where
  killed : s.memStage.fromEXE.nop = true → MEM.align s.memStage = true
  fetch : raiseExcep (csrCmd s) = true → raiseIntr s.csrRegs io.interrupt = false →
    excepNo (csrCmd s) ≠ InstructionAddressMisaligned
  write : raiseExcep (csrCmd s) = true →
    ¬writesCsr B s io Mtval ∧ ¬writesCsr B s io Mepc

instance : Decidable (TvalUndisturbed B s io) :=
  decidable_of_iff ((s.memStage.fromEXE.nop = true → MEM.align s.memStage = true) ∧
      (raiseExcep (csrCmd s) = true → raiseIntr s.csrRegs io.interrupt = false →
        excepNo (csrCmd s) ≠ InstructionAddressMisaligned) ∧
      (raiseExcep (csrCmd s) = true → ¬writesCsr B s io Mtval ∧ ¬writesCsr B s io Mepc))
    ⟨fun ⟨hk, hf, hw⟩ => ⟨hk, hf, hw⟩, fun ⟨hk, hf, hw⟩ => ⟨hk, hf, hw⟩⟩

structure TvalInv (g : TvalHistory) : Prop extends Settled s where
  mtval : ∀ v ∈ g.tval, s.csrRegs.mtval = v
  /-- MEM sets mtval in the cycle before the misaligned access traps. -/
  addr : s.fromMEM.nop = false →
    (s.fromMEM.excepVec.getLsbD 4 = true ∨ s.fromMEM.excepVec.getLsbD 6 = true) →
      s.csrRegs.mtval = g.addr
  mask : s.memStage.fromEXE.nop = false → MEM.byteWise s.memStage ≠ 0#4 →
    (MEM.ren s.memStage || MEM.wen s.memStage) = true

variable {B s io} {g : TvalHistory}

theorem next_csrRegs_mtval : (next B s io).csrRegs.mtval =
    if writesCsr B s io Mtval then (csrInputs B s io).writePort.wdata
    else if trap s io && tvalClear s.csrRegs (csrInputs B s io) then 0
    else if MEM.align s.memStage then s.csrRegs.mtval
    else MEM.vaddr s.memStage := by
  have h : (if MEM.align s.memStage then s.csrRegs.mtval else MEM.vaddr s.memStage) =
      if (csrInputs B s io).setMtval then (csrInputs B s io).setMtval_val else s.csrRegs.mtval := by
    cases ha : MEM.align s.memStage <;> simp [csrInputs, MEM.setMtval, ha]
  refine (next_mtval _ _).trans ?_
  rw [portWrite_allOnes, h]
  rfl

theorem writePort_of_flush2EXE (h : MEM.flush2EXE s.memStage = true) (addr : BitVec 12) :
    ¬writesCsr B s io addr := by
  have hnop : EXE.nop s.exeStage (exeInputs B s io) = true := by
    simp [EXE.nop, exeInputs, h]
  simp [writesCsr, csrInputs, EXE.csrWen, hnop]

theorem raiseExcep_spec (h : raiseExcep (csrCmd s) = true) :
    (WB.csrCmd s.fromMEM).excepVec ≠ 0#16 := by
  simpa [raiseExcep, orR, csrCmd] using h

theorem Settled.no_trap_of_flush2EXE (h : Settled s) (hf : MEM.flush2EXE s.memStage = true) :
    trap s io = false := by
  have halive := MEM.nop_of_flush2EXE hf
  have he : raiseExcep (csrCmd s) = false := by
    by_contra he
    simp [h.faultedWB (raiseExcep_spec (Bool.not_eq_false _ ▸ he))] at halive
  simp [trap, raiseIntrExcep, he, interCMDValid, EXE.interCMDValid, hf]

theorem TvalInv.align (h : TvalInv s g) (hok : TvalUndisturbed B s io)
    (hf : MEM.flush2EXE s.memStage = false) : MEM.align s.memStage = true := by
  cases hn : s.memStage.fromEXE.nop
  case true => exact hok.killed hn
  case false =>
    by_cases hm : MEM.byteWise s.memStage = 0#4
    · exact MEM.align_of_no_mask hm
    · have := h.mask hn hm
      simpa [MEM.flush2EXE, this] using hf

theorem tvalClear_of_intr (h : raiseIntr s.csrRegs io.interrupt = true) :
    tvalClear s.csrRegs (csrInputs B s io) = true := by
  simp [tvalClear, csrInputs, h]

theorem trap_cases (h : trap s io = true) (hi : raiseIntr s.csrRegs io.interrupt = false) :
    raiseExcep (csrCmd s) = true := by
  simpa [trap, raiseIntrExcep, hi] using h

theorem accessTrap_spec (h : accessTrap s io = true) : raiseExcep (csrCmd s) = true ∧
    raiseIntr s.csrRegs io.interrupt = false ∧ s.fromMEM.nop = false ∧
      (s.fromMEM.excepVec.getLsbD 4 = true ∨ s.fromMEM.excepVec.getLsbD 6 = true) := by
  simp only [accessTrap, Bool.and_eq_true, Bool.or_eq_true, Bool.not_eq_true', beq_iff_eq] at h
  obtain ⟨⟨he, hi⟩, hno⟩ := h
  have hnop := (csrCmd_excepVec (raiseExcep_spec he)).1
  have hvec : (csrCmd s).excepVec = s.fromMEM.excepVec := by simp [csrCmd, WB.csrCmd, hnop]
  refine ⟨he, hi, hnop, ?_⟩
  rw [← hvec]
  exact hno.imp (fun h4 => firstOf_spec h4 (by decide)) fun h6 => firstOf_spec h6 (by decide)

theorem TvalUndisturbed.no_write (hok : TvalUndisturbed B s io) (ht : trap s io = true) :
    ¬writesCsr B s io Mtval := by
  by_cases he : raiseExcep (csrCmd s) = true
  · exact (hok.write he).1
  · have hi : raiseIntr s.csrRegs io.interrupt = true ∧ interCMDValid s = true := by
      simpa [trap, raiseIntrExcep, he] using ht
    exact writePort_of_intr hi.1 hi.2 _

theorem TvalInv.trapValue_right (h : TvalInv s g) (hok : TvalUndisturbed B s io)
    (ht : trap s io = true) : ∀ v ∈ trapValue s io g, (next B s io).csrRegs.mtval = v := by
  intro v hv
  rw [next_csrRegs_mtval, if_neg (hok.no_write ht), ht, Bool.true_and]
  rw [trapValue] at hv
  cases hi : raiseIntr s.csrRegs io.interrupt
  case true =>
    rw [tvalClear_of_intr hi]
    simpa [hi] using hv
  case false =>
    have he := trap_cases ht hi
    cases hacc : accessTrap s io
    case true =>
      obtain ⟨-, -, hnop, hbit⟩ := accessTrap_spec hacc
      have hclear : tvalClear s.csrRegs (csrInputs B s io) = false := by
        simp only [accessTrap, Bool.and_eq_true, Bool.or_eq_true, beq_iff_eq] at hacc
        rcases hacc.2 with hno | hno <;> simp [tvalClear, csrInputs, hi, hno]
      have halign := hok.killed (h.faultedWB (raiseExcep_spec he))
      simp only [hi, hacc, Bool.false_eq_true, if_false, if_true, Option.mem_def,
        Option.some.injEq] at hv
      simp [hclear, halign, h.addr hnop hbit, hv]
    case false =>
      simp only [hi, hacc, hok.fetch he hi, Bool.false_eq_true, if_false] at hv
      split at hv
      case isFalse => simp at hv
      case isTrue hno =>
        have hclear : tvalClear s.csrRegs (csrInputs B s io) = true := by
          simp only [List.mem_cons, List.not_mem_nil, or_false] at hno
          rcases hno with hno | hno | hno | hno <;> simp [tvalClear, csrInputs, hno]
        rw [hclear]
        simpa using hv

theorem Settled.mask_next (h : Settled s)
    (hmask : s.memStage.fromEXE.nop = false → MEM.byteWise s.memStage ≠ 0#4 →
      (MEM.ren s.memStage || MEM.wen s.memStage) = true)
    (hn : (Core.next B s io).memStage.fromEXE.nop = false)
    (hm : MEM.byteWise (Core.next B s io).memStage ≠ 0#4) :
    (MEM.ren (Core.next B s io).memStage || MEM.wen (Core.next B s io).memStage) = true := by
  have hfrom := next_fromEXE B s io
  cases hfire : toMEMFire B s io
  case false =>
    simp only [hfire, Bool.false_eq_true, if_false] at hfrom
    have hcontrol : MEM.controlSignals (Core.next B s io).memStage =
        MEM.controlSignals s.memStage := congrArg ExeMemBus.controlSignals hfrom
    rw [hfrom] at hn
    rw [MEM.byteWise, hcontrol] at hm
    rw [MEM.ren, MEM.wen, hcontrol, hfrom]
    exact hmask hn hm
  case true =>
    simp only [hfire, if_true] at hfrom
    rw [hfrom] at hn
    have halive := hn
    rw [toMEM_nop h.exeFired, Bool.or_eq_false_iff] at halive
    simp only [MEM.byteWise, MEM.controlSignals, hfrom, toMEM, EXE.toMEM,
      EXE.controlSignals] at hm
    rw [MEM.ren, MEM.wen, MEM.controlSignals, hfrom, hn]
    simp only [toMEM, EXE.toMEM, EXE.controlSignals, halive.1, orR, Bool.not_false,
      Bool.and_true, Bool.or_eq_true, bne_iff_ne, ne_eq]
    by_contra h0
    rw [not_or, not_not, not_not] at h0
    exact hm (by simp [h0])

theorem TvalInv.next (h : TvalInv s g) (hok : TvalUndisturbed B s io) :
    TvalInv (next B s io) (g.observe B s io) where
  toSettled := h.toSettled.next B io
  mtval v hv := by
    rw [TvalHistory.observe] at hv
    cases ht : trap s io
    case true => exact h.trapValue_right hok ht v (by simpa [ht] using hv)
    case false =>
      cases hf : MEM.flush2EXE s.memStage
      case true => simp [ht, hf] at hv
      case false =>
        rw [next_csrRegs_mtval, ht, h.align hok hf]
        simp only [ht, hf, Bool.false_eq_true, if_false] at hv
        by_cases hw : writesCsr B s io Mtval
        · rw [if_pos hw] at hv ⊢
          exact Option.some.inj hv
        · rw [if_neg hw] at hv ⊢
          exact h.mtval v hv
  addr hnop hbit := by
    cases hfire : toWBFire s io
    case true =>
      have hwb : (Core.next B s io).fromMEM = toWB s io := by simp [Core.next, hfire]
      rw [hwb] at hbit
      have hf := MEM.flush2EXE_of_bit (s := s.memStage) hbit
      have hacc : MEM.align s.memStage = false := by
        simp only [MEM.flush2EXE, Bool.and_eq_true, Bool.not_eq_true'] at hf
        exact hf.2
      rw [next_csrRegs_mtval, if_neg (writePort_of_flush2EXE hf _),
        h.toSettled.no_trap_of_flush2EXE hf, hacc]
      simp [TvalHistory.observe, hfire]
    case false =>
      have hwb : (Core.next B s io).fromMEM = s.fromMEM := by simp [Core.next, hfire]
      rw [hwb] at hnop hbit
      have he : (WB.csrCmd s.fromMEM).excepVec ≠ 0#16 := by
        intro h0
        rw [WB.csrCmd, hnop] at h0
        simp only [Bool.false_eq_true, if_false] at h0
        simp [h0] at hbit
      simp [h.toWBFire_of_nop (h.faultedWB he)] at hfire
  mask := h.toSettled.mask_next h.mask

theorem IsReset.tvalInv (hs : IsReset B s) : TvalInv s ⟨0, some 0⟩ := by
  have hcsr := hs.csrRegs
  have hwb := hs.fromMEM
  have hmem := hs.memStage
  refine ⟨hs.settled, ?_, ?_, ?_⟩ <;>
    simp [hcsr, hwb, hmem, CSRRegFile.reset, MemWbBus.zero, MEM.reset, MEM.byteWise,
      MEM.controlSignals, ExeMemBus.zero, ExeMemSignalsBundle.zero]

theorem mtval_right {p : Regs × TvalHistory}
    (h : (withTval B).Reaches (fun p io => TvalUndisturbed B p.1 io) p)
    (hok : TvalUndisturbed B p.1 io) : TvalRight B p.1 io p.2 := by
  have hinv : TvalInv p.1 p.2 := h.monitor_invariant (P := TvalInv) (fun _ hs => hs.tvalInv)
    fun _ _ _ ih hok => ih.next hok
  refine ⟨hinv.mtval, fun hacc => ?_⟩
  obtain ⟨he, hi, -, -⟩ := accessTrap_spec hacc
  rw [next_csrRegs_mepc, if_neg (hok.write he).2, raiseIntrExcep_of_excep _ he, hi]
  rfl

/-- lw x2, 1(x0) and the given instruction, until the load is in WB. -/
def misalignedLoad (inst : Word) : List Inputs :=
  [.request, .fetch 0x00102103, .request, .fetch inst, .fetch 0x13, .fetch 0x13]

theorem mtval_right_misalignedLoad :
    let p := (withTval .zeros).run (.reset .zeros 0, ⟨0, some 0⟩) (misalignedLoad 0x13)
    TvalRight .zeros p.1 .idle p.2 := by
  have hr := (withTval .zeros).reaches_run (fun p io => TvalUndisturbed .zeros p.1 io)
    (.reset .zeros 0, ⟨0, some 0⟩) (misalignedLoad 0x13) ⟨isReset_reset _ _, rfl⟩
    (by decide +kernel)
  exact mtval_right hr (by decide +kernel)

/-- The second load, lw x3, 3(x0), is killed by the first and sets mtval in the cycle of the
trap. -/
theorem killed_load_sets_mtval :
    ¬∀ p, (withTval .zeros).Reaches (fun _ _ => True) p → ∀ io, TvalRight .zeros p.1 io p.2 := by
  intro h
  have hr := (withTval .zeros).reaches_run (fun _ _ => True) (.reset .zeros 0, ⟨0, some 0⟩)
    (misalignedLoad 0x00302183 ++ [.fetch 0x13]) ⟨isReset_reset _ _, rfl⟩ (by decide +kernel)
  have hmtval := (h _ hr .idle).mtval 1 (by rw [Option.mem_def]; decide +kernel)
  revert hmtval
  decide +kernel

end Core

end FpgaNpc
