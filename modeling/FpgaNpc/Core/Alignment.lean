import FpgaNpc.Core.Redirect

open FpgaNpc.Hardware FpgaNpc.ExceptionCodes

namespace FpgaNpc.Core

open CSRRegFile CsrConsts

def Aligned (addr : Word) : Prop := addr.extractLsb 1 0 = 0#2

instance (addr : Word) : Decidable (Aligned addr) := inferInstanceAs (Decidable (_ = _))

variable (B : Build) (s : Regs) (io : Inputs)

/-- The redirect of a trap or a return is to an aligned address, where IF sees no misaligned pc. -/
structure HandlerAligned : Prop where
  target : redirectValid s io = true → Aligned (target s io)
  entry : redirectFire B s io = true → ∀ io',
    (toID B (next B s io) io').excepVec.getLsbD InstructionAddressMisaligned = false

/-- What comes to mtvec and mepc in this cycle, written by EXE or saved by a trap, is aligned. -/
structure KeepsAligned : Prop where
  mtvec : writesCsr B s io Mtvec → Aligned (csrInputs B s io).writePort.wdata
  mepc : writesCsr B s io Mepc → Aligned (csrInputs B s io).writePort.wdata
  saved : trap s io = true → Aligned (savedPc s.csrRegs (csrInputs B s io))

instance : Decidable (KeepsAligned B s io) :=
  decidable_of_iff ((writesCsr B s io Mtvec → Aligned (csrInputs B s io).writePort.wdata) ∧
      (writesCsr B s io Mepc → Aligned (csrInputs B s io).writePort.wdata) ∧
      (trap s io = true → Aligned (savedPc s.csrRegs (csrInputs B s io))))
    ⟨fun ⟨hv, he, ht⟩ => ⟨hv, he, ht⟩, fun ⟨hv, he, ht⟩ => ⟨hv, he, ht⟩⟩

structure VectorsAligned : Prop where
  mtvec : Aligned s.csrRegs.mtvec
  mepc : Aligned s.csrRegs.mepc

variable {B s io}

theorem VectorsAligned.target (h : VectorsAligned s) : Aligned (target s io) := by
  rw [Core.target, redirectTarget]
  split
  · exact h.mtvec
  · exact h.mepc

theorem VectorsAligned.next (h : VectorsAligned s) (hok : KeepsAligned B s io) :
    VectorsAligned (next B s io) where
  mtvec := by
    have hnext : (Core.next B s io).csrRegs.mtvec = if writesCsr B s io Mtvec then
        (csrInputs B s io).writePort.wdata else s.csrRegs.mtvec :=
      (next_mtvec _ _).trans (portWrite_allOnes _ _ _ _)
    rw [hnext]
    split
    case isTrue hw => exact hok.mtvec hw
    case isFalse => exact h.mtvec
  mepc := by
    have hnext : (Core.next B s io).csrRegs.mepc = if writesCsr B s io Mepc then
        (csrInputs B s io).writePort.wdata
        else if trap s io then savedPc s.csrRegs (csrInputs B s io) else s.csrRegs.mepc :=
      next_csrRegs_mepc
    rw [hnext]
    split
    case isTrue hw => exact hok.mepc hw
    case isFalse =>
      split
      case isTrue ht => exact hok.saved ht
      case isFalse => exact h.mepc

theorem vectors_aligned (h : (machine B).Reaches (KeepsAligned B) s) : VectorsAligned s := by
  refine h.invariant (P := VectorsAligned) (fun s hs => ?_) fun s io ih hok => ih.next hok
  constructor <;> rw [hs.csrRegs] <;> rfl

theorem handler_aligned (h : (machine B).Reaches (KeepsAligned B) s) :
    HandlerAligned B s io where
  target _ := (vectors_aligned h).target
  entry hf io' := by
    have hpc : Aligned (next B s io).ifStage.PC := by
      rw [next_PC_of_redirectFire hf]
      exact (vectors_aligned h).target
    change (setBit 0 0 (orR ((next B s io).ifStage.PC.extractLsb 1 0))).getLsbD 0 = false
    rw [getLsbD_setBit _ _ _ _ (by decide), if_pos rfl, hpc]
    rfl

/-- csrrw x0, mtvec, x1 and an ecall, until it is in WB. -/
def trapToVector : List Inputs :=
  [.request, .fetch 0x30509073, .request, .fetch 0x13, .fetch 0x13, .fetch 0x00000073,
    .fetch 0x13, .fetch 0x13, .fetch 0x13]

theorem handler_aligned_ecall :
    let s := (machine .zeros).run (.reset .zeros 0x100) trapToVector
    target s .idle = 0x100 ∧ redirectFire .zeros s (.fetch 0x13) = true ∧
      HandlerAligned .zeros s (.fetch 0x13) := by
  have hr := (machine .zeros).reaches_run (KeepsAligned .zeros) (.reset .zeros 0x100) trapToVector
    (isReset_reset _ _) (by decide +kernel)
  exact ⟨by decide +kernel, by decide +kernel, handler_aligned hr⟩

/-- With the vectored mode in mtvec the handler is entered with a misaligned pc. -/
theorem vectored_misaligned : ¬∀ s, (machine .zeros).Reaches (fun _ _ => True) s → ∀ io,
    HandlerAligned .zeros s io := by
  intro h
  have hr := (machine .zeros).reaches_run (fun _ _ => True) (.reset .zeros 0x101) trapToVector
    (isReset_reset _ _) (by decide +kernel)
  have hentry := (h _ hr (.fetch 0x13)).entry (by decide +kernel) .idle
  revert hentry
  decide +kernel

end FpgaNpc.Core
