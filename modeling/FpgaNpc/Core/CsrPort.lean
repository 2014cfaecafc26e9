import FpgaNpc.Core.Redirect

open FpgaNpc.Hardware FpgaNpc.InterStage FpgaNpc.ControlSignals

namespace FpgaNpc

theorem ControlLogic.table_isCSR : ∀ p ∈ table, p.2.csrWrite = N ∨ p.2.fuType = FuType.CSR := by
  decide +kernel

theorem Decoder.isCSR_of_csrWrite (d : Decoder) {inst : Word}
    (hlegal : (d.ctrlWord inst).legal = true)
    (hw : (d.ctrlWord inst).decodeBundle.csrWrite = true) :
    (d.ctrlWord inst).decodeBundle.fuType = FuType.CSR := by
  obtain ⟨p, hp, -, ha⟩ := d.row_of_legal hlegal
  rcases ControlLogic.table_isCSR p hp with hn | hf
  · simp [ha.csrWrite _ hn] at hw
  · exact ha.fuType _ hf

namespace CSRRegFile

open CsrConsts

variable {s : Regs} {io : Inputs}

theorem rdata_lines {a : BitVec 12} (ha : a ≠ Mip) (i i' : InterruptSimple) :
    rdata s i a = rdata s i' a := by
  have hmip : (a == Mip) = false := by simpa using ha
  simp only [rdata, Mux1H, hmip, Bool.false_eq_true, if_false]

theorem rdata_next (ht : traps s io = false) (hm : io.excepCmd.mret = false)
    (hw : io.writePort.wen = false) (hs : io.setMtval = false) (i : InterruptSimple)
    (a : BitVec 12) : rdata (next s io) i a = rdata s i a := by
  rw [traps] at ht
  simp [next, writeStep, portWrite, trapStep, mretStep, setMtvalStep, ht, hm, hw, hs, rdata, mip]

end CSRRegFile

namespace Core

open CSRRegFile CsrConsts

variable (B : Build) (s : Regs) (io : Inputs) (g : InterruptSimple)

structure CsrLeaves : Prop where
  fire : toMEMFire B s io = true
  alive : (toMEM B s io).nop = false
  unit : s.exeStage.fromID.decodeBundle.fuType = FuType.CSR
  writes : s.exeStage.fromID.decodeBundle.csrWrite = true

instance : Decidable (CsrLeaves B s io) :=
  decidable_of_iff (toMEMFire B s io = true ∧ (toMEM B s io).nop = false ∧
      s.exeStage.fromID.decodeBundle.fuType = FuType.CSR ∧
      s.exeStage.fromID.decodeBundle.csrWrite = true)
    ⟨fun ⟨hf, ha, hu, hw⟩ => ⟨hf, ha, hu, hw⟩, fun ⟨hf, ha, hu, hw⟩ => ⟨hf, ha, hu, hw⟩⟩

/-- The interrupt lines in the cycle in which ID passed on what is in EXE. -/
def readLines : InterruptSimple := if toEXEFire B s io then io.interrupt else g

def withLines : Machine (Regs × InterruptSimple) Inputs :=
  (machine B).monitor ⟨false, false, false⟩ (readLines B)

def addressed : Word := rdata s.csrRegs io.interrupt s.exeStage.fromID.funct12

/-- A CSR instruction that leaves EXE returns and uses the value that the CSR has in that cycle,
and no CSR is written in the cycle of a trap or a return. -/
structure CsrAtomic : Prop where
  result : CsrLeaves B s io →
    (toMEM B s io).controlSignals.regWriteData = addressed s io
  operand : CsrLeaves B s io → s.exeStage.fromID.decodeBundle.aluSrc2 = OpBSrc.CSR →
    EXE.opB s.exeStage.fromID = addressed s io
  alone : (csrInputs B s io).writePort.wen = true →
    trap s io = false ∧ (csrCmd s).mret = false

/-- No instruction with an exception leaves EXE while the next one waits for its result, the
interrupt lines are as they were when mip was read, and no CSR instruction is taken for an mret. -/
structure CsrSteady : Prop where
  fault : ¬FaultAwaited B s io
  lines : CsrLeaves B s io → s.exeStage.fromID.funct12 = Mip → io.interrupt = g
  mret : CsrLeaves B s io → s.exeStage.fromID.mret = false

instance : Decidable (CsrSteady B s io g) :=
  decidable_of_iff (¬FaultAwaited B s io ∧
      (CsrLeaves B s io → s.exeStage.fromID.funct12 = Mip → io.interrupt = g) ∧
      (CsrLeaves B s io → s.exeStage.fromID.mret = false))
    ⟨fun ⟨hf, hl, hm⟩ => ⟨hf, hl, hm⟩, fun ⟨hf, hl, hm⟩ => ⟨hf, hl, hm⟩⟩

def readAddr (b : IdExeBus) : BitVec 12 := if b.mret then Mepc else b.funct12

structure CsrInv : Prop extends Guarded B (fun _ => False) s where
  mask : s.memStage.fromEXE.nop = false → MEM.byteWise s.memStage ≠ 0#4 →
    (MEM.ren s.memStage || MEM.wen s.memStage) = true
  killedAccess : s.memStage.fromEXE.nop = true → MEM.byteWise s.memStage ≠ 0#4 →
    s.exeStage.fromID.nop = true ∧ IDDead s
  read : s.exeStage.fromID.nop = false →
    s.exeStage.fromID.decodeBundle.fuType = FuType.CSR →
    s.exeStage.fromID.csrData = rdata s.csrRegs g (readAddr s.exeStage.fromID) ∨ Killed s

variable {B s io g}

theorem Guarded.write_alone (h : Guarded B (fun _ => False) s)
    (hw : (csrInputs B s io).writePort.wen = true) :
    trap s io = false ∧ (csrCmd s).mret = false := by
  obtain ⟨-, halive, -⟩ := csrWen_spec hw
  rw [toMEM_nop h.exeFired, Bool.or_eq_false_iff, kill, Bool.or_eq_false_iff] at halive
  obtain ⟨hn, -, hi⟩ := halive
  have hwb : ¬CommitsInWB s := fun hc => by
    have hexe := (h.inWB hc).2
    simp [hn] at hexe
  constructor
  · by_contra ht
    rcases trap_cases_wb (Bool.not_eq_false _ ▸ ht) with hc | ⟨hr, hv⟩
    · exact hwb hc
    · simp [interrupt_of_raise hr hv] at hi
  · by_contra hm
    exact hwb (.inr (Bool.not_eq_false _ ▸ hm))

theorem CsrInv.setMtval_cases (h : CsrInv B s g) (hs : MEM.setMtval s.memStage = true) :
    MEM.flush2EXE s.memStage = true ∨ s.exeStage.fromID.nop = true ∧ IDDead s := by
  have halign : MEM.align s.memStage = false := by simpa [MEM.setMtval] using hs
  have hmask : MEM.byteWise s.memStage ≠ 0#4 := fun h0 => by
    simp [MEM.align_of_no_mask h0] at halign
  cases hn : s.memStage.fromEXE.nop
  case true => exact .inr (h.killedAccess hn hmask)
  case false => exact .inl (by simp [MEM.flush2EXE, h.mask hn hmask, halign])

theorem rdata_unchanged (hr : raises s io = false)
    (hw : (csrInputs B s io).writePort.wen = false) (hs : MEM.setMtval s.memStage = false)
    (i : InterruptSimple) (a : BitVec 12) :
    rdata (next B s io).csrRegs i a = rdata s.csrRegs i a := by
  rw [raises, Bool.or_eq_false_iff] at hr
  have htraps : CSRRegFile.traps s.csrRegs (csrInputs B s io) = false := hr.1
  exact rdata_next htraps hr.2 hw hs i a

theorem Guarded.flush_of_write (h : Guarded B (fun _ => False) s)
    (hw : (csrInputs B s io).writePort.wen = true) : Core.flush B s io = true := by
  obtain ⟨-, halive, hcsr⟩ := csrWen_spec hw
  have hn := halive
  rw [toMEM_nop h.exeFired, Bool.or_eq_false_iff] at hn
  by_cases he : s.exeStage.fromID.excepVec = 0#16
  case neg => exact flush_of_excep halive he
  case pos =>
    have hd := h.decoded hn.1 fun hz => by simp [hz, IdExeBus.zero, DecodeBundle.zero] at hcsr
    rw [hd.bundle] at hcsr
    have hunit := B.decoder.isCSR_of_csrWrite (hd.legal he) hcsr
    rw [← hd.bundle] at hunit
    change EXE.nop s.exeStage (exeInputs B s io) = false at halive
    simp [Core.flush, EXE.flush, halive, EXE.isCSR, hunit]

theorem CsrInv.read_next_of_fire (h : CsrInv B s g) (hfire : toMEMFire B s io = true)
    (ha : (toEXE B s io).nop = false) : (toEXE B s io).csrData =
      rdata (next B s io).csrRegs (readLines B s io g) (readAddr (toEXE B s io)) := by
  have hflush := (toEXE_alive ha).2.2.2
  have hr : raises s io = false := by
    by_contra hr
    have hv : redirectValid s io = true := by
      simp [redirectValid_eq, Bool.not_eq_false _ ▸ hr]
    simp [flush_of_redirect hv] at hflush
  have hw : (csrInputs B s io).writePort.wen = false := by
    by_contra hw
    simp [h.flush_of_write (Bool.not_eq_false _ ▸ hw)] at hflush
  have hs : MEM.setMtval s.memStage = false := by
    by_contra hs
    rcases h.setMtval_cases (Bool.not_eq_false _ ▸ hs) with hf | ⟨-, hd⟩
    · have hkilled : Core.flush B s io = true := flush_of_kill (by simp [kill, hf])
      simp [hkilled] at hflush
    · simp [hd.toEXE_nop] at ha
  rw [readLines, toEXEFire_eq, hfire, if_pos rfl, rdata_unchanged hr hw hs]
  rfl

theorem CsrInv.csr_unchanged (h : CsrInv B s g) (hfire : toMEMFire B s io = false)
    (ha : s.exeStage.fromID.nop = false) (hi : interrupt s io = false) (i : InterruptSimple)
    (a : BitVec 12) : rdata (next B s io).csrRegs i a = rdata s.csrRegs i a := by
  refine rdata_unchanged ?_ ?_ ?_ i a
  · by_contra hr
    rcases raises_cases (Bool.not_eq_false _ ▸ hr) with hc | ⟨hr, hv⟩
    · have hexe := (h.inWB hc).2
      simp [ha] at hexe
    · simp [interrupt_of_raise hr hv] at hi
  · by_contra hw
    simp [(csrWen_spec (Bool.not_eq_false _ ▸ hw)).1] at hfire
  · by_contra hs
    rcases h.setMtval_cases (Bool.not_eq_false _ ▸ hs) with hf | ⟨hn, -⟩
    · simp [h.toMEMFire_of_flush2EXE hf] at hfire
    · simp [hn] at ha

theorem CsrInv.killedAccess_next (h : CsrInv B s g)
    (hn : (next B s io).memStage.fromEXE.nop = true)
    (hm : MEM.byteWise (next B s io).memStage ≠ 0#4) :
    (next B s io).exeStage.fromID.nop = true ∧ IDDead (next B s io) := by
  have hfrom := next_fromEXE B s io
  cases hfire : toMEMFire B s io
  case true =>
    simp only [hfire, if_true] at hfrom
    rw [hfrom] at hn
    have halive : s.exeStage.fromID.nop = false := by
      by_contra hb
      have hb := (h.bubble (Bool.not_eq_false _ ▸ hb)).2
      simp [MEM.byteWise, MEM.controlSignals, hfrom, toMEM, EXE.toMEM, EXE.controlSignals,
        hb] at hm
    exact h.behind_kill hfire halive hn
  case false =>
    simp only [hfire, Bool.false_eq_true, if_false] at hfrom
    rw [hfrom] at hn
    have hsame : MEM.byteWise (next B s io).memStage = MEM.byteWise s.memStage := by
      simp [MEM.byteWise, MEM.controlSignals, hfrom]
    rw [hsame] at hm
    simp [h.toMEMFire_of_bubbles hn (h.killedAccess hn hm).1] at hfire

theorem CsrInv.read_next (h : CsrInv B s g) (hn : (next B s io).exeStage.fromID.nop = false)
    (hu : (next B s io).exeStage.fromID.decodeBundle.fuType = FuType.CSR) :
    (next B s io).exeStage.fromID.csrData = rdata (next B s io).csrRegs (readLines B s io g)
      (readAddr (next B s io).exeStage.fromID) ∨ Killed (next B s io) := by
  rw [next_fromID] at hn hu ⊢
  cases hfire : toMEMFire B s io
  case true =>
    simp only [hfire, if_true] at hn ⊢
    exact .inl (h.read_next_of_fire hfire hn)
  case false =>
    simp only [hfire, Bool.false_eq_true, if_false] at hn hu ⊢
    cases hi : interrupt s io
    case true =>
      refine .inr (killed_next hi hfire (noDivStarts_of_fuType ?_) h.exeFired)
      rw [hu]
      decide
    case false =>
      rw [h.csr_unchanged hfire hn hi, readLines, toEXEFire_eq, hfire]
      exact (h.read hn hu).imp_right fun hk => by simp [hk.interrupt] at hi

theorem CsrInv.next (h : CsrInv B s g) (hok : ¬FaultAwaited B s io) :
    CsrInv B (next B s io) (readLines B s io g) where
  toGuarded := h.toGuarded.next hok
  mask := h.toSettled.mask_next h.mask
  killedAccess := h.killedAccess_next
  read := h.read_next

theorem CsrInv.value (h : CsrInv B s g) (hok : CsrSteady B s io g) (hl : CsrLeaves B s io) :
    s.exeStage.fromID.csrData = addressed s io := by
  have halive := hl.alive
  rw [toMEM_nop h.exeFired, Bool.or_eq_false_iff, kill, Bool.or_eq_false_iff] at halive
  have hread := (h.read halive.1 hl.unit).resolve_right fun hk => by
    simp [hk.interrupt] at halive
  rw [hread, addressed, readAddr, hok.mret hl, if_neg Bool.false_ne_true]
  by_cases ha : s.exeStage.fromID.funct12 = Mip
  · rw [hok.lines hl ha]
  · exact rdata_lines ha _ _

theorem IsReset.csrInv (hs : IsReset B s) (lines : InterruptSimple) : CsrInv B s lines := by
  obtain ⟨_, _, hexe⟩ := hs.exeStage
  have hmem := hs.memStage
  refine ⟨hs.guarded, ?_, ?_, ?_⟩ <;>
    simp [hexe, hmem, MEM.reset, MEM.byteWise, MEM.controlSignals, ExeMemBus.zero,
      ExeMemSignalsBundle.zero, IdExeBus.zero, DecodeBundle.zero]

theorem csr_atomic {p : Regs × InterruptSimple}
    (h : (withLines B).Reaches (fun p io => CsrSteady B p.1 io p.2) p)
    (hok : CsrSteady B p.1 io p.2) : CsrAtomic B p.1 io := by
  have hinv : CsrInv B p.1 p.2 := h.monitor_invariant (P := CsrInv B) (fun _ hs => hs.csrInv _)
    fun _ _ _ ih hok => ih.next hok.fault
  refine ⟨fun hl => ?_, fun hl hsrc => ?_, hinv.write_alone⟩
  · rw [← hinv.value hok hl]
    simp [toMEM, EXE.toMEM, EXE.controlSignals, EXE.regWdata, Mux1H, hl.unit]
  · rw [← hinv.value hok hl]
    simp [EXE.opB, Mux1H, hsrc]

/-- csrrs x2, mie, x1 leaves EXE. -/
theorem csr_atomic_csrrs :
    let p := (withLines .zeros).run (.reset .zeros 0x88, ⟨false, false, false⟩)
      [.request, .fetch 0x3040a173, .request, .fetch 0x13]
    CsrLeaves .zeros p.1 (.fetch 0x13) ∧ CsrAtomic .zeros p.1 (.fetch 0x13) := by
  have hr := (withLines .zeros).reaches_run (fun p io => CsrSteady .zeros p.1 io p.2)
    (.reset .zeros 0x88, ⟨false, false, false⟩)
    [.request, .fetch 0x3040a173, .request, .fetch 0x13] ⟨isReset_reset _ _, rfl⟩
    (by decide +kernel)
  exact ⟨by decide +kernel, csr_atomic hr (by decide +kernel)⟩

/-- csrrw x0, mstatus, x2 waits for the load and writes in the cycle of its trap. -/
theorem csr_write_with_trap : ¬∀ p, (withLines .zeros).Reaches (fun _ _ => True) p →
    ∀ io, CsrAtomic .zeros p.1 io := by
  intro h
  have hr := (withLines .zeros).reaches_run (fun _ _ => True)
    (.reset .zeros 0x102, ⟨false, false, false⟩) (awaitedFault 0x30011073)
    ⟨isReset_reset _ _, rfl⟩ (by decide +kernel)
  have htrap := ((h _ hr (.fetch 0x13)).alone (by decide +kernel)).1
  revert htrap
  decide +kernel

end Core

end FpgaNpc
