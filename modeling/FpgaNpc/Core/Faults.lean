import FpgaNpc.Core.Codes
import FpgaNpc.Core.Precise

open FpgaNpc.Hardware FpgaNpc.InterStage FpgaNpc.ControlSignals

namespace FpgaNpc

structure InterStage.DecodeBundle.Idle (b : DecodeBundle) : Prop where
  csrWrite : b.csrWrite = false
  memRead : b.memRead = 0#4
  memWrite : b.memWrite = 0#4
  regWrite : b.regWrite = false

section Rows

open ControlLogic Instructions

theorem Decoder.idle_of_row (d : Decoder) {inst : Word} (h : ∃ p ∈ table, p.1.Matches inst ∧
    p.2.csrWrite = N ∧ p.2.memRead = MemRead.N ∧ p.2.memWrite = MemWrite.N ∧ p.2.regWrite = N) :
    (d.ctrlWord inst).decodeBundle.Idle := by
  obtain ⟨p, hp, hm, hc, hr, hw, hreg⟩ := h
  have ha := d.row inst p hp hm
  exact ⟨ha.csrWrite _ hc, ha.memRead _ hr, ha.memWrite _ hw, ha.regWrite _ hreg⟩

theorem Decoder.idle_ecall (d : Decoder) : (d.ctrlWord Core.ecall).decodeBundle.Idle :=
  d.idle_of_row (by decide +kernel)

theorem Decoder.idle_zero (d : Decoder) : (d.ctrlWord 0).decodeBundle.Idle :=
  d.idle_of_row (by decide +kernel)

theorem ControlLogic.table_sc : ∀ p ∈ table, p.2.memRead = MemRead.W ∨ p.2.memWrite = MemWrite.N ∨
    p.2.regWrite = N ∨ p.1.mask = SCW.mask ∧ p.1.value = SCW.value := by
  decide +kernel

theorem Decoder.matches_SCW (d : Decoder) {inst : Word} (h : InTable inst)
    (hr : (d.ctrlWord inst).decodeBundle.memRead = 0#4)
    (hw : (d.ctrlWord inst).decodeBundle.memWrite ≠ 0#4)
    (hreg : (d.ctrlWord inst).decodeBundle.regWrite = true) : SCW.Matches inst := by
  obtain ⟨p, hp, hm⟩ := h
  have ha := d.row inst p hp hm
  rcases table_sc p hp with hrow | hrow | hrow | ⟨hmask, hvalue⟩
  · simp [ha.memRead _ hrow] at hr
  · exact absurd (ha.memWrite _ hrow) hw
  · simp [ha.regWrite _ hrow] at hreg
  · rwa [BitPat.Matches, hmask, hvalue] at hm

end Rows

namespace Core

open ControlLogic

def FrontFault (inst pc : Word) : Prop := ¬Aligned pc ∨ ¬InTable inst

instance (inst pc : Word) : Decidable (FrontFault inst pc) := inferInstanceAs (Decidable (_ ∨ _))

structure FrontExcep (inst pc : Word) (v : BitVec 16) : Prop where
  fault : v ≠ 0#16 → FrontFault inst pc ∨ DecodesECALL inst
  inTable : v = 0#16 → InTable inst

variable (B : Build) (s : Regs) (io : Inputs) (g : Effects)

/-- What the row of the word asks for, with the don't-cares as the decoder resolves them. -/
def asked (inst : Word) : DecodeBundle := (B.decoder.ctrlWord inst).decodeBundle

/-- A word at a misaligned pc or in no row writes no CSR, and what ID takes for an ecall is one. -/
structure IdleInEXE (b : IdExeBus) : Prop where
  csr : FrontFault b.inst b.pc → (asked B b.inst).csrWrite = false
  call : InTable b.inst → DecodesECALL b.inst → b.inst = ecall

/-- An access that such a word asks for is at a misaligned address or is an SC that fails, and a
result goes to x0 or comes from such an address. A misaligned SC has no destination. -/
structure IdleInMEM (m : MEM.Regs) : Prop where
  access : FrontFault m.fromEXE.inst m.fromEXE.pc →
    (asked B m.fromEXE.inst).memRead ≠ 0#4 ∨ (asked B m.fromEXE.inst).memWrite ≠ 0#4 →
      MEM.align m = false ∨ MEM.isSC m = true ∧ m.reservation ≠ MEM.vaddr m
  write : FrontFault m.fromEXE.inst m.fromEXE.pc →
    (asked B m.fromEXE.inst).memRead ≠ 0#4 ∨ (asked B m.fromEXE.inst).regWrite = true →
      m.fromEXE.rd = 0#5 ∨ (asked B m.fromEXE.inst).memRead ≠ 0#4 ∧ MEM.align m = false
  sc : Instructions.SCW.Matches m.fromEXE.inst → MEM.align m = false → m.fromEXE.rd = 0#5

/-- What leaves EXE alive and what is alive in MEM asks for no effect beside its exception. -/
structure WordsIdle : Prop where
  exe : (toMEM B s io).nop = false → toMEMFire B s io = true → IdleInEXE B s.exeStage.fromID
  mem : s.memStage.fromEXE.nop = false → IdleInMEM B s.memStage

instance (b : IdExeBus) : Decidable (IdleInEXE B b) :=
  decidable_of_iff ((FrontFault b.inst b.pc → (asked B b.inst).csrWrite = false) ∧
      (InTable b.inst → DecodesECALL b.inst → b.inst = ecall))
    ⟨fun ⟨hc, he⟩ => ⟨hc, he⟩, fun ⟨hc, he⟩ => ⟨hc, he⟩⟩

instance (m : MEM.Regs) : Decidable (IdleInMEM B m) :=
  decidable_of_iff ((FrontFault m.fromEXE.inst m.fromEXE.pc →
        (asked B m.fromEXE.inst).memRead ≠ 0#4 ∨ (asked B m.fromEXE.inst).memWrite ≠ 0#4 →
          MEM.align m = false ∨ MEM.isSC m = true ∧ m.reservation ≠ MEM.vaddr m) ∧
      (FrontFault m.fromEXE.inst m.fromEXE.pc →
        (asked B m.fromEXE.inst).memRead ≠ 0#4 ∨ (asked B m.fromEXE.inst).regWrite = true →
          m.fromEXE.rd = 0#5 ∨ (asked B m.fromEXE.inst).memRead ≠ 0#4 ∧ MEM.align m = false) ∧
      (Instructions.SCW.Matches m.fromEXE.inst → MEM.align m = false → m.fromEXE.rd = 0#5))
    ⟨fun ⟨ha, hw, hs⟩ => ⟨ha, hw, hs⟩, fun ⟨ha, hw, hs⟩ => ⟨ha, hw, hs⟩⟩

instance : Decidable (WordsIdle B s io) :=
  decidable_of_iff (((toMEM B s io).nop = false → toMEMFire B s io = true →
        IdleInEXE B s.exeStage.fromID) ∧
      (s.memStage.fromEXE.nop = false → IdleInMEM B s.memStage))
    ⟨fun ⟨he, hm⟩ => ⟨he, hm⟩, fun ⟨he, hm⟩ => ⟨he, hm⟩⟩

structure EXEHolds (b : IdExeBus) : Prop where
  excep : FrontExcep b.inst b.pc b.excepVec
  csrWrite : b.decodeBundle.csrWrite = (asked B b.inst).csrWrite
  memRead : b.decodeBundle.memRead = (asked B b.inst).memRead
  memWrite : b.decodeBundle.memWrite = (asked B b.inst).memWrite
  regWrite : b.decodeBundle.regWrite = (asked B b.inst).regWrite

structure MEMHolds (b : ExeMemBus) : Prop where
  excep : FrontExcep b.inst b.pc b.excepVec
  call : InTable b.inst → DecodesECALL b.inst → b.inst = ecall
  memRead : b.controlSignals.memRead = orR (asked B b.inst).memRead
  memWrite : b.controlSignals.memWrite = orR (asked B b.inst).memWrite
  regWrite : b.controlSignals.regWrite = (asked B b.inst).regWrite

structure Worded : Prop extends Settled s where
  id : s.idStage.fromIF.excepVec ≠ 0#16 → ¬Aligned s.idStage.fromIF.pc
  exe : s.exeStage.fromID.nop = false → EXEHolds B s.exeStage.fromID
  mem : s.memStage.fromEXE.nop = false → MEMHolds B s.memStage.fromEXE

/-- An instruction with an exception writes no CSR when it leaves EXE, requests no access and
has no result for a register. -/
structure FaultsIdle : Prop where
  csr : (toMEM B s io).nop = false → toMEMFire B s io = true →
    s.exeStage.fromID.excepVec ≠ 0#16 → s.exeStage.fromID.decodeBundle.csrWrite = false
  access : s.memStage.fromEXE.nop = false → s.memStage.fromEXE.excepVec ≠ 0#16 →
    MEM.access s.memStage = true →
      MEM.isSC s.memStage = true ∧ s.memStage.reservation ≠ MEM.vaddr s.memStage
  write : s.memStage.fromEXE.nop = false → s.memStage.fromEXE.excepVec ≠ 0#16 →
    MEM.regWrite s.memStage = true → s.memStage.fromEXE.rd = 0#5
  sc : MEM.flush2EXE s.memStage = true → MEM.ren s.memStage = false →
    (MEM.controlSignals s.memStage).regWrite = true → s.memStage.fromEXE.rd = 0#5

def Faulting (m : MEM.Regs) : Prop :=
  m.fromEXE.nop = false ∧ (m.fromEXE.excepVec ≠ 0#16 ∨ MEM.flush2EXE m = true)

structure PreciseInv : Prop extends Ordered s g where
  faultIdle : Faulting s.memStage → s.memStage.state = .IDLE
  /-- What is behind a fault is dead, unless the fault is a load, store or AMO on whose result
  ID waited. -/
  behindFault : Faulting s.memStage → MEM.flush2EXE s.memStage = false →
    s.idStage.fromIF.nop = true ∨ s.idStage.hasFired = true ∨
      MEM.regWrite s.memStage = true ∧ s.memStage.fromEXE.rd ≠ 0#5
  faulting : Faulting s.memStage → ∀ m ∈ liveMEM s g, ∀ a ∈ g.acted, a.serial < m.serial
  trapped : ∀ z ∈ g.trapped, Stopped s g z

variable {B s io g}

section Words

theorem frontExcep_toEXE
    (h : s.idStage.fromIF.excepVec ≠ 0#16 → ¬Aligned s.idStage.fromIF.pc) :
    FrontExcep (toEXE B s io).inst (toEXE B s io).pc (toEXE B s io).excepVec where
  fault hv := by
    by_contra hn
    rw [not_or, FrontFault, not_or, not_not, not_not] at hn
    obtain ⟨⟨hpc, ht⟩, hcall⟩ := hn
    have hfetch : s.idStage.fromIF.excepVec = 0#16 := by
      by_contra hf
      exact h hf hpc
    have hlegal : (B.decoder.ctrlWord s.idStage.fromIF.inst).legal = true :=
      (B.decoder.legal_iff _).2 ht
    have hecall : ID.isECALL s.idStage.fromIF = false :=
      Bool.eq_false_iff.2 fun he => hcall (isECALL_iff.1 he)
    refine hv ?_
    change ID.excepVec B.decoder s.idStage (idInputs B s io) = 0#16
    simp [ID.excepVec, hfetch, hlegal, hecall, setBit]
  inTable he := (B.decoder.legal_iff _).1 (ID.legal_of_excepVec he)

theorem Worded.toEXE (h : Worded B s) (hn : (toEXE B s io).nop = false) :
    EXEHolds B (toEXE B s io) := by
  have hbundle : (Core.toEXE B s io).decodeBundle = asked B (Core.toEXE B s io).inst :=
    ID.decodeBundle_of_alive hn
  exact ⟨frontExcep_toEXE h.id, by rw [hbundle], by rw [hbundle], by rw [hbundle], by rw [hbundle]⟩

theorem Worded.toMEM (h : Worded B s) (hok : WordsIdle B s io) (hfire : toMEMFire B s io = true)
    (hn : (toMEM B s io).nop = false) : MEMHolds B (toMEM B s io) := by
  have halive : s.exeStage.fromID.nop = false := by
    have hnop := hn
    rw [toMEM_nop h.exeFired, Bool.or_eq_false_iff] at hnop
    exact hnop.1
  have he := h.exe halive
  refine ⟨he.excep, (hok.exe hn hfire).call, ?_, ?_, he.regWrite⟩
  · simp [Core.toMEM, EXE.toMEM, EXE.controlSignals, halive, he.memRead]
  · simp [Core.toMEM, EXE.toMEM, EXE.controlSignals, halive, he.memWrite]

theorem Worded.next (h : Worded B s) (hok : WordsIdle B s io) : Worded B (next B s io) where
  toSettled := h.toSettled.next B io
  id := by
    rw [next_idStage]
    cases toIDFire B s io
    case false => exact h.id
    case true =>
      intro hv hpc
      refine hv ?_
      change setBit 0 ExceptionCodes.InstructionAddressMisaligned
        (orR (s.ifStage.PC.extractLsb 1 0)) = 0#16
      have hz : s.ifStage.PC.extractLsb 1 0 = 0#2 := hpc
      rw [hz]
      decide
  exe hn := by
    rw [next_fromID] at hn ⊢
    cases hfire : toMEMFire B s io
    case false =>
      rw [hfire, if_neg Bool.false_ne_true] at hn
      exact h.exe hn
    case true =>
      rw [hfire, if_pos rfl] at hn
      exact h.toEXE hn
  mem hn := by
    rw [next_fromEXE] at hn ⊢
    cases hfire : toMEMFire B s io
    case false =>
      rw [hfire, if_neg Bool.false_ne_true] at hn
      exact h.mem hn
    case true =>
      rw [hfire, if_pos rfl] at hn
      exact h.toMEM hok hfire hn

theorem IsReset.worded (h : IsReset B s) : Worded B s := by
  obtain ⟨_, _, hexe⟩ := h.exeStage
  have hid := h.idStage
  have hmem := h.memStage
  have hin : InTable 0#32 := by decide +kernel
  have hcall : ¬DecodesECALL 0#32 := by decide
  have hidle : (asked B 0#32).Idle := B.decoder.idle_zero
  have hnone : FrontExcep 0#32 0#32 0#16 := ⟨fun hv => absurd rfl hv, fun _ => hin⟩
  refine ⟨h.settled, ?_, ?_, ?_⟩
  · rw [hid]
    exact fun hv => absurd rfl hv
  · rw [hexe]
    exact fun _ => ⟨hnone, hidle.csrWrite.symm, hidle.memRead.symm, hidle.memWrite.symm,
      hidle.regWrite.symm⟩
  · rw [hmem]
    refine fun _ => ⟨hnone, fun _ hc => absurd hc hcall, ?_, ?_, hidle.regWrite.symm⟩
    · rw [show (MEM.reset.fromEXE).inst = 0#32 from rfl, hidle.memRead]
      rfl
    · rw [show (MEM.reset.fromEXE).inst = 0#32 from rfl, hidle.memWrite]
      rfl

theorem FrontExcep.cases {inst pc : Word} {v : BitVec 16} (h : FrontExcep inst pc v)
    (hv : v ≠ 0#16) (hcall : InTable inst → DecodesECALL inst → inst = ecall) :
    FrontFault inst pc ∨ inst = ecall := by
  rcases h.fault hv with hf | hc
  · exact .inl hf
  · by_cases ht : InTable inst
    · exact .inr (hcall ht hc)
    · exact .inl (.inr ht)

theorem MEMHolds.ren (h : MEMHolds B s.memStage.fromEXE) (hn : s.memStage.fromEXE.nop = false) :
    MEM.ren s.memStage = orR (asked B s.memStage.fromEXE.inst).memRead := by
  simp [MEM.ren, MEM.controlSignals, hn, h.memRead]

theorem MEMHolds.wen (h : MEMHolds B s.memStage.fromEXE) (hn : s.memStage.fromEXE.nop = false) :
    MEM.wen s.memStage = orR (asked B s.memStage.fromEXE.inst).memWrite := by
  simp [MEM.wen, MEM.controlSignals, hn, h.memWrite]

theorem MEMHolds.regWrite_eq (h : MEMHolds B s.memStage.fromEXE)
    (hn : s.memStage.fromEXE.nop = false) : MEM.regWrite s.memStage =
      if (asked B s.memStage.fromEXE.inst).memRead = 0#4 then
        (asked B s.memStage.fromEXE.inst).regWrite
      else MEM.align s.memStage := by
  rw [MEM.regWrite, h.ren hn, MEM.controlSignals, h.regWrite]
  by_cases hz : (asked B s.memStage.fromEXE.inst).memRead = 0#4 <;> simp [orR, hz]

theorem Worded.csr (h : Worded B s) (hok : WordsIdle B s io) (hn : (Core.toMEM B s io).nop = false)
    (hfire : toMEMFire B s io = true) (hv : s.exeStage.fromID.excepVec ≠ 0#16) :
    s.exeStage.fromID.decodeBundle.csrWrite = false := by
  have halive := hn
  rw [toMEM_nop h.exeFired, Bool.or_eq_false_iff] at halive
  have he := h.exe halive.1
  rw [he.csrWrite]
  rcases he.excep.cases hv (hok.exe hn hfire).call with hf | hc
  · exact (hok.exe hn hfire).csr hf
  · rw [hc]
    exact B.decoder.idle_ecall.csrWrite

theorem Worded.access (h : Worded B s) (hok : WordsIdle B s io)
    (hn : s.memStage.fromEXE.nop = false) (hv : s.memStage.fromEXE.excepVec ≠ 0#16)
    (ha : MEM.access s.memStage = true) :
    MEM.isSC s.memStage = true ∧ s.memStage.reservation ≠ MEM.vaddr s.memStage := by
  have hm := h.mem hn
  simp only [MEM.access, hm.ren hn, hm.wen hn, orR, Bool.and_eq_true, Bool.or_eq_true,
    bne_iff_ne] at ha
  rcases hm.excep.cases hv hm.call with hf | hc
  · refine ((hok.mem hn).access hf ha.1).resolve_left fun halign => ?_
    simp [halign] at ha
  · have hidle : (asked B s.memStage.fromEXE.inst).Idle := hc ▸ B.decoder.idle_ecall
    simp [hidle.memRead, hidle.memWrite] at ha

theorem Worded.write (h : Worded B s) (hok : WordsIdle B s io)
    (hn : s.memStage.fromEXE.nop = false) (hv : s.memStage.fromEXE.excepVec ≠ 0#16)
    (hw : MEM.regWrite s.memStage = true) : s.memStage.fromEXE.rd = 0#5 := by
  have hm := h.mem hn
  rw [hm.regWrite_eq hn] at hw
  rcases hm.excep.cases hv hm.call with hf | hc
  · split at hw
    case isTrue hz =>
      exact ((hok.mem hn).write hf (.inr hw)).resolve_right fun hr => hr.1 hz
    case isFalse hz =>
      refine ((hok.mem hn).write hf (.inl hz)).resolve_right fun hr => ?_
      simp [hw] at hr
  · have hidle : (asked B s.memStage.fromEXE.inst).Idle := hc ▸ B.decoder.idle_ecall
    simp [hidle.memRead, hidle.regWrite] at hw

theorem Worded.sc (h : Worded B s) (hok : WordsIdle B s io)
    (hf : MEM.flush2EXE s.memStage = true) (hr : MEM.ren s.memStage = false)
    (hw : (MEM.controlSignals s.memStage).regWrite = true) : s.memStage.fromEXE.rd = 0#5 := by
  have hn := MEM.nop_of_flush2EXE hf
  have hm := h.mem hn
  by_cases hv : s.memStage.fromEXE.excepVec = 0#16
  case neg =>
    refine h.write hok hn hv ?_
    simpa [MEM.regWrite, hr] using hw
  case pos =>
    simp only [MEM.flush2EXE, hr, Bool.false_or, Bool.and_eq_true, Bool.not_eq_true'] at hf
    have hread : (asked B s.memStage.fromEXE.inst).memRead = 0#4 := by
      simpa [hm.ren hn, orR] using hr
    have hwrite : (asked B s.memStage.fromEXE.inst).memWrite ≠ 0#4 := by
      simpa [hm.wen hn, orR] using hf.1
    exact (hok.mem hn).sc (B.decoder.matches_SCW (hm.excep.inTable hv) hread hwrite
      (hm.regWrite.symm.trans hw)) hf.2

theorem Worded.faultsIdle (h : Worded B s) (hok : WordsIdle B s io) : FaultsIdle B s io :=
  ⟨h.csr hok, h.access hok, h.write hok, h.sc hok⟩

end Words

theorem FaultsIdle.rd_of_regWrite (hok : FaultsIdle B s io)
    (halive : s.memStage.fromEXE.nop = false) (he : MEM.excepVec s.memStage ≠ 0#16)
    (hw : MEM.regWrite s.memStage = true) : s.memStage.fromEXE.rd = 0#5 := by
  rcases MEM.excepVec_cases he with he | hf
  · exact hok.write halive he hw
  · cases hren : MEM.ren s.memStage
    case false => exact hok.sc hf hren (by simpa [MEM.regWrite, hren] using hw)
    case true =>
      rw [MEM.regWrite, hren, if_pos rfl] at hw
      simp [MEM.flush2EXE, hw] at hf

theorem PreciseInv.faulting_leaves (h : PreciseInv s g) (hok : FaultsIdle B s io)
    (hf : Faulting s.memStage) : toMEMFire B s io = true := by
  obtain ⟨halive, he | hm⟩ := hf
  · rw [toMEMFire_of_bubble (h.faulted halive he)]
    have hst := h.faultIdle ⟨halive, .inl he⟩
    cases ha : MEM.access s.memStage
    case false => simp [toWBFire, MEM.toWBFire, MEM.toWBValid, hst, ha]
    case true =>
      have hsc := hok.access halive he ha
      simp [toWBFire, MEM.toWBFire, MEM.toWBValid, hst, ha, hsc]
  · exact h.toSettled.toMEMFire_of_flush2EXE hm

theorem PreciseInv.fire_of_faulting_next (h : PreciseInv s g) (hok : FaultsIdle B s io)
    (hf : Faulting (next B s io).memStage) : toMEMFire B s io = true := by
  by_contra hfire
  rw [Bool.not_eq_true] at hfire
  have hfrom := next_fromEXE B s io
  simp only [hfire, Bool.false_eq_true, if_false] at hfrom
  rw [Faulting, hfrom, MEM.flush2EXE_congr hfrom] at hf
  simp [h.faulting_leaves hok hf] at hfire

theorem PreciseInv.toEXE_nop_of_faulting (h : PreciseInv s g) (hok : FaultsIdle B s io)
    (hf : Faulting s.memStage) (he : MEM.excepVec s.memStage ≠ 0#16) :
    (toEXE B s io).nop = true := by
  cases hm : MEM.flush2EXE s.memStage
  case true => exact toEXE_nop_of_flush (flush_of_kill (by simp [kill, hm]))
  case false =>
    rcases h.behindFault hf hm with hd | hd | ⟨hw, hrd⟩
    · exact IDDead.toEXE_nop (.inl hd)
    · exact IDDead.toEXE_nop (.inr (.inl hd))
    · exact absurd (hok.rd_of_regWrite hf.1 he hw) hrd

theorem PreciseInv.behindFault_next (h : PreciseInv s g) (hok : FaultsIdle B s io)
    (hf : Faulting (next B s io).memStage)
    (hm : MEM.flush2EXE (next B s io).memStage = false) :
    (next B s io).idStage.fromIF.nop = true ∨ (next B s io).idStage.hasFired = true ∨
      MEM.regWrite (next B s io).memStage = true ∧
        (next B s io).memStage.fromEXE.rd ≠ 0#5 := by
  have hfire := h.fire_of_faulting_next hok hf
  have hfrom := next_fromEXE B s io
  simp only [hfire, if_true] at hfrom
  have halive : (toMEM B s io).nop = false := by
    rw [← hfrom]
    exact hf.1
  have he : s.exeStage.fromID.excepVec ≠ 0#16 := by
    have := hf.2.resolve_right (by simp [hm])
    rwa [hfrom] at this
  have hflush := flush_of_excep halive he
  cases h1 : toIDFire B s io
  case true => exact .inl (by simp [next_idStage, h1, toID_nop_of_flush hflush])
  case false =>
    cases hst : ID.stall (idInputs B s io)
    case false => exact .inr (.inl (by simp [next_idStage, h1, toEXEFire_eq, hfire, hst]))
    case true =>
      obtain ⟨-, rs, -, hrs⟩ := stall_spec (toWBFire_of_toMEMFire hfire) hst
      simp only [BypassNetwork.matched, EXE.bypass, Bool.and_eq_true, bne_iff_ne,
        beq_iff_eq] at hrs
      obtain ⟨⟨h0, hrd⟩, hw, -⟩ := hrs
      refine .inr (.inr ⟨?_, ?_⟩)
      · cases hren : MEM.ren (Core.next B s io).memStage
        case true => simpa [MEM.regWrite, hren, MEM.flush2EXE] using hm
        case false =>
          simp [MEM.regWrite, hren, MEM.controlSignals, hfrom, toMEM, EXE.toMEM,
            EXE.controlSignals, hw]
      · rw [hfrom]
        exact fun hz => h0 (hrd.symm.trans hz)

theorem PreciseInv.csrWen_of_faulting (h : PreciseInv s g) (hok : FaultsIdle B s io)
    (hfire : toMEMFire B s io = true) (hf : Faulting (next B s io).memStage) :
    (csrInputs B s io).writePort.wen = false := by
  by_contra hw
  obtain ⟨-, halive, hcsr⟩ := csrWen_spec (Bool.not_eq_false _ ▸ hw)
  have hfrom := next_fromEXE B s io
  simp only [hfire, if_true] at hfrom
  by_cases he : s.exeStage.fromID.excepVec = 0#16
  · have hnop := halive
    rw [toMEM_nop h.exeFired, Bool.or_eq_false_iff] at hnop
    have hm := hf.2.resolve_left (by rw [hfrom]; exact not_not.2 he)
    have haccess : s.exeStage.fromID.decodeBundle.memRead ≠ 0#4 ∨
        s.exeStage.fromID.decodeBundle.memWrite ≠ 0#4 := by
      by_contra h0
      rw [not_or, not_not, not_not] at h0
      simp [MEM.flush2EXE, MEM.ren, MEM.wen, MEM.controlSignals, hfrom, toMEM, EXE.toMEM,
        EXE.controlSignals, h0, orR] at hm
    simp [(h.table hnop.1 he).csrWrite haccess] at hcsr
  · simp [hok.csr halive hfire he] at hcsr

theorem PreciseInv.faulting_next (h : PreciseInv s g) (hok : FaultsIdle B s io)
    (hf : Faulting (next B s io).memStage) :
    ∀ m ∈ liveMEM (next B s io) (g.observe B s io), ∀ a ∈ (g.observe B s io).acted,
      a.serial < m.serial := by
  intro m hm a ha
  have hfire := h.fire_of_faulting_next hok hf
  rcases mem_liveMEM_next h.exeFired hm with ⟨-, -, hm⟩ | ⟨hwait, -⟩
  · rcases List.mem_append.1 ha with ha | ha
    · exact (h.acted a ha).2 m hm
    · rcases h.toOrdered.acts_cases ha with ⟨ha, -⟩ | ⟨ha, -⟩ | ⟨-, hw⟩
      · exact (h.wb a ha).1.2 m hm
      · exact (h.mem a ha).2 m hm
      · simp [h.csrWen_of_faulting hok hfire hf] at hw
  · simp [hfire] at hwait

theorem PreciseInv.req_of_faulting (h : PreciseInv s g) (hok : FaultsIdle B s io)
    (hf : Faulting s.memStage) : (MEM.req s.memStage).valid = false := by
  have hst := h.faultIdle hf
  cases ha : MEM.access s.memStage
  case false => simp [MEM.req, hst, ha]
  case true =>
    have he := hf.2.resolve_right fun hm => by
      simp [MEM.access_eq_false_of_flush2EXE hm] at ha
    have hsc := hok.access hf.1 he ha
    simp [MEM.req, hst, ha, hsc]

theorem PreciseInv.stopped (h : PreciseInv s g) (hok : FaultsIdle B s io) {z : Ticket}
    (hz : z ∈ traps B s io g) : Stopped (next B s io) (g.observe B s io) z := by
  rw [traps] at hz
  split at hz
  case isFalse => simp at hz
  rename_i hc
  simp only [Bool.and_eq_true, Bool.not_eq_true', orR, bne_iff_ne] at hc
  obtain ⟨⟨hwb, hnop⟩, he⟩ := hc
  obtain ⟨halive, hfired⟩ : s.memStage.fromEXE.nop = false ∧ s.memStage.hasFired = false := by
    simpa [toWB, MEM.toWB, MEM.nop] using hnop
  simp only [List.mem_map, Option.mem_toList] at hz
  obtain ⟨m, hm, rfl⟩ := hz
  have hlive : m ∈ liveMEM s g := by
    simpa [liveMEM, halive] using hm
  have hf : Faulting s.memStage := ⟨halive, MEM.excepVec_cases he⟩
  have hvec : (WB.csrCmd (toWB s io)).excepVec ≠ 0#16 := by
    simpa [WB.csrCmd, hnop] using he
  obtain ⟨hfire, hmem⟩ := h.toSettled.toMEM_nop_of_excep (B := B) hwb hvec
  have hexe := h.toEXE_nop_of_faulting hok hf he
  have hnext : (Core.next B s io).fromMEM = toWB s io := by simp [Core.next, hwb]
  have hpending : RedirectPending (Core.next B s io) := .inr (by rw [hnext]; exact hvec)
  refine ⟨Nat.le_refl _, fun _ => hpending, fun _ _ _ => hpending, fun e he' => ?_,
    fun m hm => ?_, fun w _ _ => ?_, fun a ha hsh => ?_⟩
  · simp [liveEXE_next, hfire, hexe] at he'
  · simp [liveMEM_next h.exeFired, hfire, hmem] at hm
  · rw [hnext]
    by_contra hw
    obtain ⟨h0, hw⟩ := WB.writePortWen_spec (Bool.not_eq_false _ ▸ hw)
    simp only [toWB, MEM.toWB, Bool.and_eq_true] at hw
    exact h0 (hok.rd_of_regWrite halive he hw.1)
  · have hlt : a.serial < m.serial := by
      rcases List.mem_append.1 ha with ha | ha
      · exact h.faulting hf m hlive a ha
      · rcases h.toOrdered.acts_cases ha with ⟨ha, -⟩ | ⟨-, hr⟩ | ⟨-, hw⟩
        · exact (h.wb a ha).2 hfired m hlive
        · simp [h.req_of_faulting hok hf] at hr
        · simp [(csrWen_spec hw).2.1] at hmem
    exact absurd hsh.2 (Nat.not_le.2 hlt)

theorem PreciseInv.next (h : PreciseInv s g) (hok : FaultsIdle B s io) :
    PreciseInv (next B s io) (g.observe B s io) where
  toOrdered := h.toOrdered.next
  faultIdle hf := MEM.nextState_of_fire (h.fire_of_faulting_next hok hf)
  behindFault hf hm := h.behindFault_next hok hf hm
  faulting hf := h.faulting_next hok hf
  trapped z hz := by
    rcases List.mem_append.1 hz with hz | hz
    · exact (h.trapped z hz).next h.toOrdered
    · exact h.stopped hok hz

theorem IsReset.precise (h : IsReset B s) : PreciseInv s .none := by
  have hmem := h.memStage
  have hexec : Faulting s.memStage → False := fun hf => by
    simp [Faulting, hmem, MEM.reset, ExeMemBus.zero, MEM.flush2EXE, MEM.ren, MEM.wen,
      MEM.controlSignals, ExeMemSignalsBundle.zero] at hf
  refine ⟨h.ordered, fun hf => (hexec hf).elim, fun hf => (hexec hf).elim,
    fun hf => (hexec hf).elim, ?_⟩
  simp [Effects.none]

theorem precise_exceptions {p : Regs × Effects}
    (h : (withEffects B).Reaches (fun p io => WordsIdle B p.1 io) p) : Precise p.2 := by
  have hinv : Worded B p.1 ∧ PreciseInv p.1 p.2 :=
    h.monitor_invariant (P := fun s g => Worded B s ∧ PreciseInv s g)
      (fun _ hs => ⟨hs.worded, hs.precise⟩)
      fun _ _ _ ih hok => ⟨ih.1.next hok, ih.2.next (ih.1.faultsIdle hok)⟩
  exact fun z hz => (hinv.2.trapped z hz).acted

/-- lw x2, 1(x0) and two additions behind it, until the load is in WB and its redirect taken. -/
theorem precise_exceptions_misalignedLoad :
    let p := (withEffects .zeros).run (.reset .zeros 0, .none) [.request, .fetch 0x00102103,
      .request, .fetch 0x00100113, .request, .fetch 0x00100193, .fetch 0x13, .fetch 0x13]
    p.2.trapped = [⟨0, 1⟩] ∧ Precise p.2 := by
  have hr := (withEffects .zeros).reaches_run (fun p io => WordsIdle .zeros p.1 io)
    (.reset .zeros 0, .none) [.request, .fetch 0x00102103, .request, .fetch 0x00100113,
      .request, .fetch 0x00100193, .fetch 0x13, .fetch 0x13]
    ⟨isReset_reset _ _, rfl⟩ (by decide +kernel)
  exact ⟨by decide +kernel, precise_exceptions hr⟩

/-- sc.w x6, x0, (x1) at the address 1 writes x6. -/
theorem misaligned_sc_writes :
    ¬∀ p, (withEffects .zeros).Reaches (fun _ _ => True) p → Precise p.2 := by
  intro h
  have hr := (withEffects .zeros).reaches_run (fun _ _ => True) (.reset .zeros 1, .none)
    [.request, .fetch 0x13, .fetch 0x1800a32f, .fetch 0x13, .fetch 0x13, .fetch 0x13, .fetch 0x13]
    ⟨isReset_reset _ _, rfl⟩ (by decide +kernel)
  have hp := h _ hr
  revert hp
  decide +kernel

end Core

end FpgaNpc
