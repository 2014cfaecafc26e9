import FpgaNpc.Core.Alignment
import FpgaNpc.Core.Branch
import FpgaNpc.Core.Decoders
import FpgaNpc.Riscv.MemoryAccess

open FpgaNpc.Hardware FpgaNpc.InterStage FpgaNpc.ControlSignals FpgaNpc.ExceptionCodes

namespace FpgaNpc

section Rows

open ControlLogic Riscv

theorem ControlLogic.table_legal : ∀ p ∈ table, p.2.legal = Y := by
  decide +kernel

theorem Decoder.legal_iff (d : Decoder) (inst : Word) :
    (d.ctrlWord inst).legal = true ↔ InTable inst := by
  constructor
  · intro h
    obtain ⟨p, hp, hm, -⟩ := d.row_of_legal h
    exact ⟨p, hp, hm⟩
  · rintro ⟨p, hp, hm⟩
    exact (d.row inst p hp hm).legal _ (table_legal p hp)

def byteMask : Width → BitVec 4
  | .byte => MemRead.B
  | .half => MemRead.H
  | .word => MemRead.W

def readMask : Option Access → BitVec 4
  | some a => if a.kind.reads then byteMask a.width else MemRead.N
  | none => MemRead.N

def writeMask : Option Access → BitVec 4
  | some a => if a.kind.writes then byteMask a.width else MemWrite.N
  | none => MemWrite.N

theorem ControlLogic.table_fields : ∀ p ∈ table,
    p.1.mask.extractLsb 6 0 = BitVec.allOnes (6 - 0 + 1) ∧
      (opcode p.1.value ∈ [0b0000011#7, 0b0100011#7, 0b0101111#7] →
        p.1.mask.extractLsb 14 12 = BitVec.allOnes (14 - 12 + 1)) ∧
      (opcode p.1.value = 0b0101111#7 →
        p.1.mask.extractLsb 31 27 = BitVec.allOnes (31 - 27 + 1)) := by
  decide +kernel

theorem ControlLogic.access_of_matches {inst : Word} {p : BitPat 32 × ControlRow}
    (hp : p ∈ table) (h : p.1.Matches inst) : access inst = access p.1.value := by
  obtain ⟨hop, hf3, hf5⟩ := table_fields p hp
  have hopcode : opcode inst = opcode p.1.value := h.extractLsb 6 0 hop
  have hfunct3 : opcode p.1.value ∈ [0b0000011#7, 0b0100011#7, 0b0101111#7] →
      funct3 inst = funct3 p.1.value := fun ho => h.extractLsb 14 12 (hf3 ho)
  rw [access, access, hopcode]
  split
  case isTrue ho => rw [loadWidth, loadWidth, hfunct3 (by simp [ho])]
  case isFalse =>
    split
    case isTrue ho => rw [storeWidth, storeWidth, hfunct3 (by simp [ho])]
    case isFalse =>
      split
      case isTrue ho =>
        have hfunct5 : funct5 inst = funct5 p.1.value := h.extractLsb 31 27 (hf5 ho)
        rw [amoKind, amoKind, hfunct3 (by simp [ho]), hfunct5]
      case isFalse => rfl

theorem ControlLogic.table_access : ∀ p ∈ table, p.2.memRead = readMask (access p.1.value) ∧
    p.2.memWrite = writeMask (access p.1.value) := by
  decide +kernel

theorem Decoder.access_row (d : Decoder) {inst : Word} (h : InTable inst) :
    (d.ctrlWord inst).decodeBundle.memRead = readMask (access inst) ∧
      (d.ctrlWord inst).decodeBundle.memWrite = writeMask (access inst) := by
  obtain ⟨p, hp, hm⟩ := h
  obtain ⟨hr, hw⟩ := table_access p hp
  rw [access_of_matches hp hm]
  exact ⟨(d.row inst p hp hm).memRead _ hr, (d.row inst p hp hm).memWrite _ hw⟩

theorem orR_readMask (x : Option Access) :
    orR (readMask x) = true ↔ ∃ a ∈ x, a.kind.reads = true := by
  rcases x with _ | ⟨_ | _ | _, _ | _ | _⟩ <;> simp [readMask, byteMask, orR, AccessKind.reads]

theorem orR_writeMask (x : Option Access) :
    orR (writeMask x) = true ↔ ∃ a ∈ x, a.kind.writes = true := by
  rcases x with _ | ⟨_ | _ | _, _ | _ | _⟩ <;>
    simp [writeMask, byteMask, orR, AccessKind.writes]

theorem mask_of_access (x : Option Access) :
    readMask x ||| writeMask x = x.elim 0 fun a => byteMask a.width := by
  rcases x with _ | ⟨_ | _ | _, _ | _ | _⟩ <;> rfl

theorem MEM.align_iff {s : MEM.Regs} {x : Option Riscv.Access}
    (h : byteWise s = x.elim 0 fun a => byteMask a.width) :
    align s = false ↔ ∃ a ∈ x, a.Misaligned (vaddr s) := by
  have hlow : (vaddr s).extractLsb 1 0 = 0#2 ↔ (vaddr s).toNat % 4 = 0 := by
    rw [← BitVec.toNat_inj, BitVec.extractLsb_toNat]
    simp
  have hbit : (vaddr s)[0] = true ↔ (vaddr s).toNat % 2 = 1 := by
    rw [← BitVec.getLsbD_eq_getElem]
    simp [BitVec.getLsbD]
  rcases x with _ | ⟨_, _ | _ | _⟩ <;>
    simp [align, PriorityMux, h, byteMask, Riscv.Access.Misaligned, Width.bytes, orR, hlow, hbit,
      Nat.mod_one]

end Rows

namespace Core

open CSRRegFile ControlLogic Riscv CsrConsts

def envCalls : List Nat :=
  [UserEnvironmentCall, SupervisorEnvironmentCall, MachineEnvironmentCall]

def DecodesECALL (inst : Word) : Prop :=
  csrAddr inst = CsrConsts.ECALL ∧ inst.extractLsb 6 0 = 0x73#7

instance (inst : Word) : Decidable (DecodesECALL inst) := inferInstanceAs (Decidable (_ ∧ _))

/-- The code that the ISA gives to the exception of an instruction, of those that the core knows. -/
def trapCode (inst pc addr : Word) (p : PRIV) : Option Nat :=
  if ¬InTable inst then some IllegalInstruction
  else if ¬Aligned pc then some InstructionAddressMisaligned
  else if inst = ecall then envCall p
  else match access inst with
    | some a => if a.Misaligned addr then some a.kind.misalignedCode else none
    | none => none

structure FrontVector (inst pc : Word) (v : BitVec 16) : Prop where
  illegal : v.getLsbD IllegalInstruction = true ↔ ¬InTable inst
  fetch : v.getLsbD InstructionAddressMisaligned = true ↔ ¬Aligned pc
  call : (∃ c ∈ envCalls, v.getLsbD c = true) ↔ DecodesECALL inst
  other : ∀ c ∉ [IllegalInstruction, InstructionAddressMisaligned, LoadAddressMisaligned,
    StoreAMOAddressMisaligned] ++ envCalls, v.getLsbD c = false

structure AccessVector (inst addr : Word) (v : BitVec 16) : Prop where
  load : InTable inst → (v.getLsbD LoadAddressMisaligned = true ↔
    ∃ a ∈ access inst, a.Misaligned addr ∧ a.kind.reads = true)
  store : InTable inst → (v.getLsbD StoreAMOAddressMisaligned = true ↔
    ∃ a ∈ access inst, a.Misaligned addr ∧ a.kind.writes = true)

section Vectors

variable {inst pc addr : Word} {v : BitVec 16} {p : PRIV}

theorem DecodesECALL.access (h : DecodesECALL inst) : access inst = none := by
  have hop : opcode inst = 0x73#7 := h.2
  simp [Riscv.access, hop]

theorem trapCode_of_illegal (h : ¬InTable inst) : trapCode inst pc addr p = some 2 := by
  rw [trapCode, if_pos h]

theorem trapCode_of_fetch (h : InTable inst) (hp : ¬Aligned pc) :
    trapCode inst pc addr p = some 0 := by
  rw [trapCode, if_neg (not_not.2 h), if_pos hp]

theorem trapCode_of_call (h : InTable ecall) (hp : Aligned pc) :
    trapCode ecall pc addr p = envCall p := by
  rw [trapCode, if_neg (not_not.2 h), if_neg (not_not.2 hp), if_pos rfl]

theorem trapCode_of_access (h : InTable inst) (hp : Aligned pc) (hc : inst ≠ ecall) :
    trapCode inst pc addr p = match access inst with
      | some a => if a.Misaligned addr then some a.kind.misalignedCode else none
      | none => none := by
  rw [trapCode, if_neg (not_not.2 h), if_neg (not_not.2 hp), if_neg hc]

theorem trapCode_lt {c : Nat} (h : c ∈ trapCode inst pc addr p) : c < 16 := by
  rw [trapCode, Option.mem_def] at h
  split at h
  · obtain rfl := Option.some.inj h
    decide
  · split at h
    · obtain rfl := Option.some.inj h
      decide
    · split at h
      · cases p <;> simp only [envCall, Option.some.injEq, reduceCtorEq] at h <;>
          subst h <;> decide
      · split at h
        case h_1 a _ =>
          split at h
          · obtain rfl := Option.some.inj h
            cases a.kind <;> decide
          · exact absurd h (by simp)
        case h_2 => exact absurd h (by simp)

namespace FrontVector

variable (h : FrontVector inst pc v)

include h

theorem firstOf_eq : firstOf v ExcepPriority =
    if v.getLsbD 2 then 2 else if v.getLsbD 0 then 0 else if v.getLsbD 11 then 11
    else if v.getLsbD 9 then 9 else if v.getLsbD 8 then 8 else if v.getLsbD 4 then 4
    else if v.getLsbD 6 then 6 else 0 := by
  simp only [firstOf, ExcepPriority, h.other Breakpoint (by decide),
    h.other InstructionPageFault (by decide), h.other InstructionAccessFault (by decide),
    h.other LoadPageFault (by decide), h.other StoreAMOPageFault (by decide),
    h.other LoadAccessFault (by decide), h.other StoreAMOAccessFault (by decide),
    Bool.false_eq_true, if_false]

theorem ne_zero_iff : v ≠ 0#16 ↔ ¬InTable inst ∨ ¬Aligned pc ∨ DecodesECALL inst ∨
    v.getLsbD 4 = true ∨ v.getLsbD 6 = true := by
  rw [← h.illegal, ← h.fetch, ← h.call]
  constructor
  · intro hv
    obtain ⟨c, -, hc⟩ := exists_getLsbD_of_ne_zero hv
    by_contra hn
    have hmem : c ∉ [IllegalInstruction, InstructionAddressMisaligned, LoadAddressMisaligned,
        StoreAMOAddressMisaligned] ++ envCalls := by
      intro hmem
      apply hn
      simp only [List.mem_append, List.mem_cons, List.not_mem_nil, or_false] at hmem
      rcases hmem with (rfl | rfl | rfl | rfl) | hcall
      · exact .inl hc
      · exact .inr (.inl hc)
      · exact .inr (.inr (.inr (.inl hc)))
      · exact .inr (.inr (.inr (.inr hc)))
      · exact .inr (.inr (.inl ⟨c, hcall, hc⟩))
    simp [h.other c hmem] at hc
  · rintro hbit rfl
    simp at hbit

theorem firstOf_of_no_call (ht : InTable inst) (hp : Aligned pc) (hc : ¬DecodesECALL inst) :
    firstOf v ExcepPriority = if v.getLsbD 4 then 4 else if v.getLsbD 6 then 6 else 0 := by
  have hcalls (c : Nat) (hmem : c ∈ envCalls) : v.getLsbD c = false :=
    Bool.eq_false_iff.2 fun hb => hc (h.call.1 ⟨c, hmem, hb⟩)
  have h2 : v.getLsbD 2 = false := Bool.eq_false_iff.2 fun hb => h.illegal.1 hb ht
  have h0 : v.getLsbD 0 = false := Bool.eq_false_iff.2 fun hb => h.fetch.1 hb hp
  simp only [h.firstOf_eq, h2, h0, hcalls 8 (by decide), hcalls 9 (by decide),
    hcalls 11 (by decide), Bool.false_eq_true, if_false]

theorem firstOf_of_call (ht : InTable inst) (hp : Aligned pc) (he : RaisesEnvCall p v) :
    ∀ c ∈ envCall p, firstOf v ExcepPriority = c := by
  obtain ⟨code, hcode, hbits⟩ := he
  intro c hc
  obtain rfl : code = c := Option.some.inj (hcode.symm.trans hc)
  have h2 : v.getLsbD 2 = false := Bool.eq_false_iff.2 fun hb => h.illegal.1 hb ht
  have h0 : v.getLsbD 0 = false := Bool.eq_false_iff.2 fun hb => h.fetch.1 hb hp
  have h8 := hbits 8 (by decide)
  have h9 := hbits 9 (by decide)
  have h11 := hbits 11 (by decide)
  cases p <;> simp only [envCall, Option.some.injEq, reduceCtorEq] at hcode <;>
    subst hcode <;>
    simp only [h8, h9, h11, h.firstOf_eq, h2, h0, Bool.false_eq_true, if_false, if_true] <;> decide

theorem right (ha : AccessVector inst addr v) (he : inst = ecall → RaisesEnvCall p v)
    (hcall : InTable inst → Aligned pc → DecodesECALL inst → inst = ecall)
    (hamo : InTable inst → Aligned pc → ∀ a ∈ access inst, a.kind = .amo → ¬a.Misaligned addr) :
    (v ≠ 0#16 ↔ (trapCode inst pc addr p).isSome) ∧
      ∀ c ∈ trapCode inst pc addr p, firstOf v ExcepPriority = c := by
  by_cases ht : InTable inst
  case neg =>
    have h2 := h.illegal.2 ht
    rw [trapCode_of_illegal ht, h.ne_zero_iff, h.firstOf_eq]
    simp only [h2]
    simp [ht]
  case pos =>
    by_cases hp : Aligned pc
    case neg =>
      have h0 := h.fetch.2 hp
      have h2 : v.getLsbD 2 = false := Bool.eq_false_iff.2 fun hb => h.illegal.1 hb ht
      rw [trapCode_of_fetch ht hp, h.ne_zero_iff, h.firstOf_eq]
      simp only [h2, h0]
      simp [hp]
    case pos =>
      by_cases hc : inst = ecall
      case pos =>
        have hraise := he hc
        subst hc
        rw [trapCode_of_call ht hp]
        refine ⟨⟨fun _ => ?_, fun _ => hraise.ne_zero⟩, h.firstOf_of_call ht hp hraise⟩
        obtain ⟨code, hcode, -⟩ := hraise
        rw [hcode]
        rfl
      case neg =>
        have hd : ¬DecodesECALL inst := fun hd => hc (hcall ht hp hd)
        rw [trapCode_of_access ht hp hc, h.ne_zero_iff, h.firstOf_of_no_call ht hp hd]
        simp only [ht, hp, hd, ha.load ht, ha.store ht, not_true_eq_false, false_or]
        cases hacc : access inst with
        | none => simp
        | some a =>
          have hna := hamo ht hp a hacc
          by_cases hm : a.Misaligned addr <;> cases hk : a.kind <;>
            simp_all [AccessKind.reads, AccessKind.writes, AccessKind.misalignedCode]

end FrontVector

end Vectors

variable (B : Build) (s : Regs) (io : Inputs) (addr : Word)

def accessed : Word := if toWBFire s io then MEM.vaddr s.memStage else addr

def withAddr : Machine (Regs × Word) Inputs := (machine B).monitor 0 accessed

def wbCode : Option Nat := trapCode s.fromMEM.inst s.fromMEM.pc addr s.csrRegs.privilege

/-- An instruction traps when it has to, with its code in mcause, and of the exceptions that come
together the first one in the order of priority is the cause. -/
structure CodesRight : Prop where
  traps : s.fromMEM.nop = false → (raiseExcep (csrCmd s) = true ↔ (wbCode s addr).isSome)
  recorded : s.fromMEM.nop = false → ∀ c ∈ wbCode s addr,
    (next B s io).csrRegs.mcause = .ofNat 32 c
  priority : ∀ (c : CSRRegFile.Regs) (i : CSRRegFile.Inputs),
    raiseIntr c i.interrupt = false →
    ∀ n ∈ ExcepPriority.find? fun k => i.excepCmd.excepVec.getLsbD k, causeNO c i = .ofNat 32 n

/-- What ID takes for an ecall is one, and no AMO is misaligned; and when an instruction traps, no
interrupt is pending and EXE does not write another value to mcause. -/
structure CodesTell : Prop where
  call : s.fromMEM.nop = false → InTable s.fromMEM.inst → Aligned s.fromMEM.pc →
    DecodesECALL s.fromMEM.inst → s.fromMEM.inst = ecall
  amo : s.fromMEM.nop = false → InTable s.fromMEM.inst → Aligned s.fromMEM.pc →
    ∀ a ∈ access s.fromMEM.inst, a.kind = .amo → ¬a.Misaligned addr
  alone : s.fromMEM.nop = false → (wbCode s addr).isSome → ¬writesCsr B s io Mcause →
    raiseIntr s.csrRegs io.interrupt = false
  written : s.fromMEM.nop = false → writesCsr B s io Mcause →
    ∀ c ∈ wbCode s addr, (csrInputs B s io).writePort.wdata = .ofNat 32 c

structure AccessDecoded (inst : Word) (memRead memWrite : Bool) (mask : BitVec 4) : Prop where
  read : InTable inst → (memRead = true ↔ ∃ a ∈ access inst, a.kind.reads = true)
  write : InTable inst → (memWrite = true ↔ ∃ a ∈ access inst, a.kind.writes = true)
  mask : InTable inst → mask = (access inst).elim 0 fun a => byteMask a.width

structure CodesInv : Prop extends PrivilegeInv B s where
  idVector : s.idStage.fromIF.excepVec =
    setBit 0 InstructionAddressMisaligned (orR (s.idStage.fromIF.pc.extractLsb 1 0))
  exeVector : s.exeStage.fromID.nop = false →
    FrontVector s.exeStage.fromID.inst s.exeStage.fromID.pc s.exeStage.fromID.excepVec
  exeAccess : s.exeStage.fromID.nop = false → AccessDecoded s.exeStage.fromID.inst
    (orR s.exeStage.fromID.decodeBundle.memRead) (orR s.exeStage.fromID.decodeBundle.memWrite)
    (s.exeStage.fromID.decodeBundle.memRead ||| s.exeStage.fromID.decodeBundle.memWrite)
  memVector : s.memStage.fromEXE.nop = false →
    FrontVector s.memStage.fromEXE.inst s.memStage.fromEXE.pc s.memStage.fromEXE.excepVec
  memAccess : s.memStage.fromEXE.nop = false → AccessDecoded s.memStage.fromEXE.inst
    (MEM.ren s.memStage) (MEM.wen s.memStage) (MEM.byteWise s.memStage)
  wbVector : s.fromMEM.nop = false →
    FrontVector s.fromMEM.inst s.fromMEM.pc s.fromMEM.excepVec
  wbAccess : s.fromMEM.nop = false → AccessVector s.fromMEM.inst addr s.fromMEM.excepVec
  /-- A misaligned access that is about to trap has a bubble in EXE. -/
  quiet : s.fromMEM.nop = false → (s.fromMEM.excepVec.getLsbD LoadAddressMisaligned = true ∨
    s.fromMEM.excepVec.getLsbD StoreAMOAddressMisaligned = true) → s.exeStage.fromID.nop = true

variable {B s io addr}

section Stages

theorem aligned_iff {pc : Word} : orR (pc.extractLsb 1 0) = true ↔ ¬Aligned pc := by
  simp [orR, Aligned]

theorem toEXE_excepVec (c : Nat) : (toEXE B s io).excepVec.getLsbD c =
    if c = SupervisorEnvironmentCall then
      ID.isECALL s.idStage.fromIF && s.csrRegs.privilege == .Supervisor
    else if c = MachineEnvironmentCall then
      ID.isECALL s.idStage.fromIF && s.csrRegs.privilege == .Machine
    else if c = UserEnvironmentCall then
      ID.isECALL s.idStage.fromIF && s.csrRegs.privilege == .User
    else if c = IllegalInstruction then !(B.decoder.ctrlWord s.idStage.fromIF.inst).legal
    else s.idStage.fromIF.excepVec.getLsbD c := by
  change (ID.excepVec B.decoder s.idStage (idInputs B s io)).getLsbD c = _
  rw [ID.excepVec, getLsbD_setBit _ _ _ _ (by decide), getLsbD_setBit _ _ _ _ (by decide),
    getLsbD_setBit _ _ _ _ (by decide), getLsbD_setBit _ _ _ _ (by decide)]
  rfl

theorem frontVector_toEXE (h : s.idStage.fromIF.excepVec =
      setBit 0 InstructionAddressMisaligned (orR (s.idStage.fromIF.pc.extractLsb 1 0)))
    (hp : s.csrRegs.privilege ≠ .Reserved) :
    FrontVector (toEXE B s io).inst (toEXE B s io).pc (toEXE B s io).excepVec where
  illegal := by
    rw [toEXE_excepVec, if_neg (by decide), if_neg (by decide), if_neg (by decide), if_pos rfl,
      Bool.not_eq_true', ← Bool.not_eq_true, B.decoder.legal_iff]
    rfl
  fetch := by
    rw [toEXE_excepVec, if_neg (by decide), if_neg (by decide), if_neg (by decide),
      if_neg (by decide), h, getLsbD_setBit _ _ _ _ (by decide)]
    exact aligned_iff
  call := by
    have hcalls (c : Nat) (hc : c ∈ envCalls) : (toEXE B s io).excepVec.getLsbD c =
        (ID.isECALL s.idStage.fromIF && decide (envCall s.csrRegs.privilege = some c)) :=
      excepVec_envCall B.decoder s.idStage (idInputs B s io) hc
    have hiff : DecodesECALL (toEXE B s io).inst ↔ ID.isECALL s.idStage.fromIF = true :=
      isECALL_iff.symm
    rw [hiff]
    constructor
    · rintro ⟨c, hc, hb⟩
      rw [hcalls c hc, Bool.and_eq_true] at hb
      exact hb.1
    · intro he
      obtain ⟨c, hc, hcode⟩ : ∃ c ∈ envCalls, envCall s.csrRegs.privilege = some c := by
        cases hm : s.csrRegs.privilege
        case Reserved => exact absurd hm hp
        all_goals exact ⟨_, by decide, rfl⟩
      exact ⟨c, hc, by rw [hcalls c hc, he, hcode]; simp⟩
  other c hc := by
    simp only [envCalls, List.cons_append, List.nil_append, List.mem_cons, List.not_mem_nil,
      or_false, not_or] at hc
    obtain ⟨h2, h0, -, -, h8, h9, h11⟩ := hc
    rw [toEXE_excepVec, if_neg h9, if_neg h11, if_neg h8, if_neg h2, h,
      getLsbD_setBit _ _ _ _ (by decide), if_neg h0]
    simp

theorem accessDecoded_toEXE (h : (toEXE B s io).nop = false) : AccessDecoded (toEXE B s io).inst
    (orR (toEXE B s io).decodeBundle.memRead) (orR (toEXE B s io).decodeBundle.memWrite)
    ((toEXE B s io).decodeBundle.memRead ||| (toEXE B s io).decodeBundle.memWrite) := by
  have hbundle : (toEXE B s io).decodeBundle =
      (B.decoder.ctrlWord (toEXE B s io).inst).decodeBundle := ID.decodeBundle_of_alive h
  rw [hbundle]
  constructor <;> intro ht <;> obtain ⟨hr, hw⟩ := B.decoder.access_row ht
  case read => rw [hr, orR_readMask]
  case write => rw [hw, orR_writeMask]
  case mask => rw [hr, hw, mask_of_access]

theorem toWB_excepVec (c : Nat) : (toWB s io).excepVec.getLsbD c =
    if c = StoreAMOAddressMisaligned then !MEM.align s.memStage && MEM.wen s.memStage
    else if c = LoadAddressMisaligned then !MEM.align s.memStage && MEM.ren s.memStage
    else s.memStage.fromEXE.excepVec.getLsbD c := by
  change (MEM.excepVec s.memStage).getLsbD c = _
  rw [MEM.excepVec, getLsbD_setBit _ _ _ _ (by decide), getLsbD_setBit _ _ _ _ (by decide)]

theorem FrontVector.toWB (h : FrontVector s.memStage.fromEXE.inst s.memStage.fromEXE.pc
    s.memStage.fromEXE.excepVec) : FrontVector (toWB s io).inst (toWB s io).pc
      (toWB s io).excepVec where
  illegal := by
    rw [toWB_excepVec, if_neg (by decide), if_neg (by decide)]
    exact h.illegal
  fetch := by
    rw [toWB_excepVec, if_neg (by decide), if_neg (by decide)]
    exact h.fetch
  call := by
    rw [← show _ ↔ DecodesECALL (Core.toWB s io).inst from h.call]
    refine exists_congr fun c => and_congr_right fun hc => ?_
    have hne : c ≠ StoreAMOAddressMisaligned ∧ c ≠ LoadAddressMisaligned := by
      constructor <;> rintro rfl <;> revert hc <;> decide
    rw [toWB_excepVec, if_neg hne.1, if_neg hne.2]
  other c hc := by
    have hne : c ≠ StoreAMOAddressMisaligned ∧ c ≠ LoadAddressMisaligned := by
      constructor <;> rintro rfl <;> exact hc (by decide)
    rw [toWB_excepVec, if_neg hne.1, if_neg hne.2]
    exact h.other c hc

theorem AccessDecoded.toWB (h : AccessDecoded s.memStage.fromEXE.inst (MEM.ren s.memStage)
    (MEM.wen s.memStage) (MEM.byteWise s.memStage)) :
    AccessVector (toWB s io).inst (MEM.vaddr s.memStage) (toWB s io).excepVec := by
  have huniq (k : Access → Prop) : ((∃ a ∈ access s.memStage.fromEXE.inst,
      a.Misaligned (MEM.vaddr s.memStage)) ∧ ∃ a ∈ access s.memStage.fromEXE.inst, k a) ↔
        ∃ a ∈ access s.memStage.fromEXE.inst, a.Misaligned (MEM.vaddr s.memStage) ∧ k a := by
    constructor
    · rintro ⟨⟨a, ha, hm⟩, b, hb, hk⟩
      exact ⟨a, ha, hm, Option.mem_unique hb ha ▸ hk⟩
    · rintro ⟨a, ha, hm, hk⟩
      exact ⟨⟨a, ha, hm⟩, a, ha, hk⟩
  constructor <;> intro ht <;> rw [toWB_excepVec]
  case load =>
    rw [if_neg (by decide), if_pos rfl, Bool.and_eq_true, Bool.not_eq_true',
      MEM.align_iff (h.mask ht), h.read ht]
    exact huniq _
  case store =>
    rw [if_pos rfl, Bool.and_eq_true, Bool.not_eq_true', MEM.align_iff (h.mask ht), h.write ht]
    exact huniq _

theorem flush2EXE_of_toWB (h : (toWB s io).excepVec.getLsbD LoadAddressMisaligned = true ∨
    (toWB s io).excepVec.getLsbD StoreAMOAddressMisaligned = true) :
    MEM.flush2EXE s.memStage = true := by
  rcases h with h | h
  · rw [toWB_excepVec, if_neg (by decide), if_pos rfl, Bool.and_eq_true, Bool.not_eq_true'] at h
    simp [MEM.flush2EXE, h]
  · rw [toWB_excepVec, if_pos rfl, Bool.and_eq_true, Bool.not_eq_true'] at h
    simp [MEM.flush2EXE, h]

theorem alive_of_toWB (h : (toWB s io).nop = false) : s.memStage.fromEXE.nop = false := by
  simp only [Core.toWB, MEM.toWB, MEM.nop, Bool.or_eq_false_iff] at h
  exact h.1

end Stages

section Run

theorem CodesInv.exe_next (h : CodesInv B s addr)
    (hn : (next B s io).exeStage.fromID.nop = false) :
    FrontVector (next B s io).exeStage.fromID.inst (next B s io).exeStage.fromID.pc
        (next B s io).exeStage.fromID.excepVec ∧
      AccessDecoded (next B s io).exeStage.fromID.inst
        (orR (next B s io).exeStage.fromID.decodeBundle.memRead)
        (orR (next B s io).exeStage.fromID.decodeBundle.memWrite)
        ((next B s io).exeStage.fromID.decodeBundle.memRead |||
          (next B s io).exeStage.fromID.decodeBundle.memWrite) := by
  rw [next_fromID] at hn ⊢
  cases hfire : toMEMFire B s io
  case false =>
    simp only [hfire, Bool.false_eq_true, if_false] at hn ⊢
    exact ⟨h.exeVector hn, h.exeAccess hn⟩
  case true =>
    simp only [hfire, if_true] at hn ⊢
    exact ⟨frontVector_toEXE h.idVector h.legal, accessDecoded_toEXE hn⟩

theorem CodesInv.mem_next (h : CodesInv B s addr)
    (hn : (next B s io).memStage.fromEXE.nop = false) :
    FrontVector (next B s io).memStage.fromEXE.inst (next B s io).memStage.fromEXE.pc
        (next B s io).memStage.fromEXE.excepVec ∧
      AccessDecoded (next B s io).memStage.fromEXE.inst (MEM.ren (next B s io).memStage)
        (MEM.wen (next B s io).memStage) (MEM.byteWise (next B s io).memStage) := by
  rw [MEM.ren, MEM.wen, MEM.byteWise, MEM.controlSignals]
  rw [next_fromEXE] at hn ⊢
  cases hfire : toMEMFire B s io
  case false =>
    simp only [hfire, Bool.false_eq_true, if_false] at hn ⊢
    exact ⟨h.memVector hn, h.memAccess hn⟩
  case true =>
    simp only [hfire, if_true] at hn ⊢
    have halive : s.exeStage.fromID.nop = false := by
      rw [toMEM_nop h.exeFired, Bool.or_eq_false_iff] at hn
      exact hn.1
    refine ⟨h.exeVector halive, ?_⟩
    rw [hn]
    simpa [toMEM, EXE.toMEM, EXE.controlSignals, halive] using h.exeAccess halive

theorem CodesInv.wb_next (h : CodesInv B s addr) (hn : (next B s io).fromMEM.nop = false) :
    FrontVector (next B s io).fromMEM.inst (next B s io).fromMEM.pc
        (next B s io).fromMEM.excepVec ∧
      AccessVector (next B s io).fromMEM.inst (accessed s io addr)
        (next B s io).fromMEM.excepVec := by
  rw [next_fromMEM] at hn ⊢
  rw [accessed]
  cases hfire : toWBFire s io
  case false =>
    simp only [hfire, Bool.false_eq_true, if_false] at hn ⊢
    exact ⟨h.wbVector hn, h.wbAccess hn⟩
  case true =>
    simp only [hfire, if_true] at hn ⊢
    have halive := alive_of_toWB hn
    exact ⟨(h.memVector halive).toWB, (h.memAccess halive).toWB⟩

theorem CodesInv.quiet_next (h : CodesInv B s addr) (hn : (next B s io).fromMEM.nop = false)
    (hbit : (next B s io).fromMEM.excepVec.getLsbD LoadAddressMisaligned = true ∨
      (next B s io).fromMEM.excepVec.getLsbD StoreAMOAddressMisaligned = true) :
    (next B s io).exeStage.fromID.nop = true := by
  rw [next_fromMEM] at hn hbit
  cases hfire : toWBFire s io
  case true =>
    simp only [hfire, if_true] at hbit
    have hflush := flush2EXE_of_toWB hbit
    rw [next_fromID, h.toMEMFire_of_flush2EXE hflush, if_pos rfl]
    exact toEXE_nop_of_flush (flush_of_kill (by simp [kill, hflush]))
  case false =>
    simp only [hfire, Bool.false_eq_true, if_false] at hn hbit
    have hvec : (WB.csrCmd s.fromMEM).excepVec ≠ 0#16 := by
      have hsame : (WB.csrCmd s.fromMEM).excepVec = s.fromMEM.excepVec := by
        simp [WB.csrCmd, hn]
      rw [hsame]
      intro hz
      simp [hz] at hbit
    simp [h.toWBFire_of_nop (h.faultedWB hvec)] at hfire

theorem CodesInv.next (h : CodesInv B s addr) (hok : MretLegal s io) :
    CodesInv B (next B s io) (accessed s io addr) where
  toPrivilegeInv := h.toPrivilegeInv.next hok
  idVector := by
    rw [next_idStage]
    cases toIDFire B s io
    case false => exact h.idVector
    case true => rfl
  exeVector hn := (h.exe_next hn).1
  exeAccess hn := (h.exe_next hn).2
  memVector hn := (h.mem_next hn).1
  memAccess hn := (h.mem_next hn).2
  wbVector hn := (h.wb_next hn).1
  wbAccess hn := (h.wb_next hn).2
  quiet hn := h.quiet_next hn

theorem IsReset.codesInv (h : IsReset B s) : CodesInv B s 0 := by
  obtain ⟨_, _, hexe⟩ := h.exeStage
  have hid := h.idStage
  have hmem := h.memStage
  have hwb := h.fromMEM
  have hin : InTable 0#32 := by decide +kernel
  have hnone : access 0#32 = none := by decide
  have hcall : ¬DecodesECALL 0#32 := by decide
  have hzero : FrontVector 0#32 0#32 0#16 :=
    ⟨by simp [hin], by simp [Aligned], by simp [hcall], by simp⟩
  have hread : AccessDecoded 0#32 false false 0#4 := by
    constructor <;> simp [hnone]
  have haccess : AccessVector 0#32 0#32 0#16 := by
    constructor <;> simp [hnone]
  refine ⟨h.privilegeInv, ?_, ?_, ?_, ?_, ?_, ?_, ?_, ?_⟩
  · rw [hid]
    decide
  · rw [hexe]
    exact fun _ => hzero
  · rw [hexe]
    simpa [IdExeBus.zero, DecodeBundle.zero, orR] using hread
  · rw [hmem]
    exact fun _ => hzero
  · rw [hmem]
    exact fun _ => hread
  · rw [hwb]
    exact fun _ => hzero
  · rw [hwb]
    exact fun _ => haccess
  · rw [hwb]
    simp [MemWbBus.zero]

end Run

section Codes

theorem find?_eq_firstOf {n : Nat} {v : BitVec n} {is : List Nat} {i : Nat}
    (h : is.find? (fun k => v.getLsbD k) = some i) : firstOf v is = i := by
  induction is with
  | nil => simp at h
  | cons j is ih =>
    rw [List.find?_cons] at h
    rw [firstOf]
    cases hj : v.getLsbD j <;> simp only [hj, if_true, Bool.false_eq_true, if_false] at h ⊢
    case false => exact ih h
    case true => exact Option.some.inj h

theorem causeNO_of_first (c : CSRRegFile.Regs) (i : CSRRegFile.Inputs)
    (hi : raiseIntr c i.interrupt = false) :
    ∀ n ∈ ExcepPriority.find? fun k => i.excepCmd.excepVec.getLsbD k,
      causeNO c i = .ofNat 32 n := by
  intro n hn
  rw [causeNO_of_no_intr hi, excepNo, find?_eq_firstOf hn]

theorem csrCmd_of_alive (h : s.fromMEM.nop = false) :
    (csrCmd s).excepVec = s.fromMEM.excepVec := by
  simp [csrCmd, WB.csrCmd, h]

theorem raiseExcep_of_alive (h : s.fromMEM.nop = false) :
    raiseExcep (csrCmd s) = true ↔ s.fromMEM.excepVec ≠ 0#16 := by
  rw [raiseExcep, csrCmd_of_alive h]
  simp [orR]

theorem causeNO_of_alive (h : s.fromMEM.nop = false) : causeNO s.csrRegs (csrInputs B s io) =
    if raiseIntr s.csrRegs io.interrupt then
      0x80000000#32 ||| .ofNat 32 (intrNo s.csrRegs io.interrupt)
    else .ofNat 32 (firstOf s.fromMEM.excepVec ExcepPriority) := by
  rw [csrInputs_causeNO, excepNo, csrCmd_of_alive h]

theorem intr_ne_code (n : Nat) {c : Nat} (h : c < 16) :
    0x80000000#32 ||| .ofNat 32 n ≠ BitVec.ofNat 32 c := by
  intro heq
  have hlow : (BitVec.ofNat 32 c).getLsbD 31 = false := by
    rw [BitVec.getLsbD_ofNat, Nat.testBit_lt_two_pow (by omega), Bool.and_false]
  rw [← heq, BitVec.getLsbD_or] at hlow
  simp at hlow

theorem CodesInv.right (h : CodesInv B s addr) (ht : CodesTell B s io addr) :
    CodesRight B s io addr := by
  have hvec (hn : s.fromMEM.nop = false) := (h.wbVector hn).right (h.wbAccess hn) (h.wb hn)
    (ht.call hn) (ht.amo hn)
  constructor
  case traps => exact fun hn => (raiseExcep_of_alive hn).trans (hvec hn).1
  case priority => exact causeNO_of_first
  case recorded =>
    intro hn c hc
    have hraise : raiseExcep (csrCmd s) = true :=
      (raiseExcep_of_alive hn).2 ((hvec hn).1.2 (Option.isSome_of_mem hc))
    rw [next_csrRegs_mcause, raiseIntrExcep_of_excep _ hraise]
    split
    case isTrue hw => exact ht.written hn hw c hc
    case isFalse hw =>
      have hi := ht.alone hn (Option.isSome_of_mem hc) hw
      rw [if_pos rfl, causeNO_of_alive hn, hi, if_neg Bool.false_ne_true, (hvec hn).2 c hc]

theorem CodesRight.written (h : CodesRight B s io addr) (hn : s.fromMEM.nop = false)
    (hw : writesCsr B s io Mcause) :
    ∀ c ∈ wbCode s addr, (csrInputs B s io).writePort.wdata = .ofNat 32 c := by
  intro c hc
  have hm := h.recorded hn c hc
  rwa [next_csrRegs_mcause, if_pos hw] at hm

theorem CodesRight.cause (h : CodesRight B s io addr) (hn : s.fromMEM.nop = false)
    (hw : ¬writesCsr B s io Mcause) : ∀ c ∈ wbCode s addr,
    causeNO s.csrRegs (csrInputs B s io) = .ofNat 32 c := by
  intro c hc
  have hm := h.recorded hn c hc
  have hraise := (h.traps hn).2 (Option.isSome_of_mem hc)
  rwa [next_csrRegs_mcause, if_neg hw, raiseIntrExcep_of_excep _ hraise, if_pos rfl] at hm

theorem CodesInv.tell (h : CodesInv B s addr) (hr : CodesRight B s io addr) :
    CodesTell B s io addr where
  call hn ht hp hd := by
    by_contra hc
    have hv : s.fromMEM.excepVec ≠ 0#16 :=
      (h.wbVector hn).ne_zero_iff.2 (.inr (.inr (.inl hd)))
    have hsome := (hr.traps hn).1 ((raiseExcep_of_alive hn).2 hv)
    rw [wbCode, trapCode_of_access ht hp hc, hd.access] at hsome
    exact Bool.false_ne_true hsome
  amo hn ht hp a ha hk hm := by
    have hd : ¬DecodesECALL s.fromMEM.inst := fun hd => by simp [hd.access] at ha
    have hc : s.fromMEM.inst ≠ ecall := fun hc => hd (hc ▸ by decide)
    have hcode : wbCode s addr = some 6 := by
      rw [wbCode, trapCode_of_access ht hp hc, ha]
      simp [hm, hk, AccessKind.misalignedCode]
    have hload : s.fromMEM.excepVec.getLsbD LoadAddressMisaligned = true :=
      ((h.wbAccess hn).load ht).2 ⟨a, ha, hm, by simp [hk, AccessKind.reads]⟩
    have hw : ¬writesCsr B s io Mcause := by
      have hnop : EXE.nop s.exeStage (exeInputs B s io) = true := by
        simp [EXE.nop, h.quiet hn (.inl hload)]
      simp [writesCsr, csrInputs, EXE.csrWen, hnop]
    have hcause := hr.cause hn hw 6 hcode
    rw [causeNO_of_alive hn, (h.wbVector hn).firstOf_of_no_call ht hp hd, if_pos hload] at hcause
    split at hcause
    case isTrue => exact intr_ne_code _ (by decide) hcause
    case isFalse => exact absurd hcause (by decide)
  alone hn hsome hw := by
    obtain ⟨c, hc⟩ := Option.isSome_iff_exists.1 hsome
    by_contra hi
    have hcause := hr.cause hn hw c hc
    rw [causeNO_of_alive hn, if_pos (Bool.not_eq_false _ ▸ hi)] at hcause
    exact intr_ne_code _ (trapCode_lt hc) hcause
  written hn hw := hr.written hn hw

theorem exception_codes {p : Regs × Word}
    (h : (withAddr B).Reaches (fun p io => MretLegal p.1 io) p) :
    CodesRight B p.1 io p.2 ↔ CodesTell B p.1 io p.2 := by
  have hinv : CodesInv B p.1 p.2 := h.monitor_invariant (P := CodesInv B)
    (fun s hs => IsReset.codesInv hs) fun s g io ih hok => ih.next hok
  exact ⟨hinv.tell, hinv.right⟩

def untilWB (inst : Word) : List Inputs :=
  [.request, .fetch 0x13, .fetch inst, .fetch 0x13, .fetch 0x13, .fetch 0x13]

/-- lw x2, 0(x1) at a misaligned address -/
theorem exception_codes_load :
    let p := (withAddr .zeros).run (.reset .zeros 0x101, 0) (untilWB 0x0000a103)
    wbCode p.1 p.2 = some 4 ∧ CodesRight .zeros p.1 .idle p.2 := by
  have hr := (withAddr .zeros).reaches_run (fun p io => MretLegal p.1 io)
    (.reset .zeros 0x101, 0) (untilWB 0x0000a103) ⟨isReset_reset _ _, rfl⟩ (by decide +kernel)
  refine ⟨by decide +kernel, (exception_codes hr).2 ⟨?_, ?_, ?_, ?_⟩⟩ <;> decide +kernel

/-- amoadd.w x2, x3, (x1) at a misaligned address: the cause is 4, not 6. -/
theorem amo_faults_as_load : ¬∀ p, (withAddr .zeros).Reaches (fun _ _ => True) p → ∀ io,
    CodesRight .zeros p.1 io p.2 := by
  intro h
  have hr := (withAddr .zeros).reaches_run (fun _ _ => True) (.reset .zeros 0x101, 0)
    (untilWB 0x0030a12f) ⟨isReset_reset _ _, rfl⟩ (by decide +kernel)
  have hcause := (h _ hr .idle).recorded (by decide +kernel) 6 (by decide +kernel)
  revert hcause
  decide +kernel

end Codes

end Core

end FpgaNpc
