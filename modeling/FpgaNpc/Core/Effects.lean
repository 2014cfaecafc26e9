import FpgaNpc.Core.Arithmetic
import FpgaNpc.Core.Lanes
import FpgaNpc.Riscv.Hart

open FpgaNpc.Hardware FpgaNpc.ControlSignals FpgaNpc.InterStage FpgaNpc.Riscv

namespace FpgaNpc

theorem ImmGen_S (inst : Word) : ImmGen inst InstType.S = immS inst := by
  have h : ImmGen inst InstType.S = fill 21 (inst.getLsbD 31) ++ inst.extractLsb 30 25 ++
      inst.extractLsb 11 7 := by
    simp [ImmGen, Mux1H]
  have hfield : inst.extractLsb' 31 1 ++ inst.extractLsb' 25 6 = inst.extractLsb' 25 7 :=
    BitVec.extractLsb'_append_extractLsb'_eq_extractLsb' rfl
  rw [h, ← signExtend_extractLsb_31, immS]
  change _ = (inst.extractLsb' 25 7 ++ inst.extractLsb 11 7).signExtend (21 + 6 + 5)
  rw [signExtend_append, ← hfield, signExtend_append]
  rfl

section Rows

open ControlLogic BitPat

namespace Riscv.BaseInst

def fuType : BaseInst → BitVec 4
  | .int _ => FuType.ALU
  | .transfer _ => FuType.BRU
  | .load _ | .store _ => FuType.LSU

def regWrite : BaseInst → Bool
  | .int _ | .load _ | .transfer .JAL | .transfer .JALR => true
  | .transfer (.branch _) | .store _ => false

def memRead : BaseInst → BitVec 4
  | .load i => byteMask i.width
  | .int _ | .transfer _ | .store _ => MemRead.N

def memWrite : BaseInst → BitVec 4
  | .store w => byteMask w
  | .int _ | .transfer _ | .load _ => MemWrite.N

end Riscv.BaseInst

theorem ControlLogic.table_baseInst : ∀ p ∈ table, ∀ i ∈ baseInst p.1.value,
    p.2.fuType = i.fuType ∧ p.2.regWrite = i.regWrite ∧ p.2.memRead = i.memRead ∧
      p.2.memWrite = i.memWrite ∧ p.2.fencei = N ∧ p.2.csrWrite = N := by
  decide +kernel

theorem ControlLogic.table_address : ∀ p ∈ table,
    (∀ i ∈ loadInst p.1.value, p.2.instType = InstType.I ∧ p.2.memSignExt = i.signed) ∧
      ((storeInst p.1.value).isSome → p.2.instType = InstType.S) ∧
      ((loadInst p.1.value).isSome ∨ (storeInst p.1.value).isSome → p.2.aluSrc1 = OpASrc.RS1 ∧
        p.2.aluSrc2 = OpBSrc.IMM ∧ p.2.aluOp = ALUOp.ADD) := by
  decide +kernel

variable {inst : Word}

theorem ControlLogic.loadStore_of_matches {p : BitPat 32 × ControlRow} (hp : p ∈ table)
    (h : p.1.Matches inst) :
    loadInst inst = loadInst p.1.value ∧ storeInst inst = storeInst p.1.value := by
  obtain ⟨hop, hf3, -⟩ := table_fields p hp
  have hopcode : opcode inst = opcode p.1.value := h.extractLsb 6 0 hop
  have hfunct3 : opcode p.1.value ∈ [0b0000011#7, 0b0100011#7, 0b0101111#7] →
      funct3 inst = funct3 p.1.value := fun ho => h.extractLsb 14 12 (hf3 ho)
  constructor
  · rw [loadInst, loadInst, hopcode]
    split
    case isTrue ho => rw [hfunct3 (by simp [ho])]
    case isFalse => rfl
  · rw [storeInst, storeInst, hopcode]
    split
    case isTrue ho => rw [storeWidth, storeWidth, hfunct3 (by simp [ho])]
    case isFalse => rfl

theorem ControlLogic.baseInst_of_matches {p : BitPat 32 × ControlRow} (hp : p ∈ table)
    (h : p.1.Matches inst) : baseInst inst = baseInst p.1.value := by
  obtain ⟨hload, hstore⟩ := loadStore_of_matches hp h
  rw [baseInst, baseInst, (intInst_of_matches hp h).1, transfer_of_matches hp h, hload, hstore]

theorem ControlLogic.hasRow_base : ∀ f3 : BitVec 3,
    HasRow (Instructions.inst any any any any any 0b1101111) ∧
    HasRow (Instructions.inst any any any 0b000 any 0b1100111) ∧
    (f3 ∉ [0b010#3, 0b011#3] →
      HasRow (Instructions.inst any any any (exact f3) any 0b1100011)) ∧
    (f3 ∈ [0b000#3, 0b001#3, 0b010#3, 0b100#3, 0b101#3] →
      HasRow (Instructions.inst any any any (exact f3) any 0b0000011)) ∧
    (f3 ∈ [0b000#3, 0b001#3, 0b010#3] →
      HasRow (Instructions.inst any any any (exact f3) any 0b0100011)) := by
  decide +kernel

theorem inTable_of_transfer {t : Transfer} (h : transfer inst = some t) : InTable inst := by
  obtain ⟨hjal, hjalr, hbranch, -⟩ := ControlLogic.hasRow_base (funct3 inst)
  rw [transfer] at h
  split at h
  case isTrue ho =>
    rw [← ho] at hjal
    exact hjal.inTable (matches_functs (matches_any _) (matches_any _))
  case isFalse =>
    split at h
    case isTrue ho =>
      split at h
      case isTrue h3 =>
        rw [← ho] at hjalr
        exact hjalr.inTable (matches_functs (matches_any _) (h3 ▸ matches_exact _))
      case isFalse => cases h
    case isFalse =>
      split at h
      case isTrue ho =>
        rw [← ho] at hbranch
        refine (hbranch ?_).inTable (matches_functs (matches_any _) (matches_exact _))
        rw [branchInst] at h
        split_ifs at h <;> simp_all
      case isFalse => cases h

theorem inTable_of_loadInst {i : LoadInst} (h : loadInst inst = some i) : InTable inst := by
  obtain ⟨-, -, -, hload, -⟩ := ControlLogic.hasRow_base (funct3 inst)
  rw [loadInst] at h
  split at h
  case isTrue ho =>
    rw [← ho] at hload
    refine (hload ?_).inTable (matches_functs (matches_any _) (matches_exact _))
    split_ifs at h <;> simp_all
  case isFalse => cases h

theorem inTable_of_storeInst {w : Width} (h : storeInst inst = some w) : InTable inst := by
  obtain ⟨-, -, -, -, hstore⟩ := ControlLogic.hasRow_base (funct3 inst)
  rw [storeInst] at h
  split at h
  case isTrue ho =>
    rw [← ho] at hstore
    refine (hstore ?_).inTable (matches_functs (matches_any _) (matches_exact _))
    rw [storeWidth] at h
    split_ifs at h <;> simp_all
  case isFalse => cases h

theorem baseInst_int {i : IntInst} (h : baseInst inst = some (.int i)) :
    intInst inst = some i := by
  cases hi : intInst inst with
  | some j => simpa [baseInst, hi] using h
  | none => cases ht : transfer inst <;> cases hl : loadInst inst <;> simp_all [baseInst]

theorem baseInst_transfer {t : Transfer} (h : baseInst inst = some (.transfer t)) :
    transfer inst = some t := by
  cases hi : intInst inst <;> cases ht : transfer inst <;> cases hl : loadInst inst <;>
    simp_all [baseInst]

theorem baseInst_load {i : LoadInst} (h : baseInst inst = some (.load i)) :
    loadInst inst = some i := by
  cases hi : intInst inst <;> cases ht : transfer inst <;> cases hl : loadInst inst <;>
    simp_all [baseInst]

theorem baseInst_store {w : Width} (h : baseInst inst = some (.store w)) :
    storeInst inst = some w := by
  cases hi : intInst inst <;> cases ht : transfer inst <;> cases hl : loadInst inst <;>
    simp_all [baseInst]

theorem inTable_of_baseInst {i : BaseInst} (h : baseInst inst = some i) : InTable inst := by
  cases i with
  | int i => exact inTable_of_intInst (baseInst_int h)
  | transfer t => exact inTable_of_transfer (baseInst_transfer h)
  | load i => exact inTable_of_loadInst (baseInst_load h)
  | store w => exact inTable_of_storeInst (baseInst_store h)

theorem ControlLogic.table_system : ∀ p ∈ table,
    (baseInst p.1.value).isSome → opcode p.1.value ≠ 0b1110011 := by
  decide +kernel

theorem opcode_of_baseInst {i : BaseInst} (h : baseInst inst = some i) :
    opcode inst ≠ 0b1110011 := by
  obtain ⟨p, hp, hm⟩ := inTable_of_baseInst h
  have hop : opcode inst = opcode p.1.value := hm.extractLsb 6 0 (table_opcode p hp).1
  rw [hop]
  exact table_system p hp (by rw [← baseInst_of_matches hp hm, h]; rfl)

end Rows

/-- What ID makes of a word of the program, but for the operands. -/
structure InterStage.IdExeBus.ComesFrom (d : Decoder) (prog : Word → Word) (b : IdExeBus) :
    Prop where
  inst : b.inst = prog b.pc
  bundle : b.decodeBundle = (d.ctrlWord b.inst).decodeBundle
  imm : b.imm = ImmGen b.inst (d.ctrlWord b.inst).instType
  rd : b.rd = Riscv.rd b.inst
  mret : opcode b.inst ≠ 0b1110011 → b.mret = false
  excepVec : b.pc.toNat % 4 = 0 → ControlLogic.InTable b.inst → opcode b.inst ≠ 0b1110011 →
    b.excepVec = 0#16

structure InterStage.IfIdBus.ComesFrom (prog : Word → Word) (b : IfIdBus) : Prop where
  inst : b.inst = prog b.pc
  excepVec : b.excepVec =
    setBit 0 ExceptionCodes.InstructionAddressMisaligned (orR (b.pc.extractLsb 1 0))

theorem orR_low {pc : Word} (h : pc.toNat % 4 = 0) : orR (pc.extractLsb 1 0) = false := by
  have hlow : pc.extractLsb 1 0 = 0#2 := by
    apply BitVec.eq_of_toNat_eq
    rw [MEM.toNat_low]
    exact h
  simp [orR, hlow]

theorem InterStage.IfIdBus.ComesFrom.toEXE {d : Decoder} {prog : Word → Word} {s : ID.Regs}
    {io : ID.Inputs} (h : s.fromIF.ComesFrom prog) (ha : ID.nop s io = false) :
    (ID.toEXE d s io).ComesFrom d prog where
  inst := h.inst
  bundle := ID.decodeBundle_of_alive ha
  imm := rfl
  rd := rfl
  mret hop := by
    have hne : (s.fromIF.inst.extractLsb 6 0 == 0x73#7) = false := beq_eq_false_iff_ne.2 hop
    change ID.isMRET s.fromIF = false
    rw [ID.isMRET, hne, Bool.false_and]
  excepVec hpc ht hop := by
    have hne : (s.fromIF.inst.extractLsb 6 0 == 0x73#7) = false := beq_eq_false_iff_ne.2 hop
    have hcall : ID.isECALL s.fromIF = false := by rw [ID.isECALL, hne, Bool.false_and]
    have hlegal : (d.ctrlWord s.fromIF.inst).legal = true := (d.legal_iff _).2 ht
    have hlow : orR (s.fromIF.pc.extractLsb 1 0) = false := orR_low hpc
    change ID.excepVec d s io = 0#16
    simp [ID.excepVec, h.excepVec, hlow, hcall, hlegal, setBit]

namespace Riscv.Effect

def reads : Effect → Bool
  | .load .. => true
  | .nothing | .write .. | .store .. => false

def writes : Effect → Bool
  | .store .. => true
  | .nothing | .write .. | .load .. => false

def regWrite : Effect → Bool
  | .write .. | .load .. => true
  | .nothing | .store .. => false

end Riscv.Effect

structure InterStage.ExeMemBus.Carries (b : ExeMemBus) (e : Effect) : Prop where
  fuTypeAMO : b.controlSignals.fuTypeAMO = false
  memRead : b.controlSignals.memRead = e.reads
  memWrite : b.controlSignals.memWrite = e.writes
  regWrite : b.controlSignals.regWrite = e.regWrite
  payload : match e with
    | .nothing => True
    | .write rd value => b.rd = rd ∧ b.controlSignals.regWriteData = value
    | .load i rd addr => b.rd = rd ∧ b.controlSignals.regWriteData = addr ∧
        b.controlSignals.memRawMask = byteMask i.width ∧ b.controlSignals.signExt = i.signed
    | .store w addr data => b.controlSignals.regWriteData = addr ∧
        b.controlSignals.memRawMask = byteMask w ∧ b.controlSignals.memWriteData = data

namespace EXE

variable {d : Decoder} {prog : Word → Word} {s : Regs} {io : Inputs} {i : BaseInst}

structure Harmless (b : IdExeBus) : Prop where
  fuType : b.decodeBundle.fuType = FuType.ALU ∨ b.decodeBundle.fuType = FuType.BRU ∨
    b.decodeBundle.fuType = FuType.LSU
  fencei : b.decodeBundle.fencei = false
  csrWrite : b.decodeBundle.csrWrite = false
  mret : b.mret = false
  excepVec : b.excepVec = 0#16

theorem harmless_of_baseInst (h : s.fromID.ComesFrom d prog) (hpc : s.fromID.pc.toNat % 4 = 0)
    (hi : baseInst s.fromID.inst = some i) : Harmless s.fromID := by
  have ht := inTable_of_baseInst hi
  obtain ⟨p, hp, hm⟩ := ht
  have ha := d.row _ p hp hm
  obtain ⟨hfu, -, -, -, hf, hc⟩ :=
    ControlLogic.table_baseInst p hp i (ControlLogic.baseInst_of_matches hp hm ▸ hi)
  have hop := opcode_of_baseInst hi
  constructor
  case fuType =>
    rw [h.bundle, ha.fuType _ hfu]
    cases i <;> simp [BaseInst.fuType]
  case fencei => rw [h.bundle, ha.fencei _ hf]
  case csrWrite => rw [h.bundle, ha.csrWrite _ hc]
  case mret => exact h.mret hop
  case excepVec => exact h.excepVec hpc (inTable_of_baseInst hi) hop

theorem steers_of_comesFrom (h : s.fromID.ComesFrom d prog)
    (hi : baseInst s.fromID.inst = some i) : Steers s.fromID := by
  obtain ⟨p, hp, hm⟩ := inTable_of_baseInst hi
  exact steers_of_row hp hm (d.row _ p hp hm) h.bundle h.imm

theorem regWdata_alu (h : s.fromID.decodeBundle.fuType = FuType.ALU ∨
    s.fromID.decodeBundle.fuType = FuType.LSU) : regWdata s = aluRes s.fromID := by
  rcases h with h | h <;> simp [EXE.regWdata, Mux1H, h]

theorem regWdata_bru (h : s.fromID.decodeBundle.fuType = FuType.BRU) :
    regWdata s = s.fromID.pc + 4 := by
  simp [EXE.regWdata, Mux1H, h]

theorem aluRes_address {b : IdExeBus} (hsrc1 : b.decodeBundle.aluSrc1 = OpASrc.RS1)
    (hsrc2 : b.decodeBundle.aluSrc2 = OpBSrc.IMM) (hop : b.decodeBundle.aluOp = ALUOp.ADD) :
    aluRes b = b.rs1Data + b.imm := by
  simp [aluRes, opA, opB, Mux1H, ALU.res, ALU.sum, hsrc1, hsrc2, hop]

theorem carries_toMEM (h : s.fromID.ComesFrom d prog) (ha : s.fromID.nop = false)
    (hi : baseInst s.fromID.inst = some i) : (toMEM s io).Carries
      (i.effect s.fromID.inst s.fromID.pc s.fromID.rs1Data s.fromID.rs2Data) := by
  obtain ⟨p, hp, hm⟩ := inTable_of_baseInst hi
  have hadmits := d.row _ p hp hm
  obtain ⟨hfu, hreg, hread, hwrite, -⟩ :=
    ControlLogic.table_baseInst p hp i (ControlLogic.baseInst_of_matches hp hm ▸ hi)
  obtain ⟨hloads, hstores, haddr⟩ := ControlLogic.table_address p hp
  obtain ⟨hl, hs⟩ := ControlLogic.loadStore_of_matches hp hm
  rw [← hl] at hloads haddr
  rw [← hs] at hstores haddr
  have hfuType : s.fromID.decodeBundle.fuType = i.fuType := by
    rw [h.bundle, hadmits.fuType _ hfu]
  have hmask : s.fromID.decodeBundle.memRead = i.memRead ∧
      s.fromID.decodeBundle.memWrite = i.memWrite := by
    rw [h.bundle, hadmits.memRead _ hread, hadmits.memWrite _ hwrite]
    exact ⟨rfl, rfl⟩
  have haddress (hx : (loadInst s.fromID.inst).isSome ∨ (storeInst s.fromID.inst).isSome) :
      aluRes s.fromID = s.fromID.rs1Data + s.fromID.imm := by
    obtain ⟨hsrc1, hsrc2, hop⟩ := haddr hx
    apply aluRes_address <;> rw [h.bundle]
    · exact hadmits.aluSrc1 _ hsrc1
    · exact hadmits.aluSrc2 _ hsrc2
    · exact hadmits.aluOp _ hop
  constructor
  case fuTypeAMO =>
    change (s.fromID.decodeBundle.fuType == FuType.AMO) = false
    rw [hfuType]
    cases i <;> rfl
  case memRead =>
    change (orR s.fromID.decodeBundle.memRead && !s.fromID.nop) = _
    rw [hmask.1, ha]
    rcases i with _ | ⟨_ | _ | _⟩ | ⟨_ | _ | _ | _ | _⟩ | _ <;> rfl
  case memWrite =>
    change (orR s.fromID.decodeBundle.memWrite && !s.fromID.nop) = _
    rw [hmask.2, ha]
    rcases i with _ | ⟨_ | _ | _⟩ | _ | ⟨_ | _ | _⟩ <;> rfl
  case regWrite =>
    change s.fromID.decodeBundle.regWrite = _
    rw [h.bundle, hadmits.regWrite _ hreg]
    rcases i with _ | ⟨_ | _ | _⟩ | _ | _ <;> rfl
  case payload =>
    cases i with
    | int i =>
      refine ⟨h.rd, ?_⟩
      exact (regWdata_alu (.inl hfuType)).trans
        (aluRes_of_row (baseInst_int hi) hp hm hadmits h.bundle h.imm)
    | transfer t =>
      cases t with
      | JAL | JALR => exact ⟨h.rd, regWdata_bru hfuType⟩
      | branch => trivial
    | load i =>
      have hload := baseInst_load hi
      obtain ⟨htype, hsign⟩ := hloads i hload
      refine ⟨h.rd, ?_, ?_, ?_⟩
      · refine (regWdata_alu (.inr hfuType)).trans ?_
        rw [haddress (.inl (by rw [hload]; rfl)), h.imm, hadmits.instType _ htype, ImmGen_I]
      · change s.fromID.decodeBundle.memRead ||| s.fromID.decodeBundle.memWrite = _
        rw [hmask.1, hmask.2]
        exact BitVec.or_zero
      · change s.fromID.decodeBundle.memSignExt = _
        rw [h.bundle, hadmits.memSignExt _ hsign]
    | store w =>
      have hstore := baseInst_store hi
      refine ⟨?_, ?_, rfl⟩
      · refine (regWdata_alu (.inr hfuType)).trans ?_
        rw [haddress (.inr (by rw [hstore]; rfl)), h.imm,
          hadmits.instType _ (hstores (by rw [hstore]; rfl)), ImmGen_S]
      · change s.fromID.decodeBundle.memRead ||| s.fromID.decodeBundle.memWrite = _
        rw [hmask.1, hmask.2]
        exact BitVec.zero_or

end EXE

namespace MEM

variable {s : Regs} {io : Inputs} {e : Effect}

section Carries

variable (h : s.fromEXE.Carries e)
include h

theorem isSC_of_carries : isSC s = false := by
  have hamo : (controlSignals s).fuTypeAMO = false := h.fuTypeAMO
  rw [isSC, hamo, Bool.false_and]

theorem ren_of_carries (ha : s.fromEXE.nop = false) : ren s = e.reads := by
  have hr : (controlSignals s).memRead = e.reads := h.memRead
  simp [ren, hr, ha]

theorem wen_of_carries (ha : s.fromEXE.nop = false) : wen s = e.writes := by
  have hw : (controlSignals s).memWrite = e.writes := h.memWrite
  simp [wen, hw, ha]

theorem align_of_carries (hal : e.Aligned) (hm : (e.reads || e.writes) = true) :
    align s = true := by
  have hp := h.payload
  have halign (w : Width) (hmask : byteWise s = byteMask w) {addr : Word} (hv : vaddr s = addr)
      (hm : addr.toNat % w.bytes = 0) : align s = true := by
    by_contra hn
    obtain ⟨x, hx, hmis⟩ := (align_iff (x := some ⟨.load, w⟩) hmask).1 (Bool.not_eq_true _ ▸ hn)
    obtain rfl := Option.mem_some.1 hx
    exact hmis (hv ▸ hm)
  cases e with
  | nothing => cases hm
  | write => cases hm
  | load i rd addr => exact halign i.width hp.2.2.1 hp.2.1 hal
  | store w addr data => exact halign w hp.2.1 hp.1 hal

theorem access_of_carries (ha : s.fromEXE.nop = false) (hal : e.Aligned) :
    access s = (e.reads || e.writes) := by
  rw [access, ren_of_carries h ha, wen_of_carries h ha]
  cases hm : e.reads || e.writes
  case false => rfl
  case true => rw [align_of_carries h hal hm]; rfl

theorem flush2EXE_of_carries (ha : s.fromEXE.nop = false) (hal : e.Aligned) :
    flush2EXE s = false := by
  rw [flush2EXE, ren_of_carries h ha, wen_of_carries h ha]
  cases hm : e.reads || e.writes
  case false => rfl
  case true => rw [align_of_carries h hal hm]; rfl

theorem excepVec_of_carries (ha : s.fromEXE.nop = false) (hal : e.Aligned)
    (he : s.fromEXE.excepVec = 0#16) : excepVec s = 0#16 := by
  by_contra hne
  rcases excepVec_cases hne with hx | hf
  · exact hx he
  · rw [flush2EXE_of_carries h ha hal] at hf
    exact Bool.false_ne_true hf

end Carries

theorem isLoad_of_carries {i : LoadInst} {rd : BitVec 5} {addr : Word}
    (h : s.fromEXE.Carries (.load i rd addr)) (ha : s.fromEXE.nop = false)
    (hal : Effect.Aligned (.load i rd addr)) : IsLoad s i :=
  ⟨wen_of_carries h ha, ren_of_carries h ha, h.payload.2.2.1, h.payload.2.2.2,
    align_of_carries h hal rfl, h.fuTypeAMO⟩

theorem isStore_of_carries {w : Width} {addr data : Word}
    (h : s.fromEXE.Carries (.store w addr data)) (ha : s.fromEXE.nop = false)
    (hal : Effect.Aligned (.store w addr data)) (hidle : s.state = .IDLE) : IsStore s w :=
  ⟨hidle, wen_of_carries h ha, ren_of_carries h ha, h.payload.2.1, align_of_carries h hal rfl,
    by rw [isSC_of_carries h, Bool.false_and]⟩

end MEM

end FpgaNpc
