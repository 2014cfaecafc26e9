import FpgaNpc.Core.Branch
import FpgaNpc.Core.Multiplication
import FpgaNpc.Riscv.Integer

open FpgaNpc.Hardware FpgaNpc.InterStage FpgaNpc.ControlSignals

namespace FpgaNpc

section Immediates

theorem ImmGen_U (inst : Word) : ImmGen inst InstType.U = Riscv.immU inst := by
  simp [ImmGen, Mux1H, Riscv.immU]

end Immediates

section Rows

open ControlLogic Riscv BitPat

theorem BitPat.matches_append {m n : Nat} {p : BitPat m} {q : BitPat n} {x : BitVec m}
    {y : BitVec n} (hp : p.Matches x) (hq : q.Matches y) : (p.append q).Matches (x ++ y) := by
  rw [BitPat.Matches, BitPat.append, BitVec.and_append, hp, hq]

theorem BitPat.matches_any {n : Nat} (x : BitVec n) : (any : BitPat n).Matches x :=
  BitVec.and_zero

theorem BitPat.matches_exact {n : Nat} (x : BitVec n) : (exact x).Matches x :=
  BitVec.and_allOnes

variable {inst : Word}

theorem append_functs (inst : Word) : funct7 inst ++ (inst.extractLsb' 20 5 ++
    (inst.extractLsb' 15 5 ++ (funct3 inst ++ (inst.extractLsb' 7 5 ++ opcode inst)))) = inst := by
  change inst.extractLsb' 25 7 ++ (inst.extractLsb' 20 5 ++ (inst.extractLsb' 15 5 ++
    (inst.extractLsb' 12 3 ++ (inst.extractLsb' 7 5 ++ inst.extractLsb' 0 7)))) = inst
  rw [show inst.extractLsb' 7 5 ++ inst.extractLsb' 0 7 = inst.extractLsb' 0 12 from
      BitVec.extractLsb'_append_extractLsb'_eq_extractLsb' rfl,
    show inst.extractLsb' 12 3 ++ inst.extractLsb' 0 12 = inst.extractLsb' 0 15 from
      BitVec.extractLsb'_append_extractLsb'_eq_extractLsb' rfl,
    show inst.extractLsb' 15 5 ++ inst.extractLsb' 0 15 = inst.extractLsb' 0 20 from
      BitVec.extractLsb'_append_extractLsb'_eq_extractLsb' rfl,
    show inst.extractLsb' 20 5 ++ inst.extractLsb' 0 20 = inst.extractLsb' 0 25 from
      BitVec.extractLsb'_append_extractLsb'_eq_extractLsb' rfl]
  exact BitVec.extractLsb'_append_extractLsb'

theorem matches_functs {p7 : BitPat 7} {p3 : BitPat 3} (h7 : p7.Matches (funct7 inst))
    (h3 : p3.Matches (funct3 inst)) :
    (Instructions.inst p7 any any p3 any (opcode inst)).Matches inst := by
  have h := matches_append h7 (matches_append (matches_any (inst.extractLsb' 20 5))
    (matches_append (matches_any (inst.extractLsb' 15 5)) (matches_append h3
      (matches_append (matches_any (inst.extractLsb' 7 5)) (matches_exact (opcode inst))))))
  rwa [append_functs] at h

def ControlLogic.HasRow (q : BitPat 32) : Prop :=
  ∃ p ∈ table, p.1.mask = q.mask ∧ p.1.value = q.value

instance (q : BitPat 32) : Decidable (ControlLogic.HasRow q) :=
  inferInstanceAs (Decidable (∃ p ∈ table, _))

theorem ControlLogic.HasRow.inTable {q : BitPat 32} (h : HasRow q) (hm : q.Matches inst) :
    InTable inst := by
  obtain ⟨p, hp, hmask, hvalue⟩ := h
  exact ⟨p, hp, by rwa [BitPat.Matches, hmask, hvalue]⟩

theorem ControlLogic.hasRow_upper : HasRow (Instructions.inst any any any any any 0b0110111) ∧
    HasRow (Instructions.inst any any any any any 0b0010111) := by
  decide +kernel

theorem ControlLogic.hasRow_imm : ∀ f3 : BitVec 3, f3 ≠ 0b001 → f3 ≠ 0b101 →
    HasRow (Instructions.inst any any any (exact f3) any 0b0010011) := by
  decide +kernel

theorem ControlLogic.hasRow_shift :
    HasRow (Instructions.inst (exact 0b0000000) any any (exact 0b001) any 0b0010011) ∧
    ∀ f7 ∈ [0b0000000#7, 0b0100000#7],
      HasRow (Instructions.inst (exact f7) any any (exact 0b101) any 0b0010011) := by
  decide +kernel

theorem ControlLogic.hasRow_reg : ∀ f3 : BitVec 3,
    HasRow (Instructions.inst (exact 0b0000000) any any (exact f3) any 0b0110011) ∧
    HasRow (Instructions.inst (exact 0b0000001) any any (exact f3) any 0b0110011) ∧
    (f3 ∈ [0b000#3, 0b101#3] →
      HasRow (Instructions.inst (exact 0b0100000) any any (exact f3) any 0b0110011)) := by
  decide +kernel

theorem inTable_of_regOp (ho : opcode inst = 0b0110011) (h : (regOp inst).isSome) :
    InTable inst := by
  obtain ⟨hplain, -, hother⟩ := ControlLogic.hasRow_reg (funct3 inst)
  rw [← ho] at hplain hother
  rw [regOp] at h
  split at h
  case isTrue h7 =>
    exact hplain.inTable (matches_functs (h7 ▸ matches_exact _) (matches_exact _))
  case isFalse =>
    split at h
    case isTrue h7 =>
      have hmem : funct3 inst ∈ [0b000#3, 0b101#3] := by
        split_ifs at h <;> simp_all
      exact (hother hmem).inTable (matches_functs (h7 ▸ matches_exact _) (matches_exact _))
    case isFalse => cases h

theorem inTable_of_immOp (ho : opcode inst = 0b0010011) (h : (immOp inst).isSome) :
    InTable inst := by
  have hplain := ControlLogic.hasRow_imm (funct3 inst)
  obtain ⟨hleft, hright⟩ := ControlLogic.hasRow_shift
  rw [← ho] at hplain hleft hright
  rw [immOp] at h
  split at h
  case isTrue h3 =>
    split at h
    case isTrue h7 =>
      exact hleft.inTable (matches_functs (h7 ▸ matches_exact _) (h3 ▸ matches_exact _))
    case isFalse => cases h
  case isFalse hne =>
    split at h
    case isTrue h3 =>
      have hmem : funct7 inst ∈ [0b0000000#7, 0b0100000#7] := by
        split_ifs at h <;> simp_all
      exact (hright _ hmem).inTable (matches_functs (matches_exact _) (h3 ▸ matches_exact _))
    case isFalse hne' =>
      exact (hplain hne hne').inTable (matches_functs (matches_any _) (matches_exact _))

theorem inTable_of_intInst {i : IntInst} (h : intInst inst = some i) : InTable inst := by
  obtain ⟨hlui, hauipc⟩ := ControlLogic.hasRow_upper
  rw [intInst] at h
  split at h
  case isTrue ho =>
    rw [← ho] at hlui
    exact hlui.inTable (matches_functs (matches_any _) (matches_any _))
  case isFalse =>
    split at h
    case isTrue ho =>
      rw [← ho] at hauipc
      exact hauipc.inTable (matches_functs (matches_any _) (matches_any _))
    case isFalse =>
      split at h
      case isTrue ho => exact inTable_of_immOp ho (by simpa using congrArg Option.isSome h)
      case isFalse =>
        split at h
        case isTrue ho => exact inTable_of_regOp ho (by simpa using congrArg Option.isSome h)
        case isFalse => cases h

theorem inTable_of_mInst {i : MInst} (h : mInst inst = some i) : InTable inst := by
  rw [mInst] at h
  split at h
  case isTrue hf =>
    obtain ⟨-, hrow, -⟩ := ControlLogic.hasRow_reg (funct3 inst)
    rw [← hf.1] at hrow
    exact hrow.inTable (matches_functs (hf.2 ▸ matches_exact _) (matches_exact _))
  case isFalse => cases h

theorem ControlLogic.table_functs : ∀ p ∈ table,
    p.1.mask.extractLsb 6 0 = BitVec.allOnes (6 - 0 + 1) ∧
      (opcode p.1.value ∈ [0b0010011#7, 0b0110011#7] →
        p.1.mask.extractLsb 14 12 = BitVec.allOnes (14 - 12 + 1)) ∧
      (opcode p.1.value = 0b0110011#7 ∨
          opcode p.1.value = 0b0010011#7 ∧ funct3 p.1.value ∈ [0b001#3, 0b101#3] →
        p.1.mask.extractLsb 31 25 = BitVec.allOnes (31 - 25 + 1)) := by
  decide +kernel

theorem ControlLogic.intInst_of_matches {p : BitPat 32 × ControlRow} (hp : p ∈ table)
    (h : p.1.Matches inst) :
    intInst inst = intInst p.1.value ∧ mInst inst = mInst p.1.value := by
  obtain ⟨hop, hf3, hf7⟩ := table_functs p hp
  have hopcode : opcode inst = opcode p.1.value := h.extractLsb 6 0 hop
  have hfunct3 : opcode p.1.value ∈ [0b0010011#7, 0b0110011#7] →
      funct3 inst = funct3 p.1.value := fun ho => h.extractLsb 14 12 (hf3 ho)
  have hfunct7 : opcode p.1.value = 0b0110011#7 ∨
      opcode p.1.value = 0b0010011#7 ∧ funct3 p.1.value ∈ [0b001#3, 0b101#3] →
      funct7 inst = funct7 p.1.value := fun ho => h.extractLsb 31 25 (hf7 ho)
  constructor
  · have himm (ho : opcode p.1.value = 0b0010011#7) : immOp inst = immOp p.1.value := by
      rw [immOp, immOp, plainOp, plainOp, hfunct3 (by simp [ho])]
      split
      case isTrue h3 => rw [hfunct7 (.inr ⟨ho, by simp [h3]⟩)]
      case isFalse =>
        split
        case isTrue h3 => rw [hfunct7 (.inr ⟨ho, by simp [h3]⟩)]
        case isFalse => rfl
    have hreg (ho : opcode p.1.value = 0b0110011#7) : regOp inst = regOp p.1.value := by
      rw [regOp, regOp, plainOp, plainOp, hfunct3 (by simp [ho]), hfunct7 (.inl ho)]
    rw [intInst, intInst, hopcode]
    refine if_congr Iff.rfl rfl (if_congr Iff.rfl rfl ?_)
    split
    case isTrue ho => rw [himm ho]
    case isFalse =>
      split
      case isTrue ho => rw [hreg ho]
      case isFalse => rfl
  · rw [mInst, mInst, hopcode]
    by_cases ho : opcode p.1.value = 0b0110011#7
    · rw [mOp, mOp, hfunct3 (by simp [ho]), hfunct7 (.inl ho)]
    · rw [if_neg (by simp [ho]), if_neg (by simp [ho])]

def Riscv.IntOp.aluOp : IntOp → BitVec 4
  | .ADD => ALUOp.ADD
  | .SUB => ALUOp.SUB
  | .SLL => ALUOp.SLL
  | .SLT => ALUOp.LTS
  | .SLTU => ALUOp.LTU
  | .XOR => ALUOp.XOR
  | .SRL => ALUOp.SRL
  | .SRA => ALUOp.SRA
  | .OR => ALUOp.OR
  | .AND => ALUOp.AND

namespace Riscv.IntInst

def instType : IntInst → BitVec 3
  | .LUI | .AUIPC => InstType.U
  | .imm _ => InstType.I
  | .reg _ => InstType.R

def aluSrc1 : IntInst → BitVec 2
  | .LUI => OpASrc.ZERO
  | .AUIPC => OpASrc.PC
  | .imm _ | .reg _ => OpASrc.RS1

def aluSrc2 : IntInst → BitVec 2
  | .LUI | .AUIPC | .imm _ => OpBSrc.IMM
  | .reg _ => OpBSrc.RS2

def aluOp : IntInst → BitVec 4
  | .LUI | .AUIPC => ALUOp.ADD
  | .imm op | .reg op => op.aluOp

end Riscv.IntInst

theorem ControlLogic.table_intInst : ∀ p ∈ table, ∀ i ∈ intInst p.1.value,
    p.2.fuType = FuType.ALU ∧ p.2.regWrite = Y ∧ p.2.instType = i.instType ∧
      p.2.aluSrc1 = i.aluSrc1 ∧ p.2.aluSrc2 = i.aluSrc2 ∧ p.2.aluOp = i.aluOp := by
  decide +kernel

namespace Riscv.MInst

def fuType : MInst → BitVec 4
  | .mul _ => FuType.MUL
  | .div _ => FuType.DIV

def mulOp : MInst → Option (BitVec 2)
  | .mul i => i.mulOp
  | .div _ => X

def divOp : MInst → Option (BitVec 2)
  | .mul _ => X
  | .div i => i.divOp

end Riscv.MInst

theorem ControlLogic.table_mInst : ∀ p ∈ table, ∀ i ∈ mInst p.1.value,
    p.2.fuType = i.fuType ∧ p.2.aluSrc1 = OpASrc.RS1 ∧ p.2.aluSrc2 = OpBSrc.RS2 ∧
      p.2.mulOp = i.mulOp ∧ p.2.divOp = i.divOp := by
  decide +kernel

end Rows

namespace ALU

open Riscv

variable (a b : Word)

theorem shiftr_right (op : BitVec 4) (h : op.getLsbD 3 = true) : shiftr op a b =
    if op.getLsbD 0 then a.sshiftRight (shamt b) else a >>> shamt b := by
  have hshamt : (b.extractLsb 4 0).toNat = shamt b := by
    rw [BitVec.extractLsb_toNat, Nat.shiftRight_zero]
    rfl
  rw [shiftr, hshamt, if_pos h]
  apply BitVec.eq_of_getLsbD_eq
  intro i hi
  have hmsb : (bit (op.getLsbD 0 && a.getLsbD 31) ++ a).msb = (op.getLsbD 0 && a.getLsbD 31) := by
    rw [BitVec.msb_append, BitVec.msb_ofBool]
    rfl
  rw [BitVec.getLsbD_setWidth, BitVec.getLsbD_sshiftRight, hmsb, BitVec.getLsbD_append]
  cases op.getLsbD 0 <;> simp [hi] <;> grind

theorem reverse_shiftr (op : BitVec 4) (h3 : op.getLsbD 3 = false) (h0 : op.getLsbD 0 = false) :
    (shiftr op a b).reverse = a <<< shamt b := by
  have hshiftr : shiftr op a b = a.reverse >>> shamt b := by
    have h := shiftr_right a.reverse b 0b1000 rfl
    simp only [shiftr, h0, h3] at h ⊢
    simpa using h
  rw [hshiftr]
  apply BitVec.eq_of_getLsbD_eq
  intro i hi
  simp [hi]
  grind

theorem getLsbD_31_toNat : a.getLsbD 31 = decide (2 ^ 31 ≤ a.toNat) := by
  rw [← BitVec.msb_eq_decide a, BitVec.msb_eq_getLsbD_last]

theorem cmp_eq (op : BitVec 4) (h : op.getLsbD 0 = true) : cmp op a b =
    if op.getLsbD 1 then decide (a.toNat < b.toNat) else decide (a.toInt < b.toInt) := by
  have ha := a.isLt
  have hb := b.isLt
  have hia := BitVec.toInt_eq_toNat_cond a
  have hib := BitVec.toInt_eq_toNat_cond b
  rw [cmp, sum, h, if_pos rfl, ← BitVec.sub_eq_add_neg, getLsbD_31_toNat, getLsbD_31_toNat,
    getLsbD_31_toNat, BitVec.toNat_sub, Bool.eq_iff_iff]
  cases op.getLsbD 1 <;> by_cases hsa : 2 ^ 31 ≤ a.toNat <;> by_cases hsb : 2 ^ 31 ≤ b.toNat <;>
    simp only [hsa, hsb, decide_true, decide_false, decide_eq_true_eq, BEq.rfl, if_true] <;>
    simp <;> omega

theorem bit_decide (p : Prop) [Decidable p] :
    (bit (decide p)).setWidth 32 = if p then 1#32 else 0#32 := by
  by_cases h : p <;> simp [h]

theorem res_aluOp (op : IntOp) : res op.aluOp a b = op.result a b := by
  cases op
  case ADD => simp [res, Mux1H, IntOp.aluOp, IntOp.result, sum, BitVec.ofNat_add]
  case SUB =>
    have hsub : a - b = .ofInt 32 (a.toNat - b.toNat) := by
      apply BitVec.eq_of_toNat_eq
      rw [BitVec.toNat_sub, BitVec.toNat_ofInt]
      omega
    simp [res, Mux1H, IntOp.aluOp, IntOp.result, sum, ← hsub, BitVec.sub_eq_add_neg]
  case SLL => simp [res, Mux1H, IntOp.aluOp, IntOp.result, reverse_shiftr]
  case SLT => simp [res, Mux1H, IntOp.aluOp, IntOp.result, cmp_eq, bit_decide]
  case SLTU => simp [res, Mux1H, IntOp.aluOp, IntOp.result, cmp_eq, bit_decide]
  case SRL => simp [res, Mux1H, IntOp.aluOp, IntOp.result, shiftr_right]
  case SRA => simp [res, Mux1H, IntOp.aluOp, IntOp.result, shiftr_right]
  all_goals simp [res, Mux1H, IntOp.aluOp, IntOp.result]

end ALU

namespace EXE

open ControlLogic Riscv

variable {b : IdExeBus} {w : CtrlWord} {p : BitPat 32 × ControlRow}

theorem aluRes_of_row {i : IntInst} (hi : intInst b.inst = some i) (hp : p ∈ table)
    (hm : p.1.Matches b.inst) (ha : p.2.Admits w) (hbundle : b.decodeBundle = w.decodeBundle)
    (himm : b.imm = ImmGen b.inst w.instType) :
    aluRes b = i.result b.inst b.pc b.rs1Data b.rs2Data := by
  obtain ⟨-, -, htype, hsrc1, hsrc2, hop⟩ :=
    table_intInst p hp i ((intInst_of_matches hp hm).1 ▸ hi)
  have htype : b.imm = ImmGen b.inst i.instType := by rw [himm, ha.instType _ htype]
  rw [aluRes, opA, opB, hbundle, ha.aluSrc1 _ hsrc1, ha.aluSrc2 _ hsrc2, ha.aluOp _ hop]
  cases i with
  | LUI =>
    rw [htype.trans (ImmGen_U _)]
    simp [IntInst.aluSrc1, IntInst.aluSrc2, IntInst.aluOp, IntInst.result, Mux1H, ALU.res, ALU.sum]
  | AUIPC =>
    rw [htype.trans (ImmGen_U _)]
    simp [IntInst.aluSrc1, IntInst.aluSrc2, IntInst.aluOp, IntInst.result, Mux1H, ALU.res, ALU.sum]
  | imm op =>
    rw [htype.trans (ImmGen_I _)]
    simp [IntInst.aluSrc1, IntInst.aluSrc2, IntInst.aluOp, IntInst.result, Mux1H, ALU.res_aluOp]
  | reg op =>
    simp [IntInst.aluSrc1, IntInst.aluSrc2, IntInst.aluOp, IntInst.result, Mux1H, ALU.res_aluOp]

def IsMInst (b : IdExeBus) : MInst → Prop
  | .mul i => IsMulInst b i
  | .div i => IsDivInst b i

theorem isMInst_of_row {i : MInst} (hi : mInst b.inst = some i) (hp : p ∈ table)
    (hm : p.1.Matches b.inst) (ha : p.2.Admits w) (hbundle : b.decodeBundle = w.decodeBundle) :
    IsMInst b i := by
  obtain ⟨hfu, hsrc1, hsrc2, hmul, hdiv⟩ := table_mInst p hp i ((intInst_of_matches hp hm).2 ▸ hi)
  cases i <;> constructor <;> rw [hbundle]
  case mul.fuType | div.fuType => exact ha.fuType _ hfu
  case mul.aluSrc1 | div.aluSrc1 => exact ha.aluSrc1 _ hsrc1
  case mul.aluSrc2 | div.aluSrc2 => exact ha.aluSrc2 _ hsrc2
  case mul.mulOp => exact ha.mulOp _ hmul
  case div.divOp => exact ha.divOp _ hdiv

structure UnsignedResults (s : Regs) : Prop where
  product : isMUL s.fromID = true → s.multiplier.result.toNat =
    (mulAbsOpA s.fromID).toNat * (mulAbsOpB s.fromID).toNat
  quotient : needsDivider s.fromID = true → s.divider.result.1.toNat =
    (divAbsOpA s.fromID).toNat / (divAbsOpB s.fromID).toNat
  remainder : needsDivider s.fromID = true → s.divider.result.2.toNat =
    (divAbsOpA s.fromID).toNat % (divAbsOpB s.fromID).toNat

theorem IsMInst.regWdata {s : Regs} {i : MInst} (hi : IsMInst s.fromID i)
    (h : UnsignedResults s) : regWdata s = i.result s.fromID.rs1Data s.fromID.rs2Data := by
  cases i with
  | mul i =>
    have hmul : EXE.regWdata s = mulRes s.fromID s.multiplier.result := by
      simp [EXE.regWdata, Mux1H, hi.fuType]
    rw [hmul]
    exact hi.mulRes_eq (h.product (by simp [isMUL, hi.fuType]))
  | div i =>
    have hdiv : EXE.regWdata s = divRes s.fromID s.divider.result := by
      simp [EXE.regWdata, Mux1H, hi.fuType]
    rw [hdiv]
    cases hn : needsDivider s.fromID
    case false => exact hi.divRes_noNeed hn _
    case true =>
      have hres : s.divider.result = divAbsRes s.fromID :=
        Prod.ext (BitVec.eq_of_toNat_eq (h.quotient hn)) (BitVec.eq_of_toNat_eq (h.remainder hn))
      rw [hres]
      exact hi.divRes_needed hn

variable (d : Decoder) (idRegs : ID.Regs) (idInputs : ID.Inputs) {s : Regs}

theorem mext_results {i : MInst} (hi : mInst idRegs.fromIF.inst = some i)
    (hs : s.fromID = ID.toEXE d idRegs idInputs) (halive : ID.nop idRegs idInputs = false)
    (h : UnsignedResults s) : regWdata s = i.result s.fromID.rs1Data s.fromID.rs2Data := by
  have hinst : s.fromID.inst = idRegs.fromIF.inst := by rw [hs]; rfl
  obtain ⟨p, hp, hm⟩ := inTable_of_mInst hi
  refine IsMInst.regWdata (isMInst_of_row (w := d.ctrlWord idRegs.fromIF.inst) (hinst ▸ hi) hp
    (hinst ▸ hm) (d.row _ p hp hm) ?_) h
  rw [hs]
  exact ID.decodeBundle_of_alive halive

def readingOperands (rs1Data rs2Data : Word) : ID.Inputs :=
  ⟨true, true, false, true, .FromREG, .FromREG, 0, 0, 0, rs1Data, rs2Data, 0, .Machine⟩

def holdingInst (inst : Word) : ID.Regs := ⟨{ IfIdBus.zero with nop := false, inst := inst }, false⟩

def holdingResults (b : IdExeBus) : Regs :=
  { Regs.reset with
    fromID := b
    multiplier := ⟨true, 0, (mulAbsOpA b).setWidth 64 * (mulAbsOpB b).setWidth 64⟩
    divider := ⟨true, 0, divAbsRes b⟩ }

/-- rem x5, x1, x2 of the least word and -3 -/
theorem mext_results_rem :
    let b := ID.toEXE (.resolve ⟨0, .zero, false⟩) (holdingInst 0x0220e2b3)
      (readingOperands 0x80000000 (-3))
    regWdata (holdingResults b) = DivInst.REM.result 0x80000000 (-3) := by
  refine mext_results (.resolve ⟨0, .zero, false⟩) (holdingInst 0x0220e2b3)
    (readingOperands 0x80000000 (-3)) (i := .div .REM) (by decide +kernel) rfl rfl ⟨?_, ?_, ?_⟩ <;>
      decide +kernel

theorem integer_results {i : IntInst} (hi : intInst idRegs.fromIF.inst = some i)
    (hs : s.fromID = ID.toEXE d idRegs idInputs) (halive : ID.nop idRegs idInputs = false)
    (io : Inputs) : (toMEM s io).rd = rd idRegs.fromIF.inst ∧
      (toMEM s io).controlSignals.regWrite = true ∧
      (toMEM s io).controlSignals.regWriteData = i.result idRegs.fromIF.inst idRegs.fromIF.pc
        s.fromID.rs1Data s.fromID.rs2Data := by
  have hinst : s.fromID.inst = idRegs.fromIF.inst := by rw [hs]; rfl
  have hpc : s.fromID.pc = idRegs.fromIF.pc := by rw [hs]; rfl
  have hbundle : s.fromID.decodeBundle = (d.ctrlWord idRegs.fromIF.inst).decodeBundle := by
    rw [hs]
    exact ID.decodeBundle_of_alive halive
  obtain ⟨p, hp, hm⟩ := inTable_of_intInst hi
  have ha := d.row _ p hp hm
  obtain ⟨hfu, hwrite, -⟩ := table_intInst p hp i ((intInst_of_matches hp hm).1 ▸ hi)
  refine ⟨?_, ?_, ?_⟩
  · change s.fromID.rd = _
    rw [hs]
    rfl
  · change s.fromID.decodeBundle.regWrite = true
    rw [hbundle, ha.regWrite _ hwrite]
  · have hres := aluRes_of_row (hinst ▸ hi) hp (hinst ▸ hm) ha hbundle (by rw [hs]; rfl)
    rw [hinst, hpc] at hres
    rw [← hres]
    simp [toMEM, controlSignals, EXE.regWdata, Mux1H, hbundle, ha.fuType _ hfu]

/-- srai x5, x1, 3 of the least word -/
theorem integer_results_srai :
    let b := ID.toEXE (.resolve ⟨0, .zero, false⟩) (holdingInst 0x4030d293)
      (readingOperands 0x80000000 0)
    (toMEM (holdingResults b) .idle).rd = 5 ∧
      (toMEM (holdingResults b) .idle).controlSignals.regWriteData = 0xf0000000 := by
  have h := integer_results (.resolve ⟨0, .zero, false⟩) (holdingInst 0x4030d293)
    (readingOperands 0x80000000 0) (i := .imm .SRA) (by decide +kernel)
    (s := holdingResults (ID.toEXE (.resolve ⟨0, .zero, false⟩) (holdingInst 0x4030d293)
      (readingOperands 0x80000000 0))) rfl rfl .idle
  exact ⟨h.1.trans (by decide), h.2.2.trans (by decide +kernel)⟩

end EXE

end FpgaNpc
