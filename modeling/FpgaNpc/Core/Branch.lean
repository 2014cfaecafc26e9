import FpgaNpc.Core.Flush
import FpgaNpc.Riscv.ControlFlow

open FpgaNpc.Hardware FpgaNpc.InterStage FpgaNpc.ControlSignals

namespace FpgaNpc

section Immediates

variable (inst : Word)

theorem signExtend_extractLsb_31 (k : Nat) :
    (inst.extractLsb 31 31).signExtend k = fill k (inst.getLsbD 31) := by
  apply BitVec.eq_of_getLsbD_eq
  intro i hi
  have hbit (j : Nat) (hj : j < 31 - 31 + 1) :
      (inst.extractLsb 31 31).getLsbD j = inst.getLsbD 31 := by
    obtain rfl : j = 0 := by omega
    rw [BitVec.getLsbD_extractLsb]
    rfl
  have hsame : ((inst.extractLsb 31 31).signExtend k).getLsbD i = inst.getLsbD 31 := by
    rw [BitVec.getLsbD_signExtend, BitVec.msb_eq_getLsbD_last, hbit (31 - 31 + 1 - 1) (by decide)]
    split
    case isTrue h => rw [hbit i h, decide_eq_true hi, Bool.true_and]
    case isFalse => rw [decide_eq_true hi, Bool.true_and]
  rw [hsame]
  cases inst.getLsbD 31 <;> simp [fill, hi]

theorem ImmGen_I : ImmGen inst InstType.I = Riscv.immI inst := by
  have h : ImmGen inst InstType.I = fill 21 (inst.getLsbD 31) ++ inst.extractLsb 30 20 := by
    simp [ImmGen, Mux1H]
  have hfield : inst.extractLsb' 31 1 ++ inst.extractLsb' 20 11 = inst.extractLsb' 20 12 :=
    BitVec.extractLsb'_append_extractLsb'_eq_extractLsb' rfl
  rw [h, ← signExtend_extractLsb_31]
  change _ = (inst.extractLsb' 20 12).signExtend (21 + 11)
  rw [← hfield, Riscv.signExtend_append]
  rfl

theorem ImmGen_B : ImmGen inst InstType.B = Riscv.immB inst := by
  have h : ImmGen inst InstType.B = fill 20 (inst.getLsbD 31) ++ inst.extractLsb 7 7 ++
      inst.extractLsb 30 25 ++ inst.extractLsb 11 8 ++ 0#1 := by
    simp [ImmGen, Mux1H]
  rw [h, ← signExtend_extractLsb_31, Riscv.immB]
  change _ = BitVec.signExtend (20 + 1 + 6 + 4 + 1) _
  rw [Riscv.signExtend_append, Riscv.signExtend_append, Riscv.signExtend_append,
    Riscv.signExtend_append]

theorem ImmGen_J : ImmGen inst InstType.J = Riscv.immJ inst := by
  have h : ImmGen inst InstType.J = fill 12 (inst.getLsbD 31) ++ inst.extractLsb 19 12 ++
      inst.extractLsb 20 20 ++ inst.extractLsb 30 21 ++ 0#1 := by
    simp [ImmGen, Mux1H]
  rw [h, ← signExtend_extractLsb_31, Riscv.immJ]
  change _ = BitVec.signExtend (12 + 8 + 1 + 10 + 1) _
  rw [Riscv.signExtend_append, Riscv.signExtend_append, Riscv.signExtend_append,
    Riscv.signExtend_append]

end Immediates

section Rows

open ControlLogic Riscv

theorem BitPat.Matches.extractLsb {n : Nat} {p : BitPat n} {x : BitVec n} (h : p.Matches x)
    (hi lo : Nat) (hmask : p.mask.extractLsb hi lo = BitVec.allOnes (hi - lo + 1)) :
    x.extractLsb hi lo = p.value.extractLsb hi lo := by
  rw [← h, BitVec.extractLsb_and, hmask, BitVec.and_allOnes]

theorem ControlLogic.table_opcode : ∀ p ∈ table,
    p.1.mask.extractLsb 6 0 = BitVec.allOnes (6 - 0 + 1) ∧
      (opcode p.1.value = 0b1100111#7 ∨ opcode p.1.value = 0b1100011#7 →
        p.1.mask.extractLsb 14 12 = BitVec.allOnes (14 - 12 + 1)) := by
  decide +kernel

theorem ControlLogic.transfer_of_matches {inst : Word} {p : BitPat 32 × ControlRow}
    (hp : p ∈ table) (h : p.1.Matches inst) : transfer inst = transfer p.1.value := by
  obtain ⟨hop, hf3⟩ := table_opcode p hp
  have hopcode : opcode inst = opcode p.1.value := h.extractLsb 6 0 hop
  have hfunct3 : opcode p.1.value = 0b1100111#7 ∨ opcode p.1.value = 0b1100011#7 →
      funct3 inst = funct3 p.1.value := fun ho => h.extractLsb 14 12 (hf3 ho)
  rw [transfer, transfer, hopcode]
  split
  case isTrue => rfl
  case isFalse =>
    split
    case isTrue ho => rw [hfunct3 (.inl ho)]
    case isFalse =>
      split
      case isTrue ho => rw [branchInst, branchInst, hfunct3 (.inr ho)]
      case isFalse => rfl

def bruOpOf : Transfer → BitVec 3
  | .JAL | .JALR => BRUOp.N
  | .branch .BEQ => BRUOp.EQ
  | .branch .BNE => BRUOp.NEQ
  | .branch .BLT => BRUOp.LTS
  | .branch .BGE => BRUOp.GES
  | .branch .BLTU => BRUOp.LTU
  | .branch .BGEU => BRUOp.GEU

def instTypeOf : Transfer → BitVec 3
  | .JAL => InstType.J
  | .JALR => InstType.I
  | .branch _ => InstType.B

def aluSrc1Of : Transfer → BitVec 2
  | .JALR => OpASrc.RS1
  | .JAL | .branch _ => OpASrc.PC

theorem ControlLogic.table_transfer : ∀ p ∈ table, ∀ t ∈ transfer p.1.value,
    p.2.instType = instTypeOf t ∧ p.2.fuType = FuType.BRU ∧ p.2.aluSrc1 = aluSrc1Of t ∧
      p.2.aluSrc2 = OpBSrc.IMM ∧ p.2.aluOp = ALUOp.ADD ∧ p.2.bruOp = bruOpOf t ∧
      p.2.fencei = N ∧ p.2.memRead = MemRead.N ∧ p.2.memWrite = MemWrite.N := by
  decide +kernel

theorem ControlLogic.table_sequential : ∀ p ∈ table, transfer p.1.value = none →
    p.2.fuType.any fun f => f != FuType.BRU := by
  decide +kernel

end Rows

def ControlLogic.InTable (inst : Word) : Prop := ∃ p ∈ table, p.1.Matches inst

instance (inst : Word) : Decidable (ControlLogic.InTable inst) :=
  inferInstanceAs (Decidable (∃ p ∈ ControlLogic.table, _))

section Steering

open Riscv

theorem BRU.branch_bruOpOf (i : BranchInst) (opA opB : Word) :
    branch (bruOpOf (.branch i)) opA opB = i.taken opA opB := by
  rw [Bool.eq_iff_iff]
  cases i <;> simp [branch, bruOpOf, BranchInst.taken, BitVec.ult, BitVec.slt]

/-- EXE finds whether and where the instruction goes, but for the bit that JALR clears. -/
structure EXE.Steers (b : IdExeBus) : Prop where
  sequential : transfer b.inst = none → isBRU b = false
  isBRU : ∀ t ∈ transfer b.inst, isBRU b = true
  fencei : ∀ t ∈ transfer b.inst, b.decodeBundle.fencei = false
  jump : ∀ t ∈ transfer b.inst, jump b = t.taken b.rs1Data b.rs2Data
  aluSum : ∀ t ∈ transfer b.inst, aluSum b = t.sum b.inst b.pc b.rs1Data

theorem EXE.aluSum_of_add {b : IdExeBus} (h : b.decodeBundle.aluOp = ALUOp.ADD) :
    EXE.aluSum b = opA b + opB b := by
  simp [EXE.aluSum, ALU.sum, h]

theorem EXE.steers_of_row {b : IdExeBus} {w : CtrlWord} {p : BitPat 32 × ControlLogic.ControlRow}
    (hp : p ∈ ControlLogic.table) (hm : p.1.Matches b.inst) (ha : p.2.Admits w)
    (hbundle : b.decodeBundle = w.decodeBundle) (himm : b.imm = ImmGen b.inst w.instType) :
    Steers b := by
  have htransfer := ControlLogic.transfer_of_matches hp hm
  have hrow (t : Transfer) (ht : t ∈ transfer b.inst) :=
    ControlLogic.table_transfer p hp t (htransfer ▸ ht)
  have hbru (t : Transfer) (ht : t ∈ transfer b.inst) : EXE.isBRU b = true := by
    rw [EXE.isBRU, hbundle, ha.fuType _ (hrow t ht).2.1]
    rfl
  constructor
  case sequential =>
    intro hn
    obtain ⟨f, hf, hne⟩ := Option.any_eq_true .. |>.1
      (ControlLogic.table_sequential p hp (htransfer ▸ hn))
    rw [EXE.isBRU, hbundle, ha.fuType f hf]
    simpa using hne
  case isBRU => exact hbru
  case fencei =>
    intro t ht
    rw [hbundle, ha.fencei _ (hrow t ht).2.2.2.2.2.2.1]
  case jump =>
    intro t ht
    have hop : b.decodeBundle.bruOp = bruOpOf t := by
      rw [hbundle, ha.bruOp _ (hrow t ht).2.2.2.2.2.1]
    rw [EXE.jump, hbru t ht, hop, Bool.true_and]
    cases t with
    | JAL => simp [bruOpOf, Transfer.taken]
    | JALR => simp [bruOpOf, Transfer.taken]
    | branch i =>
      rw [BRU.branch_bruOpOf, Transfer.taken]
      cases i <;> simp [bruOpOf]
  case aluSum =>
    intro t ht
    obtain ⟨htype, -, hsrc1, hsrc2, hadd, -⟩ := hrow t ht
    have hopB : opB b = ImmGen b.inst (instTypeOf t) := by
      simp [opB, Mux1H, hbundle, ha.aluSrc2 _ hsrc2, himm, ha.instType _ htype]
    have hopA : opA b = if t = .JALR then b.rs1Data else b.pc := by
      cases t <;> simp [opA, Mux1H, hbundle, ha.aluSrc1 _ hsrc1, aluSrc1Of]
    rw [aluSum_of_add (by rw [hbundle, ha.aluOp _ hadd]), hopA, hopB]
    cases t with
    | JAL => exact congrArg (b.pc + ·) (ImmGen_J _)
    | JALR => exact congrArg (b.rs1Data + ·) (ImmGen_I _)
    | branch i => exact congrArg (b.pc + ·) (ImmGen_B _)

end Steering

namespace EXE

open Riscv

variable {b : IdExeBus}

/-- The pc that IF went on with behind the instruction. -/
def predicted (b : IdExeBus) : Word := if b.branchPred then b.predTarget else b.pc + 4

def isaNextPc (b : IdExeBus) : Word := nextPc b.inst b.pc b.rs1Data b.rs2Data

/-- The instruction stays on its way: it is no transfer, or one that is not taken. -/
def Untaken (b : IdExeBus) : Prop := ∀ t ∈ transfer b.inst, t.taken b.rs1Data b.rs2Data = false

instance (b : IdExeBus) : Decidable (Untaken b) :=
  inferInstanceAs (Decidable (∀ t ∈ transfer b.inst, _))

/-- A prediction that EXE judges right: a transfer predicted not to be taken leads elsewhere than
behind itself, one that is indeed not taken came with its target, an instruction predicted to be
taken that is not came with another address than that behind itself, and a JALR with an odd sum
came neither with the sum nor with the target. -/
structure PredictionTells (b : IdExeBus) : Prop where
  elsewhere : b.branchPred = false → ∀ t ∈ transfer b.inst, t.taken b.rs1Data b.rs2Data = true →
    t.target b.inst b.pc b.rs1Data ≠ b.pc + 4
  untaken : b.branchPred = false → ∀ t ∈ transfer b.inst, t.taken b.rs1Data b.rs2Data = false →
    b.predTarget = t.sum b.inst b.pc b.rs1Data
  misled : b.branchPred = true → Untaken b → b.predTarget ≠ b.pc + 4
  odd : b.branchPred = true → ∀ t ∈ transfer b.inst, t.taken b.rs1Data b.rs2Data = true →
    t.target b.inst b.pc b.rs1Data ≠ t.sum b.inst b.pc b.rs1Data →
    b.predTarget ≠ t.sum b.inst b.pc b.rs1Data ∧ b.predTarget ≠ t.target b.inst b.pc b.rs1Data

instance (b : IdExeBus) : Decidable (PredictionTells b) :=
  decidable_of_iff
    ((b.branchPred = false → ∀ t ∈ transfer b.inst, t.taken b.rs1Data b.rs2Data = true →
        t.target b.inst b.pc b.rs1Data ≠ b.pc + 4) ∧
      (b.branchPred = false → ∀ t ∈ transfer b.inst, t.taken b.rs1Data b.rs2Data = false →
        b.predTarget = t.sum b.inst b.pc b.rs1Data) ∧
      (b.branchPred = true → Untaken b → b.predTarget ≠ b.pc + 4) ∧
      (b.branchPred = true → ∀ t ∈ transfer b.inst, t.taken b.rs1Data b.rs2Data = true →
        t.target b.inst b.pc b.rs1Data ≠ t.sum b.inst b.pc b.rs1Data →
        b.predTarget ≠ t.sum b.inst b.pc b.rs1Data ∧
          b.predTarget ≠ t.target b.inst b.pc b.rs1Data))
    ⟨fun ⟨he, hu, hm, ho⟩ => ⟨he, hu, hm, ho⟩, fun ⟨he, hu, hm, ho⟩ => ⟨he, hu, hm, ho⟩⟩

theorem isaNextPc_of_untaken (h : Untaken b) : isaNextPc b = b.pc + 4 := by
  rw [isaNextPc, nextPc]
  split
  case h_1 t ht => rw [h t ht, if_neg Bool.false_ne_true]
  case h_2 => rfl

theorem isaNextPc_of_taken {t : Transfer} (ht : t ∈ transfer b.inst)
    (h : t.taken b.rs1Data b.rs2Data = true) : isaNextPc b = t.target b.inst b.pc b.rs1Data := by
  rw [isaNextPc, nextPc, Option.mem_def.1 ht]
  simp [h]

theorem Steers.jumpTarget_eq (h : Steers b) (heven : ∀ t ∈ transfer b.inst,
    t.target b.inst b.pc b.rs1Data = t.sum b.inst b.pc b.rs1Data) :
    jumpTarget b = isaNextPc b := by
  rw [isaNextPc, nextPc, jumpTarget]
  cases ht : transfer b.inst with
  | none => simp [EXE.jump, h.sequential ht]
  | some t => simp only [h.jump t ht, h.aluSum t ht, heven t ht]

theorem Steers.jump_of_untaken (h : Steers b) (hu : Untaken b) : EXE.jump b = false := by
  cases ht : transfer b.inst with
  | none => rw [EXE.jump, h.sequential ht, Bool.false_and]
  | some t => rw [h.jump t ht, hu t ht]

theorem predicted_of_no_redirect (h : EXE.redirect b = false) : predicted b = jumpTarget b := by
  simp only [EXE.redirect, Bool.or_eq_false_iff, Bool.and_eq_false_imp, bne_eq_false_iff_eq] at h
  obtain ⟨hdir, htarget⟩ := h
  cases hj : EXE.jump b
  case false =>
    have hp : b.branchPred = false := by simpa [hj] using hdir
    simp [predicted, jumpTarget, hj, hp]
  case true =>
    have hp : b.branchPred = true := by simpa [hj] using hdir
    have hbru : EXE.isBRU b = true := by
      rw [EXE.jump, Bool.and_eq_true] at hj
      exact hj.1
    simp [predicted, jumpTarget, hj, hp, htarget hbru]

theorem Steers.redirect_iff_of_untaken (h : Steers b) (hu : Untaken b) :
    (EXE.redirect b = true ↔ predicted b ≠ isaNextPc b) ↔ PredictionTells b := by
  have hodd (t : Transfer) (ht : t ∈ transfer b.inst) :
      ¬t.taken b.rs1Data b.rs2Data = true := by simp [hu t ht]
  rw [isaNextPc_of_untaken hu, EXE.redirect, h.jump_of_untaken hu, predicted]
  cases hp : b.branchPred
  case true =>
    have hiff : PredictionTells b ↔ b.predTarget ≠ b.pc + 4 :=
      ⟨fun ht => ht.misled hp hu, fun hne => ⟨fun hf => by simp [hp] at hf,
        fun hf => by simp [hp] at hf, fun _ _ => hne, fun _ t ht hk => absurd hk (hodd t ht)⟩⟩
    simp [hiff]
  case false =>
    have hiff : PredictionTells b ↔
        ∀ t ∈ transfer b.inst, b.predTarget = t.sum b.inst b.pc b.rs1Data :=
      ⟨fun hk t ht => hk.untaken hp t ht (hu t ht),
        fun hk => ⟨fun _ t ht hk => absurd hk (hodd t ht), fun _ t ht _ => hk t ht,
          fun hf => by simp [hp] at hf, fun hf => by simp [hp] at hf⟩⟩
    rw [hiff]
    cases ht : transfer b.inst with
    | none => simp [h.sequential ht]
    | some t => simp [h.isBRU t ht, h.aluSum t ht, @eq_comm _ b.predTarget]

theorem Steers.redirect_iff_of_taken (h : Steers b) {t : Transfer} (ht : t ∈ transfer b.inst)
    (hk : t.taken b.rs1Data b.rs2Data = true) :
    (EXE.redirect b = true ↔ predicted b ≠ isaNextPc b) ↔ PredictionTells b := by
  have huniq (t' : Transfer) (ht' : t' ∈ transfer b.inst) : t' = t :=
    Option.mem_unique ht' ht
  have hu : ¬Untaken b := fun hu => by simp [hu t ht] at hk
  rw [isaNextPc_of_taken ht hk, EXE.redirect, h.jump t ht, hk, h.isBRU t ht, h.aluSum t ht,
    predicted]
  cases hp : b.branchPred
  case true =>
    have hiff : PredictionTells b ↔
        (t.target b.inst b.pc b.rs1Data ≠ t.sum b.inst b.pc b.rs1Data →
          b.predTarget ≠ t.sum b.inst b.pc b.rs1Data ∧
            b.predTarget ≠ t.target b.inst b.pc b.rs1Data) := by
      refine ⟨fun hk' => hk'.odd hp t ht hk, fun ho => ⟨fun hf => by simp [hp] at hf,
        fun hf => by simp [hp] at hf, fun _ hn => absurd hn hu, fun _ t' ht' _ => ?_⟩⟩
      rw [huniq t' ht']
      exact ho
    rw [hiff]
    by_cases hs : t.target b.inst b.pc b.rs1Data = t.sum b.inst b.pc b.rs1Data
    case pos => simp [hs, @eq_comm _ b.predTarget]
    case neg => grind
  case false =>
    have hiff : PredictionTells b ↔ b.pc + 4 ≠ t.target b.inst b.pc b.rs1Data := by
      refine ⟨fun hk' => (hk'.elsewhere hp t ht hk).symm, fun hne => ⟨fun _ t' ht' _ => ?_,
        fun _ t' ht' hf => ?_, fun hf => by simp [hp] at hf, fun hf => by simp [hp] at hf⟩⟩
      · rw [huniq t' ht']
        exact hne.symm
      · simp [huniq t' ht', hk] at hf
    simp [hiff]

theorem Steers.redirect_iff (h : Steers b) :
    (EXE.redirect b = true ↔ predicted b ≠ isaNextPc b) ↔ PredictionTells b := by
  by_cases hu : Untaken b
  case pos => exact h.redirect_iff_of_untaken hu
  case neg =>
    obtain ⟨t, ht, hk⟩ : ∃ t ∈ transfer b.inst, t.taken b.rs1Data b.rs2Data = true := by
      simpa [Untaken] using hu
    exact h.redirect_iff_of_taken ht hk

end EXE

namespace Core

open ControlLogic

variable {B : Build} {s : Regs} {io : Inputs}

theorem inTable_of_excepVec (h : (toEXE B s io).excepVec = 0#16) :
    InTable (toEXE B s io).inst := by
  obtain ⟨p, hp, hm, -⟩ := B.decoder.row_of_legal (ID.legal_of_excepVec h)
  exact ⟨p, hp, hm⟩

theorem steers_toEXE (h : (toEXE B s io).nop = false) (ht : InTable (toEXE B s io).inst) :
    EXE.Steers (toEXE B s io) := by
  obtain ⟨p, hp, hm⟩ := ht
  exact EXE.steers_of_row hp hm (B.decoder.row _ p hp hm) (ID.decodeBundle_of_alive h) rfl

structure Steered (s : Regs) : Prop where
  inTable : s.exeStage.fromID.nop = false → s.exeStage.fromID.excepVec = 0#16 →
    InTable s.exeStage.fromID.inst
  steers : s.exeStage.fromID.nop = false → InTable s.exeStage.fromID.inst →
    EXE.Steers s.exeStage.fromID

theorem IsReset.steered (h : IsReset B s) : Steered s := by
  obtain ⟨_, _, hexe⟩ := h.exeStage
  have hzero : s.exeStage.fromID = .zero := by rw [hexe]
  have htransfer : Riscv.transfer IdExeBus.zero.inst = none := by decide
  constructor <;> rw [hzero]
  · exact fun _ _ => by decide +kernel
  · exact fun _ _ => ⟨fun _ => rfl, by simp [htransfer], by simp [htransfer], by simp [htransfer],
      by simp [htransfer]⟩

theorem Steered.next (h : Steered s) (B : Build) (io : Inputs) : Steered (next B s io) := by
  constructor <;> rw [next_fromID] <;> cases toMEMFire B s io
  case inTable.false => exact h.inTable
  case inTable.true => exact fun _ he => inTable_of_excepVec he
  case steers.false => exact h.steers
  case steers.true => exact fun hn ht => steers_toEXE hn ht

theorem redirect_exact (h : (machine B).Reaches (fun _ _ => True) s)
    (ha : (toMEM B s io).nop = false) (ht : InTable s.exeStage.fromID.inst)
    (hcsr : EXE.isCSR s.exeStage.fromID = false)
    (hfence : s.exeStage.fromID.decodeBundle.fencei = false) :
    ((EXE.jumpBus s.exeStage (exeInputs B s io)).valid = true ↔
      EXE.predicted s.exeStage.fromID ≠ EXE.isaNextPc s.exeStage.fromID) ↔
      EXE.PredictionTells s.exeStage.fromID := by
  have hsteered : Steered s :=
    h.invariant (P := Steered) (fun _ hs => IsReset.steered hs) fun _ io ih _ => ih.next B io
  change EXE.nop s.exeStage (exeInputs B s io) = false at ha
  have hn : s.exeStage.fromID.nop = false := by
    simp only [EXE.nop, Bool.or_eq_false_iff] at ha
    exact ha.1.1.1
  have hvalid : (EXE.jumpBus s.exeStage (exeInputs B s io)).valid =
      EXE.redirect s.exeStage.fromID := by
    simp [EXE.jumpBus, EXE.jumpBusValid, ha, hcsr, hfence]
  rw [hvalid]
  exact (hsteered.steers hn ht).redirect_iff

/-- beq x1, x0, 8 until it is in EXE. -/
def branchInEXE : List Inputs := [.request, .fetch 0x13, .fetch 0x00008463, .fetch 0x13]

/-- The branch is taken, which was not predicted, and IF is sent to the target. -/
theorem redirect_exact_taken :
    let s := (machine .zeros).run (.reset .zeros 0) branchInEXE
    let b := s.exeStage.fromID
    b.inst = 0x00008463 ∧ ((EXE.jumpBus s.exeStage (exeInputs .zeros s .idle)).valid = true ↔
      EXE.predicted b ≠ EXE.isaNextPc b) := by
  have hr := (machine .zeros).reaches_run (fun _ _ => True) (.reset .zeros 0) branchInEXE
    (isReset_reset _ _) (by decide +kernel)
  have hnop : (toMEM .zeros ((machine .zeros).run (.reset .zeros 0) branchInEXE) .idle).nop =
      false := by
    decide +kernel
  refine ⟨by decide +kernel, (redirect_exact hr hnop ?_ ?_ ?_).2 ?_⟩ <;> decide +kernel

/-- The branch is not taken, as it was predicted for want of an entry, and is flushed behind. -/
theorem untaken_branch_flushes : ¬∀ s, (machine .zeros).Reaches (fun _ _ => True) s → ∀ io,
    (toMEM .zeros s io).nop = false → InTable s.exeStage.fromID.inst →
    EXE.isCSR s.exeStage.fromID = false → s.exeStage.fromID.decodeBundle.fencei = false →
    ((EXE.jumpBus s.exeStage (exeInputs .zeros s io)).valid = true ↔
      EXE.predicted s.exeStage.fromID ≠ EXE.isaNextPc s.exeStage.fromID) := by
  intro h
  have hr := (machine .zeros).reaches_run (fun _ _ => True) (.reset .zeros 0x888) branchInEXE
    (isReset_reset _ _) (by decide +kernel)
  have hexact := h _ hr .idle (by decide +kernel) (by decide +kernel) (by decide +kernel)
    (by decide +kernel)
  revert hexact
  decide +kernel

end Core

end FpgaNpc
