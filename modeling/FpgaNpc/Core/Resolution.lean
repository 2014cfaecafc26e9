import FpgaNpc.Core.Branch

open FpgaNpc.Hardware FpgaNpc.InterStage FpgaNpc.ControlSignals

namespace FpgaNpc

section Rows

open ControlLogic

def InterStage.DecodeBundle.Moves (b : DecodeBundle) : Prop :=
  (b.regWrite = true ∨ b.memRead ≠ 0#4 ∨ b.memWrite ≠ 0#4) ∧
    b.fuType ∈ [FuType.ALU, FuType.LSU, FuType.AMO]

def InterStage.DecodeBundle.Operates (b : DecodeBundle) : Prop :=
  b.Moves ∨ b.csrWrite = true ∨ b.fuType ∈ [FuType.BRU, FuType.MUL, FuType.DIV]

/-- The operations differ only where the stages do not look. -/
structure InterStage.DecodeBundle.Agree (b₁ b₂ : DecodeBundle) : Prop where
  fuType : b₁.fuType = b₂.fuType
  memRead : b₁.memRead = b₂.memRead
  memWrite : b₁.memWrite = b₂.memWrite
  regWrite : b₁.regWrite = b₂.regWrite
  csrWrite : b₁.csrWrite = b₂.csrWrite
  fencei : b₁.fencei = b₂.fencei
  operands : b₁.Operates → b₁.aluSrc1 = b₂.aluSrc1 ∧ b₁.aluSrc2 = b₂.aluSrc2
  aluOp : b₁.Moves ∨ b₁.fuType = FuType.BRU → b₁.aluOp = b₂.aluOp
  bruOp : b₁.fuType = FuType.BRU → b₁.bruOp = b₂.bruOp
  mulOp : b₁.fuType = FuType.MUL → b₁.mulOp = b₂.mulOp
  divOp : b₁.fuType = FuType.DIV → b₁.divOp = b₂.divOp
  csrOp : b₁.csrWrite = true → b₁.csrOp = b₂.csrOp
  amoOp : b₁.fuType = FuType.AMO ∨ (b₁.memRead ≠ 0#4 ∧ b₁.memWrite ≠ 0#4) →
    b₁.amoOp = b₂.amoOp
  memSignExt : b₁.memRead ≠ 0#4 → b₁.memSignExt = b₂.memSignExt

structure CtrlWord.Agree (w₁ w₂ : CtrlWord) : Prop where
  legal : w₁.legal = w₂.legal
  bundle : w₁.decodeBundle.Agree w₂.decodeBundle
  instType : w₁.decodeBundle.Operates → w₁.instType = w₂.instType

structure ControlLogic.ControlRow.Specified (r : ControlRow) : Prop where
  legal : r.legal.isSome
  fuType : r.fuType.isSome
  memRead : r.memRead.isSome
  memWrite : r.memWrite.isSome
  regWrite : r.regWrite.isSome
  csrWrite : r.csrWrite.isSome
  fencei : r.fencei.isSome
  operands : (r.resolve ⟨0, .zero, false⟩).decodeBundle.Operates →
    r.instType.isSome ∧ r.aluSrc1.isSome ∧ r.aluSrc2.isSome
  aluOp : (r.resolve ⟨0, .zero, false⟩).decodeBundle.Moves ∨ r.fuType = FuType.BRU →
    r.aluOp.isSome
  bruOp : r.fuType = FuType.BRU → r.bruOp.isSome
  mulOp : r.fuType = FuType.MUL → r.mulOp.isSome
  divOp : r.fuType = FuType.DIV → r.divOp.isSome
  csrOp : r.csrWrite = Y → r.csrOp.isSome
  amoOp : r.fuType = FuType.AMO ∨ (r.memRead ≠ MemRead.N ∧ r.memWrite ≠ MemWrite.N) →
    r.amoOp.isSome
  memSignExt : r.memRead ≠ MemRead.N → r.memSignExt.isSome

instance (b : DecodeBundle) : Decidable b.Moves := inferInstanceAs (Decidable (_ ∧ _))

instance (b : DecodeBundle) : Decidable b.Operates := inferInstanceAs (Decidable (_ ∨ _))

theorem ControlLogic.table_specified : ∀ p ∈ table, p.2.Specified := by
  have h : ∀ p ∈ table, p.2.legal.isSome ∧ p.2.fuType.isSome ∧ p.2.memRead.isSome ∧
      p.2.memWrite.isSome ∧ p.2.regWrite.isSome ∧ p.2.csrWrite.isSome ∧ p.2.fencei.isSome := by
    decide +kernel
  have hops : ∀ p ∈ table, ((p.2.resolve ⟨0, .zero, false⟩).decodeBundle.Operates →
      p.2.instType.isSome ∧ p.2.aluSrc1.isSome ∧ p.2.aluSrc2.isSome) ∧
      ((p.2.resolve ⟨0, .zero, false⟩).decodeBundle.Moves ∨ p.2.fuType = FuType.BRU →
        p.2.aluOp.isSome) := by
    decide +kernel
  have hunits : ∀ p ∈ table, (p.2.fuType = FuType.BRU → p.2.bruOp.isSome) ∧
      (p.2.fuType = FuType.MUL → p.2.mulOp.isSome) ∧
      (p.2.fuType = FuType.DIV → p.2.divOp.isSome) ∧ (p.2.csrWrite = Y → p.2.csrOp.isSome) ∧
      (p.2.fuType = FuType.AMO ∨ (p.2.memRead ≠ MemRead.N ∧ p.2.memWrite ≠ MemWrite.N) →
        p.2.amoOp.isSome) ∧ (p.2.memRead ≠ MemRead.N → p.2.memSignExt.isSome) := by
    decide +kernel
  intro p hp
  obtain ⟨h1, h2, h3, h4, h5, h6, h7⟩ := h p hp
  obtain ⟨h8, h9⟩ := hops p hp
  obtain ⟨h10, h11, h12, h13, h14, h15⟩ := hunits p hp
  exact ⟨h1, h2, h3, h4, h5, h6, h7, h8, h9, h10, h11, h12, h13, h14, h15⟩

theorem eq_of_specified {α : Type} {o : Option α} (h : o.isSome) {x y : α}
    (hx : ∀ v ∈ o, x = v) (hy : ∀ v ∈ o, y = v) : x = y := by
  obtain ⟨v, hv⟩ := Option.isSome_iff_exists.1 h
  rw [hx v hv, hy v hv]

theorem some_of_specified {α : Type} {o : Option α} (h : o.isSome) {x : α}
    (hx : ∀ v ∈ o, x = v) : o = some x := by
  obtain ⟨v, hv⟩ := Option.isSome_iff_exists.1 h
  rw [hx v hv, hv]

theorem InterStage.DecodeBundle.Agree.refl (b : DecodeBundle) : b.Agree b := by
  constructor <;> simp

theorem CtrlWord.Agree.refl (w : CtrlWord) : w.Agree w := ⟨rfl, .refl _, fun _ => rfl⟩

theorem CtrlWord.Agree.of_row {r : ControlRow} (h : r.Specified) {w₁ w₂ : CtrlWord}
    (h₁ : r.Admits w₁) (h₂ : r.Admits w₂) : w₁.Agree w₂ := by
  have hz := r.admits_resolve ⟨0, .zero, false⟩
  have hfu (f : BitVec 4) (hf : w₁.decodeBundle.fuType = f) : r.fuType = some f :=
    hf ▸ some_of_specified h.fuType h₁.fuType
  have hcsr (hc : w₁.decodeBundle.csrWrite = true) : r.csrWrite = some true :=
    hc ▸ some_of_specified h.csrWrite h₁.csrWrite
  have hread (hr : w₁.decodeBundle.memRead ≠ 0#4) : r.memRead ≠ MemRead.N := fun he =>
    hr (h₁.memRead _ he)
  have hwrite (hw : w₁.decodeBundle.memWrite ≠ 0#4) : r.memWrite ≠ MemWrite.N := fun he =>
    hw (h₁.memWrite _ he)
  have hmoves : w₁.decodeBundle.Moves → (r.resolve ⟨0, .zero, false⟩).decodeBundle.Moves := by
    rw [DecodeBundle.Moves, DecodeBundle.Moves, eq_of_specified h.regWrite h₁.regWrite hz.regWrite,
      eq_of_specified h.memRead h₁.memRead hz.memRead,
      eq_of_specified h.memWrite h₁.memWrite hz.memWrite,
      eq_of_specified h.fuType h₁.fuType hz.fuType]
    exact id
  have hoperates : w₁.decodeBundle.Operates →
      (r.resolve ⟨0, .zero, false⟩).decodeBundle.Operates := by
    rw [DecodeBundle.Operates, DecodeBundle.Operates,
      eq_of_specified h.csrWrite h₁.csrWrite hz.csrWrite,
      eq_of_specified h.fuType h₁.fuType hz.fuType]
    exact Or.imp_left hmoves
  refine ⟨eq_of_specified h.legal h₁.legal h₂.legal, ?_, fun ho =>
    eq_of_specified (h.operands (hoperates ho)).1 h₁.instType h₂.instType⟩
  constructor
  case fuType => exact eq_of_specified h.fuType h₁.fuType h₂.fuType
  case memRead => exact eq_of_specified h.memRead h₁.memRead h₂.memRead
  case memWrite => exact eq_of_specified h.memWrite h₁.memWrite h₂.memWrite
  case regWrite => exact eq_of_specified h.regWrite h₁.regWrite h₂.regWrite
  case csrWrite => exact eq_of_specified h.csrWrite h₁.csrWrite h₂.csrWrite
  case fencei => exact eq_of_specified h.fencei h₁.fencei h₂.fencei
  case operands =>
    intro ho
    obtain ⟨-, ha, hb⟩ := h.operands (hoperates ho)
    exact ⟨eq_of_specified ha h₁.aluSrc1 h₂.aluSrc1, eq_of_specified hb h₁.aluSrc2 h₂.aluSrc2⟩
  case aluOp =>
    exact fun ho => eq_of_specified (h.aluOp (ho.imp hmoves (hfu _))) h₁.aluOp h₂.aluOp
  case bruOp => exact fun hf => eq_of_specified (h.bruOp (hfu _ hf)) h₁.bruOp h₂.bruOp
  case mulOp => exact fun hf => eq_of_specified (h.mulOp (hfu _ hf)) h₁.mulOp h₂.mulOp
  case divOp => exact fun hf => eq_of_specified (h.divOp (hfu _ hf)) h₁.divOp h₂.divOp
  case csrOp => exact fun hc => eq_of_specified (h.csrOp (hcsr hc)) h₁.csrOp h₂.csrOp
  case amoOp =>
    exact fun ho => eq_of_specified (h.amoOp (ho.imp (hfu _) (And.imp hread hwrite))) h₁.amoOp
      h₂.amoOp
  case memSignExt =>
    exact fun hr => eq_of_specified (h.memSignExt (hread hr)) h₁.memSignExt h₂.memSignExt

theorem Decoder.agree_of_inTable (d₁ d₂ : Decoder) {inst : Word} (h : InTable inst) :
    (d₁.ctrlWord inst).Agree (d₂.ctrlWord inst) := by
  obtain ⟨p, hp, hm⟩ := h
  exact .of_row (table_specified p hp) (d₁.row inst p hp hm) (d₂.row inst p hp hm)

namespace InterStage.DecodeBundle

variable {b b₁ b₂ : DecodeBundle} {alive : Bool}

/-- What ID makes of the accesses and the write of an instruction that it does not pass on. -/
def mask (b : DecodeBundle) (alive : Bool) : DecodeBundle :=
  { b with
    regWrite := b.regWrite && alive
    memRead := b.memRead &&& fill 4 alive
    memWrite := b.memWrite &&& fill 4 alive }

theorem memRead_of_mask (h : (b.mask alive).memRead ≠ 0#4) : b.memRead ≠ 0#4 := by
  intro hz
  simp [mask, hz] at h

theorem memWrite_of_mask (h : (b.mask alive).memWrite ≠ 0#4) : b.memWrite ≠ 0#4 := by
  intro hz
  simp [mask, hz] at h

theorem Moves.of_mask (h : (b.mask alive).Moves) : b.Moves :=
  ⟨h.1.imp (fun hw => (Bool.and_eq_true _ _ ▸ hw).1) (Or.imp memRead_of_mask memWrite_of_mask), h.2⟩

theorem Operates.of_mask (h : (b.mask alive).Operates) : b.Operates := h.imp_left Moves.of_mask

theorem Agree.mask (h : b₁.Agree b₂) (alive : Bool) : (b₁.mask alive).Agree (b₂.mask alive) where
  fuType := h.fuType
  memRead := by simp only [DecodeBundle.mask, h.memRead]
  memWrite := by simp only [DecodeBundle.mask, h.memWrite]
  regWrite := by simp only [DecodeBundle.mask, h.regWrite]
  csrWrite := h.csrWrite
  fencei := h.fencei
  operands ho := h.operands ho.of_mask
  aluOp ho := h.aluOp (ho.imp_left Moves.of_mask)
  bruOp := h.bruOp
  mulOp := h.mulOp
  divOp := h.divOp
  csrOp := h.csrOp
  amoOp ho := h.amoOp (ho.imp_right (And.imp memRead_of_mask memWrite_of_mask))
  memSignExt hr := h.memSignExt (memRead_of_mask hr)

end InterStage.DecodeBundle

end Rows

end FpgaNpc
