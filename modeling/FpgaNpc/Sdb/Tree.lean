import FpgaNpc.Sdb.Expr

open FpgaNpc.Hardware

namespace FpgaNpc.Sdb

namespace TokenType

def isOperation (type : TokenType) : Bool := TK_OR.code ≤ type.code && type.code ≤ DEREF.code

/-- Two types that differ in the lowest bit only bind alike. -/
def level (type : TokenType) : Nat := type.code / 2

abbrev tightest : Nat := TK_LBRACKET.code / 2

theorem isOperation.level_lt {type : TokenType} (h : type.isOperation) : type.level < tightest := by
  revert h
  cases type <;> decide

theorem level_le (type : TokenType) : type.level ≤ tightest := by cases type <;> decide

end TokenType

def plain (type : TokenType) : Token := ⟨type, []⟩

abbrev lbracket : Token := plain .TK_LBRACKET

abbrev rbracket : Token := plain .TK_RBRACKET

/-- How a range of tokens may be split up by its main operations. -/
inductive Tree
  | operand (t : Token)
  | empty
  | group (e : Tree)
  | pre (op : TokenType) (r : Tree)
  | node (l : Tree) (op : TokenType) (r : Tree)

namespace Tree

def tokens : Tree → List Token
  | operand t => [t]
  | empty => [lbracket, rbracket]
  | group e => lbracket :: (e.tokens ++ [rbracket])
  | pre op r => plain op :: r.tokens
  | node l op r => l.tokens ++ plain op :: r.tokens

def level : Tree → Nat
  | operand _ | empty | group _ => TokenType.tightest
  | pre op _ | node _ op _ => op.level

def root : Tree → Nat
  | operand _ | empty | group _ | pre _ _ => 0
  | node l _ _ => l.tokens.length

def first : Tree → TokenType
  | operand t => t.type
  | empty | group _ => .TK_LBRACKET
  | pre op _ => op
  | node l _ _ => l.first

/-- Of the operations outside brackets, the main one is the last that binds loosest. -/
def Ordered : Tree → Prop
  | operand t => t.type.isOperand
  | empty => True
  | group e => e.Ordered
  | pre op r => op.isOperation ∧ r.Ordered ∧ op.level < r.level
  | node l op r => op.isOperation ∧ l.Ordered ∧ r.Ordered ∧ op.level ≤ l.level ∧ op.level < r.level

section Run

variable (cpu : Cpu)

/-- The flow of the values and of `success`; `first` where the range starts at the first token. -/
def run : Tree → Bool → Bool → Except Fault (Word × Bool)
  | operand t, _, _ => evalToken cpu t
  | empty, _, _ => .ok (0, false)
  | group e, _, success => e.run false success
  | pre op r, first, success => do
    let (value2, success) ← r.run false (first && success)
    operate op 0 value2 success
  | node l op r, first, success => do
    let (value1, success) ← l.run first success
    let (value2, success) ← r.run false success
    operate op value1 value2 success

def operation (op : TokenType) (value1 value2 : Word) : Word :=
  match op with
  | .TK_PLUS => value1 + value2
  | .TK_SUB => value1 - value2
  | .TK_MULT => value1 * value2
  | .TK_DIV => if value2 = 0 then 0 else value1.sdiv value2
  | .TK_EQ => ofBool (value1 == value2)
  | .TK_UEQ => ofBool (value1 != value2)
  | .TK_AND => ofBool (value1 != 0 && value2 != 0)
  | .TK_OR => ofBool (value1 != 0 || value2 != 0)
  | _ => 0

def operandValue (t : Token) : Word :=
  match t.type with
  | .NUM => atoi t.str
  | .HEX_NUM => (sscanfX t.str).getD 0
  | .REG_NAME => (isaRegStr2val cpu t.str).getD 0
  | _ => 0

def value : Tree → Word
  | operand t => operandValue cpu t
  | empty => 0
  | group e => e.value
  | pre op r => operation op 0 r.value
  | node l op r => operation op l.value r.value

def Unknown (t : Token) : Prop := t.type = .REG_NAME ∧ isaRegStr2val cpu t.str = none

def Invalid (op : TokenType) (value2 : Word) : Prop :=
  (op = .TK_DIV ∧ value2 = 0) ∨
    (op = .DEREF ∧ ¬(0x80000000 ≤ value2 ∧ value2 ≤ 0x8fffffff))

def Fails : Tree → Prop
  | operand t => Unknown cpu t
  | empty => True
  | group e => e.Fails
  | pre op r => r.Fails ∨ Invalid op (r.value cpu)
  | node l op r => l.Fails ∨ r.Fails ∨ Invalid op (r.value cpu)

/-- A sub-expression fails that ends where the whole does, brackets aside. -/
def FailsLast : Tree → Prop
  | operand t => Unknown cpu t
  | empty => True
  | group e => e.FailsLast
  | pre op r | node _ op r => r.FailsLast ∨ Invalid op (r.value cpu)

/-- No quotient of -2^31 and -1, and no hexadecimal number without a digit. -/
def Faultless : Tree → Prop
  | operand t => t.type = .HEX_NUM → sscanfX t.str ≠ none
  | empty => True
  | group e => e.Faultless
  | pre _ r => r.Faultless
  | node l op r => l.Faultless ∧ r.Faultless ∧
    ¬(op = .TK_DIV ∧ l.value cpu = BitVec.intMin 32 ∧ r.value cpu = -1)

instance (t : Token) : Decidable (Unknown cpu t) := inferInstanceAs (Decidable (_ ∧ _))

instance (op : TokenType) (value2 : Word) : Decidable (Invalid op value2) :=
  inferInstanceAs (Decidable (_ ∨ _))

instance instDecidableFailsLast : (t : Tree) → Decidable (t.FailsLast cpu)
  | operand t => inferInstanceAs (Decidable (Unknown cpu t))
  | empty => .isTrue trivial
  | group e => instDecidableFailsLast e
  | pre _ r | node _ _ r => @instDecidableOr _ _ (instDecidableFailsLast r) _

end Run

section Flow

variable {cpu : Cpu} {t : Tree} {first success : Bool} {v : Word × Bool}

theorem bind_eq_ok {α β : Type} {x : Except Fault α} {f : α → Except Fault β} {b : β} :
    x >>= f = .ok b ↔ ∃ a, x = .ok a ∧ f a = .ok b := by
  cases x with
  | error e =>
    refine ⟨fun h => ?_, ?_⟩
    · cases h
    · rintro ⟨a, h, -⟩
      cases h
  | ok a =>
    refine ⟨fun h => ⟨a, rfl, h⟩, ?_⟩
    rintro ⟨a', h, hf⟩
    obtain rfl := Except.ok.inj h
    exact hf

theorem evalToken_eq {tok : Token} (h : tok.type.isOperand) : evalToken cpu tok =
    if tok.type = .HEX_NUM ∧ sscanfX tok.str = none then .error .uninitialized
    else .ok (operandValue cpu tok, !decide (Unknown cpu tok)) := by
  obtain ⟨type, str⟩ := tok
  cases type <;> simp only [TokenType.isOperand, Bool.false_eq_true] at h
  case NUM => simp [evalToken, operandValue, Unknown]
  case HEX_NUM => cases hx : sscanfX str <;> simp [evalToken, operandValue, Unknown, hx]
  case REG_NAME => cases hx : isaRegStr2val cpu str <;> simp [evalToken, operandValue, Unknown, hx]

theorem operate_eq {op : TokenType} (h : op.isOperation) (value1 value2 : Word) :
    operate op value1 value2 success =
      if op = .TK_DIV ∧ value1 = BitVec.intMin 32 ∧ value2 = -1 then .error .trap
      else .ok (operation op value1 value2, success && !decide (Invalid op value2)) := by
  cases op <;> try exact absurd h (by decide)
  case TK_DIV =>
    by_cases h0 : value2 = 0
    · simp [operate, operation, Invalid, h0]
    · have hne : value2 ≠ 0#32 := h0
      simp [operate, operation, Invalid, hne]
  case DEREF =>
    simp [operate, operation, Invalid, -BitVec.not_le]
  all_goals simp [operate, operation, Invalid]

theorem not_decide_or {a b : Prop} [Decidable a] [Decidable b] [Decidable (a ∨ b)] :
    (!decide a && !decide b) = !decide (a ∨ b) := by
  by_cases ha : a <;> simp [ha]

theorem run_of_faultless (h : t.Ordered) (hf : t.Faultless cpu) :
    t.run cpu first success = .ok (t.value cpu, !decide (t.FailsLast cpu)) := by
  induction t generalizing first success with
  | operand tok =>
    have hdigit : ¬(tok.type = .HEX_NUM ∧ sscanfX tok.str = none) := fun hn => hf hn.1 hn.2
    rw [run, evalToken_eq h, if_neg hdigit]
    rfl
  | empty => rfl
  | group e ih => exact ih h hf
  | pre op r ih =>
    have hdiv : ¬(op = .TK_DIV ∧ (0 : Word) = BitVec.intMin 32 ∧ r.value cpu = -1) := by
      rintro ⟨-, h0, -⟩
      exact absurd h0 (by decide)
    rw [run, ih h.2.1 hf]
    change operate op 0 (r.value cpu) _ = _
    rw [operate_eq h.1, if_neg hdiv]
    have hlast : (!decide (r.FailsLast cpu) && !decide (Invalid op (r.value cpu))) =
      !decide ((pre op r).FailsLast cpu) := not_decide_or
    rw [hlast]
    rfl
  | node l op r ihl ihr =>
    rw [run, ihl h.2.1 hf.1]
    change (do
      let (value2, success) ← r.run cpu false _
      operate op (l.value cpu) value2 success) = _
    rw [ihr h.2.2.1 hf.2.1]
    change operate op (l.value cpu) (r.value cpu) _ = _
    rw [operate_eq h.1, if_neg hf.2.2]
    have hlast : (!decide (r.FailsLast cpu) && !decide (Invalid op (r.value cpu))) =
      !decide ((node l op r).FailsLast cpu) := not_decide_or
    rw [hlast]
    rfl

theorem faultless_of_run (h : t.Ordered) (hrun : t.run cpu first success = .ok v) :
    t.Faultless cpu := by
  induction t generalizing first success v with
  | operand tok =>
    intro htype hnone
    rw [run, evalToken_eq h, if_pos ⟨htype, hnone⟩] at hrun
    cases hrun
  | empty => trivial
  | group e ih => exact ih h hrun
  | pre op r ih =>
    obtain ⟨v2, hr, -⟩ := bind_eq_ok.1 hrun
    exact ih h.2.1 hr
  | node l op r ihl ihr =>
    obtain ⟨v1, hl, hrest⟩ := bind_eq_ok.1 hrun
    obtain ⟨v2, hr, hoperate⟩ := bind_eq_ok.1 hrest
    have hfl := ihl h.2.1 hl
    have hfr := ihr h.2.2.1 hr
    refine ⟨hfl, hfr, fun hdiv => ?_⟩
    rw [run_of_faultless h.2.1 hfl] at hl
    obtain rfl := Except.ok.inj hl
    rw [run_of_faultless h.2.2.1 hfr] at hr
    obtain rfl := Except.ok.inj hr
    change operate op (l.value cpu) (r.value cpu) _ = _ at hoperate
    rw [operate_eq h.1, if_pos hdiv] at hoperate
    cases hoperate

end Flow

section Brackets

variable {t : Tree} {tok : Token} {rest : List Token} {c : Int} {flag : Bool}

theorem isOperation.not_bracket {op : TokenType} (h : op.isOperation) :
    op ≠ .TK_LBRACKET ∧ op ≠ .TK_RBRACKET := by
  revert h
  cases op <;> decide

theorem isOperand.not_bracket {op : TokenType} (h : op.isOperand) :
    op ≠ .TK_LBRACKET ∧ op ≠ .TK_RBRACKET := by
  revert h
  cases op <;> decide

theorem closing_other (h : tok.type ≠ .TK_LBRACKET ∧ tok.type ≠ .TK_RBRACKET) (hc : 1 ≤ c) :
    closing c (tok :: rest) = closing c rest + 1 := by
  rw [closing]
  split
  · exact absurd ‹_› h.1
  · exact absurd ‹_› h.2
  · rw [if_neg (by omega)]

theorem closing_left : closing c (lbracket :: rest) =
    if c + 1 = 0 then 0 else closing (c + 1) rest + 1 := rfl

theorem closing_right : closing c (rbracket :: rest) =
    if c - 1 = 0 then 0 else closing (c - 1) rest + 1 := rfl

theorem closing_tokens (h : t.Ordered) (hc : 1 ≤ c) (rest : List Token) :
    closing c (t.tokens ++ rest) = closing c rest + t.tokens.length := by
  induction t generalizing c rest with
  | operand tok => exact closing_other (isOperand.not_bracket h) hc
  | empty =>
    simp only [tokens, List.cons_append, List.nil_append]
    rw [closing_left, if_neg (by omega), closing_right, if_neg (by omega), add_sub_cancel_right]
    rfl
  | group e ih =>
    simp only [tokens, List.cons_append, List.append_assoc, List.nil_append]
    rw [closing_left, if_neg (by omega), ih h (by omega), closing_right, if_neg (by omega),
      add_sub_cancel_right]
    simp only [List.length_cons, List.length_append, List.length_nil]
    omega
  | pre op r ih =>
    rw [tokens, List.cons_append, closing_other (isOperation.not_bracket h.1) hc, ih h.2.1 hc]
    rfl
  | node l op r ihl ihr =>
    rw [tokens, List.append_assoc, ihl h.2.1 hc, List.cons_append,
      closing_other (isOperation.not_bracket h.1) hc, ihr h.2.2.1 hc, List.length_append,
      List.length_cons]
    omega

theorem closing_group (h : t.Ordered) (rest : List Token) :
    closing 0 ((group t).tokens ++ rest) = t.tokens.length + 1 := by
  simp only [tokens, List.cons_append, List.append_assoc, List.nil_append]
  rw [closing_left, if_neg (by decide), closing_tokens h (by decide), closing_right,
    if_pos (by decide), zero_add]

theorem checkLoop_other (h : tok.type ≠ .TK_LBRACKET ∧ tok.type ≠ .TK_RBRACKET) :
    checkLoop c flag (tok :: rest) = checkLoop c flag rest := by
  rw [checkLoop]
  split
  · exact absurd ‹_› h.1
  · exact absurd ‹_› h.2
  · rfl

theorem checkLoop_left : checkLoop c flag (lbracket :: rest) = checkLoop (c + 1) flag rest := rfl

theorem checkLoop_right (hc : 1 ≤ c) : checkLoop c flag (rbracket :: rest) =
    checkLoop (c - 1) (flag || c - 1 == 0 && !rest.isEmpty) rest := by
  change (if c - 1 < 0 then _ else _) = _
  rw [if_neg (by omega)]

theorem checkLoop_inner (h : t.Ordered) (hc : 1 ≤ c) (rest : List Token) :
    checkLoop c flag (t.tokens ++ rest) = checkLoop c flag rest := by
  induction t generalizing c rest with
  | operand tok => exact checkLoop_other (isOperand.not_bracket h)
  | empty =>
    have hc' : (c == 0) = false := beq_eq_false_iff_ne.2 (by omega)
    simp only [tokens, List.cons_append, List.nil_append]
    rw [checkLoop_left, checkLoop_right (by omega), add_sub_cancel_right, hc', Bool.false_and,
      Bool.or_false]
  | group e ih =>
    have hc' : (c == 0) = false := beq_eq_false_iff_ne.2 (by omega)
    simp only [tokens, List.cons_append, List.append_assoc, List.nil_append]
    rw [checkLoop_left, ih h (by omega), checkLoop_right (by omega), add_sub_cancel_right, hc',
      Bool.false_and, Bool.or_false]
  | pre op r ih =>
    rw [tokens, List.cons_append, checkLoop_other (isOperation.not_bracket h.1), ih h.2.1 hc]
  | node l op r ihl ihr =>
    rw [tokens, List.append_assoc, ihl h.2.1 hc, List.cons_append,
      checkLoop_other (isOperation.not_bracket h.1), ihr h.2.2.1 hc]

theorem checkLoop_group (h : t.Ordered) (rest : List Token) :
    checkLoop 0 flag ((group t).tokens ++ rest) = checkLoop 0 (flag || !rest.isEmpty) rest := by
  simp only [tokens, List.cons_append, List.append_assoc, List.nil_append]
  rw [checkLoop_left, checkLoop_inner h (by decide), checkLoop_right (by decide)]
  rfl

theorem checkLoop_flagged (h : t.Ordered) (rest : List Token) :
    checkLoop 0 true (t.tokens ++ rest) = checkLoop 0 true rest := by
  induction t generalizing rest with
  | operand tok => exact checkLoop_other (isOperand.not_bracket h)
  | empty => rfl
  | group e ih => exact @checkLoop_group e _ h rest
  | pre op r ih =>
    rw [tokens, List.cons_append, checkLoop_other (isOperation.not_bracket h.1), ih h.2.1]
  | node l op r ihl ihr =>
    rw [tokens, List.append_assoc, ihl h.2.1, List.cons_append,
      checkLoop_other (isOperation.not_bracket h.1), ihr h.2.2.1]

theorem checkLoop_first (h : t.Ordered) (hfirst : t.first = .TK_LBRACKET) (hrest : rest ≠ []) :
    checkLoop 0 false (t.tokens ++ rest) = checkLoop 0 true rest := by
  induction t generalizing rest with
  | operand tok => exact absurd hfirst (isOperand.not_bracket h).1
  | empty =>
    cases rest with
    | nil => exact absurd rfl hrest
    | cons tok rest => rfl
  | group e ih =>
    cases rest with
    | nil => exact absurd rfl hrest
    | cons tok rest => exact @checkLoop_group e _ h _
  | pre op r ih => exact absurd hfirst (isOperation.not_bracket h.1).1
  | node l op r ihl ihr =>
    rw [tokens, List.append_assoc, ihl h.2.1 hfirst (by simp), List.cons_append,
      checkLoop_other (isOperation.not_bracket h.1), checkLoop_flagged h.2.2.1]

end Brackets

end Tree

end FpgaNpc.Sdb
