import FpgaNpc.Sdb.Lexing
import FpgaNpc.Sdb.Propagation
import FpgaNpc.Sdb.Robustness
import Mathlib.Data.List.TakeWhile

open FpgaNpc.Hardware

namespace FpgaNpc.Sdb

open TokenType (tightest)

namespace Operator

def prec : Operator → Nat
  | or => 0
  | and => 1
  | eq | ne => 2
  | add | sub => 3
  | mul | div => 4

def apply (op : Operator) (x y : Word) : Word :=
  match op with
  | or => ofBool (x != 0 || y != 0)
  | and => ofBool (x != 0 && y != 0)
  | eq => ofBool (x == y)
  | ne => ofBool (x != y)
  | add => x + y
  | sub => x - y
  | mul => x * y
  | div => x.sdiv y

end Operator

inductive Ast
  | number (minus : Bool) (digits : List Char)
  | hex (minus : Bool) (digits : List Char)
  | register (name : List Char)
  | paren (e : Ast)
  | binary (l : Ast) (op : Operator) (r : Ast)

def isHexLetter (c : Char) : Bool := isHexDigit c || 'A' ≤ c && c ≤ 'F'

def hexLetter (c : Char) : Nat :=
  if 'A' ≤ c && c ≤ 'F' then c.toNat - 'A'.toNat + 10 else hexDigit c

def negateIf (minus : Bool) (x : Word) : Word := if minus then -x else x

namespace Ast

def prec : Ast → Nat
  | binary _ op _ => op.prec
  | number _ _ | hex _ _ | register _ | paren _ => 5

def WellFormed : Ast → Prop
  | number _ digits => digits ≠ [] ∧ ∀ c ∈ digits, isDigit c
  | hex _ digits => digits ≠ [] ∧ ∀ c ∈ digits, isHexLetter c
  | register name => name ∈ regs
  | paren e => e.WellFormed
  | binary l op r => l.WellFormed ∧ r.WellFormed ∧ op.prec ≤ l.prec ∧ op.prec < r.prec

def lexemes : Ast → List Lexeme
  | number minus digits => [.number minus digits]
  | hex minus digits => [.hex minus digits]
  | register name => [.register name]
  | paren e => .left :: (e.lexemes ++ [.right])
  | binary l op r => l.lexemes ++ .operator op :: r.lexemes

section Value

variable (cpu : Cpu)

def value : Ast → Word
  | number minus digits => negateIf minus (BitVec.ofNat 32 (decimal digits))
  | hex minus digits =>
    negateIf minus (BitVec.ofNat 32 (digits.foldl (fun n c => 16 * n + hexLetter c) 0))
  | register name => ((regs.finIdxOf? name).map fun i => cpu.gpr i).getD 0
  | paren e => e.value
  | binary l op r => op.apply l.value r.value

def NoZeroDivisor : Ast → Prop
  | number _ _ | hex _ _ | register _ => True
  | paren e => e.NoZeroDivisor
  | binary l op r => l.NoZeroDivisor ∧ r.NoZeroDivisor ∧ (op = .div → r.value cpu ≠ 0)

/-- No quotient is too large, as that of -2^31 and -1 is. -/
def NoOverflow : Ast → Prop
  | number _ _ | hex _ _ | register _ => True
  | paren e => e.NoOverflow
  | binary l op r => l.NoOverflow ∧ r.NoOverflow ∧
    (op = .div → ¬(l.value cpu = BitVec.intMin 32 ∧ r.value cpu = -1))

/-- The number literals do not saturate. -/
def InRange : Ast → Prop
  | number minus digits => decimal digits < 2 ^ 63 ∨ minus = true ∧ decimal digits = 2 ^ 63
  | hex _ digits => hexadecimal digits < 2 ^ 64
  | register _ => True
  | paren e => e.InRange
  | binary l _ r => l.InRange ∧ r.InRange

/-- A conjunction that is an operand of a disjunction is its first, or in brackets. -/
def Bracketed : Ast → Prop
  | number _ _ | hex _ _ | register _ => True
  | paren e => e.Bracketed
  | binary l op r => l.Bracketed ∧ r.Bracketed ∧ (op = .or → r.prec ≠ Operator.and.prec)

def startsMinus : Ast → Bool
  | number minus _ => minus
  | hex _ _ | register _ | paren _ => false
  | binary l _ _ => l.startsMinus

/-- The minus of the first number may be taken of the first product instead. -/
def Negatable : Ast → Prop
  | number _ digits => decimal digits < 2 ^ 63
  | hex _ _ | register _ | paren _ => True
  | binary l op r => l.Negatable ∧
    (op = .div → l.value cpu = BitVec.intMin 32 → r.value cpu = 1)

end Value

/-- The tree that the code splits the tokens into, if there is no minus at the start. -/
def tree : Ast → Tree
  | number minus digits => .operand ⟨.NUM, sign minus ++ digits⟩
  | hex _ digits => .operand ⟨.HEX_NUM, '0' :: 'x' :: digits⟩
  | register name => .operand ⟨.REG_NAME, name⟩
  | paren e => .group e.tree
  | binary l op r => .node l.tree op.type r.tree

def strip : Ast → Ast
  | number _ digits => number false digits
  | binary l op r => binary l.strip op r
  | e => e

def leading : Ast → Tree
  | binary l op r =>
    if op.prec ≤ Operator.sub.prec then .node l.leading op.type r.tree
    else .pre .TK_SUB (binary l.strip op r).tree
  | e => .pre .TK_SUB e.strip.tree

section Shape

variable {a l r : Ast} {op op' : Operator} {prev : Option Lexeme} {xs : List Lexeme}

theorem isOperation_type (op : Operator) : op.type.isOperation := by cases op <;> rfl

theorem level_le_of_prec (h : op.prec ≤ op'.prec) : op.type.level ≤ op'.type.level := by
  revert h
  cases op <;> cases op' <;> decide

theorem level_lt_of_prec (h : op.prec < op'.prec)
    (hor : op = .or → op'.prec ≠ Operator.and.prec) : op.type.level < op'.type.level := by
  revert h hor
  cases op <;> cases op' <;> decide

theorem level_le_tree (h : op.prec ≤ a.prec) : op.type.level ≤ a.tree.level := by
  cases a with
  | binary l op' r => exact level_le_of_prec h
  | number _ _ | hex _ _ | register _ | paren _ => exact op.type.level_le

theorem level_lt_tree (h : op.prec < a.prec) (hor : op = .or → a.prec ≠ Operator.and.prec) :
    op.type.level < a.tree.level := by
  cases a with
  | binary l op' r => exact level_lt_of_prec h hor
  | number _ _ | hex _ _ | register _ | paren _ =>
    exact TokenType.isOperation.level_lt (isOperation_type op)

theorem ordered_tree (h : a.WellFormed) (hb : a.Bracketed) : a.tree.Ordered := by
  induction a with
  | number _ _ | hex _ _ | register _ => rfl
  | paren e ih => exact ih h hb
  | binary l op r ihl ihr =>
    obtain ⟨hl, hr, hle, hlt⟩ := h
    obtain ⟨hbl, hbr, hor⟩ := hb
    exact ⟨isOperation_type op, ihl hl hbl, ihr hr hbr, level_le_tree hle, level_lt_tree hlt hor⟩

theorem prec_strip (a : Ast) : a.strip.prec = a.prec := by cases a <;> rfl

theorem wellFormed_strip (h : a.WellFormed) : a.strip.WellFormed := by
  induction a with
  | number _ _ | hex _ _ | register _ => exact h
  | paren _ _ => exact h
  | binary l op r ihl _ => exact ⟨ihl h.1, h.2.1, l.prec_strip.symm ▸ h.2.2.1, h.2.2.2⟩

theorem bracketed_strip (h : a.Bracketed) : a.strip.Bracketed := by
  induction a with
  | number _ _ | hex _ _ | register _ => exact h
  | paren _ _ => exact h
  | binary l op r ihl _ => exact ⟨ihl h.1, h.2⟩

theorem level_leading (h : op.prec ≤ Operator.sub.prec) (hle : op.prec ≤ a.prec) :
    op.type.level ≤ a.leading.level := by
  have hsub : op.type.level ≤ TokenType.TK_SUB.level := @level_le_of_prec op .sub h
  cases a with
  | number _ _ | hex _ _ | register _ | paren _ => exact hsub
  | binary l op' r =>
    rw [leading]
    split
    · exact level_le_of_prec hle
    · exact hsub

theorem ordered_leading (h : a.WellFormed) (hb : a.Bracketed) : a.leading.Ordered := by
  induction a with
  | number _ _ | hex _ _ | register _ =>
    exact ⟨rfl, rfl, TokenType.isOperation.level_lt (isOperation_type .sub)⟩
  | paren e _ =>
    exact ⟨rfl, @ordered_tree e h hb, TokenType.isOperation.level_lt (isOperation_type .sub)⟩
  | binary l op r ihl _ =>
    obtain ⟨hl, hr, hle, hlt⟩ := h
    obtain ⟨hbl, hbr, hor⟩ := hb
    rw [leading]
    split
    next hsub =>
      exact ⟨isOperation_type op, ihl hl hbl, ordered_tree hr hbr, level_leading hsub hle,
        level_lt_tree hlt hor⟩
    next hsub =>
      have hstrip : (l.binary op r).strip.tree.Ordered :=
        ordered_tree (wellFormed_strip ⟨hl, hr, hle, hlt⟩) (bracketed_strip ⟨hbl, hbr, hor⟩)
      have hlevel : TokenType.TK_SUB.level < op.type.level :=
        @level_lt_of_prec .sub op (not_le.1 hsub) (fun h => by cases h)
      exact ⟨rfl, hstrip, hlevel⟩

theorem tokensFrom_append (first : Bool) (ys : List Lexeme) (hne : xs ≠ []) :
    tokensFrom first (xs ++ ys) = tokensFrom first xs ++ tokensFrom false ys := by
  have hfalse : ∀ xs, tokensFrom false (xs ++ ys) = tokensFrom false xs ++ tokensFrom false ys := by
    intro xs
    induction xs with
    | nil => rfl
    | cons x xs ih => rw [List.cons_append, tokensFrom, tokensFrom, ih, List.append_assoc]
  cases xs with
  | nil => exact absurd rfl hne
  | cons x xs => rw [List.cons_append, tokensFrom, tokensFrom, hfalse, List.append_assoc]

theorem lexemes_ne_nil (a : Ast) : a.lexemes ≠ [] := by
  cases a <;> simp [lexemes]

theorem tokens_tree (a : Ast) : a.tree.tokens = tokensFrom false a.lexemes := by
  induction a with
  | number minus digits => simp [tree, Tree.tokens, lexemes, tokensFrom, Lexeme.tokens]
  | hex _ _ | register _ => rfl
  | paren e ih =>
    rw [tree, Tree.tokens, ih, lexemes, tokensFrom, tokensFrom_append false _ e.lexemes_ne_nil]
    rfl
  | binary l op r ihl ihr =>
    rw [tree, Tree.tokens, ihl, ihr, lexemes, tokensFrom_append false _ l.lexemes_ne_nil]
    rfl

theorem tokens_tree_first (h : a.startsMinus = false) :
    a.tree.tokens = tokensFrom true a.lexemes := by
  induction a with
  | number minus digits =>
    obtain rfl : minus = false := h
    rfl
  | hex _ _ | register _ => rfl
  | paren e _ => exact tokens_tree (.paren e)
  | binary l op r ihl _ =>
    rw [tree, Tree.tokens, ihl h, tokens_tree, lexemes, tokensFrom_append true _ l.lexemes_ne_nil]
    rfl

theorem tokens_strip (h : a.startsMinus) :
    plain .TK_SUB :: a.strip.tree.tokens = tokensFrom true a.lexemes := by
  induction a with
  | number minus digits =>
    obtain rfl : minus = true := h
    rfl
  | hex _ _ | register _ | paren _ _ => cases h
  | binary l op r ihl _ =>
    rw [lexemes, tokensFrom_append true _ l.lexemes_ne_nil, ← ihl h, strip, tree, Tree.tokens,
      tokens_tree r]
    rfl

theorem tokens_leading (h : a.startsMinus) : a.leading.tokens = tokensFrom true a.lexemes := by
  induction a with
  | number minus digits => exact tokens_strip h
  | hex _ _ | register _ | paren _ _ => cases h
  | binary l op r ihl _ =>
    rw [leading]
    split
    · rw [Tree.tokens, ihl h, tokens_tree, lexemes, tokensFrom_append true _ l.lexemes_ne_nil]
      rfl
    · exact tokens_strip (a := l.binary op r) h

theorem alternates_lexemes (a : Ast) (hprev : prev.any Lexeme.ends = false)
    (h : ∀ x, x.ends = true → Alternates (some x) xs) : Alternates prev (a.lexemes ++ xs) := by
  induction a generalizing prev xs with
  | number _ _ | hex _ _ | register _ =>
    exact ⟨by rw [hprev]; rfl, h _ rfl⟩
  | paren e ih =>
    rw [lexemes, List.cons_append, List.append_assoc]
    refine ⟨by rw [hprev]; rfl, ih rfl fun x hx => ⟨?_, h _ rfl⟩⟩
    rw [Option.any_some, hx]
    rfl
  | binary l op r ihl ihr =>
    rw [lexemes, List.append_assoc]
    refine ihl hprev fun x hx => ⟨?_, ihr rfl h⟩
    rw [Option.any_some, hx]
    rfl

end Shape

section Evaluates

variable {cpu : Cpu} {a e l r : Ast} {op : Operator} {x y : Word} {digits name : List Char}

theorem atoi_number (minus : Bool) (hne : digits ≠ []) (hd : ∀ c ∈ digits, isDigit c)
    (hrange : decimal digits < 2 ^ 63 ∨ minus = true ∧ decimal digits = 2 ^ 63) :
    atoi (sign minus ++ digits) = negateIf minus (BitVec.ofNat 32 (decimal digits)) := by
  cases minus with
  | true =>
    have hmax : max (-(decimal digits : Int)) (-2 ^ 63) = -(decimal digits : Int) :=
      max_eq_left (by omega)
    change BitVec.ofInt 32 (max (-(decimal (digits.takeWhile isDigit) : Int)) (-2 ^ 63)) = _
    rw [List.takeWhile_eq_self_iff.2 hd, hmax, BitVec.ofInt_neg, BitVec.ofInt_natCast]
    rfl
  | false =>
    have hlt : decimal digits < 2 ^ 63 := by simpa using hrange
    have hmin : min (decimal digits) (2 ^ 63 - 1) = decimal digits := by omega
    cases digits with
    | nil => exact absurd rfl hne
    | cons c digits =>
      have hc : c ≠ '-' := ne_of_isDigit (hd c (by simp)) (by decide)
      change atoi (c :: digits) = _
      rw [atoi]
      · rw [List.takeWhile_eq_self_iff.2 hd, hmin]
        rfl
      · rintro _ h
        exact hc (List.cons.inj h).1

theorem hexLetter_eq {c : Char} (h : isHexDigit c) : hexLetter c = hexDigit c := by
  rw [hexLetter, if_neg]
  intro hupper
  simp only [isHexDigit, isDigit, Bool.or_eq_true, Bool.and_eq_true, decide_eq_true_eq,
    Char.le_def, UInt32.le_iff_toNat_le] at h hupper
  simp at h hupper
  omega

theorem foldl_hexLetter (h : ∀ c ∈ digits, isHexDigit c) (n : Nat) :
    digits.foldl (fun n c => 16 * n + hexLetter c) n =
      digits.foldl (fun n c => 16 * n + hexDigit c) n := by
  induction digits generalizing n with
  | nil => rfl
  | cons c digits ih =>
    rw [List.foldl_cons, List.foldl_cons, hexLetter_eq (h c (by simp)),
      ih fun a ha => h a (by simp [ha])]

theorem sscanfX_hex (hne : digits ≠ []) (hd : ∀ c ∈ digits, isHexDigit c)
    (hrange : hexadecimal digits < 2 ^ 64) :
    sscanfX ('0' :: 'x' :: digits) = some (BitVec.ofNat 32 (hexadecimal digits)) := by
  have hmin : min (hexadecimal digits) (2 ^ 64 - 1) = hexadecimal digits := by omega
  change (if digits.takeWhile isHexDigit = [] then none
    else some (BitVec.ofNat 32 (min (hexadecimal (digits.takeWhile isHexDigit)) _))) = _
  rw [List.takeWhile_eq_self_iff.2 hd, if_neg hne, hmin]

theorem isaRegStr2val_register (h : name ∈ regs) :
    ∃ i, regs.finIdxOf? name = some i ∧ isaRegStr2val cpu name = some (cpu.gpr i) := by
  have hpc : name ≠ ['p', 'c'] := by
    rintro rfl
    exact absurd h (by decide)
  obtain ⟨i, hi⟩ : ∃ i, regs.finIdxOf? name = some i := by
    rw [← Option.isSome_iff_exists, List.isSome_finIdxOf?, List.contains_iff_mem]
    exact h
  refine ⟨i, hi, ?_⟩
  rw [isaRegStr2val, if_neg hpc, hi]
  rfl

theorem operation_type (h : op = .div → y ≠ 0) : Tree.operation op.type x y = op.apply x y := by
  cases op
  case div => exact if_neg (h rfl)
  all_goals rfl

/-- What the value of an expression and the reading of its literals rest on. -/
structure Evaluable (cpu : Cpu) (a : Ast) : Prop where
  wellFormed : a.WellFormed
  supported : ∀ x ∈ a.lexemes, x.Supported
  inRange : a.InRange
  noZeroDivisor : a.NoZeroDivisor cpu
  noOverflow : a.NoOverflow cpu

theorem Evaluable.inner (h : (paren e).Evaluable cpu) : e.Evaluable cpu :=
  ⟨h.wellFormed, fun x hx => h.supported x (by simp [lexemes, hx]), h.inRange, h.noZeroDivisor,
    h.noOverflow⟩

theorem Evaluable.left (h : (binary l op r).Evaluable cpu) : l.Evaluable cpu :=
  ⟨h.wellFormed.1, fun x hx => h.supported x (by simp [lexemes, hx]), h.inRange.1,
    h.noZeroDivisor.1, h.noOverflow.1⟩

theorem Evaluable.right (h : (binary l op r).Evaluable cpu) : r.Evaluable cpu :=
  ⟨h.wellFormed.2.1, fun x hx => h.supported x (by simp [lexemes, hx]), h.inRange.2,
    h.noZeroDivisor.2.1, h.noOverflow.2.1⟩

theorem value_tree (h : a.Evaluable cpu) : a.tree.value cpu = a.value cpu := by
  induction a with
  | number minus digits => exact atoi_number minus h.wellFormed.1 h.wellFormed.2 h.inRange
  | hex minus digits =>
    obtain ⟨rfl, hne, hd, -⟩ := h.supported (.hex minus digits) (by simp [lexemes])
    change (sscanfX ('0' :: 'x' :: digits)).getD 0 = BitVec.ofNat 32 _
    rw [sscanfX_hex hne hd h.inRange, foldl_hexLetter hd]
    rfl
  | register name =>
    obtain ⟨i, hi, hval⟩ := @isaRegStr2val_register cpu name h.wellFormed
    change (isaRegStr2val cpu name).getD 0 = _
    rw [hval, value, hi]
    rfl
  | paren e ih => exact ih h.inner
  | binary l op r ihl ihr =>
    change Tree.operation op.type (l.tree.value cpu) (r.tree.value cpu) = _
    rw [ihl h.left, ihr h.right, operation_type h.noZeroDivisor.2.2]
    rfl

theorem type_eq_div (h : op.type = .TK_DIV) : op = .div := by
  cases op <;> cases h
  rfl

theorem type_ne_deref : op.type ≠ .DEREF := by cases op <;> nofun

theorem faultless_tree (h : a.Evaluable cpu) : a.tree.Faultless cpu := by
  induction a with
  | number minus digits => nofun
  | hex minus digits =>
    obtain ⟨rfl, hne, hd, -⟩ := h.supported (.hex minus digits) (by simp [lexemes])
    intro _
    rw [sscanfX_hex hne hd h.inRange]
    nofun
  | register name => nofun
  | paren e ih => exact ih h.inner
  | binary l op r ihl ihr =>
    refine ⟨ihl h.left, ihr h.right, ?_⟩
    rintro ⟨hdiv, hquot⟩
    rw [value_tree h.left, value_tree h.right] at hquot
    exact h.noOverflow.2.2 (type_eq_div hdiv) hquot

theorem not_invalid (h : op = .div → y ≠ 0) : ¬Tree.Invalid op.type y := by
  rintro (⟨hdiv, hzero⟩ | ⟨hderef, -⟩)
  · exact h (type_eq_div hdiv) hzero
  · exact type_ne_deref hderef

theorem not_failsLast_tree (h : a.Evaluable cpu) : ¬a.tree.FailsLast cpu := by
  induction a with
  | number _ _ | hex _ _ =>
    rintro ⟨htype, -⟩
    cases htype
  | register name =>
    rintro ⟨-, hnone⟩
    obtain ⟨i, -, hval⟩ := @isaRegStr2val_register cpu name h.wellFormed
    cases hval.symm.trans hnone
  | paren e ih => exact ih h.inner
  | binary l op r ihl ihr =>
    rintro (hlast | hinvalid)
    · exact ihr h.right hlast
    · rw [value_tree h.right] at hinvalid
      exact not_invalid h.noZeroDivisor.2.2 hinvalid

theorem value_strip (h : a.Evaluable cpu) (hprec : Operator.mul.prec ≤ a.prec)
    (hminus : a.startsMinus) (hneg : a.Negatable cpu) : a.strip.value cpu = -a.value cpu := by
  induction a with
  | number minus digits =>
    obtain rfl : minus = true := hminus
    exact BitVec.neg_neg.symm
  | hex _ _ | register _ | paren _ _ => cases hminus
  | binary l op r ihl _ =>
    have hl := ihl h.left (le_trans hprec h.wellFormed.2.2.1) hminus hneg.1
    change op.apply (l.strip.value cpu) (r.value cpu) = -op.apply (l.value cpu) (r.value cpu)
    rw [hl]
    cases op
    case mul => exact BitVec.neg_mul _ _
    case div =>
      change (-l.value cpu).sdiv (r.value cpu) = -(l.value cpu).sdiv (r.value cpu)
      by_cases hmin : l.value cpu = BitVec.intMin 32
      · rw [hneg.2 rfl hmin]
        change (-l.value cpu).sdiv 1#32 = -(l.value cpu).sdiv 1#32
        rw [BitVec.sdiv_one, BitVec.sdiv_one]
      · exact BitVec.neg_sdiv hmin
    all_goals simp [prec, Operator.prec] at hprec

theorem evaluable_strip (h : a.Evaluable cpu) (hprec : Operator.mul.prec ≤ a.prec)
    (hminus : a.startsMinus) (hneg : a.Negatable cpu) : a.strip.Evaluable cpu := by
  induction a with
  | number minus digits =>
    obtain ⟨hne, hd, hlen⟩ := h.supported (.number minus digits) (by simp [lexemes])
    refine ⟨h.wellFormed, ?_, .inl hneg, trivial, trivial⟩
    intro x hx
    obtain rfl := List.mem_singleton.1 hx
    exact ⟨hne, hd, by simp [sign] at hlen ⊢; omega⟩
  | hex _ _ | register _ | paren _ _ => cases hminus
  | binary l op r ihl _ =>
    have hle := le_trans hprec h.wellFormed.2.2.1
    have hl := ihl h.left hle hminus hneg.1
    have hr := h.right
    have hval := value_strip h.left hle hminus hneg.1
    refine ⟨⟨hl.wellFormed, hr.wellFormed, ?_, h.wellFormed.2.2.2⟩, ?_,
      ⟨hl.inRange, hr.inRange⟩, ⟨hl.noZeroDivisor, hr.noZeroDivisor, h.noZeroDivisor.2.2⟩,
      ⟨hl.noOverflow, hr.noOverflow, ?_⟩⟩
    · rw [prec_strip]
      exact h.wellFormed.2.2.1
    · intro x hx
      obtain hx | hx := List.mem_append.1 hx
      · exact hl.supported x hx
      · exact h.supported x (List.mem_append_right _ hx)
    · rintro hdiv ⟨hmin, hone⟩
      rw [hval] at hmin
      refine h.noOverflow.2.2 hdiv ⟨?_, hone⟩
      rw [← @BitVec.neg_neg _ (l.value cpu), hmin]
      decide

theorem value_leading (h : a.Evaluable cpu) (hminus : a.startsMinus) (hneg : a.Negatable cpu) :
    a.leading.value cpu = a.value cpu := by
  have hproduct : ∀ a : Ast, a.Evaluable cpu → Operator.mul.prec ≤ a.prec → a.startsMinus →
      a.Negatable cpu → (Tree.pre .TK_SUB a.strip.tree).value cpu = a.value cpu := by
    intro a h hprec hminus hneg
    change 0 - a.strip.tree.value cpu = _
    rw [value_tree (evaluable_strip h hprec hminus hneg), value_strip h hprec hminus hneg, zero_sub,
      neg_neg]
  induction a with
  | number minus digits => exact hproduct _ h (Nat.le_succ 4) hminus hneg
  | hex _ _ | register _ | paren _ _ => cases hminus
  | binary l op r ihl _ =>
    rw [leading]
    split
    next hsub =>
      change Tree.operation op.type (l.leading.value cpu) (r.tree.value cpu) = _
      rw [ihl h.left hminus hneg.1, value_tree h.right, operation_type h.noZeroDivisor.2.2]
      rfl
    next hsub => exact hproduct (.binary l op r) h (not_le.1 hsub) hminus hneg

theorem faultless_leading (h : a.Evaluable cpu) (hminus : a.startsMinus) (hneg : a.Negatable cpu) :
    a.leading.Faultless cpu := by
  induction a with
  | number minus digits => exact faultless_tree (evaluable_strip h (Nat.le_succ 4) hminus hneg)
  | hex _ _ | register _ | paren _ _ => cases hminus
  | binary l op r ihl _ =>
    rw [leading]
    split
    next hsub =>
      refine ⟨ihl h.left hminus hneg.1, faultless_tree h.right, ?_⟩
      rintro ⟨hdiv, hquot⟩
      rw [value_leading h.left hminus hneg.1, value_tree h.right] at hquot
      exact h.noOverflow.2.2 (type_eq_div hdiv) hquot
    next hsub => exact faultless_tree (evaluable_strip h (not_le.1 hsub) hminus hneg)

theorem not_failsLast_leading (h : a.Evaluable cpu) (hminus : a.startsMinus)
    (hneg : a.Negatable cpu) : ¬a.leading.FailsLast cpu := by
  cases a with
  | number minus digits =>
    have hlast := not_failsLast_tree (evaluable_strip h (Nat.le_succ 4) hminus hneg)
    exact not_or.2 ⟨hlast, @not_invalid .sub _ nofun⟩
  | hex _ _ | register _ | paren _ => cases hminus
  | binary l op r =>
    rw [leading]
    split
    next hsub =>
      rintro (hlast | hinvalid)
      · exact not_failsLast_tree h.right hlast
      · rw [value_tree h.right] at hinvalid
        exact not_invalid h.noZeroDivisor.2.2 hinvalid
    next hsub =>
      have hlast := not_failsLast_tree (evaluable_strip h (not_le.1 hsub) hminus hneg)
      exact not_or.2 ⟨hlast, @not_invalid .sub _ nofun⟩

end Evaluates

end Ast

/-- `expr` succeeds with the value, on every stack that is large enough. -/
def Evaluates (cpu : Cpu) (e : List Char) (v : Word) : Prop :=
  ∃ depth, ∀ depth', depth ≤ depth' → ∀ success, expr cpu depth' e success = .ok (v, true)

/-- The expression is written in a way that the code can read, and brackets stand where it binds
in an order of its own. -/
structure Readable (cpu : Cpu) (a : Ast) (last : Nat) (items : List (Nat × Lexeme)) : Prop where
  supported : ∀ i ∈ items, i.2.Supported
  spaced : Spaced none items
  room : (tokensFrom true (items.map Prod.snd)).length ≤ maxTokens
  length_lt : (spell last items).length < 2 ^ 31
  bracketed : a.Bracketed
  inRange : a.InRange
  noOverflow : a.NoOverflow cpu
  negatable : a.startsMinus → a.Negatable cpu

section Main

variable {cpu : Cpu} {a : Ast}

theorem evaluates_tree {t : Tree} {e : List Char} (h : t.Ordered) (hf : t.Faultless cpu)
    (hlast : ¬t.FailsLast cpu) (he : makeToken e = .ok (some t.tokens)) :
    Evaluates cpu e (t.value cpu) := by
  refine ⟨t.tokens.length, fun depth' hdepth success => ?_⟩
  rw [expr_tree h hf he hdepth, decide_eq_false hlast]
  rfl

theorem expr_value (cpu : Cpu) (a : Ast) (last : Nat) (items : List (Nat × Lexeme))
    (hspell : items.map Prod.snd = a.lexemes) (hwf : a.WellFormed) (hzero : a.NoZeroDivisor cpu)
    (h : Readable cpu a last items) : Evaluates cpu (spell last items) (a.value cpu) := by
  have ha : a.Evaluable cpu := by
    refine ⟨hwf, fun x hx => ?_, h.inRange, hzero, h.noOverflow⟩
    rw [← hspell] at hx
    obtain ⟨i, hi, rfl⟩ := List.mem_map.1 hx
    exact h.supported i hi
  have halt : Alternates none (items.map Prod.snd) := by
    rw [hspell]
    simpa using @Ast.alternates_lexemes none [] a rfl fun _ _ => trivial
  have he := makeToken_spell h.supported halt h.spaced h.room h.length_lt
  rw [hspell] at he
  cases hminus : a.startsMinus with
  | false =>
    rw [← Ast.tokens_tree_first hminus] at he
    rw [← Ast.value_tree ha]
    exact evaluates_tree (Ast.ordered_tree hwf h.bracketed) (Ast.faultless_tree ha)
      (Ast.not_failsLast_tree ha) he
  | true =>
    have hneg := h.negatable hminus
    rw [← Ast.tokens_leading hminus] at he
    rw [← Ast.value_leading ha hminus hneg]
    exact evaluates_tree (Ast.ordered_leading hwf h.bracketed)
      (Ast.faultless_leading ha hminus hneg) (Ast.not_failsLast_leading ha hminus hneg) he

/-- `-1 +2*3`, spaced as it is here. -/
def sumOfProduct : Ast :=
  .binary (.number true ['1']) .add (.binary (.number false ['2']) .mul (.number false ['3']))

def sumOfProductItems : List (Nat × Lexeme) :=
  [(0, .number true ['1']), (1, .operator .add), (0, .number false ['2']), (0, .operator .mul),
    (0, .number false ['3'])]

theorem wellFormed_sumOfProduct : sumOfProduct.WellFormed :=
  ⟨⟨nofun, List.all_eq_true.1 rfl⟩, ⟨⟨nofun, List.all_eq_true.1 rfl⟩,
    ⟨nofun, List.all_eq_true.1 rfl⟩, by decide, by decide⟩, by decide, by decide⟩

theorem readable_sumOfProduct : Readable cpuZeros sumOfProduct 0 sumOfProductItems where
  supported := by
    simp only [sumOfProductItems, List.forall_mem_cons]
    exact ⟨⟨nofun, List.all_eq_true.1 rfl, by decide⟩, trivial,
      ⟨nofun, List.all_eq_true.1 rfl, by decide⟩, trivial,
      ⟨nofun, List.all_eq_true.1 rfl, by decide⟩, nofun⟩
  spaced := ⟨nofun, fun _ => trivial, fun _ => trivial, fun _ => trivial, trivial⟩
  room := by decide
  length_lt := by decide
  bracketed := ⟨trivial, ⟨trivial, trivial, nofun⟩, nofun⟩
  inRange := ⟨.inl (by decide), .inl (by decide), .inl (by decide)⟩
  noOverflow := ⟨trivial, ⟨trivial, trivial, nofun⟩, nofun⟩
  negatable := fun _ => ⟨(by decide : decimal ['1'] < 2 ^ 63), nofun⟩

theorem expr_value_sumOfProduct : Evaluates cpuZeros ['-', '1', ' ', '+', '2', '*', '3'] 5 :=
  expr_value cpuZeros sumOfProduct 0 sumOfProductItems rfl wellFormed_sumOfProduct
    ⟨trivial, ⟨trivial, trivial, nofun⟩, nofun⟩ readable_sumOfProduct

/-- `0x10-1`, in which the minus is taken for the sign of a number. -/
def hexMinusOne : Ast := .binary (.hex false ['1', '0']) .sub (.number false ['1'])

def hexMinusOneItems : List (Nat × Lexeme) :=
  [(0, .hex false ['1', '0']), (0, .operator .sub), (0, .number false ['1'])]

theorem hexMinusOne_asserts :
    (∀ depth success, expr cpuZeros (depth + 2) ['0', 'x', '1', '0', '-', '1'] success =
      .error .assertFails) ∧
    ¬∀ cpu (a : Ast) last (items : List (Nat × Lexeme)), items.map Prod.snd = a.lexemes →
      a.WellFormed → a.NoZeroDivisor cpu → Evaluates cpu (spell last items) (a.value cpu) := by
  have hasserts : ∀ depth success, expr cpuZeros (depth + 2) ['0', 'x', '1', '0', '-', '1']
      success = .error .assertFails := by
    intro depth success
    have htokens : makeToken ['0', 'x', '1', '0', '-', '1'] =
        .ok (some [⟨.HEX_NUM, ['0', 'x', '1', '0']⟩, ⟨.NUM, ['-', '1']⟩]) := by decide +kernel
    rw [expr_some htokens, if_neg (by decide +kernel)]
    rfl
  refine ⟨hasserts, fun h => ?_⟩
  obtain ⟨depth, hdepth⟩ := h cpuZeros hexMinusOne 0 hexMinusOneItems rfl
    ⟨⟨nofun, List.all_eq_true.1 rfl⟩, ⟨nofun, List.all_eq_true.1 rfl⟩, by decide, by decide⟩
    ⟨trivial, trivial, nofun⟩
  have hret := hdepth (depth + 2) (by omega) true
  cases (hasserts depth true).symm.trans hret

end Main

end FpgaNpc.Sdb
