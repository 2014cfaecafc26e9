import Mathlib.Data.List.Chain
import FpgaNpc.Sdb.Robustness

open FpgaNpc.Hardware

namespace FpgaNpc.Sdb

open TokenType (tightest)

/-- The expressions of the grammar as trees, `first` where a minus may stand before a number. -/
def Tree.Expression : Tree → Bool → Prop
  | operand t, _ => t.type.isOperand ∧ '|' ∉ t.str
  | empty, _ => False
  | group e, _ => e.Expression false
  | pre op r, first => r.Expression false ∧ (op = .DEREF ∧ op.level ≤ r.level ∨
    first = true ∧ op = .TK_SUB ∧ r.first = .NUM ∧ op.level < r.level)
  | node l op r, first => op.isBinary ∧ l.Expression first ∧ r.Expression false ∧
    op.level ≤ l.level ∧ op.level < r.level

/-- The result is failure if and only if some sub-expression fails. -/
def Propagates (cpu : Cpu) (e : List Char) (t : Tree) : Prop :=
  ∀ success, ∃ depth v, expr cpu depth e success = .ok v ∧ (v.2 = true ↔ ¬t.Fails cpu)

def Single (tokens : List Token) : Prop :=
  tokens.IsChain fun a b => ¬(a.type = .DEREF ∧ b.type = .DEREF)

instance (tokens : List Token) : Decidable (Single tokens) :=
  inferInstanceAs (Decidable (List.IsChain _ _))

section Single

variable {t : Tree} {cpu : Cpu} {first : Bool}

theorem Tree.head?_tokens (t : Tree) : t.tokens.head?.map Token.type = some t.first := by
  induction t with
  | operand _ | empty | group _ _ | pre _ _ _ => rfl
  | node l op r ihl ihr =>
    rw [tokens, List.head?_append, first, ← ihl]
    cases hl : l.tokens.head? with
    | none => rw [hl] at ihl; cases ihl
    | some tok => rfl

theorem Tree.getLast?_tokens (h : t.Ordered) :
    ∀ tok ∈ t.tokens.getLast?, tok.type.isOperation = false := by
  induction t with
  | operand tok =>
    rintro _ ⟨⟩
    rw [List.getLast_singleton, ← Bool.not_eq_true]
    intro hop
    have hoperand := isOperand_of_isOperation hop
    rw [h] at hoperand
    cases hoperand
  | empty =>
    rintro _ ⟨⟩
    rfl
  | group e ih =>
    have hlast : e.group.tokens.getLast? = some rbracket :=
      List.getLast?_concat (l := lbracket :: e.tokens)
    rw [hlast]
    rintro _ ⟨⟩
    rfl
  | pre op r ih =>
    have hne := List.length_pos_iff.1 r.tokens_pos
    rw [tokens, List.getLast?_cons_of_ne_nil hne]
    exact ih h.2.1
  | node l op r ihl ihr =>
    have hne := List.length_pos_iff.1 r.tokens_pos
    rw [tokens, List.getLast?_append_of_ne_nil _ (by simp), List.getLast?_cons_of_ne_nil hne]
    exact ihr h.2.2.1

theorem single_append {l r : List Token} : Single (l ++ r) ↔ Single l ∧ Single r ∧
    ∀ a ∈ l.getLast?, ∀ b ∈ r.head?, ¬(a.type = .DEREF ∧ b.type = .DEREF) :=
  List.isChain_append

theorem single_cons {op : TokenType} : Single (plain op :: t.tokens) ↔
    Single t.tokens ∧ ¬(op = .DEREF ∧ t.first = .DEREF) := by
  have hhead := t.head?_tokens
  rw [Single, Single, List.isChain_cons]
  cases hh : t.tokens.head? with
  | none => rw [hh] at hhead; cases hhead
  | some tok =>
    rw [hh] at hhead
    have hfirst : tok.type = t.first := Option.some.inj hhead
    simp [plain, hfirst, and_comm]

theorem single_group : Single t.group.tokens ↔ Single t.tokens := by
  rw [Tree.tokens, ← List.singleton_append, single_append, single_append]
  have hl : ∀ a ∈ [lbracket].getLast?, ∀ b ∈ (t.tokens ++ [rbracket]).head?,
      ¬(a.type = .DEREF ∧ b.type = .DEREF) := by
    rintro _ ⟨⟩ b _ ⟨h, -⟩
    cases h
  have hr : ∀ a ∈ t.tokens.getLast?, ∀ b ∈ [rbracket].head?,
      ¬(a.type = .DEREF ∧ b.type = .DEREF) := by
    rintro a _ _ ⟨⟩ ⟨-, h⟩
    cases h
  exact ⟨fun h => h.2.1.1, fun h => ⟨.singleton _, ⟨h, .singleton _, hr⟩, hl⟩⟩

theorem first_of_level (h : t.Expression false) (hlevel : t.level = TokenType.DEREF.level) :
    t.first = .DEREF := by
  cases t with
  | operand _ | empty | group _ => cases hlevel
  | pre op r =>
    obtain ⟨-, ⟨rfl, -⟩ | ⟨hfalse, -⟩⟩ := h
    · rfl
    · cases hfalse
  | node l op r =>
    have hop := h.1
    revert hop
    cases op <;> first | (cases hlevel; done) | exact nofun

theorem not_deref_of_level {op : TokenType} (h : t.Ordered) (hlt : op.level < t.level) :
    ¬(op = .DEREF ∧ t.first = .DEREF) := by
  rintro ⟨rfl, hfirst⟩
  have hle := level_le_first h
  rw [hfirst] at hle
  exact absurd hlt (not_lt.2 hle)

theorem Tree.Ordered.single (h : t.Ordered) : Single t.tokens := by
  induction t with
  | operand tok => exact .singleton _
  | empty => exact single_cons (t := .operand rbracket) |>.2 ⟨.singleton _, by decide⟩
  | group e ih => exact single_group.2 (ih h)
  | pre op r ih => exact single_cons.2 ⟨ih h.2.1, not_deref_of_level h.2.1 h.2.2⟩
  | node l op r ihl ihr =>
    refine single_append.2 ⟨ihl h.2.1, single_cons.2 ⟨ihr h.2.2.1,
      not_deref_of_level h.2.2.1 h.2.2.2.2⟩, fun a ha b _ hab => ?_⟩
    have hlast := getLast?_tokens h.2.1 a ha
    rw [hab.1] at hlast
    cases hlast

theorem Tree.Expression.ordered (h : t.Expression first) (hs : Single t.tokens) : t.Ordered := by
  induction t generalizing first with
  | operand tok => exact h.1
  | empty => trivial
  | group e ih => exact ih h (single_group.1 hs)
  | pre op r ih =>
    obtain ⟨hr, hop⟩ := h
    obtain ⟨hsr, hnot⟩ := single_cons.1 hs
    obtain ⟨rfl, hle⟩ | ⟨-, rfl, -, hlt⟩ := hop
    · exact ⟨rfl, ih hr hsr, hle.lt_of_ne fun heq => hnot ⟨rfl, first_of_level hr heq.symm⟩⟩
    · exact ⟨rfl, ih hr hsr, hlt⟩
  | node l op r ihl ihr =>
    obtain ⟨hop, hl, hr, hle, hlt⟩ := h
    obtain ⟨hsl, hsr, -⟩ := single_append.1 hs
    refine ⟨?_, ihl hl hsl, ihr hr (single_cons.1 hsr).1, hle, hlt⟩
    revert hop
    cases op <;> decide

end Single

theorem Tree.FailsLast.fails {cpu : Cpu} {t : Tree} (h : t.FailsLast cpu) : t.Fails cpu := by
  induction t with
  | operand tok => exact h
  | empty => trivial
  | group e ih => exact ih h
  | pre op r ih => exact h.imp_left ih
  | node l op r _ ih => exact .inr (h.imp_left ih)

section Expression

variable {t : Tree} {cpu : Cpu} {e : List Char} {first : Bool}

theorem Tree.Expression.isExpression (h : t.Expression false) : IsExpression t.tokens := by
  induction t with
  | operand tok => exact .operand h.1 h.2
  | empty => exact h.elim
  | group e ih => exact .group (ih h)
  | pre op r ih =>
    obtain ⟨hr, ⟨rfl, -⟩ | ⟨htrue, -⟩⟩ := h
    · exact .deref (ih hr)
    · cases htrue
  | node l op r ihl ihr => exact .binary (ihl h.2.1) h.1 (ihr h.2.2.1)

theorem Tree.Expression.leading (h : t.Expression first) : IsExpression t.tokens ∨
    ∃ tok l, tok.type = .NUM ∧ t.tokens = plain .TK_SUB :: tok :: l ∧ IsExpression (tok :: l) := by
  induction t with
  | operand tok => exact .inl (.operand h.1 h.2)
  | empty => exact h.elim
  | group e ih => exact .inl (.group h.isExpression)
  | pre op r ih =>
    obtain ⟨hr, ⟨rfl, -⟩ | ⟨-, rfl, hnum, -⟩⟩ := h
    · exact .inl (.deref hr.isExpression)
    · have hhead := r.head?_tokens
      have hexp := hr.isExpression
      rw [tokens]
      cases hr : r.tokens with
      | nil => rw [hr] at hhead; cases hhead
      | cons tok l =>
        rw [hr] at hhead hexp
        exact .inr ⟨tok, l, (Option.some.inj hhead).trans hnum, rfl, hexp⟩
  | node l op r ihl ihr =>
    have hr := h.2.2.1.isExpression
    obtain hl | ⟨tok, rest, htok, hl, hexp⟩ := ihl h.2.1
    · exact .inl (.binary hl h.1 hr)
    · exact .inr ⟨tok, rest ++ plain op :: r.tokens, htok, by rw [tokens, hl]; rfl,
        .binary hexp h.1 hr⟩

theorem failures_propagate_iff (cpu : Cpu) (e : List Char) (t : Tree) (ht : t.Expression true)
    (he : makeToken e = .ok (some t.tokens)) :
    Propagates cpu e t ↔ Single t.tokens ∧ t.Faultless cpu ∧ (t.Fails cpu → t.FailsLast cpu) := by
  constructor
  · intro h
    obtain ⟨depth, v, hv, hiff⟩ := h true
    have hgrammar : InGrammar e := ⟨t.tokens, he, ht.leading⟩
    obtain ⟨hbad, hne⟩ := hgrammar.not_bad he
    obtain ⟨t', htokens, ht'⟩ := tree_of_expr hv he hbad hne
    have hs : Single t.tokens := htokens ▸ ht'.single
    have hord := ht.ordered hs
    have hf := faultless_of_expr hord he hv
    refine ⟨hs, hf, fun hfails => ?_⟩
    obtain rfl := expr_unique hv (@expr_tree cpu _ _ _ true hord hf he le_rfl)
    by_contra hlast
    exact hiff.1 (by simpa using hlast) hfails
  · rintro ⟨hs, hf, hlast⟩ success
    refine ⟨_, _, expr_tree (ht.ordered hs) hf he le_rfl, ?_⟩
    simpa using not_congr ⟨Tree.FailsLast.fails, hlast⟩

def cpuZeros : Cpu := ⟨0, fun _ => 0⟩

/-- `1/0+1`. -/
def zeroDivisor : Tree :=
  .node (.node (.operand ⟨.NUM, ['1']⟩) .TK_DIV (.operand ⟨.NUM, ['0']⟩)) .TK_PLUS
    (.operand ⟨.NUM, ['1']⟩)

theorem failures_propagate_iff_zeroDivisor :
    Propagates cpuZeros ['1', '/', '0', '+', '1'] zeroDivisor ↔ Single zeroDivisor.tokens ∧
      zeroDivisor.Faultless cpuZeros ∧
        (zeroDivisor.Fails cpuZeros → zeroDivisor.FailsLast cpuZeros) :=
  failures_propagate_iff cpuZeros ['1', '/', '0', '+', '1'] zeroDivisor
    (by simp [zeroDivisor, Tree.Expression, Tree.level]; decide) (by decide +kernel)

theorem zeroDivisor_succeeds :
    expr cpuZeros 5 ['1', '/', '0', '+', '1'] false = .ok (1, true) ∧ zeroDivisor.Fails cpuZeros ∧
      ¬∀ cpu e t, Tree.Expression t true → makeToken e = .ok (some t.tokens) →
        Propagates cpu e t := by
  have hexpr : expr cpuZeros 5 ['1', '/', '0', '+', '1'] false = .ok (1, true) := by decide +kernel
  have hfails : zeroDivisor.Fails cpuZeros := .inl (.inr (.inr (.inl ⟨rfl, by decide +kernel⟩)))
  refine ⟨hexpr, hfails, fun h => ?_⟩
  obtain ⟨depth, v, hv, hiff⟩ := h cpuZeros ['1', '/', '0', '+', '1'] zeroDivisor
    (by simp [zeroDivisor, Tree.Expression, Tree.level]; decide) (by decide +kernel) false
  obtain rfl := expr_unique hv hexpr
  exact hiff.1 rfl hfails

end Expression

end FpgaNpc.Sdb
