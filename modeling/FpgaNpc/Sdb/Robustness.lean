import Mathlib.Logic.Relation
import FpgaNpc.Sdb.Returns

open FpgaNpc.Hardware

namespace FpgaNpc.Sdb

section Tokens

variable {tokens tokens' : List Token} {tok : Token}

theorem addToken_eq_ok (h : addToken tokens tok = .ok tokens') :
    tokens.length < maxTokens ∧ tokens' = tokens ++ [tok] := by
  rw [addToken] at h
  split at h
  · exact ⟨‹_›, (Except.ok.inj h).symm⟩
  · cases h

structure Made (tokens : List Token) : Prop where
  length_le : tokens.length ≤ maxTokens
  plain : Plain tokens

theorem Made.addToken (h : Made tokens) (htok : tok.type.isOperand = false → tok.str = [])
    (ht : addToken tokens tok = .ok tokens') : Made tokens' := by
  obtain ⟨hlt, rfl⟩ := addToken_eq_ok ht
  refine ⟨by simpa using Nat.succ_le_of_lt hlt, fun t hmem => ?_⟩
  obtain hmem | hmem := List.mem_append.1 hmem
  · exact h.plain t hmem
  · rw [List.mem_singleton.1 hmem]
    exact htok

theorem Made.recordToken (h : Made tokens) {type : TokenType} {substr : List Char}
    (ht : recordToken type substr tokens = .ok tokens') : Made tokens' := by
  rw [Sdb.recordToken.eq_def] at ht
  cases type <;> simp only at ht
  case NUM =>
    split at ht
    · split at ht
      · obtain ⟨tokens₁, h₁, h₂⟩ := Tree.bind_eq_ok.1 ht
        exact (h.addToken (fun _ => rfl) h₁).addToken (fun hop => Bool.noConfusion hop) h₂
      · exact h.addToken (fun hop => Bool.noConfusion hop) ht
    · cases ht
  case HEX_NUM =>
    split at ht
    · exact h.addToken (fun hop => Bool.noConfusion hop) ht
    · cases ht
  case REG_NAME =>
    split at ht
    · exact h.addToken (fun hop => Bool.noConfusion hop) ht
    · cases ht
  case TK_NOTYPE => exact Except.ok.inj ht ▸ h
  all_goals exact h.addToken (fun _ => rfl) ht

theorem made_makeTokenFrom (h : Made tokens) {turns position : Nat} {e : List Char}
    (ht : makeTokenFrom turns position tokens e = .ok (some tokens')) : Made tokens' := by
  induction turns generalizing position tokens e with
  | zero =>
    cases e with
    | nil => exact Option.some.inj (Except.ok.inj ht) ▸ h
    | cons c e => cases ht
  | succ turns ih =>
    cases e with
    | nil => exact Option.some.inj (Except.ok.inj ht) ▸ h
    | cons c e =>
      rw [makeTokenFrom] at ht
      split at ht
      · cases ht
      · split at ht
        · obtain ⟨tokens₁, h₁, h₂⟩ := Tree.bind_eq_ok.1 ht
          exact ih (h.recordToken h₁) h₂
        · cases ht

theorem made_makeToken {e : List Char} (h : makeToken e = .ok (some tokens)) : Made tokens :=
  made_makeTokenFrom ⟨Nat.zero_le _, by simp [Plain]⟩ h

end Tokens

section Depth

variable {cpu : Cpu} {tokens : List Token} {p depth depth' : Nat} {q : Int} {success : Bool}
  {v v' : Word × Bool}

theorem eval_succ (h : eval cpu tokens depth p q success = .ok v) :
    eval cpu tokens (depth + 1) p q success = .ok v := by
  induction depth generalizing p q success v with
  | zero => cases h
  | succ depth ih =>
    rw [eval] at h ⊢
    by_cases hneg : q < p ∧ 0 ≤ q
    · rwa [if_pos hneg] at h ⊢
    by_cases hq : q < 0
    · rwa [if_neg hneg, if_pos hq] at h ⊢
    by_cases hp : p = q
    · rwa [if_neg hneg, if_neg hq, if_pos hp] at h ⊢
    by_cases hcheck : (checkParentheses tokens p q.toNat).1
    · rw [if_neg hneg, if_neg hq, if_neg hp, if_pos hcheck] at h ⊢
      exact ih h
    · rw [if_neg hneg, if_neg hq, if_neg hp, if_neg hcheck] at h ⊢
      obtain ⟨op, hmain, h⟩ := Tree.bind_eq_ok.1 h
      obtain ⟨v1, h1, h⟩ := Tree.bind_eq_ok.1 h
      obtain ⟨v2, h2, h⟩ := Tree.bind_eq_ok.1 h
      exact Tree.bind_eq_ok.2 ⟨op, hmain, Tree.bind_eq_ok.2 ⟨v1, ih h1,
        Tree.bind_eq_ok.2 ⟨v2, ih h2, h⟩⟩⟩

theorem eval_mono (h : eval cpu tokens depth p q success = .ok v) (hle : depth ≤ depth') :
    eval cpu tokens depth' p q success = .ok v := by
  induction hle with
  | refl => exact h
  | step _ ih => exact eval_succ ih

theorem eval_unique (h : eval cpu tokens depth p q success = .ok v)
    (h' : eval cpu tokens depth' p q success = .ok v') : v = v' := by
  have hmax := eval_mono h (Nat.le_max_left depth depth')
  have hmax' := eval_mono h' (Nat.le_max_right depth depth')
  exact Except.ok.inj (hmax.symm.trans hmax')

end Depth

section Expression

def TokenType.isBinary : TokenType → Bool
  | .TK_OR | .TK_AND | .TK_EQ | .TK_UEQ | .TK_PLUS | .TK_SUB | .TK_MULT | .TK_DIV => true
  | _ => false

inductive IsExpression : List Token → Prop
  | operand {tok : Token} : tok.type.isOperand → '|' ∉ tok.str → IsExpression [tok]
  | group {l : List Token} : IsExpression l → IsExpression (lbracket :: (l ++ [rbracket]))
  | deref {l : List Token} : IsExpression l → IsExpression (plain .DEREF :: l)
  | binary {l r : List Token} {op : TokenType} : IsExpression l → op.isBinary → IsExpression r →
    IsExpression (l ++ plain op :: r)

/-- The tokens of the string, the minus of a first number counted in, are an expression. -/
def InGrammar (e : List Char) : Prop :=
  ∃ tokens, makeToken e = .ok (some tokens) ∧ (IsExpression tokens ∨
    ∃ tok l, tok.type = .NUM ∧ tokens = plain .TK_SUB :: tok :: l ∧ IsExpression (tok :: l))

def size (c : Nat × Int) : Nat := (c.2 + 1 - c.1).toNat

end Expression

section Spec

variable {cpu : Cpu} {e : List Char} {tokens l : List Token} {t : Tree} {depth : Nat}
  {success : Bool} {v : Word × Bool} {c c' : Nat × Int}

theorem IsExpression.ne_nil (h : IsExpression l) : l ≠ [] := by
  cases h <;> simp

theorem IsExpression.checkLoop (h : IsExpression l) {cnt : Int} (hcnt : 0 ≤ cnt) (flag : Bool)
    (rest : List Token) :
    ∃ flag', Sdb.checkLoop cnt flag (l ++ rest) = Sdb.checkLoop cnt flag' rest := by
  induction h generalizing cnt flag rest with
  | operand htok _ => exact ⟨flag, Tree.checkLoop_other (Tree.isOperand.not_bracket htok)⟩
  | group _ ih =>
    obtain ⟨flag', h'⟩ := ih (by omega : 0 ≤ cnt + 1) flag (rbracket :: rest)
    simp only [List.cons_append, List.append_assoc, List.nil_append]
    rw [Tree.checkLoop_left, h', Tree.checkLoop_right (by omega), add_sub_cancel_right]
    exact ⟨_, rfl⟩
  | deref _ ih =>
    obtain ⟨flag', h'⟩ := ih hcnt flag rest
    have hop : (plain .DEREF).type ≠ .TK_LBRACKET ∧ (plain .DEREF).type ≠ .TK_RBRACKET := by decide
    exact ⟨flag', by rw [List.cons_append, Tree.checkLoop_other hop, h']⟩
  | @binary l r op _ hop _ ihl ihr =>
    obtain ⟨flag₁, h₁⟩ := ihl hcnt flag (plain op :: (r ++ rest))
    obtain ⟨flag₂, h₂⟩ := ihr hcnt flag₁ rest
    have hop : (plain op).type ≠ .TK_LBRACKET ∧ (plain op).type ≠ .TK_RBRACKET := by
      cases op <;> first | exact absurd hop (by decide) | decide
    exact ⟨flag₂, by rw [List.append_assoc, List.cons_append, h₁, Tree.checkLoop_other hop, h₂]⟩

theorem InGrammar.not_bad (h : InGrammar e) (he : makeToken e = .ok (some tokens)) :
    (checkParentheses tokens 0 (tokens.length - 1)).2 ≠ some true ∧ tokens ≠ [] := by
  obtain ⟨tokens', he', hexp⟩ := h
  obtain rfl : tokens = tokens' := Option.some.inj (Except.ok.inj (he.symm.trans he'))
  obtain hexp | ⟨tok, l, -, rfl, hexp⟩ := hexp
  · refine ⟨?_, hexp.ne_nil⟩
    obtain ⟨flag, hloop⟩ := hexp.checkLoop le_rfl false []
    have hpos := List.length_pos_iff.2 hexp.ne_nil
    have htake : (tokens.drop 0).take (tokens.length - 1 + 1 - 0) = tokens := by
      rw [Nat.sub_zero, Nat.sub_add_cancel hpos, List.drop_zero, List.take_length]
    rw [List.append_nil] at hloop
    have hloop : checkLoop 0 false tokens = (0, flag) := hloop
    rw [checkParentheses_of_loop (by rw [htake, hloop])]
    split <;> simp
  · refine ⟨?_, by simp⟩
    have hsub : typeAt (plain .TK_SUB :: tok :: l) 0 ≠ TokenType.TK_LBRACKET.code := by
      change TokenType.TK_SUB.code ≠ _
      decide
    rw [checkParentheses_of_ne hsub]
    simp

theorem expr_some (h : makeToken e = .ok (some tokens)) : expr cpu depth e success =
    if (checkParentheses tokens 0 (tokens.length - 1)).2 = some true then .ok (0, success)
    else eval cpu tokens depth 0 (tokens.length - 1) true := by
  rw [expr, h]
  rfl

theorem expr_tree (ht : t.Ordered) (hf : t.Faultless cpu) (h : makeToken e = .ok (some t.tokens))
    (hdepth : t.tokens.length ≤ depth) :
    expr cpu depth e success = .ok (t.value cpu, !decide (t.FailsLast cpu)) := by
  have hpos := t.tokens_pos
  have hpre : t.tokens <+: t.tokens.drop 0 := by rw [List.drop_zero]
  have hbad := (checkParentheses_tree ht hpre (by omega : t.tokens.length - 1 + 1 = _)).2
  rw [expr_some h, if_neg hbad, eval_tree ht (made_makeToken h).length_le hpre (by omega) hdepth,
    Tree.run_of_faultless ht hf]

theorem expr_unique {depth' : Nat} {v' : Word × Bool} (h : expr cpu depth e success = .ok v)
    (h' : expr cpu depth' e success = .ok v') : v = v' := by
  rw [expr] at h h'
  obtain ⟨x, hx, h⟩ := Tree.bind_eq_ok.1 h
  obtain ⟨x', hx', h'⟩ := Tree.bind_eq_ok.1 h'
  obtain rfl := Except.ok.inj (hx.symm.trans hx')
  cases x with
  | none => exact Except.ok.inj (h.symm.trans h')
  | some tokens =>
    simp only at h h'
    split at h
    · rw [if_pos ‹_›] at h'
      exact Except.ok.inj (h.symm.trans h')
    · rw [if_neg ‹_›] at h'
      exact eval_unique h h'

theorem faultless_of_expr (ht : t.Ordered) (he : makeToken e = .ok (some t.tokens))
    (h : expr cpu depth e success = .ok v) : t.Faultless cpu := by
  have hpos := t.tokens_pos
  have hpre : t.tokens <+: t.tokens.drop 0 := by rw [List.drop_zero]
  have hbad := (checkParentheses_tree ht hpre (by omega : t.tokens.length - 1 + 1 = _)).2
  rw [expr_some he, if_neg hbad] at h
  have hmono := eval_mono h (Nat.le_max_left depth t.tokens.length)
  rw [eval_tree ht (made_makeToken he).length_le hpre (by omega) (Nat.le_max_right _ _)] at hmono
  exact Tree.faultless_of_run ht hmono

theorem tree_of_expr (h : expr cpu depth e success = .ok v) (he : makeToken e = .ok (some tokens))
    (hbad : (checkParentheses tokens 0 (tokens.length - 1)).2 ≠ some true) (hne : tokens ≠ []) :
    ∃ t : Tree, tokens = t.tokens ∧ t.Ordered := by
  have hpos := List.length_pos_iff.2 hne
  have hmade := made_makeToken he
  rw [expr_some he, if_neg hbad] at h
  have hlen : ((tokens.length : Int) - 1) = ((tokens.length - 1 : Nat) : Int) := by omega
  rw [hlen] at h
  obtain ⟨t, ht, hpre, hq⟩ := tree_of_eval hmade.length_le hmade.plain (Nat.zero_le _) (by omega) h
  rw [List.drop_zero] at hpre
  exact ⟨t, (hpre.eq_of_length (by omega)).symm, ht⟩

end Spec

section Shrinks

variable {tokens : List Token} {c c' : Nat × Int}

end Shrinks

section Robust

end Robust

end FpgaNpc.Sdb
