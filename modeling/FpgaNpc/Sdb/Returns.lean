import FpgaNpc.Sdb.Evaluation

open FpgaNpc.Hardware

namespace FpgaNpc.Sdb

open TokenType (tightest)

def Plain (tokens : List Token) : Prop :=
  ∀ tok ∈ tokens, tok.type.isOperand = false → tok.str = []

section Main

variable {tokens l r : List Token} {tok : Token} {p q i main turns c : Nat}

theorem prefix_of_append (hl : l <+: tokens.drop i) (hr : r <+: tokens.drop (i + l.length)) :
    l ++ r <+: tokens.drop i := by
  obtain ⟨rest, hrest⟩ := hl
  rw [← List.drop_drop, ← hrest, List.drop_left] at hr
  obtain ⟨rest', rfl⟩ := hr
  exact ⟨rest', by rw [← hrest, List.append_assoc]⟩

theorem prefix_of_getElem (h : tokens[i]? = some tok) : [tok] <+: tokens.drop i := by
  obtain ⟨hlt, rfl⟩ := List.getElem?_eq_some_iff.1 h
  rw [List.drop_eq_getElem_cons hlt]
  exact List.prefix_append [_] _

theorem prefix_of_cons (h : tokens[i]? = some tok) (hr : r <+: tokens.drop (i + 1)) :
    tok :: r <+: tokens.drop i := prefix_of_append (l := [tok]) (prefix_of_getElem h) hr

theorem closing_bracket {c : Int} (hc : 1 ≤ c) (l : List Token) :
    ∀ tok ∈ l[closing c l]?, tok.type = .TK_RBRACKET := by
  induction l generalizing c with
  | nil => simp
  | cons t rest ih =>
    have hzero : ∀ {c' : Int}, 1 ≤ c' → closing c' (t :: rest) = closing c' rest + 1 →
        ∀ tok ∈ (t :: rest)[closing c' (t :: rest)]?, tok.type = .TK_RBRACKET := by
      intro c' hc' heq
      rw [heq, List.getElem?_cons_succ]
      exact ih hc'
    rw [closing]
    cases ht : t.type
    case TK_LBRACKET =>
      simp only
      rw [if_neg (by omega), List.getElem?_cons_succ]
      exact ih (by omega)
    case TK_RBRACKET =>
      simp only
      split
      · simpa using ht
      · rw [List.getElem?_cons_succ]
        exact ih (by omega)
    all_goals
      simp only
      rw [if_neg (by omega), List.getElem?_cons_succ]
      exact ih hc

theorem closing_drop (h : typeAt tokens i = TokenType.TK_LBRACKET.code) :
    ∀ tok ∈ tokens[i + closing 0 (tokens.drop i)]?, tok.type = .TK_RBRACKET := by
  obtain h0 | ⟨t, ht, htype⟩ := typeAt_eq tokens i
  · rw [h0] at h
    cases h
  · obtain ⟨hlt, rfl⟩ := List.getElem?_eq_some_iff.1 ht
    have hl : tokens[i].type = .TK_LBRACKET := TokenType.code_inj (htype.symm.trans h)
    have hclose : closing 0 (tokens.drop i) = closing 1 (tokens.drop (i + 1)) + 1 := by
      rw [List.drop_eq_getElem_cons hlt, closing, hl]
      rfl
    have hb := closing_bracket (le_refl (1 : Int)) (tokens.drop (i + 1))
    rw [List.getElem?_drop] at hb
    rwa [hclose, ← add_assoc, add_right_comm]

theorem mainFrom_range (h : mainFrom tokens p q turns i main = .ok c) :
    c = main ∨ i ≤ c ∧ (c < q ∨ ∀ tok ∈ tokens[c]?, tok.type = .TK_RBRACKET) := by
  induction turns generalizing i main with
  | zero => exact .inl (Except.ok.inj h).symm
  | succ turns ih =>
    rw [mainFrom] at h
    by_cases hi : i < q
    · rw [if_pos hi] at h
      by_cases hoperand : isOperandAt tokens i
      · rw [if_pos hoperand] at h
        exact (ih h).imp_right (And.imp_left Nat.le_of_succ_le)
      · rw [if_neg hoperand] at h
        generalize hj : (if typeAt tokens i = TokenType.TK_LBRACKET.code then
          i + closing 0 (tokens.drop i) else i) = j at h
        have hrange : i ≤ j ∧ (j < q ∨ ∀ tok ∈ tokens[j]?, tok.type = .TK_RBRACKET) := by
          rw [← hj]
          split
          · exact ⟨Nat.le_add_right _ _, .inr (closing_drop ‹_›)⟩
          · exact ⟨le_rfl, .inl hi⟩
        by_cases hjmax : j < maxTokens
        · simp only [if_pos hjmax] at h
          obtain hmain | ⟨hle, hrest⟩ := ih h
          · rw [hmain]
            split
            · exact .inr hrange
            · exact .inl rfl
          · exact .inr ⟨by omega, hrest⟩
        · simp only [if_neg hjmax] at h
          cases h
    · rw [if_neg hi] at h
      exact .inl (Except.ok.inj h).symm

end Main

section Tree

variable {cpu : Cpu} {tokens : List Token} {t : Tree} {p q depth : Nat} {success : Bool}
  {v : Word × Bool}

theorem isOperand_of_eval {tok : Token} (h : evalToken cpu tok = .ok v) : tok.type.isOperand := by
  obtain ⟨type, str⟩ := tok
  cases type <;> first | rfl | cases h

theorem isOperation_of_operate {op : TokenType} {value1 value2 : Word}
    (h : operate op value1 value2 success = .ok v) : op.isOperation := by
  cases op <;> first | rfl | cases h

theorem Plain.eq_plain (h : Plain tokens) {tok : Token} {i : Nat} (hi : tokens[i]? = some tok)
    (hop : tok.type.isOperand = false) : tok = plain tok.type := by
  have hstr := h tok (List.mem_of_getElem? hi) hop
  obtain ⟨type, str⟩ := tok
  obtain rfl : str = [] := hstr
  rfl

theorem getElem?_of_typeAt {type : TokenType} {i : Nat} (h : typeAt tokens i = type.code) :
    ∃ tok, tokens[i]? = some tok ∧ tok.type = type := by
  obtain h0 | ⟨tok, htok, htype⟩ := typeAt_eq tokens i
  · rw [h0] at h
    cases type <;> cases h
  · exact ⟨tok, htok, TokenType.code_inj (htype.symm.trans h)⟩

theorem isOperand_of_isOperation {op : TokenType} (h : op.isOperation) : op.isOperand = false := by
  revert h
  cases op <;> decide

theorem brackets_of_check (hplain : Plain tokens) (h : (checkParentheses tokens p q).1 = true) :
    tokens[p]? = some lbracket ∧ tokens[q]? = some rbracket := by
  by_cases hb : typeAt tokens p = TokenType.TK_LBRACKET.code ∧
      typeAt tokens q = TokenType.TK_RBRACKET.code
  · obtain ⟨l, hl, hlt⟩ := getElem?_of_typeAt hb.1
    obtain ⟨r, hr, hrt⟩ := getElem?_of_typeAt hb.2
    rw [hl, hr, hplain.eq_plain hl (by rw [hlt]; rfl), hplain.eq_plain hr (by rw [hrt]; rfl), hlt,
      hrt]
    exact ⟨rfl, rfl⟩
  · have hfalse : (typeAt tokens p == TokenType.TK_LBRACKET.code &&
        typeAt tokens q == TokenType.TK_RBRACKET.code) = false := by
      rw [Bool.eq_false_iff]
      simpa using hb
    rw [checkParentheses, hfalse, if_neg Bool.false_ne_true] at h
    cases h

theorem eval_operation_ok (hpq : p < q) (h : (checkParentheses tokens p q).1 = false)
    (hev : eval cpu tokens (depth + 1) p q success = .ok v) :
    ∃ op tok v1 v2, getMainOperationIndex tokens p q = .ok op ∧ p ≤ op ∧ op < q ∧
      tokens[op]? = some tok ∧ tok.type.isOperation ∧
        eval cpu tokens depth p (op - 1) success = .ok v1 ∧
          eval cpu tokens depth (op + 1) q v1.2 = .ok v2 := by
  rw [eval_operation (by omega) h, Int.toNat_natCast] at hev
  obtain ⟨op, hmain, hev⟩ := Tree.bind_eq_ok.1 hev
  obtain ⟨v1, h1, hev⟩ := Tree.bind_eq_ok.1 hev
  obtain ⟨v2, h2, hev⟩ := Tree.bind_eq_ok.1 hev
  cases htok : tokens[op]? with
  | none =>
    rw [htok] at hev
    cases hev
  | some tok =>
    rw [htok] at hev
    have hop := isOperation_of_operate hev
    obtain ⟨hle, hlt⟩ : p ≤ op ∧ op < q := by
      obtain rfl | ⟨hle, hlt | hright⟩ := mainFrom_range hmain
      · exact ⟨le_rfl, hpq⟩
      · exact ⟨hle, hlt⟩
      · exact absurd (hright tok htok) (Tree.isOperation.not_bracket hop).2
    exact ⟨op, tok, v1, v2, hmain, hle, hlt, htok, hop, h1, h2⟩

theorem ordered_pre (hmax : tokens.length ≤ maxTokens) {r : Tree} {op : TokenType}
    (hop : op.isOperation) (hr : r.Ordered) (h : (Tree.pre op r).tokens <+: tokens.drop p)
    (hq : q + 1 = p + (Tree.pre op r).tokens.length)
    (hmain : getMainOperationIndex tokens p q = .ok p) : (Tree.pre op r).Ordered := by
  refine ⟨hop, hr, not_le.1 fun hle => ?_⟩
  have hlevel := TokenType.isOperation.level_lt hop
  have hpos := r.tokens_pos
  simp only [Tree.tokens, List.length_cons] at h hq
  have hop' := getElem?_of_prefix_cons h
  have hstart : strength tokens p p = op.level :=
    strength_operation hop (typeAt_of_getElem? hop')
  obtain ⟨main₁, hlead₁, hstr₁, htake, -⟩ :=
    scan_operation (p := p) (q := q) hop hop' (by omega) hmax p
  obtain ⟨main', hlead, hscan⟩ := scan_tree (p := p) (q := q) hr hmax
    (prefix_drop (l := [plain op]) h) (by simp only [List.length_singleton]; omega) main₁
  rw [(hlead₁.trans hlead).result (by simp only [List.length_singleton]; omega)] at hmain
  obtain rfl : main' = p := Except.ok.inj hmain
  have hroot := hscan.root (by omega) (by omega)
  simp only [List.length_singleton] at hroot
  omega

theorem ordered_node (hmax : tokens.length ≤ maxTokens) {l r : Tree} {op : TokenType}
    (hop : op.isOperation) (hl : l.Ordered) (hr : r.Ordered)
    (h : (l.node op r).tokens <+: tokens.drop p) (hq : q + 1 = p + (l.node op r).tokens.length)
    (hmain : getMainOperationIndex tokens p q = .ok (p + l.tokens.length)) :
    (l.node op r).Ordered := by
  have hlevel := TokenType.isOperation.level_lt hop
  have hposl := l.tokens_pos
  have hposr := r.tokens_pos
  simp only [Tree.tokens, List.length_append, List.length_cons] at h hq
  obtain ⟨main₁, hlead₁, hscan₁⟩ := scan_tree (p := p) (q := q) hl hmax
    ((List.prefix_append _ _).trans h) (by omega) p
  have hopr := prefix_drop h
  obtain ⟨main₂, hlead₂, hstr₂, htake, hkeep⟩ :=
    scan_operation (p := p) (q := q) hop (getElem?_of_prefix_cons hopr) (by omega) hmax main₁
  obtain ⟨main', hlead, hscan⟩ := scan_tree (p := p) (q := q) hr hmax
    (prefix_drop (l := [plain op]) hopr) (by simp only [List.length_singleton]; omega) main₂
  rw [((hlead₁.trans (hlead₂.trans hlead)).result
    (by simp only [List.length_singleton]; omega))] at hmain
  obtain rfl : main' = p + l.tokens.length := Except.ok.inj hmain
  have hstart := level_le_strength hl ((List.prefix_append _ _).trans h)
  have hstr := hscan₁.level
  have hrange := hscan₁.range
  have hrange' := hscan.range
  simp only [List.length_singleton] at hrange'
  have hle : op.level ≤ l.level := by
    by_contra hlt
    have hsame := hkeep (by omega)
    omega
  refine ⟨hop, hl, hr, hle, not_le.1 fun hge => ?_⟩
  have hroot := hscan.root (by omega) (by omega)
  simp only [List.length_singleton] at hroot
  omega

theorem tree_of_eval (hmax : tokens.length ≤ maxTokens) (hplain : Plain tokens) (hpq : p ≤ q)
    (hq : q < tokens.length) (h : eval cpu tokens depth p q success = .ok v) :
    ∃ t : Tree, t.Ordered ∧ t.tokens <+: tokens.drop p ∧ q + 1 = p + t.tokens.length := by
  induction depth generalizing p q success v with
  | zero => cases h
  | succ depth ih =>
    rcases hpq.eq_or_lt with rfl | hlt
    · have htok : tokens[p]? = some tokens[p] := List.getElem?_eq_getElem hq
      rw [eval_single htok] at h
      exact ⟨.operand tokens[p], isOperand_of_eval h, prefix_of_getElem htok, rfl⟩
    cases hcheck : (checkParentheses tokens p q).1 with
    | true =>
      rw [eval_group (by omega) hcheck] at h
      obtain ⟨hl, hr⟩ := brackets_of_check hplain hcheck
      rcases (show p + 1 ≤ q by omega).eq_or_lt with rfl | hlt'
      · exact ⟨.empty, trivial, prefix_of_cons hl (prefix_of_getElem hr), rfl⟩
      · have hq' : ((q : Int) - 1) = ((q - 1 : Nat) : Int) := by omega
        rw [hq'] at h
        obtain ⟨e, he, hpre, hlen⟩ := ih (by omega) (by omega) h
        have hend : q = p + 1 + e.tokens.length := by omega
        rw [hend] at hr
        refine ⟨.group e, he, prefix_of_cons hl (prefix_of_append hpre (prefix_of_getElem hr)), ?_⟩
        simp only [Tree.tokens, List.length_cons, List.length_append, List.length_nil]
        omega
    | false =>
      obtain ⟨op, tok, v1, v2, hmain, hpop, hopq, htok, hop, hleft, hright⟩ :=
        eval_operation_ok hlt hcheck h
      have htok : tokens[op]? = some (plain tok.type) := by
        rw [htok, hplain.eq_plain htok (isOperand_of_isOperation hop)]
        rfl
      obtain ⟨r, hr, hrpre, hrq⟩ := ih (by omega) hq hright
      rcases hpop.eq_or_lt with rfl | hpop
      · have hpre : (Tree.pre tok.type r).tokens <+: tokens.drop p := prefix_of_cons htok hrpre
        have hlen : q + 1 = p + (Tree.pre tok.type r).tokens.length := by
          simp only [Tree.tokens, List.length_cons]
          omega
        exact ⟨_, ordered_pre hmax hop hr hpre hlen hmain, hpre, hlen⟩
      · have hop' : ((op : Int) - 1) = ((op - 1 : Nat) : Int) := by omega
        rw [hop'] at hleft
        obtain ⟨l, hl, hlpre, hlq⟩ := ih (by omega) (by omega) hleft
        obtain rfl : op = p + l.tokens.length := by omega
        have hpre : (l.node tok.type r).tokens <+: tokens.drop p :=
          prefix_of_append hlpre (prefix_of_cons htok hrpre)
        have hlen : q + 1 = p + (l.node tok.type r).tokens.length := by
          simp only [Tree.tokens, List.length_append, List.length_cons]
          omega
        exact ⟨_, ordered_node hmax hop hl hr hpre hlen hmain, hpre, hlen⟩

end Tree

end FpgaNpc.Sdb
