import FpgaNpc.Sdb.Splitting

open FpgaNpc.Hardware

namespace FpgaNpc.Sdb

open TokenType (tightest)

def Tree.isGroup : Tree → Bool
  | .empty | .group _ => true
  | .operand _ | .pre _ _ | .node _ _ _ => false

section Split

variable {tokens : List Token} {t : Tree} {p q : Nat}

theorem take_of_prefix (h : t.tokens <+: tokens.drop p) (hq : q + 1 = p + t.tokens.length) :
    (tokens.drop p).take (q + 1 - p) = t.tokens := by
  obtain ⟨rest, hrest⟩ := h
  have hlen : q + 1 - p = t.tokens.length := by omega
  rw [← hrest, hlen, List.take_left]

theorem typeAt_first (h : t.tokens <+: tokens.drop p) : typeAt tokens p = t.first.code := by
  induction t with
  | operand tok => exact typeAt_of_getElem? (getElem?_of_prefix_cons h)
  | empty => exact typeAt_of_getElem? (getElem?_of_prefix_cons h)
  | group e ih => exact typeAt_of_getElem? (getElem?_of_prefix_cons h)
  | pre op r ih => exact typeAt_of_getElem? (getElem?_of_prefix_cons h)
  | node l op r ihl ihr => exact ihl ((List.prefix_append _ _).trans h)

theorem level_le_first (h : t.Ordered) : t.level ≤ if t.first.isOperand then tightest
    else t.first.level := by
  induction t with
  | operand tok => rw [Tree.first, h, if_pos rfl]; exact le_rfl
  | empty => exact le_rfl
  | group e ih => exact le_rfl
  | pre op r ih =>
    change op.level ≤ if op.isOperand then tightest else op.level
    split
    · exact op.level_le
    · exact le_rfl
  | node l op r ihl ihr => exact h.2.2.2.1.trans (ihl h.2.1)

theorem isOperandAt_eq (h : typeAt tokens p = TokenType.code type) :
    isOperandAt tokens p = type.isOperand := by
  rw [isOperandAt, h]
  cases type <;> rfl

theorem level_le_strength (ht : t.Ordered) (h : t.tokens <+: tokens.drop p) :
    t.level ≤ strength tokens p p := by
  have htype := typeAt_first h
  have hle := level_le_first ht
  rw [strength, isOperandAt_eq htype, htype]
  simpa [TokenType.level] using hle

theorem getMainOperationIndex_tree (ht : t.Ordered) (hmax : tokens.length ≤ maxTokens)
    (h : t.tokens <+: tokens.drop p) (hq : q + 1 = p + t.tokens.length)
    (hlevel : t.level < tightest) :
    getMainOperationIndex tokens p q = .ok (p + t.root) := by
  obtain ⟨main', hlead, hscan⟩ := scan_tree (q := q) (p := p) ht hmax h hq.ge p
  rw [hlead.result (by omega), hscan.root (level_le_strength ht h) hlevel]

theorem checkParentheses_of_ne (h : typeAt tokens p ≠ TokenType.TK_LBRACKET.code) (q : Nat) :
    checkParentheses tokens p q = (false, none) := by
  have hne : (typeAt tokens p == TokenType.TK_LBRACKET.code) = false := beq_eq_false_iff_ne.2 h
  rw [checkParentheses, hne, Bool.false_and, if_neg Bool.false_ne_true]

theorem checkParentheses_of_loop {cnt : Int} {flag : Bool}
    (h : checkLoop 0 false ((tokens.drop p).take (q + 1 - p)) = (cnt, flag)) :
    checkParentheses tokens p q = if typeAt tokens p == TokenType.TK_LBRACKET.code &&
        typeAt tokens q == TokenType.TK_RBRACKET.code then
      if cnt = 0 then (!flag, some false) else (false, some true) else (false, none) := by
  rw [checkParentheses, h]

theorem code_ne_left {type : TokenType} (h : type ≠ .TK_LBRACKET ∧ type ≠ .TK_RBRACKET) :
    type.code ≠ TokenType.TK_LBRACKET.code := fun he => h.1 (TokenType.code_inj he)

theorem checkParentheses_tree (ht : t.Ordered) (h : t.tokens <+: tokens.drop p)
    (hq : q + 1 = p + t.tokens.length) :
    (checkParentheses tokens p q).1 = t.isGroup ∧ (checkParentheses tokens p q).2 ≠ some true := by
  have htake := take_of_prefix h hq
  have hfirst := typeAt_first h
  cases t with
  | operand tok =>
    have hne : typeAt tokens p ≠ _ := hfirst ▸ code_ne_left (Tree.isOperand.not_bracket ht)
    rw [checkParentheses_of_ne hne]
    exact ⟨rfl, by simp⟩
  | empty =>
    have hlast := typeAt_of_getElem? (getElem?_of_prefix_cons (prefix_drop (l := [lbracket]) h))
    obtain rfl : q = p + 1 := Nat.succ.inj hq
    have hlast : typeAt tokens (p + 1) = _ := hlast
    have hloop : checkLoop 0 false Tree.empty.tokens = (0, false) := rfl
    rw [checkParentheses_of_loop (by rw [htake, hloop]), hfirst, hlast]
    exact ⟨rfl, by decide⟩
  | group e =>
    have hlast := typeAt_of_getElem? (getElem?_of_prefix_cons
      (prefix_drop (l := lbracket :: e.tokens) h))
    have hlast : typeAt tokens q = rbracket.type.code := by
      rw [← hlast]
      simp only [Tree.tokens, List.length_cons, List.length_append, List.length_nil] at hq ⊢
      congr 1
      omega
    have hloop : checkLoop 0 false e.group.tokens = (0, false) := by
      have hgroup := @Tree.checkLoop_group e false ht []
      rwa [List.append_nil] at hgroup
    rw [checkParentheses_of_loop (by rw [htake, hloop]), hfirst, hlast]
    refine ⟨rfl, ?_⟩
    change some false ≠ some true
    decide
  | pre op r =>
    have hne : typeAt tokens p ≠ _ := hfirst ▸ code_ne_left (Tree.isOperation.not_bracket ht.1)
    rw [checkParentheses_of_ne hne]
    exact ⟨rfl, by simp⟩
  | node l op r =>
    by_cases hl : l.first = .TK_LBRACKET
    · have hr := Tree.checkLoop_flagged ht.2.2.1 []
      rw [List.append_nil] at hr
      have hloop : checkLoop 0 false (l.node op r).tokens = (0, true) := by
        rw [Tree.tokens, Tree.checkLoop_first ht.2.1 hl (by simp),
          Tree.checkLoop_other (Tree.isOperation.not_bracket ht.1), hr]
        rfl
      rw [checkParentheses_of_loop (by rw [htake, hloop])]
      split
      · exact ⟨rfl, by decide⟩
      · exact ⟨rfl, by decide⟩
    · have hne : typeAt tokens p ≠ TokenType.TK_LBRACKET.code := by
        rw [hfirst]
        exact fun he => hl (TokenType.code_inj he)
      rw [checkParentheses_of_ne hne]
      exact ⟨rfl, by simp⟩

end Split

section Eval

variable {cpu : Cpu} {tokens : List Token} {t : Tree} {p depth : Nat} {q : Int} {success : Bool}

theorem eval_single {tok : Token} (h : tokens[p]? = some tok) :
    eval cpu tokens (depth + 1) p p success = evalToken cpu tok := by
  rw [eval, if_neg (by omega), if_neg (by omega), if_pos rfl, h]

/-- The left operand of a first operation is 0, and another missing one clears `success`. -/
theorem eval_left : eval cpu tokens (depth + 1) p (p - 1) success = .ok (0, p == 0 && success) := by
  rw [eval]
  rcases Nat.eq_zero_or_pos p with rfl | hp
  · rw [if_neg (by simp), if_pos (by simp)]
    simp
  · have hp0 : (p == 0) = false := by simpa using hp.ne'
    rw [if_pos (by omega), hp0]
    rfl

theorem eval_group (hpq : p < q) (h : (checkParentheses tokens p q.toNat).1 = true) :
    eval cpu tokens (depth + 1) p q success = eval cpu tokens depth (p + 1) (q - 1) success := by
  rw [eval, if_neg (by omega), if_neg (by omega), if_neg (by omega), if_pos h]

theorem eval_operation (hpq : p < q) (h : (checkParentheses tokens p q.toNat).1 = false) :
    eval cpu tokens (depth + 1) p q success = (do
      let op ← getMainOperationIndex tokens p q.toNat
      let (value1, success) ← eval cpu tokens depth p (op - 1) success
      let (value2, success) ← eval cpu tokens depth (op + 1) q success
      match tokens[op]? with
      | some t => operate t.type value1 value2 success
      | none => .error .assertFails) := by
  rw [eval, if_neg (by omega), if_neg (by omega), if_neg (by omega)]
  exact if_neg (by rw [h]; exact Bool.false_ne_true)

theorem eval_tree (ht : t.Ordered) (hmax : tokens.length ≤ maxTokens)
    (h : t.tokens <+: tokens.drop p) (hq : q + 1 = p + t.tokens.length)
    (hdepth : t.tokens.length ≤ depth) :
    eval cpu tokens depth p q success = t.run cpu (p == 0) success := by
  have hlen := t.tokens_pos
  obtain ⟨q, rfl⟩ : ∃ n : Nat, q = n := ⟨q.toNat, by omega⟩
  have hq : q + 1 = p + t.tokens.length := by exact_mod_cast hq
  obtain ⟨depth, rfl⟩ : ∃ d, depth = d + 1 := ⟨depth - 1, by omega⟩
  have hcheck := (checkParentheses_tree ht h hq).1
  induction t generalizing p q depth success with
  | operand tok =>
    obtain rfl : q = p := Nat.succ.inj hq
    exact eval_single (getElem?_of_prefix_cons h)
  | empty =>
    obtain rfl : q = p + 1 := Nat.succ.inj hq
    obtain ⟨depth, rfl⟩ : ∃ d, depth = d + 1 := ⟨depth - 1, by simp [Tree.tokens] at hdepth; omega⟩
    rw [eval_group (by omega) hcheck, eval, if_pos (by omega)]
    rfl
  | group e ih =>
    have hpos := e.tokens_pos
    simp only [Tree.tokens, List.length_cons, List.length_append, List.length_nil] at hq hdepth
    obtain ⟨depth, rfl⟩ : ∃ d, depth = d + 1 := ⟨depth - 1, by omega⟩
    have he : e.tokens <+: tokens.drop (p + 1) :=
      (List.prefix_append _ _).trans (prefix_drop (l := [lbracket]) h)
    have hq' : ((q : Int) - 1) = ((q - 1 : Nat) : Int) := by omega
    have hsub : q - 1 + 1 = p + 1 + e.tokens.length := by omega
    rw [eval_group (by omega) hcheck, hq']
    exact ih ht he hpos (q - 1) (by exact_mod_cast hsub) hsub depth (by omega)
      (checkParentheses_tree (t := e) ht he hsub).1
  | pre op r ih =>
    have hpos := r.tokens_pos
    have hmain := getMainOperationIndex_tree ht hmax h hq (TokenType.isOperation.level_lt ht.1)
    simp only [Tree.tokens, List.length_cons] at hq hdepth
    obtain ⟨depth, rfl⟩ : ∃ d, depth = d + 1 := ⟨depth - 1, by omega⟩
    have hr : r.tokens <+: tokens.drop (p + 1) := prefix_drop (l := [plain op]) h
    have hsub : q + 1 = p + 1 + r.tokens.length := by omega
    rw [eval_operation (by omega) hcheck, Int.toNat_natCast, hmain, Tree.root, add_zero]
    change (do
      let (value1, success) ← eval cpu tokens (depth + 1) p (p - 1) success
      let (value2, success) ← eval cpu tokens (depth + 1) (p + 1) q success
      match tokens[p]? with
      | some t => operate t.type value1 value2 success
      | none => .error .assertFails) = _
    rw [eval_left, getElem?_of_prefix_cons h]
    change (do
      let (value2, success) ← eval cpu tokens (depth + 1) (p + 1) q (p == 0 && success)
      operate op 0 value2 success) = _
    rw [ih ht.2.1 hr hpos q (by exact_mod_cast hsub) hsub depth (by omega)
      (checkParentheses_tree ht.2.1 hr hsub).1]
    rfl
  | node l op r ihl ihr =>
    have hposl := l.tokens_pos
    have hposr := r.tokens_pos
    have hmain := getMainOperationIndex_tree ht hmax h hq (TokenType.isOperation.level_lt ht.1)
    simp only [Tree.tokens, List.length_append, List.length_cons] at hq hdepth
    obtain ⟨depth, rfl⟩ : ∃ d, depth = d + 1 := ⟨depth - 1, by omega⟩
    have hl : l.tokens <+: tokens.drop p := (List.prefix_append _ _).trans h
    have hop : plain op :: r.tokens <+: tokens.drop (p + l.tokens.length) := prefix_drop h
    have hr : r.tokens <+: tokens.drop (p + l.tokens.length + 1) :=
      prefix_drop (l := [plain op]) hop
    have hql :
        ((p + l.tokens.length : Nat) : Int) - 1 = ((p + l.tokens.length - 1 : Nat) : Int) := by
      omega
    have hsubl : p + l.tokens.length - 1 + 1 = p + l.tokens.length := by omega
    have hsubr : q + 1 = p + l.tokens.length + 1 + r.tokens.length := by omega
    rw [eval_operation (by omega) hcheck, Int.toNat_natCast, hmain, Tree.root]
    change (do
      let (value1, success) ←
        eval cpu tokens (depth + 1) p ((p + l.tokens.length : Nat) - 1) success
      let (value2, success) ← eval cpu tokens (depth + 1) (p + l.tokens.length + 1) q success
      match tokens[p + l.tokens.length]? with
      | some t => operate t.type value1 value2 success
      | none => .error .assertFails) = _
    rw [hql, ihl ht.2.1 hl hposl _ (by exact_mod_cast hsubl) hsubl depth (by omega)
      (checkParentheses_tree ht.2.1 hl hsubl).1, getElem?_of_prefix_cons hop]
    simp only [ihr ht.2.2.1 hr hposr q (by exact_mod_cast hsubr) hsubr depth (by omega)
      (checkParentheses_tree ht.2.2.1 hr hsubr).1]
    rfl

end Eval

end FpgaNpc.Sdb
