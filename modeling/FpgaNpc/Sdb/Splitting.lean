import FpgaNpc.Sdb.Tree

open FpgaNpc.Hardware

namespace FpgaNpc.Sdb

namespace TokenType

theorem level_isOperation {op : TokenType} (h : op.isOperation) :
    op.code ≠ TK_LBRACKET.code ∧ op.code ≠ NUM.code ∧ op.code ≠ HEX_NUM.code ∧
      op.code ≠ REG_NAME.code ∧ op.level < tightest := by
  revert h
  cases op <;> decide

theorem code_inj {a b : TokenType} (h : a.code = b.code) : a = b := by
  revert h
  cases a <;> cases b <;> decide

end TokenType

open TokenType (tightest)

section TypeAt

variable {tokens rest : List Token} {t : Tree} {tok : Token} {i j p main : Nat}

theorem typeAt_eq (tokens : List Token) (i : Nat) :
    typeAt tokens i = 0 ∨ ∃ tok, tokens[i]? = some tok ∧ typeAt tokens i = tok.type.code := by
  rw [typeAt]
  cases tokens[i]? with
  | none => exact .inl rfl
  | some tok => exact .inr ⟨tok, rfl, rfl⟩

theorem typeAt_of_getElem? (h : tokens[i]? = some tok) : typeAt tokens i = tok.type.code := by
  rw [typeAt, h]
  rfl

/-- The masks take the lowest bit away. -/
theorem typeAt_and (tokens : List Token) (i : Nat) :
    typeAt tokens i &&& 0xffffffffe = 2 * (typeAt tokens i / 2) ∧
      typeAt tokens i &&& 0xfffffffe = 2 * (typeAt tokens i / 2) := by
  obtain h | ⟨tok, -, h⟩ := typeAt_eq tokens i
  · rw [h]
    decide
  · rw [h]
    cases tok.type <;> decide

theorem typeAt_half_le (tokens : List Token) (i : Nat) : typeAt tokens i / 2 ≤ tightest := by
  obtain h | ⟨tok, -, h⟩ := typeAt_eq tokens i
  · rw [h]
    decide
  · rw [h]
    exact tok.type.level_le

/-- How loosely the main operation so far binds, an operand at the start not at all. -/
def strength (tokens : List Token) (p main : Nat) : Nat :=
  if main = p ∧ isOperandAt tokens main then tightest else typeAt tokens main / 2

theorem becomesMain_eq (tokens : List Token) (p main i : Nat) :
    becomesMain tokens p main i = decide (typeAt tokens i / 2 ≤ strength tokens p main) := by
  have hi := (typeAt_and tokens i).1
  have hmain := (typeAt_and tokens main).2
  have hle := typeAt_half_le tokens i
  rw [becomesMain, strength, hi, hmain]
  by_cases hp : main = p ∧ isOperandAt tokens main
  · rw [if_pos hp, decide_eq_true hle]
    simp [hp.1, hp.1 ▸ hp.2]
  · have hfalse : (main == p && isOperandAt tokens main) = false := by
      rw [Bool.eq_false_iff]
      simpa using hp
    rw [if_neg hp, hfalse, Bool.or_false, Bool.eq_iff_iff]
    simp only [Bool.or_eq_true, decide_eq_true_eq, beq_iff_eq]
    omega

end TypeAt

section Scan

variable {tokens rest : List Token} {t : Tree} {tok : Token} {p q i j k main main' main'' : Nat}

def Leads (tokens : List Token) (p q i main j main' : Nat) : Prop :=
  ∀ turns, q ≤ i + turns → ∃ turns', q ≤ j + turns' ∧
    mainFrom tokens p q turns i main = mainFrom tokens p q turns' j main'

theorem Leads.trans (h : Leads tokens p q i main j main')
    (h' : Leads tokens p q j main' k main'') : Leads tokens p q i main k main'' := by
  intro turns hturns
  obtain ⟨turns', hturns', heq⟩ := h turns hturns
  obtain ⟨turns'', hturns'', heq'⟩ := h' turns' hturns'
  exact ⟨turns'', hturns'', heq.trans heq'⟩

theorem mainFrom_end (h : q ≤ i) (turns : Nat) : mainFrom tokens p q turns i main = .ok main := by
  cases turns with
  | zero => rfl
  | succ turns => rw [mainFrom, if_neg (not_lt.2 h)]

theorem Leads.result (h : Leads tokens p q p p j main') (hj : q ≤ j) :
    getMainOperationIndex tokens p q = .ok main' := by
  obtain ⟨turns, -, heq⟩ := h (q - p) (by omega)
  rw [getMainOperationIndex, heq, mainFrom_end hj]

theorem leads_step (hi : i < q) (h : ∀ turns, mainFrom tokens p q (turns + 1) i main =
    mainFrom tokens p q turns (j + 1) main') (hj : i ≤ j) :
    Leads tokens p q i main (j + 1) main' := by
  intro turns hturns
  obtain ⟨turns, rfl⟩ : ∃ k, turns = k + 1 := ⟨turns - 1, by omega⟩
  exact ⟨turns, by omega, h turns⟩

theorem leads_operand (h : isOperandAt tokens i) (hi : i ≤ q) :
    Leads tokens p q i main (i + 1) main := by
  rcases hi.lt_or_eq with hi | rfl
  · refine leads_step hi (fun turns => ?_) le_rfl
    rw [mainFrom, if_pos hi, if_pos h]
  · intro turns _
    exact ⟨0, by omega, mainFrom_end le_rfl turns⟩

theorem leads_operation {op : TokenType} (hop : op.isOperation) (h : typeAt tokens i = op.code)
    (hi : i < q) (hmax : i < maxTokens) : Leads tokens p q i main (i + 1)
      (if op.level ≤ strength tokens p main then i else main) := by
  obtain ⟨hl, hn, hx, hr, -⟩ := TokenType.level_isOperation hop
  refine leads_step hi (fun turns => ?_) le_rfl
  have hoperand : isOperandAt tokens i = false := by
    simp [isOperandAt, h, hn, hx, hr]
  rw [mainFrom, if_pos hi, hoperand, if_neg Bool.false_ne_true, h, if_neg hl, if_pos hmax,
    becomesMain_eq, h, TokenType.level]
  simp only [decide_eq_true_eq]

theorem leads_bracket (h : typeAt tokens i = TokenType.TK_LBRACKET.code)
    (hj : j = i + closing 0 (tokens.drop i)) (hclose : typeAt tokens j / 2 = tightest)
    (hi : i < q) (hmax : j < maxTokens) : Leads tokens p q i main (j + 1)
      (if tightest ≤ strength tokens p main then j else main) := by
  refine leads_step hi (fun turns => ?_) (by omega)
  have hoperand : isOperandAt tokens i = false := by
    rw [isOperandAt, h]
    rfl
  rw [mainFrom, if_pos hi, hoperand, if_neg Bool.false_ne_true, if_pos h, ← hj, if_pos hmax,
    becomesMain_eq, hclose]
  simp only [decide_eq_true_eq]

theorem strength_operation {op : TokenType} (hop : op.isOperation)
    (h : typeAt tokens i = op.code) : strength tokens p i = op.level := by
  obtain ⟨-, hn, hx, hr, -⟩ := TokenType.level_isOperation hop
  have hoperand : isOperandAt tokens i = false := by
    simp [isOperandAt, h, hn, hx, hr]
  rw [strength, hoperand, if_neg (by simp), h, TokenType.level]

theorem strength_le : strength tokens p i ≤ tightest := by
  rw [strength]
  split
  · exact le_rfl
  · exact typeAt_half_le tokens i

theorem strength_bracket (h : typeAt tokens i / 2 = tightest) : strength tokens p i = tightest := by
  rw [strength]
  split
  · rfl
  · exact h

theorem prefix_drop {l r : List Token} (h : l ++ r <+: tokens.drop i) :
    r <+: tokens.drop (i + l.length) := by
  obtain ⟨rest, hrest⟩ := h
  rw [← List.drop_drop, ← hrest, List.append_assoc, List.drop_left]
  exact List.prefix_append r rest

theorem getElem?_of_prefix_cons {l : List Token} (h : tok :: l <+: tokens.drop i) :
    tokens[i]? = some tok := by
  obtain ⟨rest, hrest⟩ := h
  have hhead : (tokens.drop i)[0]? = some tok := by
    rw [← hrest]
    rfl
  rwa [List.getElem?_drop] at hhead

theorem lt_maxTokens (hmax : tokens.length ≤ maxTokens) (h : tokens[i]? = some tok) :
    i < maxTokens := by
  have hi : i < tokens.length := by
    by_contra hle
    rw [List.getElem?_eq_none (not_lt.1 hle)] at h
    cases h
  omega

theorem Tree.tokens_pos (t : Tree) : 0 < t.tokens.length := by
  cases t <;> simp only [Tree.tokens, List.length_cons, List.length_append, List.length_nil] <;>
    omega

structure Scanned (tokens : List Token) (p i : Nat) (t : Tree) (main main' : Nat) : Prop where
  level : strength tokens p main' = min (strength tokens p main) t.level
  root : t.level ≤ strength tokens p main → t.level < tightest → main' = i + t.root
  same : strength tokens p main < t.level → main' = main
  range : main' = main ∨ i ≤ main' ∧ main' < i + t.tokens.length

theorem scanned_tightest (hlevel : t.level = tightest) (hmain : strength tokens p main' =
    strength tokens p main) (hsame : strength tokens p main < tightest → main' = main)
    (hrange : main' = main ∨ i ≤ main' ∧ main' < i + t.tokens.length) :
    Scanned tokens p i t main main' where
  level := by rw [hmain, hlevel, min_eq_left strength_le]
  root _ h := absurd hlevel h.ne
  same h := hsame (hlevel ▸ h)
  range := hrange

theorem scan_bracket (hlevel : t.level = tightest) (hlen : 2 ≤ t.tokens.length)
    (hi : typeAt tokens i = TokenType.TK_LBRACKET.code)
    (hj : tokens[i + t.tokens.length - 1]? = some rbracket)
    (hclose : closing 0 (tokens.drop i) = t.tokens.length - 1)
    (hmax : tokens.length ≤ maxTokens) (hq : i + t.tokens.length ≤ q + 1) (main : Nat) :
    ∃ main', Leads tokens p q i main (i + t.tokens.length) main' ∧
      Scanned tokens p i t main main' := by
  set j := i + t.tokens.length - 1 with hjdef
  have hjtype : typeAt tokens j / 2 = tightest := by
    rw [typeAt_of_getElem? hj]
    rfl
  have hlead : Leads tokens p q i main (j + 1)
      (if tightest ≤ strength tokens p main then j else main) :=
    leads_bracket hi (by omega) hjtype (by omega) (lt_maxTokens hmax hj)
  have hend : j + 1 = i + t.tokens.length := by omega
  refine ⟨_, hend ▸ hlead, ?_⟩
  by_cases hs : tightest ≤ strength tokens p main
  · rw [if_pos hs]
    refine scanned_tightest hlevel ?_ (fun h => absurd hs (not_le.2 h)) (.inr (by omega))
    rw [strength_bracket hjtype, le_antisymm strength_le hs]
  · rw [if_neg hs]
    exact scanned_tightest hlevel rfl (fun _ => rfl) (.inl rfl)

theorem scan_operation {op : TokenType} (hop : op.isOperation) (hi : tokens[i]? = some (plain op))
    (hq : i < q) (hmax : tokens.length ≤ maxTokens) (main : Nat) :
    ∃ main', Leads tokens p q i main (i + 1) main' ∧
      strength tokens p main' = min (strength tokens p main) op.level ∧
      (op.level ≤ strength tokens p main → main' = i) ∧
      (strength tokens p main < op.level → main' = main) := by
  have htype : typeAt tokens i = op.code := typeAt_of_getElem? hi
  refine ⟨_, leads_operation hop htype hq (lt_maxTokens hmax hi), ?_, ?_, ?_⟩
  · split
    · rw [strength_operation hop htype]
      omega
    · omega
  · exact fun h => if_pos h
  · exact fun h => if_neg (not_le.2 h)

theorem scan_tree (ht : t.Ordered) (hmax : tokens.length ≤ maxTokens)
    (h : t.tokens <+: tokens.drop i) (hq : i + t.tokens.length ≤ q + 1) (main : Nat) :
    ∃ main', Leads tokens p q i main (i + t.tokens.length) main' ∧
      Scanned tokens p i t main main' := by
  induction t generalizing i main with
  | operand tok =>
    have htok := typeAt_of_getElem? (getElem?_of_prefix_cons h)
    have hoperand : isOperandAt tokens i := by
      rw [isOperandAt, htok]
      revert ht
      rw [Tree.Ordered]
      cases tok.type <;> decide
    exact ⟨main, leads_operand hoperand (by simpa [Tree.tokens] using hq),
      scanned_tightest rfl rfl (fun _ => rfl) (.inl rfl)⟩
  | empty =>
    have hl := typeAt_of_getElem? (getElem?_of_prefix_cons h)
    have hr := getElem?_of_prefix_cons (prefix_drop (l := [lbracket]) h)
    obtain ⟨rest, hrest⟩ := h
    refine scan_bracket rfl le_rfl hl ?_ ?_ hmax hq main
    · exact hr
    · rw [← hrest]
      rfl
  | group e ih =>
    have hl := typeAt_of_getElem? (getElem?_of_prefix_cons h)
    have hr := getElem?_of_prefix_cons (prefix_drop (l := lbracket :: e.tokens) h)
    obtain ⟨rest, hrest⟩ := h
    have hlen : e.group.tokens.length = e.tokens.length + 2 := by simp [Tree.tokens]
    refine scan_bracket rfl (by omega) hl ?_ ?_ hmax hq main
    · rw [← hr, hlen, List.length_cons]
      rfl
    · have hclose := Tree.closing_group (t := e) ht rest
      rw [← hrest, hclose, hlen]
      omega
  | pre op r ih =>
    obtain ⟨hop, hr, hlt⟩ := ht
    have hpos := r.tokens_pos
    simp only [Tree.tokens, List.length_cons] at h hq ⊢
    obtain ⟨main₁, hlead₁, hstr₁, htake, hkeep⟩ :=
      scan_operation (p := p) (q := q) hop (getElem?_of_prefix_cons h) (by omega) hmax main
    obtain ⟨main', hlead, hscan⟩ := ih hr (prefix_drop (l := [plain op]) h)
      (by simp only [List.length_singleton]; omega) main₁
    obtain rfl : main' = main₁ := hscan.same (by omega)
    refine ⟨main', ?_, ⟨hstr₁, fun h' _ => htake h', hkeep, ?_⟩⟩
    · have hend : i + [plain op].length + r.tokens.length = i + (r.tokens.length + 1) := by
        simp only [List.length_singleton]
        omega
      exact hend ▸ hlead₁.trans hlead
    · simp only [Tree.tokens, List.length_cons]
      by_cases h' : op.level ≤ strength tokens p main
      · exact .inr (by rw [htake h']; omega)
      · exact .inl (hkeep (not_le.1 h'))
  | node l op r ihl ihr =>
    obtain ⟨hop, hl, hr, hle, hlt⟩ := ht
    have hpos := r.tokens_pos
    simp only [Tree.tokens, List.length_append, List.length_cons] at h hq ⊢
    have hop_prefix := prefix_drop h
    obtain ⟨main₁, hlead₁, hscan₁⟩ :=
      ihl hl ((List.prefix_append _ _).trans h) (by omega) main
    have hop_get := getElem?_of_prefix_cons hop_prefix
    obtain ⟨main₂, hlead₂, hstr₂, htake, hkeep⟩ :=
      scan_operation (p := p) (q := q) hop hop_get (by omega) hmax main₁
    obtain ⟨main', hlead, hscan⟩ := ihr hr (prefix_drop (l := [plain op]) hop_prefix)
      (by simp only [List.length_singleton]; omega) main₂
    obtain rfl : main' = main₂ := hscan.same (by omega)
    have hstr₁ := hscan₁.level
    refine ⟨main', ?_, ⟨?_, fun h' _ => htake ?_, ?_, ?_⟩⟩
    · have hend : i + l.tokens.length + [plain op].length + r.tokens.length =
          i + (l.tokens.length + (r.tokens.length + 1)) := by
        simp only [List.length_singleton]
        omega
      exact hend ▸ hlead₁.trans (hlead₂.trans hlead)
    · rw [hstr₂, hstr₁, Tree.level]
      omega
    · have h' : op.level ≤ strength tokens p main := h'
      omega
    · intro h'
      have h' : strength tokens p main < op.level := h'
      rw [hkeep (by omega), hscan₁.same (by omega)]
    · simp only [Tree.tokens, List.length_append, List.length_cons]
      by_cases h' : op.level ≤ strength tokens p main₁
      · exact .inr (by rw [htake h']; omega)
      · rw [hkeep (not_le.1 h')]
        exact hscan₁.range.imp_right fun h => ⟨h.1, by omega⟩

end Scan

end FpgaNpc.Sdb
