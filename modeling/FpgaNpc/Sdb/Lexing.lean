import FpgaNpc.Sdb.Expr

open FpgaNpc.Hardware FpgaNpc.Software

namespace FpgaNpc.Sdb

inductive Operator
  | or | and | eq | ne | add | sub | mul | div
  deriving DecidableEq

def Operator.type : Operator → TokenType
  | .or => .TK_OR
  | .and => .TK_AND
  | .eq => .TK_EQ
  | .ne => .TK_UEQ
  | .add => .TK_PLUS
  | .sub => .TK_SUB
  | .mul => .TK_MULT
  | .div => .TK_DIV

def Operator.text : Operator → List Char
  | .or => ['|', '|']
  | .and => ['&', '&']
  | .eq => ['=', '=']
  | .ne => ['!', '=']
  | .add => ['+']
  | .sub => ['-']
  | .mul => ['*']
  | .div => ['/']

/-- What an expression is written with. A minus in front of a number is part of it. -/
inductive Lexeme
  | number (minus : Bool) (digits : List Char)
  | hex (minus : Bool) (digits : List Char)
  | register (name : List Char)
  | left
  | right
  | operator (op : Operator)

def sign (minus : Bool) : List Char := if minus then ['-'] else []

namespace Lexeme

def text : Lexeme → List Char
  | number minus digits => sign minus ++ digits
  | hex minus digits => sign minus ++ '0' :: 'x' :: digits
  | register name => '$' :: name
  | left => ['(']
  | right => [')']
  | operator op => op.text

/-- The tokens that are to come of it, `first` where none are before it. -/
def tokens (first : Bool) : Lexeme → List Token
  | number minus digits =>
    if minus && first then [⟨.TK_SUB, []⟩, ⟨.NUM, digits⟩] else [⟨.NUM, sign minus ++ digits⟩]
  | hex _ digits => [⟨.HEX_NUM, '0' :: 'x' :: digits⟩]
  | register name => [⟨.REG_NAME, name⟩]
  | left => [⟨.TK_LBRACKET, []⟩]
  | right => [⟨.TK_RBRACKET, []⟩]
  | operator op => [⟨op.type, []⟩]

def ends : Lexeme → Bool
  | number _ _ | hex _ _ | register _ | right => true
  | left | operator _ => false

/-- A decimal number or a bracket, behind which a minus is an operator in any case. -/
def endsPlain : Lexeme → Bool
  | number _ _ | right => true
  | hex _ _ | register _ | left | operator _ => false

end Lexeme

/-- The lexemes, each behind so many spaces, and the spaces behind the last. -/
def spell (last : Nat) : List (Nat × Lexeme) → List Char
  | [] => .replicate last ' '
  | (n, x) :: items => .replicate n ' ' ++ (x.text ++ spell last items)

def tokensFrom : Bool → List Lexeme → List Token
  | _, [] => []
  | first, x :: xs => x.tokens first ++ tokensFrom false xs

section Match

open Regex Piece

variable {s d : List Char} {c : Char} {n : Nat}

theorem longest_number_none (hc : c ≠ '-') (hd : isDigit c = false) :
    longest [optional '-', repeated isDigit] (c :: s) = none := by
  rw [longest_optional_of_ne (by simpa using hc), longest_repeated]
  simp [hd]

theorem takeWhile_append_of_head {cls : Char → Bool} (hd : ∀ c ∈ d, cls c)
    (hs : ∀ c ∈ s.head?, cls c = false) : (d ++ s).takeWhile cls = d := by
  rw [List.takeWhile_append_of_pos hd]
  cases s with
  | nil => simp
  | cons c s => simp [hs c rfl]

theorem longest_run {cls : Char → Bool} (hne : d ≠ []) (hd : ∀ c ∈ d, cls c)
    (hs : ∀ c ∈ s.head?, cls c = false) : longest [repeated cls] (d ++ s) = some d.length := by
  rw [longest_repeated, takeWhile_append_of_head hd hs, if_neg hne]

theorem ne_of_isDigit (hc : isDigit c) {a : Char} (ha : isDigit a = false) : c ≠ a := by
  rintro rfl
  rw [hc] at ha
  cases ha

theorem longest_number (minus : Bool) (hne : d ≠ []) (hd : ∀ c ∈ d, isDigit c)
    (hs : ∀ c ∈ s.head?, isDigit c = false) :
    longest [optional '-', repeated isDigit] (sign minus ++ d ++ s) =
      some (sign minus ++ d).length := by
  have hrun := longest_run hne hd hs
  cases minus with
  | true =>
    have hnone : longest [repeated isDigit] ('-' :: (d ++ s)) = none := by
      rw [longest_repeated]
      rfl
    have hopt := longest_optional hnone
    rw [hrun] at hopt
    simpa [sign, add_comm] using hopt
  | false =>
    cases d with
    | nil => exact absurd rfl hne
    | cons c d =>
      have hc : c ≠ '-' := ne_of_isDigit (hd c (by simp)) (by decide)
      simp only [sign, Bool.false_eq_true, if_false, List.nil_append] at hrun ⊢
      rw [longest_optional_of_ne (by simpa using hc), hrun]

theorem longest_spaces_none (hc : c ≠ ' ') : longest [repeated (· == ' ')] (c :: s) = none := by
  rw [longest_repeated]
  simp [hc]

theorem firstMatch_spaces (hs : s.head? ≠ some ' ') :
    firstMatch (.replicate (n + 1) ' ' ++ s) = some (.TK_NOTYPE, n + 1) := by
  have hend : ∀ c ∈ s.head?, (c == ' ') = false := by
    intro c hc
    rw [beq_eq_false_iff_ne]
    rintro rfl
    exact hs hc
  have hrun : longest [repeated (· == ' ')] (List.replicate (n + 1) ' ' ++ s) =
      some (List.replicate (n + 1) ' ').length := longest_run (by simp) (by simp) hend
  simp only [firstMatch, rules, List.findSome?_cons, hrun]
  simp

theorem longest_hex_none (hd : ∀ c ∈ d, isDigit c) (hs : ∀ c ∈ s.head?, c ≠ 'x') :
    longest [char '0', char 'x', repeated isHexClass] (c :: (d ++ s)) = none := by
  have hx : longest [char 'x', repeated isHexClass] (d ++ s) = none := by
    cases d with
    | nil =>
      cases s with
      | nil => exact longest_char_nil
      | cons a s => rw [List.nil_append, longest_char, if_neg (hs a rfl)]
    | cons a d =>
      rw [List.cons_append, longest_char, if_neg (ne_of_isDigit (hd a (by simp)) (by decide))]
  rw [longest_char, hx]
  simp

theorem firstMatch_number (minus : Bool) (hne : d ≠ []) (hd : ∀ c ∈ d, isDigit c)
    (hs : ∀ c ∈ s.head?, isDigit c = false ∧ c ≠ 'x') :
    firstMatch (sign minus ++ d ++ s) = some (.NUM, (sign minus ++ d).length) := by
  have hnum := longest_number minus hne hd fun c hc => (hs c hc).1
  simp only [firstMatch, rules, List.findSome?_cons, hnum]
  cases minus with
  | true =>
    rw [show sign true ++ d ++ s = '-' :: (d ++ s) from rfl, longest_spaces_none (by decide),
      longest_char]
    simp
  | false =>
    cases d with
    | nil => exact absurd rfl hne
    | cons c d =>
      rw [show sign false ++ c :: d ++ s = c :: (d ++ s) from rfl,
        longest_spaces_none (ne_of_isDigit (hd c (by simp)) (by decide)),
        longest_hex_none (fun a ha => hd a (by simp [ha])) fun a ha => (hs a ha).2]
      simp

theorem firstMatch_hex (hne : d ≠ []) (hd : ∀ c ∈ d, isHexClass c)
    (hs : ∀ c ∈ s.head?, isHexClass c = false) :
    firstMatch ('0' :: 'x' :: (d ++ s)) = some (.HEX_NUM, d.length + 2) := by
  have hrun := longest_run hne hd hs
  simp only [firstMatch, rules, List.findSome?_cons, longest_char, if_true, hrun]
  rw [longest_spaces_none (by decide)]
  simp
  omega

theorem firstMatch_register {name : List Char} (hlen : name.length = 2)
    (hname : ∀ c ∈ name, isLower c || isDigit c) :
    firstMatch ('$' :: (name ++ s)) = some (.REG_NAME, 3) := by
  have hrun : longest [exactly 2 fun c => isLower c || isDigit c] (name ++ s) = some 2 := by
    rw [longest_exactly, List.takeWhile_append_of_pos hname, List.length_append, if_pos (by omega)]
  have hnum := longest_number_none (s := name ++ s) (by decide : '$' ≠ '-') (by decide)
  simp only [firstMatch, rules, List.findSome?_cons, longest_char, if_true, hrun, hnum]
  rw [longest_spaces_none (by decide)]
  simp

theorem firstMatch_left : firstMatch ('(' :: s) = some (.TK_LBRACKET, 1) := by
  have hnum := longest_number_none (s := s) (by decide : '(' ≠ '-') (by decide)
  simp [firstMatch, rules, longest_spaces_none, hnum]

theorem firstMatch_right : firstMatch (')' :: s) = some (.TK_RBRACKET, 1) := by
  have hnum := longest_number_none (s := s) (by decide : ')' ≠ '-') (by decide)
  simp [firstMatch, rules, longest_spaces_none, hnum]

theorem firstMatch_operator (op : Operator) (hs : op = .sub → ∀ c ∈ s.head?, isDigit c = false) :
    firstMatch (op.text ++ s) = some (op.type, op.text.length) := by
  cases op
  case sub =>
    have hnum : longest [optional '-', repeated isDigit] ('-' :: s) = none := by
      have hrun : longest [repeated isDigit] s = none := by
        rw [longest_repeated]
        cases s with
        | nil => rfl
        | cons c s => simp [hs rfl c rfl]
      rw [longest_optional, hrun]
      · rfl
      · rw [longest_repeated]
        rfl
    simp [firstMatch, rules, longest_spaces_none, hnum, Operator.text, Operator.type]
  all_goals
    simp [firstMatch, rules, longest_spaces_none, longest_number_none, isDigit, Operator.text,
      Operator.type]

end Match

namespace Lexeme

def begins : Lexeme → Bool
  | number _ _ | hex _ _ | register _ | left => true
  | right | operator _ => false

/-- What the rules and the buffers of `make_token` provide for. -/
def Supported : Lexeme → Prop
  | number minus digits => digits ≠ [] ∧ (∀ c ∈ digits, isDigit c) ∧
    (sign minus ++ digits).length < 32
  | hex minus digits => minus = false ∧ digits ≠ [] ∧ (∀ c ∈ digits, isHexDigit c) ∧
    digits.length + 2 < 32
  | register name => name.length = 2 ∧ ∀ c ∈ name, isLower c || isDigit c
  | left | right | operator _ => True

/-- `y` may stand right behind `x`, with `prev` before them. -/
def Adjacent (prev : Option Lexeme) : Lexeme → Lexeme → Prop
  | operator .sub, number false digits => prev.any endsPlain ∧ digits.length + 1 < 32
  | operator .sub, hex _ _ => False
  | hex _ _, operator .or => False
  | _, _ => True

end Lexeme

def Alternates : Option Lexeme → List Lexeme → Prop
  | _, [] => True
  | prev, x :: xs => x.begins = !prev.any Lexeme.ends ∧ Alternates (some x) xs

def Spaced : Option Lexeme → List (Nat × Lexeme) → Prop
  | _, [] => True
  | _, [_] => True
  | prev, (_, x) :: (n, y) :: items =>
    (n = 0 → Lexeme.Adjacent prev x y) ∧ Spaced (some x) ((n, y) :: items)

/-- The loop of `make_token` comes from some tokens and the rest of the string to others. -/
def Lexes (tokens : List Token) (e : List Char) (tokens' : List Token) (e' : List Char) : Prop :=
  e'.length ≤ e.length ∧ ∀ turns position, e.length ≤ turns → position + e.length < 2 ^ 31 →
    ∃ turns', e'.length ≤ turns' ∧ makeTokenFrom turns position tokens e =
      makeTokenFrom turns' (position + (e.length - e'.length)) tokens' e'

section Loop

variable {tokens tokens' tokens'' : List Token} {e e' e'' s x : List Char} {type : TokenType}
  {prev : Option Lexeme} {last : Nat}

theorem Lexes.refl : Lexes tokens e tokens e := by
  refine ⟨le_rfl, fun turns position hturns _ => ⟨turns, hturns, ?_⟩⟩
  rw [Nat.sub_self, Nat.add_zero]

theorem Lexes.trans (h : Lexes tokens e tokens' e') (h' : Lexes tokens' e' tokens'' e'') :
    Lexes tokens e tokens'' e'' := by
  obtain ⟨hle, h⟩ := h
  obtain ⟨hle', h'⟩ := h'
  refine ⟨hle'.trans hle, fun turns position hturns hpos => ?_⟩
  obtain ⟨turns', hturns', heq⟩ := h turns position hturns hpos
  obtain ⟨turns'', hturns'', heq'⟩ :=
    h' turns' (position + (e.length - e'.length)) hturns' (by omega)
  refine ⟨turns'', hturns'', heq.trans (heq'.trans ?_)⟩
  congr 1
  omega

theorem lexes_step (hne : x ≠ []) (h : firstMatch (x ++ s) = some (type, x.length))
    (hrec : recordToken type x tokens = .ok tokens') : Lexes tokens (x ++ s) tokens' s := by
  have hlen := List.length_pos_iff.2 hne
  refine ⟨by simp, fun turns position hturns hpos => ?_⟩
  rw [List.length_append] at hturns hpos ⊢
  obtain ⟨turns, rfl⟩ : ∃ k, turns = k + 1 := ⟨turns - 1, by omega⟩
  refine ⟨turns, by omega, ?_⟩
  cases hx : x ++ s with
  | nil => exact absurd (List.append_eq_nil_iff.1 hx).1 hne
  | cons c rest =>
    rw [makeTokenFrom, ← hx, h]
    simp only
    rw [if_pos (by omega), List.take_left, hrec, List.drop_left, Nat.add_sub_cancel]
    rfl

theorem lexes_spaces (n : Nat) (hs : s.head? ≠ some ' ') :
    Lexes tokens (.replicate n ' ' ++ s) tokens s := by
  cases n with
  | zero => exact .refl
  | succ n =>
    refine lexes_step (by simp) ?_ (by rfl : recordToken .TK_NOTYPE _ tokens = _)
    rw [firstMatch_spaces hs, List.length_replicate]

def After (tokens : List Token) : Option Lexeme → Prop
  | none => tokens = []
  | some x => multiplies tokens = x.ends ∧ splitsMinus tokens = x.endsPlain

theorem after_append (first : Bool) (x : Lexeme) : After (tokens ++ x.tokens first) (some x) := by
  cases x with
  | number minus digits =>
    cases minus <;> cases first <;>
      simp [After, multiplies, splitsMinus, Lexeme.tokens, Lexeme.ends, Lexeme.endsPlain]
  | hex _ _ | register _ | left | right =>
    simp [After, multiplies, splitsMinus, Lexeme.tokens, Lexeme.ends, Lexeme.endsPlain]
  | operator op =>
    cases op <;> simp [After, multiplies, splitsMinus, Lexeme.tokens, Lexeme.ends,
      Lexeme.endsPlain, Operator.type]

theorem After.splitsMinus (h : After tokens prev) (hends : prev.any Lexeme.ends = false) :
    splitsMinus tokens = prev.isNone := by
  cases prev with
  | none =>
    obtain rfl : tokens = [] := h
    rfl
  | some x =>
    rw [h.2]
    cases x <;> simp_all [Lexeme.ends, Lexeme.endsPlain]

theorem addToken_of_lt {tok : Token} (h : tokens.length < maxTokens) :
    addToken tokens tok = .ok (tokens ++ [tok]) := if_pos h

def Closed (s : List Char) : Lexeme → Prop
  | .number _ _ => ∀ c ∈ s.head?, isDigit c = false ∧ c ≠ 'x'
  | .hex _ _ => ∀ c ∈ s.head?, isHexClass c = false
  | .operator .sub => ∀ c ∈ s.head?, isDigit c = false
  | _ => True

theorem recordToken_number {minus : Bool} {digits : List Char}
    (hsplits : splitsMinus tokens = prev.isNone) (hne : digits ≠ [])
    (hd : ∀ c ∈ digits, isDigit c) (hlen : (sign minus ++ digits).length < 32)
    (hmax : tokens.length + ((Lexeme.number minus digits).tokens prev.isNone).length ≤ maxTokens) :
    recordToken .NUM (sign minus ++ digits) tokens =
      .ok (tokens ++ (Lexeme.number minus digits).tokens prev.isNone) := by
  rw [recordToken, if_pos hlen, hsplits]
  cases hfirst : prev.isNone && minus with
  | true =>
    obtain ⟨hnone, rfl⟩ := Bool.and_eq_true_iff.1 hfirst
    rw [hnone] at hmax ⊢
    have hlt : tokens.length + 2 ≤ maxTokens := hmax
    have hadd : addToken tokens ⟨.TK_SUB, []⟩ = .ok (tokens ++ [⟨.TK_SUB, []⟩]) :=
      addToken_of_lt (by omega)
    have hadd' : addToken (tokens ++ [⟨.TK_SUB, []⟩]) ⟨.NUM, digits⟩ =
        .ok (tokens ++ [⟨.TK_SUB, []⟩] ++ [⟨.NUM, digits⟩]) :=
      addToken_of_lt (by rw [List.length_append, List.length_singleton]; omega)
    rw [if_pos (by simp [sign]), hadd]
    change addToken (tokens ++ [⟨.TK_SUB, []⟩]) ⟨.NUM, digits⟩ = _
    rw [hadd', List.append_assoc]
    rfl
  | false =>
    have hhead : ((sign minus ++ digits).head? == some '-') = minus := by
      cases minus with
      | true => rfl
      | false =>
        cases digits with
        | nil => exact absurd rfl hne
        | cons c d =>
          have hc := ne_of_isDigit (hd c (by simp)) (by decide : isDigit '-' = false)
          simpa [sign] using hc
    have htokens : (Lexeme.number minus digits).tokens prev.isNone =
        [⟨.NUM, sign minus ++ digits⟩] := by
      rw [Lexeme.tokens, Bool.and_comm, hfirst, if_neg Bool.false_ne_true]
    rw [htokens, List.length_singleton] at hmax
    rw [hhead, hfirst, if_neg Bool.false_ne_true, addToken_of_lt (by omega), htokens]

theorem lexes_lexeme {x : Lexeme} (hafter : After tokens prev) (hsup : x.Supported)
    (hbegins : x.begins = !prev.any Lexeme.ends) (hclosed : Closed s x)
    (hmax : tokens.length + (x.tokens prev.isNone).length ≤ maxTokens) :
    Lexes tokens (x.text ++ s) (tokens ++ x.tokens prev.isNone) s := by
  cases x with
  | number minus digits =>
    obtain ⟨hne, hd, hlen⟩ := hsup
    have hsplits := hafter.splitsMinus (by simpa [Lexeme.begins] using hbegins.symm)
    exact lexes_step (by simp [Lexeme.text, hne]) (firstMatch_number minus hne hd hclosed)
      (recordToken_number hsplits hne hd hlen hmax)
  | hex minus digits =>
    obtain ⟨rfl, hne, hd, hlen⟩ := hsup
    have hclass : ∀ c ∈ digits, isHexClass c := by
      intro c hc
      have hdigit := hd c hc
      rw [isHexDigit, Bool.or_eq_true] at hdigit
      simp only [isHexClass, Bool.or_eq_true]
      exact hdigit.imp_left .inl
    have hlt : ('0' :: 'x' :: digits).length < 32 := hlen
    refine lexes_step (x := '0' :: 'x' :: digits) (by simp) (firstMatch_hex hne hclass hclosed) ?_
    rw [recordToken, if_pos hlt]
    exact addToken_of_lt hmax
  | register name =>
    obtain ⟨hlen, hname⟩ := hsup
    refine @lexes_step tokens _ s ('$' :: name) .REG_NAME (by simp) ?_ ?_
    · rw [List.length_cons, hlen]
      exact firstMatch_register hlen hname
    · rw [recordToken, if_pos (by simp)]
      exact addToken_of_lt hmax
  | left => exact lexes_step (x := ['(']) (by simp) firstMatch_left (addToken_of_lt hmax)
  | right => exact lexes_step (x := [')']) (by simp) firstMatch_right (addToken_of_lt hmax)
  | operator op =>
    have hsub : op = .sub → ∀ c ∈ s.head?, isDigit c = false := by
      rintro rfl
      exact hclosed
    have hmult : multiplies tokens = true := by
      have hends : prev.any Lexeme.ends = true := by simpa [Lexeme.begins] using hbegins
      cases prev with
      | none => cases hends
      | some x => exact hafter.1.trans hends
    refine lexes_step (by cases op <;> simp [Lexeme.text, Operator.text])
      (firstMatch_operator op hsub) ?_
    have hadd : addToken tokens ⟨op.type, []⟩ = .ok (tokens ++ [⟨op.type, []⟩]) :=
      addToken_of_lt hmax
    cases op
    case mul =>
      change addToken tokens ⟨if multiplies tokens then .TK_MULT else .DEREF, []⟩ = _
      rw [hmult]
      exact hadd
    all_goals exact hadd

theorem lexes_minus {digits : List Char} (hafter : After tokens prev)
    (hplain : prev.any Lexeme.endsPlain) (hsup : (Lexeme.number false digits).Supported)
    (hlen : digits.length + 1 < 32) (hclosed : Closed s (.number false digits))
    (hmax : tokens.length + 2 ≤ maxTokens) :
    Lexes tokens ('-' :: (digits ++ s)) (tokens ++ [⟨.TK_SUB, []⟩, ⟨.NUM, digits⟩]) s := by
  obtain ⟨hne, hd, -⟩ := hsup
  have hsplits : splitsMinus tokens = true := by
    cases prev with
    | none => cases hplain
    | some x => exact hafter.2.trans hplain
  have hlt : (sign true ++ digits).length < 32 := by
    simp only [sign, if_true, List.length_append, List.length_singleton]
    omega
  refine lexes_step (x := sign true ++ digits) (by simp [sign])
    (firstMatch_number true hne hd hclosed) ?_
  have hafter' : splitsMinus tokens = (none : Option Lexeme).isNone := hsplits
  exact recordToken_number hafter' hne hd hlt hmax

theorem closed_of_head {x : Lexeme} (h : ∀ c ∈ s.head?, c = ' ') : Closed s x := by
  cases x with
  | number _ _ =>
    intro c hc
    obtain rfl := h c hc
    decide
  | hex _ _ =>
    intro c hc
    obtain rfl := h c hc
    decide
  | operator op =>
    cases op
    case sub =>
      intro c hc
      obtain rfl := h c hc
      decide
    all_goals trivial
  | register _ | left | right => trivial

theorem operator_head (op : Operator) : ∃ c rest, op.text = c :: rest ∧ c ≠ ' ' ∧ c ≠ 'x' ∧
    isDigit c = false ∧ (op ≠ .or → isHexClass c = false) := by
  cases op <;> exact ⟨_, _, rfl, by decide, by decide, by decide, by decide⟩

theorem closed_text {x y : Lexeme} (hadj : Lexeme.Adjacent prev x y)
    (hturn : y.begins = !x.ends)
    (hminus : ∀ digits, ¬(x = .operator .sub ∧ y = .number false digits)) :
    Closed (y.text ++ s) x := by
  cases x with
  | register _ | left | right => trivial
  | number _ _ =>
    cases y with
    | number _ _ | hex _ _ | register _ | left => cases hturn
    | right =>
      rintro _ ⟨⟩
      decide
    | operator op =>
      obtain ⟨c, rest, htext, -, hx, hdigit, -⟩ := operator_head op
      rw [Lexeme.text, htext]
      rintro _ ⟨⟩
      exact ⟨hdigit, hx⟩
  | hex _ _ =>
    cases y with
    | number _ _ | hex _ _ | register _ | left => cases hturn
    | right =>
      rintro _ ⟨⟩
      decide
    | operator op =>
      obtain ⟨c, rest, htext, -, -, -, hclass⟩ := operator_head op
      rw [Lexeme.text, htext]
      rintro _ ⟨⟩
      refine hclass ?_
      rintro rfl
      exact hadj
  | operator op =>
    cases op
    case sub =>
      cases y with
      | right | operator _ => cases hturn
      | hex _ _ => exact hadj.elim
      | number minus digits =>
        cases minus with
        | false => exact absurd ⟨rfl, rfl⟩ (hminus digits)
        | true =>
          rintro _ ⟨⟩
          decide
      | register _ | left =>
        rintro _ ⟨⟩
        decide
    all_goals trivial

theorem text_head {x : Lexeme} (h : x.Supported) : (x.text ++ s).head? ≠ some ' ' := by
  cases x with
  | number minus digits =>
    obtain ⟨hne, hd, -⟩ := h
    cases minus with
    | true => simp [Lexeme.text, sign]
    | false =>
      cases digits with
      | nil => exact absurd rfl hne
      | cons c d =>
        have hc := ne_of_isDigit (hd c (by simp)) (by decide : isDigit ' ' = false)
        simpa [Lexeme.text, sign] using hc
  | hex minus digits =>
    obtain ⟨rfl, -⟩ := h
    simp [Lexeme.text, sign]
  | register _ | left | right => simp [Lexeme.text]
  | operator op =>
    obtain ⟨c, rest, htext, hc, -⟩ := operator_head op
    simpa [Lexeme.text, htext] using hc

theorem closed_spell {x : Lexeme} {n : Nat} {items : List (Nat × Lexeme)}
    (halt : Alternates (some x) (items.map Prod.snd)) (hspaced : Spaced prev ((n, x) :: items))
    (hminus : ∀ digits rest, ¬(x = .operator .sub ∧ items = (0, .number false digits) :: rest)) :
    Closed (spell last items) x := by
  cases items with
  | nil =>
    refine closed_of_head fun c hc => ?_
    cases last with
    | zero => cases hc
    | succ last =>
      obtain rfl := Option.some.inj hc
      rfl
  | cons item rest =>
    obtain ⟨m, y⟩ := item
    cases m with
    | succ m =>
      refine closed_of_head fun c hc => ?_
      obtain rfl := Option.some.inj hc
      rfl
    | zero =>
      refine closed_text (hspaced.1 rfl) halt.1 fun digits => ?_
      rintro ⟨rfl, rfl⟩
      exact hminus digits rest ⟨rfl, rfl⟩

theorem Spaced.tail {i : Nat × Lexeme} {items : List (Nat × Lexeme)}
    (h : Spaced prev (i :: items)) : Spaced (some i.2) items := by
  cases items with
  | nil => trivial
  | cons item items => exact h.2

theorem lexes_spell {items : List (Nat × Lexeme)} (hafter : After tokens prev)
    (hsup : ∀ i ∈ items, i.2.Supported) (halt : Alternates prev (items.map Prod.snd))
    (hspaced : Spaced prev items)
    (hmax : tokens.length + (tokensFrom prev.isNone (items.map Prod.snd)).length ≤ maxTokens) :
    Lexes tokens (spell last items) (tokens ++ tokensFrom prev.isNone (items.map Prod.snd)) [] := by
  induction hlen : items.length using Nat.strong_induction_on generalizing items prev tokens with
  | _ len ih =>
    cases items with
    | nil =>
      have hspaces := @lexes_spaces tokens [] last (by simp)
      simpa [tokensFrom, spell] using hspaces
    | cons item items =>
      obtain ⟨n, x⟩ := item
      have hx : x.Supported := hsup (n, x) (by simp)
      simp only [List.map_cons, tokensFrom, List.length_append] at halt hmax ⊢
      refine (lexes_spaces n (text_head hx)).trans ?_
      by_cases hminus : ∃ digits rest, x = .operator .sub ∧
          items = (0, .number false digits) :: rest
      · obtain ⟨digits, rest, rfl, rfl⟩ := hminus
        obtain ⟨hplain, hdigits⟩ := hspaced.1 rfl
        have hnum := hsup (0, .number false digits) (by simp)
        simp only [List.map_cons, tokensFrom, List.length_append] at halt hmax ⊢
        have hminus_len : ((Lexeme.operator .sub).tokens prev.isNone).length = 1 := rfl
        have hnum_len : ((Lexeme.number false digits).tokens false).length = 1 := rfl
        have hclosed : Closed (spell last rest) (.number false digits) :=
          closed_spell halt.2.2 hspaced.tail fun _ _ h => nomatch h.1
        refine (lexes_minus hafter hplain hnum hdigits hclosed (by omega)).trans ?_
        have hrest := ih rest.length (by simp only [← hlen, List.length_cons]; omega)
          (@after_append (tokens ++ [⟨.TK_SUB, []⟩]) false (.number false digits))
          (fun i hi => hsup i (by simp [hi])) halt.2.2 hspaced.tail.tail
          (by
            simp only [List.length_append, List.length_singleton, Option.isNone_some]
            omega) rfl
        simpa [Lexeme.tokens, sign, Operator.type] using hrest
      · have hclosed : Closed (spell last items) x :=
          closed_spell halt.2 hspaced fun digits rest h => hminus ⟨digits, rest, h⟩
        refine (lexes_lexeme hafter hx halt.1 hclosed (by omega)).trans ?_
        rw [← List.append_assoc]
        exact ih items.length (by simp [← hlen]) (after_append prev.isNone x)
          (fun i hi => hsup i (by simp [hi])) halt.2 hspaced.tail
          (by
            simp only [List.length_append, Option.isNone_some]
            omega) rfl

theorem makeToken_spell {items : List (Nat × Lexeme)} (hsup : ∀ i ∈ items, i.2.Supported)
    (halt : Alternates none (items.map Prod.snd)) (hspaced : Spaced none items)
    (hmax : (tokensFrom true (items.map Prod.snd)).length ≤ maxTokens)
    (hlen : (spell last items).length < 2 ^ 31) :
    makeToken (spell last items) = .ok (some (tokensFrom true (items.map Prod.snd))) := by
  obtain ⟨-, h⟩ := @lexes_spell [] none last items rfl hsup halt hspaced (by simpa using hmax)
  obtain ⟨turns', -, heq⟩ := h _ 0 le_rfl (by omega)
  rw [makeToken, heq, List.nil_append]
  cases turns' <;> rfl

end Loop

end FpgaNpc.Sdb
