import FpgaNpc.Hardware.Chisel
import FpgaNpc.Software.Regex

open FpgaNpc.Hardware FpgaNpc.Software

namespace FpgaNpc.Sdb

inductive TokenType
  | TK_NOTYPE | NUM | HEX_NUM | REG_NAME | TK_OR | TK_AND | TK_EQ | TK_UEQ | TK_PLUS | TK_SUB
  | TK_MULT | TK_DIV | DEREF | PLACE_HOLDER1 | TK_LBRACKET | TK_RBRACKET
  deriving DecidableEq

def TokenType.code : TokenType → Nat
  | .TK_NOTYPE => 256
  | .NUM => 257
  | .HEX_NUM => 258
  | .REG_NAME => 259
  | .TK_OR => 260
  | .TK_AND => 261
  | .TK_EQ => 262
  | .TK_UEQ => 263
  | .TK_PLUS => 264
  | .TK_SUB => 265
  | .TK_MULT => 266
  | .TK_DIV => 267
  | .DEREF => 268
  | .PLACE_HOLDER1 => 269
  | .TK_LBRACKET => 270
  | .TK_RBRACKET => 271

def TokenType.isOperand : TokenType → Bool
  | .NUM | .HEX_NUM | .REG_NAME => true
  | _ => false

structure Token where
  type : TokenType
  str : List Char
  deriving DecidableEq

/-- What keeps a call from returning. -/
inductive Fault
  | assertFails
  /-- An index beyond the end of `tokens`. -/
  | bounds
  /-- A local variable is read that nothing has been stored in. -/
  | uninitialized
  /-- The position in the string does not fit an `int`. -/
  | overflow
  /-- The quotient of a division does not fit an `int`. -/
  | trap
  /-- The stack has room for so many calls. -/
  | deep
  deriving DecidableEq

section Tokens

open Regex Piece

def isDigit (c : Char) : Bool := '0' ≤ c && c ≤ '9'

def isLower (c : Char) : Bool := 'a' ≤ c && c ≤ 'z'

/-- The class `[0-9|a-f]`, in which the bar is a member. -/
def isHexClass (c : Char) : Bool := isDigit c || c == '|' || 'a' ≤ c && c ≤ 'f'

def rules : List (List Piece × TokenType) :=
  [([repeated (· == ' ')], .TK_NOTYPE),
    ([char '0', char 'x', repeated isHexClass], .HEX_NUM),
    ([optional '-', repeated isDigit], .NUM),
    ([char '$', exactly 2 fun c => isLower c || isDigit c], .REG_NAME),
    ([char '('], .TK_LBRACKET),
    ([char ')'], .TK_RBRACKET),
    ([char '+'], .TK_PLUS),
    ([char '-'], .TK_SUB),
    ([char '*'], .TK_MULT),
    ([char '/'], .TK_DIV),
    ([char '=', char '='], .TK_EQ),
    ([char '!', char '='], .TK_UEQ),
    ([char '&', char '&'], .TK_AND),
    ([char '|', char '|'], .TK_OR)]

def firstMatch (e : List Char) : Option (TokenType × Nat) :=
  rules.findSome? fun rule => (longest rule.1 e).map (rule.2, ·)

def maxTokens : Nat := 1024

def addToken (tokens : List Token) (t : Token) : Except Fault (List Token) :=
  if tokens.length < maxTokens then .ok (tokens ++ [t]) else .error .bounds

def splitsMinus (tokens : List Token) : Bool :=
  match tokens.getLast? with
  | none => true
  | some t => t.type == .NUM || t.type == .TK_RBRACKET

def multiplies (tokens : List Token) : Bool :=
  match tokens.getLast? with
  | none => false
  | some t => t.type == .NUM || t.type == .TK_RBRACKET || t.type == .HEX_NUM || t.type == .REG_NAME

def recordToken (type : TokenType) (substr : List Char) (tokens : List Token) :
    Except Fault (List Token) :=
  match type with
  | .NUM =>
    if substr.length < 32 then
      if splitsMinus tokens && substr.head? == some '-' then do
        let tokens ← addToken tokens ⟨.TK_SUB, []⟩
        addToken tokens ⟨.NUM, substr.tail⟩
      else addToken tokens ⟨.NUM, substr⟩
    else .error .assertFails
  | .HEX_NUM =>
    if substr.length < 32 then addToken tokens ⟨.HEX_NUM, substr⟩ else .error .assertFails
  | .REG_NAME =>
    if substr.head? == some '$' then addToken tokens ⟨.REG_NAME, substr.tail⟩
    else .error .assertFails
  | .TK_NOTYPE => .ok tokens
  | .TK_MULT => addToken tokens ⟨if multiplies tokens then .TK_MULT else .DEREF, []⟩
  | type => addToken tokens ⟨type, []⟩

/-- The loop of `make_token` at `position`, with `e` what is left of the string and at most `turns`
turns to go: nothing where no rule matches. -/
def makeTokenFrom : Nat → Nat → List Token → List Char → Except Fault (Option (List Token))
  | _, _, tokens, [] => .ok (some tokens)
  | 0, _, _, _ :: _ => .error .deep
  | turns + 1, position, tokens, c :: e =>
    match firstMatch (c :: e) with
    | none => .ok none
    | some (type, substr_len) =>
      if position + substr_len < 2 ^ 31 then do
        let tokens ← recordToken type ((c :: e).take substr_len) tokens
        makeTokenFrom turns (position + substr_len) tokens ((c :: e).drop substr_len)
      else .error .overflow

def makeToken (e : List Char) : Except Fault (Option (List Token)) :=
  makeTokenFrom e.length 0 [] e

end Tokens

section Scans

variable (tokens : List Token)

/-- The type in an entry of the array, which is 0 in those that hold no token. -/
def typeAt (i : Nat) : Nat := (tokens[i]?).elim 0 (·.type.code)

/-- The loop of `check_parentheses`, which sets `flag` for a bracket closed before the end. -/
def checkLoop : Int → Bool → List Token → Int × Bool
  | cnt, flag, [] => (cnt, flag)
  | cnt, flag, t :: rest =>
    match t.type with
    | .TK_LBRACKET => checkLoop (cnt + 1) flag rest
    | .TK_RBRACKET =>
      if cnt - 1 < 0 then (cnt - 1, flag)
      else checkLoop (cnt - 1) (flag || cnt - 1 == 0 && !rest.isEmpty) rest
    | _ => checkLoop cnt flag rest

/-- The answer, and what is stored in `bad`, if anything. -/
def checkParentheses (p q : Nat) : Bool × Option Bool :=
  if typeAt tokens p == TokenType.TK_LBRACKET.code && typeAt tokens q == TokenType.TK_RBRACKET.code
  then
    let (cnt, flag) := checkLoop 0 false ((tokens.drop p).take (q + 1 - p))
    if cnt = 0 then (!flag, some false) else (false, some true)
  else (false, none)

def closing : Int → List Token → Nat
  | _, [] => 0
  | cnt, t :: rest =>
    let cnt := match t.type with
      | .TK_LBRACKET => cnt + 1
      | .TK_RBRACKET => cnt - 1
      | _ => cnt
    if cnt = 0 then 0 else closing cnt rest + 1

def isOperandAt (i : Nat) : Bool :=
  typeAt tokens i == TokenType.NUM.code || typeAt tokens i == TokenType.HEX_NUM.code ||
    typeAt tokens i == TokenType.REG_NAME.code

def becomesMain (p main i : Nat) : Bool :=
  decide (typeAt tokens i ≤ typeAt tokens main) ||
    (typeAt tokens i &&& 0xffffffffe) == (typeAt tokens main &&& 0xfffffffe) ||
      main == p && isOperandAt tokens main

/-- The loop of `get_main_operation_index` at `i`, with at most `turns` turns to go. -/
def mainFrom (p q : Nat) : Nat → Nat → Nat → Except Fault Nat
  | 0, _, main => .ok main
  | turns + 1, i, main =>
    if i < q then
      if isOperandAt tokens i then mainFrom p q turns (i + 1) main
      else
        let i := if typeAt tokens i = TokenType.TK_LBRACKET.code then
          i + closing 0 (tokens.drop i) else i
        if i < maxTokens then
          mainFrom p q turns (i + 1) (if becomesMain tokens p main i then i else main)
        else .error .bounds
    else .ok main

def getMainOperationIndex (p q : Nat) : Except Fault Nat := mainFrom tokens p q (q - p) p p

end Scans

section Eval

structure Cpu where
  pc_if : Word
  gpr : Fin 32 → Word

def regs : List (List Char) :=
  [['$', '0'], ['r', 'a'], ['s', 'p'], ['g', 'p'], ['t', 'p'], ['t', '0'], ['t', '1'], ['t', '2'],
    ['s', '0'], ['s', '1'], ['a', '0'], ['a', '1'], ['a', '2'], ['a', '3'], ['a', '4'], ['a', '5'],
    ['a', '6'], ['a', '7'], ['s', '2'], ['s', '3'], ['s', '4'], ['s', '5'], ['s', '6'], ['s', '7'],
    ['s', '8'], ['s', '9'], ['s', '1', '0'], ['s', '1', '1'], ['t', '3'], ['t', '4'], ['t', '5'],
    ['t', '6']]

def isaRegStr2val (cpu : Cpu) (s : List Char) : Option Word :=
  if s = ['p', 'c'] then some cpu.pc_if
  else (regs.finIdxOf? s).map fun i => cpu.gpr i

def digit (c : Char) : Nat := c.toNat - '0'.toNat

def decimal (s : List Char) : Nat := s.foldl (fun n c => 10 * n + digit c) 0

/-- `(int) strtol`, which saturates at 64 bits. -/
def atoi (s : List Char) : Word :=
  match s with
  | '-' :: s => BitVec.ofInt 32 (max (-(decimal (s.takeWhile isDigit) : Int)) (-2 ^ 63))
  | s => BitVec.ofNat 32 (min (decimal (s.takeWhile isDigit)) (2 ^ 63 - 1))

def isHexDigit (c : Char) : Bool := isDigit c || 'a' ≤ c && c ≤ 'f'

def hexDigit (c : Char) : Nat := if isDigit c then digit c else c.toNat - 'a'.toNat + 10

def hexadecimal (s : List Char) : Nat := s.foldl (fun n c => 16 * n + hexDigit c) 0

/-- `sscanf` of `%x`, which stores nothing where no digit follows the `0x`. -/
def sscanfX (s : List Char) : Option Word :=
  let digits := (s.drop 2).takeWhile isHexDigit
  if digits = [] then none else some (BitVec.ofNat 32 (min (hexadecimal digits) (2 ^ 64 - 1)))

def evalToken (cpu : Cpu) (t : Token) : Except Fault (Word × Bool) :=
  match t.type with
  | .NUM => .ok (atoi t.str, true)
  | .HEX_NUM =>
    match sscanfX t.str with
    | some result => .ok (result, true)
    | none => .error .uninitialized
  | .REG_NAME =>
    match isaRegStr2val cpu t.str with
    | some result => .ok (result, true)
    | none => .ok (0, false)
  | _ => .error .uninitialized

def ofBool (b : Bool) : Word := if b then 1 else 0

def operate (type : TokenType) (value1 value2 : Word) (success : Bool) :
    Except Fault (Word × Bool) :=
  match type with
  | .TK_PLUS => .ok (value1 + value2, success)
  | .TK_SUB => .ok (value1 - value2, success)
  | .TK_MULT => .ok (value1 * value2, success)
  | .TK_DIV =>
    if value2 ≠ 0 then
      if value1 = BitVec.intMin 32 ∧ value2 = -1 then .error .trap
      else .ok (value1.sdiv value2, success)
    else .ok (0, false)
  | .DEREF => .ok (0, success && (0x80000000 ≤ value2 && value2 ≤ 0x8fffffff))
  | .TK_EQ => .ok (ofBool (value1 == value2), success)
  | .TK_UEQ => .ok (ofBool (value1 != value2), success)
  | .TK_AND => .ok (ofBool (value1 != 0 && value2 != 0), success)
  | .TK_OR => .ok (ofBool (value1 != 0 || value2 != 0), success)
  | _ => .error .assertFails

variable (cpu : Cpu) (tokens : List Token)

/-- `eval`, on a stack with room for `depth` calls: the result, and what is then in `success`. -/
def eval : Nat → Nat → Int → Bool → Except Fault (Word × Bool)
  | 0, _, _, _ => .error .deep
  | depth + 1, p, q, success =>
    if q < p ∧ 0 ≤ q then .ok (0, false)
    else if q < 0 then .ok (0, success)
    else if p = q then
      match tokens[p]? with
      | some t => evalToken cpu t
      | none => .error .uninitialized
    else if (checkParentheses tokens p q.toNat).1 then eval depth (p + 1) (q - 1) success
    else do
      let op ← getMainOperationIndex tokens p q.toNat
      let (value1, success) ← eval depth p (op - 1) success
      let (value2, success) ← eval depth (op + 1) q success
      match tokens[op]? with
      | some t => operate t.type value1 value2 success
      | none => .error .assertFails

/-- `expr`, which leaves `success` as it is for what it calls a bad expression. -/
def expr (depth : Nat) (e : List Char) (success : Bool) : Except Fault (Word × Bool) := do
  match ← makeToken e with
  | none => .ok (0, false)
  | some tokens =>
    if (checkParentheses tokens 0 (tokens.length - 1)).2 = some true then .ok (0, success)
    else eval cpu tokens depth 0 (tokens.length - 1) true

end Eval

end FpgaNpc.Sdb
