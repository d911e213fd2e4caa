/-
# Reading a token list by an index

The grammar can be followed with the whole token list at hand and an index that says which token
comes next.  The index is moved over a token, and never over the last one.

Nothing in this says that there is a token at the index or that reading ever ends, since the loops
and the recursion stop at tokens of certain kinds only, and a move may be refused.  Asking for a
token that the list does not have gives no result here.  Each function is given a depth, which each
call and each turn of a loop takes one from, and there is no result either when it is used up: a
function that does not end is one that has no result at any depth.
-/
import Reckon.Parser

namespace Reckon

/-- A computation that reads tokens at an index: it gives a value or an error, and it leaves an
index with both, or it gives no result. -/
abbrev Walk (α : Type) := ExceptT ParseError (StateT Nat Option) α

namespace Walk

/-- What comes of reading from an index on. -/
def result {α : Type} (x : Walk α) (i : Nat) : Option (Except ParseError α × Nat) := x.run.run i

/-- No result. -/
def lost {α : Type} : Walk α := ExceptT.mk fun _ => none

variable (tokens : List Token)

/-! ## Tokens -/

/-- The token at the index. -/
def current : Walk Token :=
  ExceptT.mk fun i => (tokens[i]?).map fun t => (.ok t, i)

/-- Goes on to the next token, if there is one. -/
def advance : Walk Unit :=
  modify fun i => if i < tokens.length - 1 then i + 1 else i

/-- The error of finding a token where one of a kind is expected. -/
def unexpected (kind : TokenKind) (t : Token) : ParseError :=
  ⟨if t.kind = .eof then .unexpectedEnd (.token kind) else .unexpectedToken kind t.kind, t.position⟩

/-- Reads one token of a kind. -/
def expect (kind : TokenKind) : Walk Token := do
  let t ← current tokens
  if t.kind = kind then
    advance tokens
    return t
  else
    throw (unexpected kind t)

/-! ## Expressions -/

mutual

/-- A factor. -/
def factor : Nat → Walk Expr
  | 0 => lost
  | depth + 1 => do
    let t ← current tokens
    match t.kind with
    | .integer =>
      advance tokens
      match Numeral.int32? t.lexeme.toList with
      | some n => return .int n t.position
      | none => throw ⟨.invalidInteger t.lexeme, t.position⟩
    | .float =>
      advance tokens
      match Numeral.float32? t.lexeme.toList with
      | some x => return .float x t.position
      | none => throw ⟨.invalidFloat t.lexeme, t.position⟩
    | .plus => signed .plus depth
    | .minus => signed .minus depth
    | .lparen =>
      advance tokens
      let inner ← chain .sum depth
      let _ ← expect tokens .rparen
      return .group inner
    | .eof => throw ⟨.unexpectedEnd .expression, t.position⟩
    | kind => throw ⟨.noExpression kind, t.position⟩

/-- A sign and its operand. -/
def signed (op : Operator) : Nat → Walk Expr
  | 0 => lost
  | depth + 1 => do
    advance tokens
    let operand ← chain .sum depth
    return .unary op operand

/-- An operand of an operator of a level. -/
def operand (level : Level) : Nat → Walk Expr
  | 0 => lost
  | depth + 1 =>
    match level with
    | .product => factor depth
    | .sum => chain .product depth

/-- One or more operands with operators of a level between them. -/
def chain (level : Level) : Nat → Walk Expr
  | 0 => lost
  | depth + 1 => do
    let left ← operand level depth
    more level left depth

/-- The operators of a level that follow a left operand, each with its right operand. -/
def more (level : Level) (left : Expr) : Nat → Walk Expr
  | 0 => lost
  | depth + 1 => do
    let t ← current tokens
    match level.operator? t.kind with
    | none => return left
    | some op =>
      advance tokens
      let right ← operand level depth
      more level (.binary op left right t.position) depth

end

/-! ## Statements -/

/-- A statement. -/
def statement (depth : Nat) : Walk Stmt := do
  let _ ← expect tokens .print
  let value ← chain tokens .sum depth
  let _ ← expect tokens .semi
  return .print value

/-- The statements up to the end of the input, after those found already, the last of which comes
first. -/
def statements (found : List Stmt) : Nat → Walk Program
  | 0 => lost
  | depth + 1 => do
    let t ← current tokens
    match t.kind with
    | .eof => return ⟨found.reverse⟩
    | .print =>
      let s ← statement tokens depth
      statements (s :: found) depth
    | .comment =>
      advance tokens
      statements found depth
    | _ => throw (unexpected .print t)

/-! ## Readings in a row -/

/-- What comes of reading `n` programs in a row from an index on, each to the same depth, and the
index that they leave.  A reading begins where the one before it has stopped, with a program or with
an error. -/
def take (depth : Nat) : Nat → Nat → Option (List (Except ParseError Program) × Nat)
  | 0, i => some ([], i)
  | n + 1, i => do
    let (found, j) ← (statements tokens [] depth).result i
    let (others, k) ← take depth n j
    return (found :: others, k)

end Walk

end Reckon
