/-
# From tokens to programs

The grammar of programs is

* program: statements, with comments anywhere between them;
* statement: the keyword, an expression, a semicolon;
* expression: a sum;
* sum: products with `+` or `-` between them;
* product: factors with `*` or `/` between them;
* factor: a numeral, a sign and an expression, or an expression in parentheses.

Operators of one level associate to the left.  The operand of a sign is a whole expression, as
long as it can be, so that a sign binds less tightly than any operator to its right.

The parser decides by the next token alone.  Each of its functions takes the tokens that are left
and gives back those that remain; that these are fewer is part of the result, and the recursion
ends for that reason.  After an error the remaining tokens are those that were not read before it
was found, so that reading can go on there.
-/
import Reckon.Decimal.Numeral
import Reckon.Expr
import Reckon.Parser.Error
import Reckon.Single.Numeral
import Reckon.Token.Lexer

namespace Reckon

/-- The levels of operators: those of products bind more tightly than those of sums. -/
inductive Level where
  | product
  | sum
deriving DecidableEq, Repr

namespace Level

/-- The operator of a level that a kind of token stands for. -/
def operator? : Level → TokenKind → Option Operator
  | product, .times => some .times
  | product, .divide => some .divide
  | sum, .plus => some .plus
  | sum, .minus => some .minus
  | _, _ => none

/-- The levels in order. -/
def rank : Level → Nat
  | product => 0
  | sum => 1

end Level

/-- What comes of reading tokens of which there are fewer than `n`, or `n` at a first step. -/
inductive Parsed (α : Type) (n : Nat) where
  /-- A result, and the tokens that follow it. -/
  | done (value : α) (rest : List Token) (shorter : rest.length < n)
  /-- An error, and the tokens that had not been read when it was found. -/
  | failed (error : ParseError) (rest : List Token)

namespace Parser

/-- The error of finding `ts` where a token of a kind is expected. -/
def unexpected (kind : TokenKind) (stop : Position) : List Token → ParseError
  | [] => ⟨.unexpectedEnd (.token kind), stop⟩
  | t :: _ => ⟨.unexpectedToken kind t.kind, t.position⟩

/-- Reads one token of a kind. -/
def expect (kind : TokenKind) (stop : Position) (ts : List Token) : Parsed Token ts.length :=
  match ts with
  | [] => .failed (unexpected kind stop []) []
  | t :: rest =>
    if t.kind = kind then .done t rest (by simp)
    else .failed (unexpected kind stop (t :: rest)) (t :: rest)

/-! ## Expressions -/

mutual

/-- A factor. -/
def factor (stop : Position) (ts : List Token) : Parsed Expr ts.length :=
  match ts with
  | [] => .failed ⟨.unexpectedEnd .expression, stop⟩ []
  | t :: rest =>
    match t.kind with
    | .integer =>
      match Numeral.int32? t.lexeme.toList with
      | some n => .done (.int n t.position) rest (by simp)
      | none => .failed ⟨.invalidInteger t.lexeme, t.position⟩ rest
    | .float =>
      match Numeral.float32? t.lexeme.toList with
      | some x => .done (.float x t.position) rest (by simp)
      | none => .failed ⟨.invalidFloat t.lexeme, t.position⟩ rest
    | .plus => signed .plus stop rest
    | .minus => signed .minus stop rest
    | .lparen =>
      match chain .sum stop rest with
      | .failed e after => .failed e after
      | .done inner after h =>
        match expect .rparen stop after with
        | .failed e after' => .failed e after'
        | .done _ after' h' => .done (.group inner) after' (by simp; omega)
    | kind => .failed ⟨.noExpression kind, t.position⟩ (t :: rest)
termination_by (ts.length, 0)

/-- What follows a sign. -/
def signed (op : Operator) (stop : Position) (ts : List Token) : Parsed Expr (ts.length + 1) :=
  match chain .sum stop ts with
  | .failed e after => .failed e after
  | .done operand after h => .done (.unary op operand) after (by omega)
termination_by (ts.length, 5)
decreasing_by exact Prod.Lex.right _ (by decide)

/-- An operand of an operator of a level. -/
def operand (level : Level) (stop : Position) (ts : List Token) : Parsed Expr ts.length :=
  match level with
  | .product => factor stop ts
  | .sum => chain .product stop ts
termination_by (ts.length, 2 * level.rank + 1)
decreasing_by all_goals exact Prod.Lex.right _ (by decide)

/-- One or more operands with operators of a level between them. -/
def chain (level : Level) (stop : Position) (ts : List Token) : Parsed Expr ts.length :=
  match operand level stop ts with
  | .failed e rest => .failed e rest
  | .done left rest h => more level stop ts.length left rest h
termination_by (ts.length, 2 * level.rank + 2)

/-- The operators of a level that follow a left operand, each with its right operand. -/
def more (level : Level) (stop : Position) (n : Nat) (left : Expr) (ts : List Token)
    (h : ts.length < n) : Parsed Expr n :=
  match ts with
  | [] => .done left [] h
  | t :: rest =>
    match level.operator? t.kind with
    | none => .done left (t :: rest) h
    | some op =>
      match operand level stop rest with
      | .failed e after => .failed e after
      | .done right after h' =>
        more level stop n (.binary op left right t.position) after (by simp at h; omega)
termination_by (ts.length, 0)

end

/-- An expression. -/
def expr (stop : Position) (ts : List Token) : Parsed Expr ts.length :=
  chain .sum stop ts

/-! ## Statements -/

/-- A statement. -/
def statement (stop : Position) (ts : List Token) : Parsed Stmt ts.length :=
  match expect .print stop ts with
  | .failed e rest => .failed e rest
  | .done _ rest h =>
    match expr stop rest with
    | .failed e after => .failed e after
    | .done value after h' =>
      match expect .semi stop after with
      | .failed e after' => .failed e after'
      | .done _ after' h'' => .done (.print value) after' (by omega)

/-- The statements up to the end of the input, after those found already, the last of which
comes first. -/
def statements (stop : Position) (found : List Stmt) (ts : List Token) :
    Except ParseError Program × List Token :=
  match ts with
  | [] => (.ok ⟨found.reverse⟩, [])
  | t :: rest =>
    if t.kind = .comment then
      statements stop found rest
    else
      match statement stop (t :: rest) with
      | .failed e after => (.error e, after)
      | .done s after _ => statements stop (s :: found) after
termination_by ts.length
decreasing_by all_goals simp_all

end Parser

/-! ## Reading token lists -/

/-- The tokens that are still to be read. -/
structure Parser where
  /-- The tokens before the end of the input. -/
  ahead : List Token
  /-- The place where the input ends. -/
  stop : Position
deriving DecidableEq, Repr

namespace Parser

/-- The beginning of a token list.  The input ends at the first end marker; if there is none, it
ends after the last token, whose place then stands for that of the end. -/
def ofTokens (ts : List Token) : Parser where
  ahead := ts.takeWhile (·.kind ≠ .eof)
  stop := (((ts.find? (·.kind = .eof)).or ts.getLast?).map Token.position).getD .start

/-- The beginning of a source text. -/
def ofSource (source : String) : Parser := ofTokens (tokenize source)

/-- Reads a program up to the end of the input, or up to an error, and says what remains. -/
def next (p : Parser) : Except ParseError Program × Parser :=
  let (result, rest) := statements p.stop [] p.ahead
  (result, ⟨rest, p.stop⟩)

/-- What comes of reading `n` times in a row. -/
def take : Nat → Parser → List (Except ParseError Program)
  | 0, _ => []
  | n + 1, p =>
    let found := p.next
    found.1 :: take n found.2

end Parser

/-- The program that a token list is. -/
def Program.ofTokens (ts : List Token) : Except ParseError Program :=
  (Parser.ofTokens ts).next.1

/-- The program that a source text is. -/
def Program.ofSource (source : String) : Except ParseError Program :=
  (Parser.ofSource source).next.1

end Reckon
