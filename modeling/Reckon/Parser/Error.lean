/-
# What is wrong with a token list

A token list that is not a program is wrong at one token.  The cause says what was expected there
and what was found, or which numeral is not that of a number.
-/
import Reckon.Token

namespace Reckon

/-- What the grammar asks for at a place. -/
inductive Expectation where
  /-- A token of a kind. -/
  | token (kind : TokenKind)
  /-- Any token that an expression may begin with. -/
  | expression
deriving DecidableEq, Repr

/-- The name of an expectation in messages. -/
def Expectation.label : Expectation → String
  | token kind => kind.label
  | expression => "an expression"

namespace ParseError

/-- The causes of errors. -/
inductive Cause where
  /-- A token of one kind was expected, and one of another kind was found. -/
  | unexpectedToken (expected found : TokenKind)
  /-- Something was expected where the input ends. -/
  | unexpectedEnd (expected : Expectation)
  /-- An expression was expected, and a token was found with which none begins. -/
  | noExpression (found : TokenKind)
  /-- A numeral without a point is not that of a 32-bit integer. -/
  | invalidInteger (lexeme : String)
  /-- A numeral with a point is not that of a binary32 number. -/
  | invalidFloat (lexeme : String)
deriving DecidableEq, Repr

/-- The text of a cause. -/
def Cause.message : Cause → String
  | unexpectedToken expected found => "expected " ++ expected.label ++ ", got " ++ found.label
  | unexpectedEnd expected => "expected " ++ expected.label ++ ", got end of input"
  | noExpression found => "unexpected token " ++ found.label ++ ", expected an expression"
  | invalidInteger lexeme => "invalid integer literal '" ++ lexeme ++ "'"
  | invalidFloat lexeme => "invalid float literal '" ++ lexeme ++ "'"

end ParseError

/-- An error in a token list. -/
structure ParseError where
  /-- What is wrong. -/
  cause : ParseError.Cause
  /-- The place of the token at which it is. -/
  position : Position
deriving DecidableEq, Repr

/-- The text of an error. -/
def ParseError.message (e : ParseError) : String :=
  "parse error at line " ++ toString e.position.line ++ ", col " ++ toString e.position.column
    ++ ": " ++ e.cause.message

end Reckon
