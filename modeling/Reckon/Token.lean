/-
# Tokens

A token is what the lexer cuts out of a source text: its kind, the text it was cut from, and the
place where that text begins.  The end of the input is a token too, so that a token list says
where its text ends.
-/
import Reckon.Position

namespace Reckon

/-- The kinds of tokens. -/
inductive TokenKind where
  /-- The keyword that opens a statement. -/
  | print
  /-- A word other than the keyword. -/
  | name
  /-- A numeral without a decimal point. -/
  | integer
  /-- A numeral with a decimal point. -/
  | float
  | plus
  | minus
  | times
  | divide
  | lparen
  | rparen
  /-- The semicolon that closes a statement. -/
  | semi
  | comment
  /-- The end of the input. -/
  | eof
deriving DecidableEq, Repr, Inhabited

/-- The name of a kind in messages and listings. -/
def TokenKind.label : TokenKind → String
  | print => "PRINT"
  | name => "NAME"
  | integer => "INTEGER"
  | float => "FLOAT"
  | plus => "PLUS"
  | minus => "MINUS"
  | times => "TIMES"
  | divide => "DIVIDE"
  | lparen => "LPAREN"
  | rparen => "RPAREN"
  | semi => "SEMI"
  | comment => "COMMENT"
  | eof => "EOF"

/-- Kinds are told apart by their labels. -/
theorem TokenKind.label_inj {k l : TokenKind} : k.label = l.label ↔ k = l := by
  cases k <;> cases l <;> simp [label]

/-- A piece of a source text with its kind and the place of its first character. -/
structure Token where
  /-- What kind of piece it is. -/
  kind : TokenKind
  /-- The characters of the piece. -/
  lexeme : String
  /-- The place of its first character. -/
  position : Position
deriving DecidableEq, Repr, Inhabited

/-- The token that marks the end of the input. -/
def Token.endAt (p : Position) : Token := ⟨.eof, "EOF", p⟩

end Reckon
