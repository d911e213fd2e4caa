/-
# Listings of tokens

Tokens are listed one to a line, each with its number, kind, text and place.  The text is quoted,
so that it is on one line and shows where it ends.
-/
import Reckon.Text.Quoted
import Reckon.Token

namespace Reckon

/-- A natural number with zeros in front, up to three digits. -/
def threeDigits (n : Nat) : String :=
  let digits := Nat.toDigits 10 n
  String.ofList (List.replicate (3 - digits.length) '0' ++ digits)

/-- The line of a token with its number. -/
def Token.line (t : Token) (number : Nat) : String :=
  let quoted := String.ofList (Text.Quoted.encode t.lexeme.toList)
  threeDigits number ++ " " ++ t.kind.label ++ " " ++ quoted ++ " at "
    ++ toString t.position.line ++ ":" ++ toString t.position.column ++ "\n"

/-- A line for each token, the numbers beginning with zero. -/
def Token.listing (ts : List Token) : String :=
  ts.zipIdx.foldl (fun before (t, number) => before ++ t.line number) ""

end Reckon
