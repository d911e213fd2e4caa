/-
# Operators

The four operators of arithmetic.  Two of them are also signs.
-/

namespace Reckon

/-- The operators of the language. -/
inductive Operator where
  | plus
  | minus
  | times
  | divide
deriving DecidableEq, Repr, Inhabited

namespace Operator

/-- The character that an operator is written as. -/
def symbol : Operator → Char
  | plus => '+'
  | minus => '-'
  | times => '*'
  | divide => '/'

/-- The name of an operator in messages. -/
def label : Operator → String
  | plus => "PLUS"
  | minus => "MINUS"
  | times => "TIMES"
  | divide => "DIVIDE"

/-- Operators are told apart by their symbols. -/
theorem symbol_inj {o p : Operator} : o.symbol = p.symbol ↔ o = p := by
  cases o <;> cases p <;> simp [symbol]

end Operator

end Reckon
