/-
# Listings of programs

A program is listed one statement to a line, and each statement as a parenthesised term with its
operator in front.  Places are not shown.
-/
import Reckon.Expr

namespace Reckon

/-- An expression as a term, after the text `before`. -/
def Expr.listOnto (before : String) : Expr → String
  | int n _ => before ++ toString n.toInt
  | float x _ => before ++ FloatStyle.literal.text x
  | binary op l r _ =>
    r.listOnto (l.listOnto ((before ++ "(").push op.symbol ++ " ") ++ " ") ++ ")"
  | unary op e => e.listOnto ((before ++ "(").push op.symbol ++ " ") ++ ")"
  | group e => e.listOnto (before ++ "(group ") ++ ")"

/-- An expression as a term. -/
def Expr.listing (e : Expr) : String := e.listOnto ""

theorem Expr.listOnto_eq (e : Expr) (before : String) :
    e.listOnto before = before ++ e.listing := by
  induction e generalizing before with
  | int n p => simp [listing, listOnto]
  | float x p => simp [listing, listOnto]
  | binary op l r p ihl ihr =>
    simp only [listing, listOnto]
    rw [ihr, ihl, ihr (_ ++ _), ihl (_ ++ _)]
    simp [String.append_assoc, ← String.append_singleton]
  | unary op e ih =>
    simp only [listing, listOnto]; rw [ih, ih (_ ++ _)]
    simp [String.append_assoc, ← String.append_singleton]
  | group e ih =>
    simp only [listing, listOnto]; rw [ih, ih (_ ++ _)]
    simp [String.append_assoc]

/-- A statement as a term, after the text `before`. -/
def Stmt.listOnto (before : String) : Stmt → String
  | print e => e.listOnto (before ++ "(print ") ++ ")"

/-- A program, with a line for each statement. -/
def Program.listing (p : Program) : String :=
  p.statements.foldl (fun before s => s.listOnto before ++ "\n") ""

end Reckon
