/-
# Expressions and programs

An expression is a tree of literals, operators, signs and groups in parentheses; a program is a
list of statements, each of which prints an expression.  Literals and operators keep the place
where they stand in the source, signs and parentheses do not.

Programs are compared by `==`, which compares places too, and binary32 numbers as `Scalar` does.
-/
import Reckon.Position
import Reckon.Scalar

namespace Reckon

/-- Expressions. -/
inductive Expr where
  | int (value : Int32) (position : Position)
  | float (value : Float32) (position : Position)
  /-- An operator between two operands; the position is that of the operator. -/
  | binary (op : Operator) (left right : Expr) (position : Position)
  /-- A sign in front of its operand. -/
  | unary (op : Operator) (operand : Expr)
  /-- An expression in parentheses. -/
  | group (inner : Expr)
deriving DecidableEq, BEq

namespace Expr

/-- The steps of a walk that enters every node of an expression and comes back to every operator
and every sign. -/
def steps : Expr → Nat
  | int .. => 1
  | float .. => 1
  | binary _ l r _ => l.steps + r.steps + 2
  | unary _ e => e.steps + 2
  | group e => e.steps + 1

/-- The literals of an expression, from left to right. -/
def literals : Expr → List Scalar
  | int n _ => [.int n]
  | float x _ => [.float x]
  | binary _ l r _ => l.literals ++ r.literals
  | unary _ e => e.literals
  | group e => e.literals

/-- The expression without any parentheses. -/
def ungroup : Expr → Expr
  | int n p => int n p
  | float x p => float x p
  | binary op l r p => binary op l.ungroup r.ungroup p
  | unary op e => unary op e.ungroup
  | group e => e.ungroup

end Expr

/-- Statements. -/
inductive Stmt where
  /-- Prints the value of an expression on a line of its own. -/
  | print (value : Expr)
deriving DecidableEq, BEq

/-- The expression that a statement prints. -/
def Stmt.expr : Stmt → Expr
  | print e => e

/-- Programs. -/
structure Program where
  /-- The statements, in the order in which they are executed. -/
  statements : List Stmt
deriving DecidableEq, BEq

namespace Program

/-- The number of statements. -/
def size (p : Program) : Nat := p.statements.length

/-- Whether a program has no statement. -/
def isEmpty (p : Program) : Bool := p.statements.isEmpty

end Program

end Reckon
