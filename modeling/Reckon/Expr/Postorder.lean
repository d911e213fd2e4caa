/-
# Expressions as lists of nodes

An expression of any depth can be written down flat, as the list of its nodes in postorder, the
operands of a node before the node itself.  In this form expressions are handed to the program from
outside and handed back.  The list determines the expression: `Expr.ofPostorder?` rebuilds it, and
finds out when a list of nodes is not that of one expression.

It is also the order in which the operators of an expression are checked and applied.
-/
import Reckon.Expr

namespace Reckon

/-- A node of an expression without its operands. -/
inductive Node where
  | int (value : Int32) (position : Position)
  | float (value : Float32) (position : Position)
  | binary (op : Operator) (position : Position)
  | unary (op : Operator)
  | group
deriving DecidableEq

/-- The operator of a node with two operands, and its place. -/
def Node.operator? : Node → Option (Operator × Position)
  | binary op p => some (op, p)
  | _ => none

namespace Expr

/-- The node at the root of an expression. -/
def node : Expr → Node
  | int n p => .int n p
  | float x p => .float x p
  | binary op _ _ p => .binary op p
  | unary op _ => .unary op
  | group _ => .group

/-- The nodes of an expression in postorder, before those of `after`. -/
def postorderOnto (after : List Node) : Expr → List Node
  | int n p => .int n p :: after
  | float x p => .float x p :: after
  | binary op l r p => l.postorderOnto (r.postorderOnto (.binary op p :: after))
  | unary op e => e.postorderOnto (.unary op :: after)
  | group e => e.postorderOnto (.group :: after)

/-- The nodes of an expression in postorder. -/
def postorder (e : Expr) : List Node := e.postorderOnto []

/-- The expressions on a stack, the last one on top, after a node has taken its operands from
there and put itself in their place. -/
def build : List Expr → Node → Option (List Expr)
  | st, .int n p => some (int n p :: st)
  | st, .float x p => some (float x p :: st)
  | r :: l :: st, .binary op p => some (binary op l r p :: st)
  | e :: st, .unary op => some (unary op e :: st)
  | e :: st, .group => some (group e :: st)
  | _, _ => none

/-- The expression whose nodes in postorder a list holds, if there is one. -/
def ofPostorder? (nodes : List Node) : Option Expr :=
  match nodes.foldlM build [] with
  | some [e] => some e
  | _ => none

theorem postorderOnto_eq (e : Expr) (after : List Node) :
    e.postorderOnto after = e.postorder ++ after := by
  induction e generalizing after with
  | int n p => rfl
  | float x p => rfl
  | binary op l r p ihl ihr =>
    simp only [postorder, postorderOnto]
    rw [ihl, ihr, ihl (r.postorderOnto _), ihr [_]]
    simp
  | unary op e ih => simp only [postorder, postorderOnto]; rw [ih, ih [_]]; simp
  | group e ih => simp only [postorder, postorderOnto]; rw [ih, ih [_]]; simp

@[simp] theorem postorder_binary (op : Operator) (l r : Expr) (p : Position) :
    (binary op l r p).postorder = l.postorder ++ r.postorder ++ [.binary op p] := by
  rw [postorder, postorderOnto, postorderOnto_eq, postorderOnto_eq r, List.append_assoc]

@[simp] theorem postorder_unary (op : Operator) (e : Expr) :
    (unary op e).postorder = e.postorder ++ [.unary op] :=
  postorderOnto_eq e _

@[simp] theorem postorder_group (e : Expr) : (group e).postorder = e.postorder ++ [.group] :=
  postorderOnto_eq e _

theorem foldlM_build_postorderOnto (e : Expr) (after : List Node) (st : List Expr) :
    (e.postorderOnto after).foldlM build st = after.foldlM build (e :: st) := by
  induction e generalizing after st with
  | int n p => simp [postorderOnto, build]
  | float x p => simp [postorderOnto, build]
  | binary op l r p ihl ihr => simp [postorderOnto, ihl, ihr, build]
  | unary op e ih => simp [postorderOnto, ih, build]
  | group e ih => simp [postorderOnto, ih, build]

/-- The postorder of an expression determines the expression. -/
@[simp] theorem ofPostorder?_postorder (e : Expr) : ofPostorder? e.postorder = some e := by
  simp [ofPostorder?, postorder, foldlM_build_postorderOnto]

end Expr

end Reckon
