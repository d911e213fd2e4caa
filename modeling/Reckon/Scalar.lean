/-
# Numbers and arithmetic

A number of the language is a 32-bit integer or a binary32 number, and the two do not mix: an
operator takes two numbers of the same kind and gives a third of that kind.  Integers wrap around
at the ends of their range, and their quotient is cut off toward zero; only the integer quotient
has operands without a result.

A minus sign multiplies by minus one and a plus sign takes the absolute value; the other two
operators are not signs.

Arithmetic can fail in three ways, the constructors of `Fault`.
-/
import Reckon.Operator
import Reckon.Single.Text

namespace Reckon

/-- The kinds of values.  `any` is the kind of a value that an operator has computed, before
anything looks at what it is. -/
inductive Kind where
  | int
  | float
  | any
deriving DecidableEq, Repr, Inhabited

/-- The name of a kind in messages. -/
def Kind.label : Kind → String
  | int => "INT"
  | float => "FLOAT"
  | any => "ANY"

/-- A number.  Two numbers are compared by `==`, which for binary32 numbers takes the zeros of
both signs for equal and no number for equal to itself. -/
inductive Scalar where
  | int (value : Int32)
  | float (value : Float32)
deriving DecidableEq, BEq

/-- Why arithmetic fails. -/
inductive Fault where
  /-- An integer is divided by zero. -/
  | divisionByZero
  /-- The operands are of different kinds. -/
  | unsupportedOperands (op : Operator) (left right : Kind)
  /-- The operator is not a sign. -/
  | unsupportedUnary (op : Operator)
deriving DecidableEq, Repr

/-- The text of a failure. -/
def Fault.message : Fault → String
  | divisionByZero => "division by zero"
  | unsupportedOperands op left right =>
    "unsupported operand type(s) for " ++ op.label ++ ": '" ++ left.label ++ "' and '"
      ++ right.label ++ "'"
  | unsupportedUnary op => "unsupported unary operator " ++ op.label

/-! ## Arithmetic on one kind -/

/-- An operator on integers, which has no result when it divides by zero. -/
def Operator.onInt : Operator → Int32 → Int32 → Option Int32
  | plus, a, b => some (a + b)
  | minus, a, b => some (a - b)
  | times, a, b => some (a * b)
  | divide, a, b => if b = 0 then none else some (a / b)

/-- An operator on binary32 numbers. -/
def Operator.onFloat : Operator → Float32 → Float32 → Float32
  | plus, a, b => a + b
  | minus, a, b => a - b
  | times, a, b => a * b
  | divide, a, b => a / b

namespace Scalar

/-- The kind of a number. -/
def kind : Scalar → Kind
  | int _ => .int
  | float _ => .float

/-- The text of a number as a program prints it. -/
def text : Scalar → String
  | int n => toString n.toInt
  | float x => FloatStyle.printed.text x

/-- The number times minus one. -/
def negate : Scalar → Scalar
  | int n => int (n * -1)
  | float x => float (-1 * x)

/-- The absolute value.  The zero with a minus sign is its own, since it is not below zero. -/
def magnitude : Scalar → Scalar
  | int n => if 0 ≤ n then int n else negate (int n)
  | float x => if 0 ≤ x then float x else negate (float x)

/-- An operator between two numbers. -/
def combine (op : Operator) : Scalar → Scalar → Except Fault Scalar
  | int a, int b =>
    match op.onInt a b with
    | some c => .ok (int c)
    | none => .error .divisionByZero
  | float a, float b => .ok (float (op.onFloat a b))
  | a, b => .error (.unsupportedOperands op a.kind b.kind)

/-- An operator in front of a number. -/
def signed (op : Operator) (a : Scalar) : Except Fault Scalar :=
  match op with
  | .minus => .ok a.negate
  | .plus => .ok a.magnitude
  | .times | .divide => .error (.unsupportedUnary op)

theorem kind_ne_any (a : Scalar) : a.kind ≠ .any := by
  cases a <;> simp only [kind, ne_eq, reduceCtorEq, not_false_eq_true]

@[simp] theorem kind_int (n : Int32) : (int n).kind = .int := rfl

@[simp] theorem kind_float (x : Float32) : (float x).kind = .float := rfl

@[simp] theorem kind_negate (a : Scalar) : a.negate.kind = a.kind := by
  cases a <;> simp only [negate, kind_int, kind_float]

@[simp] theorem kind_magnitude (a : Scalar) : a.magnitude.kind = a.kind := by
  cases a <;> simp only [magnitude] <;> split <;> simp only [kind_negate, kind_int, kind_float]

/-- A result has the kind of the left operand, and the operands were of one kind. -/
theorem kind_of_combine {op : Operator} {a b c : Scalar} (h : combine op a b = .ok c) :
    c.kind = a.kind ∧ a.kind = b.kind := by
  cases a <;> cases b <;> simp only [combine] at h
  · split at h
    · simp only [Except.ok.injEq] at h
      subst h
      simp only [kind_int, and_self]
    · simp only [reduceCtorEq] at h
  · simp only [reduceCtorEq] at h
  · simp only [reduceCtorEq] at h
  · simp only [Except.ok.injEq] at h
    subst h
    simp only [kind_float, and_self]

theorem kind_of_signed {op : Operator} {a c : Scalar} (h : signed op a = .ok c) :
    c.kind = a.kind := by
  cases op <;> simp only [signed, Except.ok.injEq, reduceCtorEq] at h <;> subst h <;>
    simp only [kind_negate, kind_magnitude]

end Scalar

/-! ## Values -/

/-- A number together with the kind that is known of it. -/
structure Value where
  /-- The kind: that of the number itself for a literal, `any` for a computed value. -/
  tag : Kind
  /-- The number. -/
  scalar : Scalar
deriving DecidableEq, BEq

namespace Value

/-- The value of a literal. -/
def literal (a : Scalar) : Value := ⟨a.kind, a⟩

/-- The value that an operator has computed. -/
def computed (a : Scalar) : Value := ⟨.any, a⟩

end Value

end Reckon
