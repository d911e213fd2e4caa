/-
# Integer expressions modulo a power of two

The integers of the language wrap around, and those of mathematics do not.  `Expr.integer?` is the
value of an expression over the latter.  Sums, differences and products of wrapped numbers are the
wrapped sums, differences and products, so that an expression without quotients and absolute values
has its value over the integers modulo `2 ^ 32`, however far the values on the way are out of range.
For quotients and absolute values this fails, since they look at the size of a number.  They are
right for operands in range, and the value is exact if all values on the way are in range.

Both statements say that an expression reduces to a number, `Expr.ReducesTo`; they differ in what is
asked of the operands of an operator.
-/
import Mathlib.Algebra.Order.Ring.Int
import Mathlib.Data.Int.ModEq
import Mathlib.Data.Nat.Cast.Order.Ring
import Reckon.Proofs.Literals

namespace Reckon

/-! ## Arithmetic without bounds -/

/-- An operator on integers.  A quotient is cut off toward zero, and there is none by zero. -/
def Operator.onIntegers : Operator → ℤ → ℤ → Option ℤ
  | plus, a, b => some (a + b)
  | minus, a, b => some (a - b)
  | times, a, b => some (a * b)
  | divide, a, b => if b = 0 then none else some (a.tdiv b)

/-- A sign in front of an integer: the plus sign takes the absolute value. -/
def Operator.beforeInteger : Operator → ℤ → Option ℤ
  | plus, a => some |a|
  | minus, a => some (-a)
  | times, _ => none
  | divide, _ => none

namespace Expr

/-- The value of an expression over the integers.  There is none if a literal is a float, if an
operator that is no sign stands in front of an operand, or if something is divided by zero. -/
def integer? : Expr → Option ℤ
  | int n _ => some n.toInt
  | float .. => none
  | binary op l r _ => l.integer?.bind fun a => r.integer?.bind fun b => op.onIntegers a b
  | unary op e => e.integer?.bind op.beforeInteger
  | group e => e.integer?

/-- Between operands there are only `+`, `-` and `*`, and in front of them only `-`. -/
def RingOnly : Expr → Prop
  | int .. => True
  | float .. => True
  | binary op l r _ => op ≠ .divide ∧ l.RingOnly ∧ r.RingOnly
  | unary op e => op = .minus ∧ e.RingOnly
  | group e => e.RingOnly

end Expr

/-! ## Wrapping -/

/-- Modulo `2 ^ 32` an integer is congruent to one 32-bit integer. -/
lemma toInt_modEq_iff {n : Int32} {z : ℤ} : n.toInt ≡ z [ZMOD 2 ^ 32] ↔ n = .ofInt z := by
  have hwrap : z.bmod (2 ^ 32) ≡ z [ZMOD 2 ^ 32] := Int.bmod_emod
  rw [eq_comm, Int32.ofInt_eq_iff_bmod_eq_toInt]
  constructor
  · intro h
    calc z.bmod (2 ^ 32) = (z % 2 ^ 32).bmod (2 ^ 32) := (Int.emod_bmod z _).symm
      _ = (n.toInt % 2 ^ 32).bmod (2 ^ 32) := by rw [h]
      _ = n.toInt.bmod (2 ^ 32) := Int.emod_bmod _ _
      _ = n.toInt := Int.bmod_eq_of_le n.le_toInt n.toInt_lt
  · intro h
    rwa [h] at hwrap

namespace Operator

/-- Sums, differences and products of wrapped integers are wrapped. -/
lemma onInt_ofInt {op : Operator} (h : op ≠ .divide) (a b : ℤ) :
    op.onInt (.ofInt a) (.ofInt b) = (op.onIntegers a b).map .ofInt := by
  cases op with
  | plus | minus | times => simp [onInt, onIntegers]
  | divide => exact absurd rfl h

/-- An operator on 32-bit integers wraps what it is on integers. -/
lemma onInt_eq (op : Operator) (m n : Int32) :
    op.onInt m n = (op.onIntegers m.toInt n.toInt).map .ofInt := by
  cases op with
  | plus | minus | times => simp [onInt, onIntegers]
  | divide =>
    have hzero : n = 0 ↔ n.toInt = 0 := by rw [← Int32.toInt_inj, Int32.toInt_zero]
    have hquotient : Int32.ofInt (m.toInt.tdiv n.toInt) = m / n := by
      rw [Int32.ofInt_eq_iff_bmod_eq_toInt, Int32.toInt_div]
    simp only [onInt, onIntegers, hzero]
    split_ifs
    · rfl
    · rw [Option.map_some, hquotient]

end Operator

namespace Scalar

lemma negate_ofInt (z : ℤ) : (int (.ofInt z)).negate = int (.ofInt (-z)) := by
  have hone : (-1 : Int32) = .ofInt (-1) := rfl
  rw [negate, hone, ← Int32.ofInt_mul, mul_neg_one]

/-- The absolute value of the least 32-bit integer is wrapped, so that it is that integer. -/
lemma magnitude_int (n : Int32) : (int n).magnitude = int (.ofInt |n.toInt|) := by
  have hsign : 0 ≤ n ↔ 0 ≤ n.toInt := by rw [Int32.le_iff_toInt_le, Int32.toInt_zero]
  have hnegate := negate_ofInt n.toInt
  rw [Int32.ofInt_toInt] at hnegate
  rw [magnitude]
  split_ifs with h
  · rw [abs_of_nonneg (hsign.mp h), Int32.ofInt_toInt]
  · rw [abs_of_neg (not_le.mp (mt hsign.mpr h)), hnegate]

end Scalar

/-! ## Expressions -/

namespace Expr

/-- An expression has the value `z` over the integers, and its value is `z` wrapped. -/
structure ReducesTo (e : Expr) (z : ℤ) : Prop where
  integer : e.integer? = some z
  value : ∃ v, e.eval = .ok v ∧ v.scalar = .int (.ofInt z)

namespace ReducesTo

variable {op : Operator} {l r e : Expr} {a b c : ℤ}

lemma of_int (n : Int32) (p : Position) : (int n p).ReducesTo n.toInt where
  integer := rfl
  value := ⟨_, rfl, by rw [Value.literal, Int32.ofInt_toInt]⟩

/-- An operator that reduces on the values of its operands reduces. -/
lemma binary (hl : l.ReducesTo a) (hr : r.ReducesTo b) (p : Position)
    (hinteger : op.onIntegers a b = some c)
    (hwrapped : op.onInt (.ofInt a) (.ofInt b) = (op.onIntegers a b).map .ofInt) :
    (binary op l r p).ReducesTo c where
  integer := by simp only [integer?, hl.integer, hr.integer, Option.bind_some, hinteger]
  value := by
    obtain ⟨v, hv, hscalar⟩ := hl.value
    obtain ⟨w, hw, hscalar'⟩ := hr.value
    rw [hinteger, Option.map_some] at hwrapped
    refine ⟨.computed (.int (.ofInt c)), ?_, rfl⟩
    simp only [eval_binary hv hw, Value.combine, hscalar, hscalar', Scalar.combine, hwrapped]

/-- A sign that reduces on the value of its operand reduces. -/
lemma unary (he : e.ReducesTo a) (hinteger : op.beforeInteger a = some c)
    (hwrapped : Scalar.signed op (.int (.ofInt a)) = .ok (.int (.ofInt c))) :
    (unary op e).ReducesTo c where
  integer := by simp only [integer?, he.integer, Option.bind_some, hinteger]
  value := by
    obtain ⟨v, hv, hscalar⟩ := he.value
    refine ⟨.computed (.int (.ofInt c)), ?_, rfl⟩
    simp only [eval_unary hv, Value.signed, hscalar, hwrapped]

lemma group (he : e.ReducesTo a) : (group e).ReducesTo a := ⟨he.integer, he.value⟩

end ReducesTo

/-- Without quotients and absolute values an expression reduces, whatever the values on the way
are. -/
theorem exists_reducesTo_of_ringOnly {e : Expr} (hint : ∀ a ∈ e.literals, a.kind = .int)
    (hring : e.RingOnly) : ∃ z, e.ReducesTo z := by
  induction e with
  | int n p => exact ⟨_, .of_int n p⟩
  | float x p => exact absurd (hint _ (List.mem_singleton_self _)) (by simp)
  | binary op l r p ihl ihr =>
    obtain ⟨hop, hringl, hringr⟩ := hring
    obtain ⟨hintl, hintr⟩ := List.forall_mem_append.mp hint
    obtain ⟨a, hl⟩ := ihl hintl hringl
    obtain ⟨b, hr⟩ := ihr hintr hringr
    have hwrapped := Operator.onInt_ofInt hop a b
    cases op with
    | plus | minus | times => exact ⟨_, hl.binary hr p rfl hwrapped⟩
    | divide => exact absurd rfl hop
  | unary op e ih =>
    obtain ⟨rfl, hring⟩ := hring
    obtain ⟨a, he⟩ := ih hint hring
    exact ⟨-a, he.unary rfl (by rw [Scalar.signed, Scalar.negate_ofInt])⟩
  | group e ih =>
    obtain ⟨a, he⟩ := ih hint hring
    exact ⟨a, he.group⟩

end Expr

/-- The values over the integers at some nodes are in the range of 32-bit integers, as far as there
are any, and nothing is divided by zero at these nodes. -/
structure FitAt (sites : List Site) : Prop where
  inRange : ∀ s ∈ sites, ∀ z, s.tree.integer? = some z → -2 ^ 31 ≤ z ∧ z < 2 ^ 31
  divisor : ∀ s ∈ sites, ∀ l r p, s.tree = .binary .divide l r p → r.integer? ≠ some 0

lemma FitAt.mono {xs ys : List Site} (h : FitAt ys) (hsub : xs ⊆ ys) : FitAt xs where
  inRange s hs := h.inRange s (hsub hs)
  divisor s hs := h.divisor s (hsub hs)

namespace Expr

/-- An expression stands last of its sites. -/
lemma mem_sites_self (e : Expr) (exposed : Bool) : ⟨e, exposed⟩ ∈ e.sites exposed := by
  cases e <;> simp [sites]

/-- A number in range is not changed by wrapping. -/
lemma ReducesTo.toInt_ofInt {e : Expr} {exposed : Bool} {z : ℤ} (h : e.ReducesTo z)
    (hfit : FitAt (e.sites exposed)) : (Int32.ofInt z).toInt = z := by
  obtain ⟨hle, hlt⟩ := hfit.inRange _ (e.mem_sites_self exposed) z h.integer
  exact Int32.toInt_ofInt_of_le hle hlt

/-- An expression reduces if no value on the way is out of range. -/
theorem exists_reducesTo_of_fitAt {e : Expr} (exposed : Bool)
    (hint : ∀ a ∈ e.literals, a.kind = .int) (hsigns : e.SignsOnly)
    (hfit : FitAt (e.sites exposed)) : ∃ z, e.ReducesTo z := by
  induction e generalizing exposed with
  | int n p => exact ⟨_, .of_int n p⟩
  | float x p => exact absurd (hint _ (List.mem_singleton_self _)) (by simp)
  | binary op l r p ihl ihr =>
    obtain ⟨hintl, hintr⟩ := List.forall_mem_append.mp hint
    have hfitl : FitAt (l.sites exposed) := hfit.mono (by simp [sites])
    have hfitr : FitAt (r.sites exposed) := hfit.mono (by simp [sites])
    obtain ⟨a, hl⟩ := ihl exposed hintl hsigns.1 hfitl
    obtain ⟨b, hr⟩ := ihr exposed hintr hsigns.2 hfitr
    have hwrapped := op.onInt_eq (.ofInt a) (.ofInt b)
    rw [hl.toInt_ofInt hfitl, hr.toInt_ofInt hfitr] at hwrapped
    cases op with
    | plus | minus | times => exact ⟨_, hl.binary hr p rfl hwrapped⟩
    | divide =>
      have hb : b ≠ 0 := by
        rintro rfl
        exact hfit.divisor _ (mem_sites_self _ exposed) l r p rfl hr.integer
      exact ⟨_, hl.binary hr p (if_neg hb) hwrapped⟩
  | unary op e ih =>
    have hfite : FitAt (e.sites false) := hfit.mono (by simp [sites])
    obtain ⟨a, he⟩ := ih false hint hsigns.2 hfite
    rcases hsigns.1 with rfl | rfl
    · have hmagnitude := Scalar.magnitude_int (.ofInt a)
      rw [he.toInt_ofInt hfite] at hmagnitude
      exact ⟨|a|, he.unary rfl (by rw [Scalar.signed, hmagnitude])⟩
    · exact ⟨-a, he.unary rfl (by rw [Scalar.signed, Scalar.negate_ofInt])⟩
  | group e ih =>
    obtain ⟨a, he⟩ := ih false hint hsigns (hfit.mono (by simp [sites]))
    exact ⟨a, he.group⟩

/-- **Integer expressions have their values over the integers modulo `2 ^ 32`.**  Let all literals
be integers.

* If there are only `+`, `-` and `*` between operands and only `-` in front of them, then the
  expression has a value, which is the one 32-bit integer that is congruent to the value over the
  integers, whatever is out of range on the way.
* With all four operators and both signs, if no value over the integers is out of range and nothing
  is divided by zero at any node, then the expression has a value, which is the value over the
  integers. -/
theorem evaluate_integers {e : Expr} (h : ∀ a ∈ e.literals, a.kind = .int) :
    (e.RingOnly → ∃ z v n, e.integer? = some z ∧ e.evaluate = .ok v ∧ v.scalar = .int n ∧
      ∀ m : Int32, m.toInt ≡ z [ZMOD 2 ^ 32] ↔ m = n) ∧
    (e.SignsOnly → FitAt (e.sites true) →
      ∃ v n, e.evaluate = .ok v ∧ v.scalar = .int n ∧ e.integer? = some n.toInt) := by
  simp only [evaluate_eq_eval]
  refine ⟨fun hring => ?_, fun hsigns hfit => ?_⟩
  · obtain ⟨z, hz⟩ := exists_reducesTo_of_ringOnly h hring
    obtain ⟨v, hv, hscalar⟩ := hz.value
    exact ⟨z, v, _, hz.integer, hv, hscalar, fun m => toInt_modEq_iff⟩
  · obtain ⟨z, hz⟩ := exists_reducesTo_of_fitAt true h hsigns hfit
    obtain ⟨v, hv, hscalar⟩ := hz.value
    refine ⟨v, _, hv, hscalar, ?_⟩
    rw [hz.toInt_ofInt hfit, hz.integer]

/-- Two products beyond the range whose difference is within it, and a quotient cut off toward
zero behind an absolute value. -/
theorem evaluate_integers_products :
    let p := Position.start
    let products := binary .minus (binary .times (int 65536 p) (int 65536 p) p)
      (binary .times (int 65535 p) (int 65537 p) p) p
    let quotient := binary .divide (unary .plus (group (unary .minus (int 7 p))))
      (unary .minus (int 2 p)) p
    ((∀ a ∈ products.literals, a.kind = .int) ∧ products.RingOnly ∧
      ∃ z v n, products.integer? = some z ∧ products.evaluate = .ok v ∧ v.scalar = .int n ∧
        ∀ m : Int32, m.toInt ≡ z [ZMOD 2 ^ 32] ↔ m = n) ∧
    ((∀ a ∈ quotient.literals, a.kind = .int) ∧ quotient.SignsOnly ∧
      FitAt (quotient.sites true) ∧
      ∃ v n, quotient.evaluate = .ok v ∧ v.scalar = .int n ∧ quotient.integer? = some n.toInt) := by
  intro p products quotient
  have hproducts : ∀ a ∈ products.literals, a.kind = .int := by simp [products, literals]
  have hring : products.RingOnly := by simp [products, RingOnly]
  have hquotient : ∀ a ∈ quotient.literals, a.kind = .int := by simp [quotient, literals]
  have hsigns : quotient.SignsOnly := by simp [quotient, SignsOnly]
  have hfit : FitAt (quotient.sites true) := by
    constructor
    · simp [quotient, sites, integer?, Operator.onIntegers, Operator.beforeInteger]
    · simp [quotient, sites, integer?, Operator.beforeInteger]
  exact ⟨⟨hproducts, hring, (evaluate_integers hproducts).1 hring⟩,
    hquotient, hsigns, hfit, (evaluate_integers hquotient).2 hsigns hfit⟩

end Expr

end Reckon
