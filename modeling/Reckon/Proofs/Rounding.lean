/-
# Rounding depends on the number alone

A decimal stands for a rational number, and many decimals stand for the same one.  The rank that a
decimal is rounded to is that of its number, `Single.ofDecimal_congr`: it is the rank nearest to a
fraction, whatever the terms of the fraction, and what `Single.ofDecimal` tells by the size of a
decimal is what the division would give.

A number that has a rank is rounded to it.  Therefore the shortest decimal of a rank is read back as
this rank, `Single.ofDecimal_shortest`.
-/
import Mathlib.Algebra.Order.Field.Rat
import Mathlib.Data.Nat.Log
import Mathlib.Tactic.FieldSimp
import Mathlib.Tactic.NormNum
import Mathlib.Tactic.Positivity
import Mathlib.Tactic.Ring
import Reckon.Single.Shortest

namespace Reckon

/-! ## The number of a decimal -/

namespace Decimal

/-- The number that a decimal stands for. -/
def value (d : Decimal) : ℚ := d.coefficient * 10 ^ d.exponent

lemma value_eq {d : Decimal} {e : ℤ} (h : e = d.exponent) : value ⟨d.coefficient, e⟩ = d.value := by
  rw [h]

/-- Zeros may be moved from the power of ten to the end of the digits. -/
lemma value_shift {d : Decimal} {k : ℕ} {e : ℤ} (h : e + k = d.exponent) :
    value ⟨d.coefficient * 10 ^ k, e⟩ = d.value := by
  have hten : (10 : ℚ) ^ k * 10 ^ e = 10 ^ d.exponent := by
    rw [← h, zpow_add₀ (by norm_num), zpow_natCast, mul_comm]
  simp only [value, Nat.cast_mul, Nat.cast_pow, Nat.cast_ofNat]
  rw [mul_assoc, hten]

@[simp] lemma value_trim (d : Decimal) : d.trim.value = d.value := by
  fun_induction trim d with
  | case1 d h ih =>
    have hten : d.coefficient / 10 * 10 ^ 1 = d.coefficient := by omega
    have hshift := value_shift (d := ⟨d.coefficient / 10, d.exponent + 1⟩) (k := 1) rfl
    rw [hten] at hshift
    rw [ih, ← hshift]
  | case2 d h => rfl

end Decimal

namespace Single

/-! ## Fractions -/

lemma roundHalfEven_mul_right (num den : ℕ) {k : ℕ} (hk : 0 < k) :
    roundHalfEven (num * k) (den * k) = roundHalfEven num den := by
  have hexcess : 2 * (num % den * k) = 2 * (num % den) * k := by ring
  simp only [roundHalfEven, Nat.mul_div_mul_right _ _ hk, Nat.mul_mod_mul_right, hexcess,
    Nat.mul_lt_mul_right hk, Nat.mul_left_inj hk.ne']

lemma nearest_mul_right (num den : ℕ) {k : ℕ} (hk : 0 < k) :
    nearest (num * k) (den * k) = nearest num den := by
  have hden (s : ℕ) : (den * k) <<< s = den <<< s * k := by
    rw [Nat.shiftLeft_eq, Nat.shiftLeft_eq, Nat.mul_right_comm]
  simp only [nearest, Nat.mul_div_mul_right _ _ hk, hden, roundHalfEven_mul_right _ _ hk]

/-- The rank nearest to a fraction does not depend on its terms. -/
lemma nearest_congr {num den num' den' : ℕ} (hden : 0 < den) (hden' : 0 < den')
    (h : (num : ℚ) / den = num' / den') : nearest num den = nearest num' den' := by
  rw [div_eq_div_iff (by positivity) (by positivity)] at h
  have hterms : num * den' = num' * den := by exact_mod_cast h
  calc nearest num den = nearest (num * den') (den * den') := (nearest_mul_right _ _ hden').symm
    _ = nearest (num' * den) (den' * den) := by rw [hterms, Nat.mul_comm den den']
    _ = nearest num' den' := nearest_mul_right _ _ hden

/-- A whole quotient is not rounded. -/
lemma roundHalfEven_mul_self (n : ℕ) {den : ℕ} (hden : 0 < den) :
    roundHalfEven (n * den) den = n := by
  have hscaled := roundHalfEven_mul_right n 1 hden
  rwa [Nat.one_mul, roundHalfEven_one] at hscaled

lemma le_roundHalfEven (num den : ℕ) : num / den ≤ roundHalfEven num den := by
  unfold roundHalfEven
  dsimp only
  split <;> omega

lemma log2_sub_eq_iff (q s : ℕ) :
    q.log2 - 23 = s ↔ q < 2 ^ (24 + s) ∧ (s = 0 ∨ 2 ^ (23 + s) ≤ q) := by
  rcases Nat.eq_zero_or_pos q with rfl | hq
  · simp [eq_comm]
  · rw [← Nat.log2_lt hq.ne', ← Nat.le_log2 hq.ne']
    omega

/-- The power of two that the divisor takes leaves a quotient of 24 bits, or of less if there is
none to take. -/
lemma shift_eq_iff {num den s : ℕ} (hden : 0 < den) :
    (num / den).log2 - 23 = s ↔
      num < 2 ^ 24 * (den <<< s) ∧ (s = 0 ∨ 2 ^ 23 * (den <<< s) ≤ num) := by
  have hscale (k : ℕ) : 2 ^ k * (den <<< s) = 2 ^ (k + s) * den := by
    rw [Nat.shiftLeft_eq, pow_add, Nat.mul_left_comm, Nat.mul_comm]
  rw [log2_sub_eq_iff, Nat.div_lt_iff_lt_mul hden, Nat.le_div_iff_mul_le hden, hscale, hscale]

/-- A fraction with a quotient of 24 bits, or of less if it is not scaled, has the rank that its
quotient is rounded to. -/
lemma nearest_scaled {a b s : ℕ} (hb : 0 < b) (hupper : a < 2 ^ 24 * b)
    (hlower : s = 0 ∨ 2 ^ 23 * b ≤ a) :
    nearest (a * 2 ^ s) b = min infinity (s * span + roundHalfEven a b) := by
  have hpos : 0 < 2 ^ s := Nat.two_pow_pos s
  have hshift : (a * 2 ^ s / b).log2 - 23 = s := by
    rw [shift_eq_iff hb, Nat.shiftLeft_eq, ← Nat.mul_assoc, ← Nat.mul_assoc]
    exact ⟨Nat.mul_lt_mul_of_pos_right hupper hpos,
      hlower.imp_right fun h => Nat.mul_le_mul_right _ h⟩
  rw [nearest, hshift, Nat.shiftLeft_eq, roundHalfEven_mul_right _ _ hpos]

/-- From `2 ^ 128` on, a number is rounded to infinity; this is `2 ^ 277` units. -/
lemma nearest_of_large {num a b : ℕ} (hab : 277 ≤ a + b) (h : 2 ^ a * 2 ^ b ≤ num) :
    nearest num 1 = infinity := by
  have hne : num ≠ 0 := by
    rintro rfl
    exact absurd h (Nat.not_le.mpr (by positivity))
  have hlog : a + b ≤ num.log2 := by
    refine (Nat.le_log2 hne).mpr ?_
    rwa [pow_add]
  have hpow : 2 ^ num.log2 ≤ num := Nat.log2_self_le hne
  have hround : span ≤ roundHalfEven num (1 <<< (num.log2 - 23)) := by
    refine le_trans ?_ (le_roundHalfEven _ _)
    rw [Nat.shiftLeft_eq, Nat.one_mul, Nat.le_div_iff_mul_le (by positivity)]
    calc span * 2 ^ (num.log2 - 23) = 2 ^ (23 + (num.log2 - 23)) := by rw [pow_add]; rfl
      _ = 2 ^ num.log2 := by rw [Nat.add_sub_cancel' (by omega)]
      _ ≤ num := hpow
  simp only [nearest, Nat.div_one]
  refine Nat.min_eq_left ?_
  have hspan : infinity = 254 * span + span := rfl
  have hshift : 254 * span ≤ (num.log2 - 23) * span := Nat.mul_le_mul_right _ (by omega)
  omega

/-- A number below half of the least one above zero is rounded to zero. -/
lemma nearest_of_small {num den : ℕ} (h : 2 * num < den) : nearest num den = 0 := by
  have hdiv : num / den = 0 := Nat.div_eq_of_lt (by omega)
  have hmod : num % den = num := Nat.mod_eq_of_lt (by omega)
  simp [nearest, roundHalfEven, hdiv, hmod, h]

/-! ## Decimals -/

/-- A natural number has at most one digit for every three bits, and one more. -/
lemma lt_ten_pow_log2 (c : ℕ) : c < 10 ^ (c.log2 / 3 + 1) := by
  calc c < 2 ^ (c.log2 + 1) := Nat.lt_log2_self
    _ ≤ 2 ^ (3 * (c.log2 / 3 + 1)) := Nat.pow_le_pow_right (by omega) (by omega)
    _ = 8 ^ (c.log2 / 3 + 1) := by rw [pow_mul]; rfl
    _ ≤ 10 ^ (c.log2 / 3 + 1) := Nat.pow_le_pow_left (by omega) _

/-- The terms of a decimal in units of `2 ^ -149`. -/
def terms (d : Decimal) : ℕ × ℕ :=
  (d.coefficient * 10 ^ d.exponent.toNat * 2 ^ 149, 10 ^ (-d.exponent).toNat)

lemma terms_snd_pos (d : Decimal) : 0 < (terms d).2 := Nat.pow_pos (by omega)

lemma terms_value (d : Decimal) : ((terms d).1 : ℚ) / (terms d).2 = d.value * 2 ^ 149 := by
  have hten : (10 : ℚ) ^ d.exponent = 10 ^ d.exponent.toNat / 10 ^ (-d.exponent).toNat := by
    have hsplit : d.exponent = d.exponent.toNat - (-d.exponent).toNat := by omega
    conv_lhs => rw [hsplit, zpow_sub₀ (by norm_num), zpow_natCast, zpow_natCast]
  simp only [terms, Decimal.value, hten, Nat.cast_mul, Nat.cast_pow, Nat.cast_ofNat]
  ring

/-- What is told by the size of a decimal is what the division gives. -/
lemma ofDecimal_eq_nearest (d : Decimal) : ofDecimal d = nearest (terms d).1 (terms d).2 := by
  obtain ⟨c, e⟩ := d
  simp only [ofDecimal, terms]
  split_ifs with hzero hlarge hsmall hsign
  · rw [hzero, Nat.zero_mul, Nat.zero_mul, nearest_of_small]
    exact Nat.pow_pos (by omega)
  · have hexponent : (-e).toNat = 0 := by omega
    rw [hexponent, pow_zero]
    refine (nearest_of_large (a := 128) (b := 149) (by omega) ?_).symm
    calc 2 ^ 128 * 2 ^ 149 ≤ 10 ^ 40 * 2 ^ 149 := by norm_num
      _ ≤ 10 ^ e.toNat * 2 ^ 149 :=
        Nat.mul_le_mul_right _ (Nat.pow_le_pow_right (by omega) (by omega))
      _ ≤ c * 10 ^ e.toNat * 2 ^ 149 :=
        Nat.mul_le_mul_right _ (Nat.le_mul_of_pos_left _ (by omega))
  · have hexponent : e.toNat = 0 := by omega
    have hdigits := lt_ten_pow_log2 c
    have hpow : 10 ^ (c.log2 / 3 + 1) * 10 ^ 46 ≤ 10 ^ (-e).toNat := by
      rw [← pow_add]
      exact Nat.pow_le_pow_right (by omega) (by omega)
    have hunit : 2 * 2 ^ 149 ≤ 10 ^ 46 := by norm_num
    rw [hexponent, pow_zero, Nat.mul_one, nearest_of_small]
    calc 2 * (c * 2 ^ 149) = c * (2 * 2 ^ 149) := by ring
      _ ≤ c * 10 ^ 46 := Nat.mul_le_mul_left _ hunit
      _ < 10 ^ (c.log2 / 3 + 1) * 10 ^ 46 := Nat.mul_lt_mul_of_pos_right hdigits (by positivity)
      _ ≤ 10 ^ (-e).toNat := hpow
  · have hexponent : (-e).toNat = 0 := by omega
    rw [hexponent, pow_zero, Nat.shiftLeft_eq]
    rfl
  · have hexponent : e.toNat = 0 := by omega
    rw [hexponent, pow_zero, Nat.mul_one, Nat.shiftLeft_eq]
    rfl

/-- Decimals that stand for the same number are rounded to the same rank. -/
theorem ofDecimal_congr {d d' : Decimal} (h : d.value = d'.value) : ofDecimal d = ofDecimal d' := by
  rw [ofDecimal_eq_nearest, ofDecimal_eq_nearest]
  refine nearest_congr (terms_snd_pos d) (terms_snd_pos d') ?_
  rw [terms_value, terms_value, h]

/-! ## Numbers that have a rank -/

/-- The whole number that a rank has with its power of two taken out. -/
def mantissa (r : ℕ) : ℕ := if r < span then r else span + r % span

/-- The distance in units from a rank to the next one. -/
def gap (r : ℕ) : ℕ := 2 ^ (r / span - 1)

lemma gap_pos (r : ℕ) : 0 < gap r := Nat.two_pow_pos _

lemma units_eq (r : ℕ) : units r = mantissa r * gap r := by
  unfold units mantissa gap
  split_ifs with hr
  · rw [Nat.div_eq_of_lt hr, Nat.zero_sub, pow_zero, Nat.mul_one]
  · rw [Nat.shiftLeft_eq]

lemma mantissa_lt (r : ℕ) : mantissa r < 2 * span := by
  have hmod : r % span < span := Nat.mod_lt _ (by decide)
  unfold mantissa
  split_ifs <;> omega

lemma mantissa_pos {r : ℕ} (h : 0 < r) : 0 < mantissa r := by
  have hspan : 0 < span := by decide
  unfold mantissa
  split_ifs <;> omega

/-- A rank is told by its power of two and its mantissa. -/
lemma scale_add_mantissa (r : ℕ) : (r / span - 1) * span + mantissa r = r := by
  have hsplit := Nat.div_add_mod r span
  unfold mantissa
  split_ifs with hr
  · rw [Nat.div_eq_of_lt hr, Nat.zero_sub, Nat.zero_mul, Nat.zero_add]
  · obtain ⟨q, hq⟩ := Nat.exists_eq_add_of_le
      ((Nat.one_le_div_iff (by decide)).mpr (Nat.le_of_not_lt hr))
    rw [hq, Nat.mul_add, Nat.mul_one, Nat.mul_comm span q] at hsplit
    rw [hq, Nat.add_sub_cancel_left]
    omega

lemma scale_eq_zero_or (r : ℕ) : r / span - 1 = 0 ∨ span ≤ mantissa r := by
  unfold mantissa
  split_ifs with hr
  · rw [Nat.div_eq_of_lt hr]
    exact .inl rfl
  · exact .inr (Nat.le_add_right _ _)

/-- The exact value of a rank is rounded to it. -/
lemma nearest_units {r : ℕ} (h : r ≤ infinity) : nearest (units r) 1 = r := by
  have hspan : span = 2 ^ 23 := rfl
  have hupper : mantissa r < 2 ^ 24 * 1 := mantissa_lt r
  have hlower : r / span - 1 = 0 ∨ 2 ^ 23 * 1 ≤ mantissa r := scale_eq_zero_or r
  rw [units_eq, gap, nearest_scaled Nat.one_pos hupper hlower, roundHalfEven_one,
    scale_add_mantissa, Nat.min_eq_right h]

/-- The value of a rank. -/
def value (r : ℕ) : ℚ := units r / 2 ^ 149

lemma value_exact (r : ℕ) : (exact r).value = value r := by
  have hten : (10 : ℚ) ^ (-149 : ℤ) = 1 / (5 ^ 149 * 2 ^ 149) := by norm_num
  have hfive : ((Nat.pow 5 149 : ℕ) : ℚ) = 5 ^ 149 := by norm_num
  simp only [Decimal.value, value, exact, Nat.cast_mul, hten, hfive]
  field_simp

lemma ofDecimal_exact {r : ℕ} (h : r ≤ infinity) : ofDecimal (exact r) = r := by
  have hunits : value r * 2 ^ 149 = units r := div_mul_cancel₀ _ (by positivity)
  rw [ofDecimal_eq_nearest]
  calc nearest (terms (exact r)).1 (terms (exact r)).2 = nearest (units r) 1 := by
        refine nearest_congr (terms_snd_pos _) Nat.one_pos ?_
        rw [terms_value, value_exact, hunits, Nat.cast_one, div_one]
    _ = r := nearest_units h

/-- The shortest decimal of a rank is read back as this rank. -/
theorem ofDecimal_shortest {r : ℕ} (h : r ≤ infinity) : ofDecimal (shortest r) = r := by
  rw [shortest, ofDecimal_congr (Decimal.value_trim _)]
  cases hfound : [1, 2, 3, 4, 5, 6, 7, 8, 9].findSome? fun n => candidate? r (leading r - n) with
  | none => exact ofDecimal_exact h
  | some d =>
    obtain ⟨n, -, hn⟩ := List.exists_of_findSome?_eq_some hfound
    exact ofDecimal_candidate hn

end Single

end Reckon
