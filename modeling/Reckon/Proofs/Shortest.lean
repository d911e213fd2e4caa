/-
# The shortest decimal is the shortest

`Single.shortest` tries grids of decimals, from coarse to fine, and on each of them only the two
neighbours of the number.  That this finds a decimal with as few digits as there can be is
`Single.length_digits_shortest_le`, and that no decimal of this length is closer is
`Single.abs_shortest_sub_le`.

Both go through one fact about grids, `Single.le_below_or_above_le`: on the grid on which the number
has `n` digits, no decimal of up to `n` digits lies strictly between the neighbours of the number,
whatever its own exponent is.  Since the decimals that are rounded to the number are those of an
interval, one of the two neighbours is among them if there is any.  With nine digits there is one,
because the grid is then finer than the numbers are.
-/
import Mathlib.Algebra.Order.Field.Power
import Mathlib.Data.Nat.Cast.Order.Field
import Mathlib.Tactic.Linarith
import Reckon.Proofs.Monotone

namespace Reckon

/-! ## Digits -/

namespace Decimal

lemma length_digits_le_iff (d : Decimal) {n : ℕ} (hn : 0 < n) :
    d.digits.length ≤ n ↔ d.coefficient < 10 ^ n :=
  Nat.length_toDigits_le_iff (by omega) hn

lemma length_digits_pos (d : Decimal) : 0 < d.digits.length :=
  List.length_pos_of_ne_nil d.digits_ne_nil

/-- A decimal is less than the power of ten that its point tells. -/
lemma value_lt (d : Decimal) : d.value < 10 ^ d.point := by
  have hdigits : (d.coefficient : ℚ) < 10 ^ d.digits.length := by
    exact_mod_cast (d.length_digits_le_iff d.length_digits_pos).mp le_rfl
  have hpow : (10 : ℚ) ^ d.point = 10 ^ d.digits.length * 10 ^ d.exponent := by
    rw [point, add_comm, zpow_add₀ (by norm_num), zpow_natCast]
  rw [value, hpow]
  exact mul_lt_mul_of_pos_right hdigits (by positivity)

/-- A decimal other than zero is at least the power of ten before it. -/
lemma le_value {d : Decimal} (h : d.coefficient ≠ 0) : 10 ^ (d.point - 1) ≤ d.value := by
  have hdigits : (10 : ℚ) ^ (d.digits.length - 1) ≤ d.coefficient := by
    have hpos := d.length_digits_pos
    rcases Nat.eq_zero_or_pos (d.digits.length - 1) with hone | hmore
    · rw [hone, pow_zero]
      exact_mod_cast Nat.one_le_iff_ne_zero.mpr h
    · have hlength : ¬ d.digits.length ≤ d.digits.length - 1 := by omega
      exact_mod_cast Nat.le_of_not_lt (mt (d.length_digits_le_iff hmore).mpr hlength)
  have hpow : (10 : ℚ) ^ (d.point - 1) = 10 ^ (d.digits.length - 1) * 10 ^ d.exponent := by
    have hpos := d.length_digits_pos
    rw [← zpow_natCast, ← zpow_add₀ (by norm_num), point]
    congr 1
    omega
  rw [value, hpow]
  exact mul_le_mul_of_nonneg_right hdigits (by positivity)

/-- A decimal whose point stands at `10 ^ e` lies between powers of ten. -/
lemma point_eq {d : Decimal} {e : ℤ} (hle : 10 ^ (e - 1) ≤ d.value) (hlt : d.value < 10 ^ e) :
    d.point = e := by
  have hten : (1 : ℚ) < 10 := by norm_num
  have hne : d.coefficient ≠ 0 := by
    intro hzero
    have hpos : (0 : ℚ) < 10 ^ (e - 1) := by positivity
    rw [value, hzero, Nat.cast_zero, zero_mul] at hle
    exact absurd hle (not_le.mpr hpos)
  have hlow := (zpow_lt_zpow_iff_right₀ hten).mp (hle.trans_lt d.value_lt)
  have hhigh := (zpow_lt_zpow_iff_right₀ hten).mp ((le_value hne).trans_lt hlt)
  omega

/-- Of the decimals of one value the trimmed one has the greatest power of ten. -/
lemma exponent_le_trim {d d' : Decimal} (hne : d.trim.coefficient ≠ 0) (h : d.value = d'.value) :
    d'.exponent ≤ d.trim.exponent := by
  by_contra hlt
  obtain ⟨k, hk⟩ : ∃ k : ℕ, d'.exponent = k + 1 + d.trim.exponent :=
    ⟨(d'.exponent - d.trim.exponent - 1).toNat, by omega⟩
  have hvalue : d.trim.value = d'.value := (value_trim d).trans h
  have hpow : (10 : ℚ) ^ d'.exponent = 10 ^ (k + 1) * 10 ^ d.trim.exponent := by
    rw [hk, zpow_add₀ (by norm_num)]
    norm_cast
  have hcoefficient : d.trim.coefficient = d'.coefficient * 10 ^ (k + 1) := by
    rw [value, value, hpow, ← mul_assoc] at hvalue
    exact_mod_cast mul_right_cancel₀ (by positivity) hvalue
  have hlast := (trim_coefficient d).resolve_left hne
  rw [hcoefficient, pow_succ, ← Nat.mul_assoc, Nat.mul_mod_left] at hlast
  exact hlast rfl

/-- Of the decimals of one value the trimmed one has the fewest digits. -/
lemma length_digits_trim_le {d d' : Decimal} (hpos : 0 < d.value) (h : d.value = d'.value) :
    d.trim.digits.length ≤ d'.digits.length := by
  have hne {x : Decimal} (hx : x.value = d.value) : x.coefficient ≠ 0 := by
    intro hzero
    rw [← hx, value, hzero, Nat.cast_zero, zero_mul] at hpos
    exact lt_irrefl 0 hpos
  have htrim := hne (value_trim d)
  have hpoint : d.trim.point = d'.point := by
    refine point_eq ?_ ?_
    · rw [value_trim, h]
      exact le_value (hne h.symm)
    · rw [value_trim, h]
      exact d'.value_lt
  have hexponent := exponent_le_trim htrim h
  unfold point at hpoint
  omega

end Decimal

namespace Single

variable {r : ℕ}

/-! ## The leading digit -/

lemma units_pos (h : 0 < r) : 0 < units r := by
  rw [units_eq]
  exact Nat.mul_pos (mantissa_pos h) (gap_pos r)

/-- The value of a rank lies between the powers of ten around its leading digit. -/
lemma leading_bounds (h : 0 < r) : 10 ^ (leading r - 1) ≤ value r ∧ value r < 10 ^ leading r := by
  -- the digits of the value before the point, when that is moved by 54 places
  let d : Decimal := ⟨units r * 10 ^ 54 / 2 ^ 149, -54⟩
  have hleading : leading r = d.point := by
    have hdigits : (units r * Nat.pow 10 54) >>> 149 = d.coefficient :=
      Nat.shiftRight_eq_div_pow _ _
    have hpoint : d.point = -54 + (Nat.toDigits 10 d.coefficient).length := rfl
    rw [leading, hdigits, hpoint]
    omega
  have hne : d.coefficient ≠ 0 := by
    refine (Nat.div_pos ?_ (by positivity)).ne'
    calc 2 ^ 149 ≤ 1 * 10 ^ 54 := by norm_num
      _ ≤ units r * 10 ^ 54 := Nat.mul_le_mul_right _ (units_pos h)
  have hscale : value r = ((units r * 10 ^ 54 : ℕ) : ℚ) / (2 ^ 149 : ℕ) * 10 ^ (-54 : ℤ) := by
    have hten : (10 : ℚ) ^ (-54 : ℤ) = 1 / 10 ^ 54 := by norm_num
    rw [value, hten]
    push_cast
    ring
  have hpos : (0 : ℚ) < 10 ^ (-54 : ℤ) := by positivity
  rw [hleading, hscale]
  constructor
  · exact (Decimal.le_value hne).trans (mul_le_mul_of_nonneg_right Nat.cast_div_le hpos.le)
  · have hdigits : d.coefficient + 1 ≤ 10 ^ d.digits.length :=
      (d.length_digits_le_iff d.length_digits_pos).mp le_rfl
    have hpow : (10 : ℚ) ^ d.point = (10 ^ d.digits.length : ℕ) * 10 ^ (-54 : ℤ) := by
      rw [Decimal.point, add_comm, zpow_add₀ (by norm_num), zpow_natCast, Nat.cast_pow,
        Nat.cast_ofNat]
    rw [hpow]
    refine mul_lt_mul_of_pos_right (lt_of_lt_of_le ?_ (Nat.cast_le.mpr hdigits)) hpos
    rw [div_lt_iff₀ (by positivity)]
    exact_mod_cast Nat.lt_mul_of_div_lt (Nat.lt_succ_self _) (Nat.two_pow_pos 149)

/-! ## Grids -/

/-- The number of steps of `10 ^ grid` up to the value of a rank, cut off. -/
def low (r : ℕ) (grid : ℤ) : ℕ := (onGrid r grid).1 / (onGrid r grid).2

/-- The neighbour of a rank on a grid that is not above it. -/
def below (r : ℕ) (grid : ℤ) : Decimal := ⟨low r grid, grid⟩

/-- The neighbour of a rank on a grid that is above it. -/
def above (r : ℕ) (grid : ℤ) : Decimal := ⟨low r grid + 1, grid⟩

lemma onGrid_of_nonneg (r k : ℕ) : onGrid r k = (units r, 10 ^ k * 2 ^ 149) := by
  rw [onGrid, if_pos (Int.natCast_nonneg k), Int.toNat_natCast, Nat.shiftLeft_eq]
  rfl

lemma onGrid_of_neg (r k : ℕ) : onGrid r (-(k + 1 : ℕ)) = (units r * 10 ^ (k + 1), 2 ^ 149) := by
  rw [onGrid, if_neg (by omega), neg_neg, Int.toNat_natCast]
  rfl

lemma onGrid_pos (r : ℕ) (grid : ℤ) : 0 < (onGrid r grid).2 := by
  cases grid with
  | ofNat k =>
    rw [Int.ofNat_eq_natCast, onGrid_of_nonneg]
    positivity
  | negSucc k =>
    rw [Int.negSucc_eq, ← Nat.cast_succ, onGrid_of_neg]
    positivity

/-- The fraction is the value in steps of the grid. -/
lemma onGrid_eq (r : ℕ) (grid : ℤ) :
    ((onGrid r grid).1 : ℚ) / (onGrid r grid).2 * 10 ^ grid = value r := by
  cases grid with
  | ofNat k =>
    rw [Int.ofNat_eq_natCast, onGrid_of_nonneg, value, zpow_natCast]
    simp only [Nat.cast_mul, Nat.cast_pow, Nat.cast_ofNat]
    field_simp
  | negSucc k =>
    rw [Int.negSucc_eq, ← Nat.cast_succ, onGrid_of_neg, value, zpow_neg, zpow_natCast]
    simp only [Nat.cast_mul, Nat.cast_pow, Nat.cast_ofNat]
    field_simp

/-- The steps of a grid up to the value of a rank. -/
lemma le_low_iff {k : ℕ} {grid : ℤ} : k ≤ low r grid ↔ (k : ℚ) * 10 ^ grid ≤ value r := by
  have hpos := onGrid_pos r grid
  have hstep : (0 : ℚ) < 10 ^ grid := by positivity
  rw [low, Nat.le_div_iff_mul_le hpos, ← onGrid_eq r grid, mul_le_mul_iff_left₀ hstep,
    le_div_iff₀ (by exact_mod_cast hpos)]
  exact_mod_cast Iff.rfl

lemma below_le (r : ℕ) (grid : ℤ) : (below r grid).value ≤ value r :=
  le_low_iff.mp le_rfl

lemma lt_above (r : ℕ) (grid : ℤ) : value r < (above r grid).value :=
  not_le.mp (mt le_low_iff.mpr (Nat.not_succ_le_self _))

/-- A power of ten in steps of a grid. -/
lemma steps_eq {k : ℕ} {grid e : ℤ} (h : e = k + grid) :
    ((10 ^ k : ℕ) : ℚ) * 10 ^ grid = 10 ^ e := by
  rw [h, zpow_add₀ (by norm_num), zpow_natCast, Nat.cast_pow, Nat.cast_ofNat]

/-- On the grid on which the value of a rank has `n` digits, so has its neighbour below. -/
lemma low_bounds {n : ℕ} (hpos : 0 < r) (hn : 0 < n) :
    10 ^ (n - 1) ≤ low r (leading r - n) ∧ low r (leading r - n) < 10 ^ n := by
  obtain ⟨hleading, hleading'⟩ := leading_bounds hpos
  constructor
  · rwa [le_low_iff, steps_eq (e := leading r - 1) (by omega)]
  · rw [← not_le, le_low_iff, steps_eq (e := leading r) (by omega)]
    exact not_le.mpr hleading'

/-- On this grid no decimal of up to `n` digits lies strictly between the neighbours. -/
lemma le_below_or_above_le {d : Decimal} {n : ℕ} (hpos : 0 < r) (hn : d.digits.length ≤ n) :
    d.value ≤ (below r (leading r - n)).value ∨ (above r (leading r - n)).value ≤ d.value := by
  have hlength := d.length_digits_pos
  obtain ⟨hlow, hlow'⟩ := low_bounds hpos (hlength.trans_le hn)
  have hstep {k l : ℕ} (h : k ≤ l) :
      (k : ℚ) * 10 ^ (leading r - n) ≤ l * 10 ^ (leading r - n) :=
    mul_le_mul_of_nonneg_right (Nat.cast_le.mpr h) (by positivity)
  rcases lt_or_ge d.value (10 ^ (leading r - 1)) with hsmall | hlarge
  · left
    calc d.value ≤ 10 ^ (leading r - 1) := hsmall.le
      _ = ((10 ^ (n - 1) : ℕ) : ℚ) * 10 ^ (leading r - n) := (steps_eq (by omega)).symm
      _ ≤ (below r (leading r - n)).value := hstep hlow
  rcases lt_or_ge d.value (10 ^ leading r) with hsmall | hlarge
  · -- the decimal has its leading digit where the value has it, so it is on the grid
    have hpoint : d.exponent + d.digits.length = leading r := Decimal.point_eq hlarge hsmall
    have hvalue : d.value = ((d.coefficient * 10 ^ (n - d.digits.length) : ℕ) : ℚ) *
        10 ^ (leading r - n) := by
      rw [Nat.cast_mul, mul_assoc, steps_eq (e := d.exponent) (by omega), Decimal.value]
    rw [hvalue]
    rcases Nat.lt_or_ge (low r (leading r - n)) (d.coefficient * 10 ^ (n - d.digits.length)) with
      hlt | hge
    · exact .inr (hstep hlt)
    · exact .inl (hstep hge)
  · right
    calc (above r (leading r - n)).value
      _ ≤ ((10 ^ n : ℕ) : ℚ) * 10 ^ (leading r - n) := hstep hlow'
      _ = 10 ^ leading r := steps_eq (by omega)
      _ ≤ d.value := hlarge

/-! ## Candidates -/

lemma candidate?_eq (r : ℕ) (grid : ℤ) :
    candidate? r grid =
      if ofDecimal (below r grid) = r ∧ (ofDecimal (above r grid) ≠ r ∨
          2 * ((onGrid r grid).1 % (onGrid r grid).2) < (onGrid r grid).2) then
        some (below r grid)
      else if ofDecimal (above r grid) = r then some (above r grid)
      else none := rfl

/-- The remainder tells which neighbour is closer. -/
lemma two_mul_mod_lt_iff (r : ℕ) (grid : ℤ) :
    2 * ((onGrid r grid).1 % (onGrid r grid).2) < (onGrid r grid).2 ↔
      value r - (below r grid).value < (above r grid).value - value r := by
  have hden : (0 : ℚ) < (onGrid r grid).2 := by exact_mod_cast onGrid_pos r grid
  have hstep : (0 : ℚ) < 10 ^ grid := by positivity
  have hsplit : ((onGrid r grid).1 : ℚ) =
      (onGrid r grid).2 * low r grid + ((onGrid r grid).1 % (onGrid r grid).2 : ℕ) := by
    exact_mod_cast (Nat.div_add_mod _ _).symm
  have hdiff : (above r grid).value - value r - (value r - (below r grid).value) =
      ((onGrid r grid).2 - 2 * ((onGrid r grid).1 % (onGrid r grid).2 : ℕ)) /
        (onGrid r grid).2 * 10 ^ grid := by
    rw [← onGrid_eq r grid, Decimal.value, Decimal.value, above, below, Nat.cast_add, Nat.cast_one]
    field_simp
    rw [hsplit]
    ring
  rw [← sub_pos (b := value r - _), hdiff, mul_pos_iff_of_pos_right hstep,
    div_pos_iff_of_pos_right hden, sub_pos]
  exact_mod_cast Iff.rfl

/-- If a decimal that is rounded to a rank does not lie between the neighbours of the rank on a
grid, then the grid has a candidate, which is at least as close. -/
lemma exists_candidate {d : Decimal} {grid : ℤ} (hr : r ≤ infinity) (hd : ofDecimal d = r)
    (hside : d.value ≤ (below r grid).value ∨ (above r grid).value ≤ d.value) :
    ∃ c, candidate? r grid = some c ∧ |c.value - value r| ≤ |d.value - value r| := by
  have hexact := ofDecimal_exact hr
  have hbelow := below_le r grid
  have habove := lt_above r grid
  have habsbelow : |(below r grid).value - value r| = value r - (below r grid).value := by
    rw [abs_sub_comm, abs_of_nonneg (sub_nonneg.mpr hbelow)]
  have habsabove : |(above r grid).value - value r| = (above r grid).value - value r :=
    abs_of_nonneg (sub_nonneg.mpr habove.le)
  rw [candidate?_eq]
  rcases hside with hle | hge
  · -- the neighbour below lies between the decimal and the value
    have hreads : ofDecimal (below r grid) = r :=
      ofDecimal_eq_of_between hd hexact hle (by rwa [value_exact])
    have habs : |d.value - value r| = value r - d.value := by
      rw [abs_sub_comm, abs_of_nonneg (sub_nonneg.mpr (hle.trans hbelow))]
    by_cases hcloser : ofDecimal (above r grid) ≠ r ∨
        2 * ((onGrid r grid).1 % (onGrid r grid).2) < (onGrid r grid).2
    · refine ⟨_, if_pos ⟨hreads, hcloser⟩, ?_⟩
      rw [habsbelow, habs]
      linarith
    · obtain ⟨hother, hfar⟩ := not_or.mp hcloser
      refine ⟨_, (if_neg fun h => hcloser h.2).trans (if_pos (not_not.mp hother)), ?_⟩
      rw [two_mul_mod_lt_iff, not_lt] at hfar
      rw [habsabove, habs]
      linarith
  · -- the neighbour above does
    have hreads : ofDecimal (above r grid) = r :=
      ofDecimal_eq_of_between hexact hd (by rw [value_exact]; exact habove.le) hge
    have habs : |d.value - value r| = d.value - value r :=
      abs_of_nonneg (sub_nonneg.mpr (habove.le.trans hge))
    by_cases hcloser : ofDecimal (below r grid) = r ∧ (ofDecimal (above r grid) ≠ r ∨
        2 * ((onGrid r grid).1 % (onGrid r grid).2) < (onGrid r grid).2)
    · have hnear := (two_mul_mod_lt_iff r grid).mp (hcloser.2.resolve_left (not_not.mpr hreads))
      refine ⟨_, if_pos hcloser, ?_⟩
      rw [habsbelow, habs]
      linarith
    · refine ⟨_, (if_neg hcloser).trans (if_pos hreads), ?_⟩
      rw [habsabove, habs]
      linarith

/-- With nine digits there is a candidate: the grid is finer than the ranks are. -/
lemma exists_candidate_nine (hr : r ≤ infinity) (hpos : 0 < r) :
    ∃ c, candidate? r (leading r - 9) = some c := by
  obtain ⟨hleading, -⟩ := leading_bounds hpos
  have hbelow := below_le r (leading r - 9)
  have habove := lt_above r (leading r - 9)
  have hstep : (above r (leading r - 9)).value - (below r (leading r - 9)).value =
      10 ^ (leading r - 9) := by
    rw [Decimal.value, Decimal.value, above, below, Nat.cast_add, Nat.cast_one]
    ring
  have hgrid : (10 : ℚ) ^ (leading r - 9) * 10 ^ 8 ≤ value r := by
    refine le_of_eq_of_le ?_ hleading
    rw [← zpow_natCast, ← zpow_add₀ (by norm_num)]
    congr 1
    omega
  have hgap : value r * 2 ^ 149 ≤ 2 ^ 24 * gap r := by
    have hmantissa : (mantissa r : ℚ) ≤ 2 ^ 24 := by
      exact_mod_cast (mantissa_lt r).le
    rw [value, div_mul_cancel₀ _ (by positivity), units_eq, Nat.cast_mul]
    exact mul_le_mul_of_nonneg_right hmantissa (by positivity)
  have hunits : value r * 2 ^ 149 = units r := div_mul_cancel₀ _ (by positivity)
  have hreads : ofDecimal (below r (leading r - 9)) = r := by
    refine ofDecimal_eq_of_near hr hpos ?_
    rw [← hunits, ← sub_mul, abs_mul, abs_sub_comm, abs_of_nonneg (sub_nonneg.mpr hbelow),
      abs_of_pos (by positivity)]
    have hnonneg : (0 : ℚ) ≤ gap r := Nat.cast_nonneg _
    linarith
  obtain ⟨c, hc, -⟩ := exists_candidate hr hreads (.inl le_rfl)
  exact ⟨c, hc⟩

/-- The counts of digits that are tried. -/
def tried : List ℤ := [1, 2, 3, 4, 5, 6, 7, 8, 9]

lemma mem_tried {n : ℤ} : n ∈ tried ↔ 0 < n ∧ n ≤ 9 := by
  simp only [tried, List.mem_cons, List.not_mem_nil, or_false]
  omega

/-- The first candidate is taken, without the zeros at its end. -/
lemma exists_shortest_eq {n : ℤ} (hn : n ∈ tried) (h : ∃ c, candidate? r (leading r - n) = some c) :
    ∃ (m : ℕ) (c : Decimal), 0 < m ∧ m ≤ n ∧ candidate? r (leading r - m) = some c ∧
      shortest r = c.trim := by
  obtain ⟨c, hc⟩ := h
  have hshortest : shortest r =
      ((tried.findSome? fun n => candidate? r (leading r - n)).getD (exact r)).trim := rfl
  cases hfound : tried.findSome? fun n => candidate? r (leading r - n) with
  | none => exact absurd (List.findSome?_eq_none_iff.mp hfound n hn) (by simp [hc])
  | some c' =>
    obtain ⟨before, k, after, hsplit, hk, hbefore⟩ := List.findSome?_eq_some_iff.mp hfound
    have hpos : ∀ x ∈ tried, 0 < x := fun x hx => (mem_tried.mp hx).1
    have hsorted : tried.Pairwise (· < ·) := by decide
    rw [hsplit] at hn hpos hsorted
    have hle : k ≤ n := by
      rcases List.mem_append.mp hn with hmem | hmem
      · exact absurd (hbefore n hmem) (by simp [hc])
      · rcases List.mem_cons.mp hmem with rfl | hmem
        · exact le_rfl
        · exact (List.rel_of_pairwise_cons (List.pairwise_append.mp hsorted).2.1 hmem).le
    obtain ⟨m, rfl⟩ := Int.eq_ofNat_of_zero_le (hpos k (by simp)).le
    refine ⟨m, c', by simpa using hpos m (by simp), hle, hk, ?_⟩
    rw [hshortest, hfound, Option.getD_some]

/-- On the grid on which the value has `n` digits a candidate has at most as many, if the zeros at
its end are left out. -/
lemma length_digits_candidate_le {n : ℕ} {c : Decimal} (hpos : 0 < r) (hn : 0 < n)
    (h : candidate? r (leading r - n) = some c) : c.trim.digits.length ≤ n := by
  obtain ⟨hlow, hlow'⟩ := low_bounds hpos hn
  have hbounds : 0 < c.coefficient ∧ c.coefficient ≤ 10 ^ n := by
    have hone : 0 < 10 ^ (n - 1) := Nat.pow_pos (by omega)
    rw [candidate?_eq] at h
    split_ifs at h
    all_goals
      obtain rfl := Option.some.inj h
      simp only [below, above]
      omega
  have hcpos : 0 < c.value := by
    have hcoefficient : (0 : ℚ) < c.coefficient := Nat.cast_pos.mpr hbounds.1
    unfold Decimal.value
    positivity
  rcases hbounds.2.lt_or_eq with hlt | heq
  · exact (Decimal.length_digits_trim_le hcpos rfl).trans ((c.length_digits_le_iff hn).mpr hlt)
  · -- a power of ten has one digit
    have hvalue : c.value = (⟨1, n + c.exponent⟩ : Decimal).value := by
      rw [Decimal.value, Decimal.value, heq, steps_eq rfl, Nat.cast_one, one_mul]
    have hone := ((⟨1, n + c.exponent⟩ : Decimal).length_digits_le_iff hn).mpr
      (Nat.one_lt_pow hn.ne' (by omega))
    exact (Decimal.length_digits_trim_le hcpos hvalue).trans hone

/-- What is tried for a decimal that is rounded to a rank. -/
lemma exists_shortest_le {d : Decimal} (hr : r ≤ infinity) (hpos : 0 < r) (hd : ofDecimal d = r) :
    ∃ (m : ℕ) (c : Decimal), m ≤ d.digits.length ∧ candidate? r (leading r - m) = some c ∧
      shortest r = c.trim ∧ c.trim.digits.length ≤ m := by
  have hlength := d.length_digits_pos
  obtain ⟨n, hn, hle, hcandidate⟩ : ∃ n : ℤ, n ∈ tried ∧ n ≤ d.digits.length ∧
      ∃ c, candidate? r (leading r - n) = some c := by
    rcases Nat.lt_or_ge d.digits.length 9 with hlt | hge
    · obtain ⟨c, hc, -⟩ := exists_candidate hr hd (le_below_or_above_le hpos le_rfl)
      exact ⟨d.digits.length, mem_tried.mpr (by omega), le_rfl, c, hc⟩
    · exact ⟨9, mem_tried.mpr (by omega), by omega, exists_candidate_nine hr hpos⟩
  obtain ⟨m, c, hm, hmn, hc, hshortest⟩ := exists_shortest_eq hn hcandidate
  exact ⟨m, c, by omega, hc, hshortest, length_digits_candidate_le hpos hm hc⟩

/-- **No decimal that is rounded to a rank has fewer digits than the shortest one.** -/
theorem length_digits_shortest_le {d : Decimal} (hr : r ≤ infinity) (hpos : 0 < r)
    (hd : ofDecimal d = r) : (shortest r).digits.length ≤ d.digits.length := by
  obtain ⟨m, c, hle, -, hshortest, hlength⟩ := exists_shortest_le hr hpos hd
  rw [hshortest]
  exact hlength.trans hle

/-- **No decimal that is rounded to a rank and has as few digits as the shortest one is closer.** -/
theorem abs_shortest_sub_le {d : Decimal} (hr : r ≤ infinity) (hpos : 0 < r)
    (hd : ofDecimal d = r) (hle : d.digits.length ≤ (shortest r).digits.length) :
    |(shortest r).value - value r| ≤ |d.value - value r| := by
  obtain ⟨m, c, -, hc, hshortest, hlength⟩ := exists_shortest_le hr hpos hd
  rw [hshortest] at hle
  obtain ⟨c', hc', hclosest⟩ :=
    exists_candidate hr hd (le_below_or_above_le hpos (hle.trans hlength))
  obtain rfl : c' = c := Option.some.inj (hc'.symm.trans hc)
  rwa [hshortest, Decimal.value_trim]

end Single

end Reckon
