/-
# Rounding is monotone

A greater fraction is not rounded to a smaller rank, and so a greater decimal is not either,
`Single.ofDecimal_mono`.  Hence the decimals that are rounded to one rank are those of an interval
around its value.

The interval is at least a fifth of the distance between neighbours wide on each side,
`Single.ofDecimal_eq_of_near`.  Half of it would be true above the value, but at a power of two the
neighbour below is nearer by half, and a fifth avoids the ties.
-/
import Mathlib.Tactic.Linarith
import Reckon.Proofs.Rounding

namespace Reckon.Single

/-! ## Quotients -/

/-- A greater numerator is not rounded to less. -/
lemma roundHalfEven_mono {num num' : ℕ} (den : ℕ) (h : num ≤ num') :
    roundHalfEven num den ≤ roundHalfEven num' den := by
  have hsplit := Nat.div_add_mod num den
  have hsplit' := Nat.div_add_mod num' den
  rcases (Nat.div_le_div_right (c := den) h).lt_or_eq with hlt | heq
  · calc roundHalfEven num den ≤ num / den + 1 := by
          unfold roundHalfEven
          dsimp only
          split <;> omega
      _ ≤ num' / den := hlt
      _ ≤ roundHalfEven num' den := le_roundHalfEven num' den
  · -- the quotients are equal, so the remainders are in order
    rw [← heq] at hsplit'
    unfold roundHalfEven
    simp only [← heq]
    split_ifs <;> omega

/-! ## Ranks -/

/-- With a greater numerator the rank is not smaller. -/
lemma nearest_mono_left {num num' den : ℕ} (hden : 0 < den) (h : num ≤ num') :
    nearest num den ≤ nearest num' den := by
  have hquot : num / den ≤ num' / den := Nat.div_le_div_right h
  unfold nearest
  dsimp only
  generalize hs : (num / den).log2 - 23 = s
  generalize hs' : (num' / den).log2 - 23 = s'
  have hle : s ≤ s' := by
    rw [← hs, ← hs', Nat.log2_eq_log_two, Nat.log2_eq_log_two]
    exact Nat.sub_le_sub_right (Nat.log_mono_right hquot) 23
  refine min_le_min_left infinity ?_
  rcases hle.eq_or_lt with rfl | hlt
  · exact Nat.add_le_add_left (roundHalfEven_mono _ h) _
  · -- the smaller rank is at most at the end of its power of two, the greater one beyond it
    have hpos (k : ℕ) : 0 < den <<< k := by
      rw [Nat.shiftLeft_eq]
      positivity
    have hbelow : roundHalfEven num (den <<< s) ≤ 2 * span :=
      (roundHalfEven_mono _ ((shift_eq_iff hden).mp hs).1.le).trans
        (roundHalfEven_mul_self _ (hpos s)).le
    have habove : span ≤ roundHalfEven num' (den <<< s') :=
      (roundHalfEven_mul_self _ (hpos s')).symm.le.trans
        (roundHalfEven_mono _ (((shift_eq_iff hden).mp hs').2.resolve_left (by omega)))
    have hstep : (s + 1) * span ≤ s' * span := Nat.mul_le_mul_right span hlt
    rw [Nat.add_mul, Nat.one_mul] at hstep
    omega

/-- A greater fraction does not have a smaller rank. -/
lemma nearest_mono {num den num' den' : ℕ} (hden : 0 < den) (hden' : 0 < den')
    (h : (num : ℚ) / den ≤ num' / den') : nearest num den ≤ nearest num' den' := by
  rw [div_le_div_iff₀ (by positivity) (by positivity)] at h
  have hterms : num * den' ≤ num' * den := by exact_mod_cast h
  calc nearest num den = nearest (num * den') (den * den') := (nearest_mul_right _ _ hden').symm
    _ ≤ nearest (num' * den) (den * den') := nearest_mono_left (Nat.mul_pos hden hden') hterms
    _ = nearest num' den' := by rw [Nat.mul_comm den den', nearest_mul_right _ _ hden]

/-- **A greater decimal is not rounded to a smaller rank.** -/
theorem ofDecimal_mono {d d' : Decimal} (h : d.value ≤ d'.value) : ofDecimal d ≤ ofDecimal d' := by
  rw [ofDecimal_eq_nearest, ofDecimal_eq_nearest]
  refine nearest_mono (terms_snd_pos d) (terms_snd_pos d') ?_
  rw [terms_value, terms_value]
  exact mul_le_mul_of_nonneg_right h (by positivity)

/-- A decimal between two that are rounded to a rank is rounded to it too. -/
lemma ofDecimal_eq_of_between {d low high : Decimal} {r : ℕ} (hlow : ofDecimal low = r)
    (hhigh : ofDecimal high = r) (hle : low.value ≤ d.value) (hge : d.value ≤ high.value) :
    ofDecimal d = r :=
  le_antisymm ((ofDecimal_mono hge).trans hhigh.le) (hlow.ge.trans (ofDecimal_mono hle))

/-! ## Around a rank -/

/-- A fifth of the distance above a rank is rounded to it. -/
lemma nearest_above {r : ℕ} (hr : r ≤ infinity) : nearest (5 * units r + gap r) 5 = r := by
  have hm := mantissa_lt r
  have hspan : span = 2 ^ 23 := rfl
  have hround : roundHalfEven (5 * mantissa r + 1) 5 = mantissa r := by
    unfold roundHalfEven
    dsimp only
    split_ifs <;> omega
  calc nearest (5 * units r + gap r) 5
    _ = nearest ((5 * mantissa r + 1) * 2 ^ (r / span - 1)) 5 := by
        rw [units_eq, gap]
        ring_nf
    _ = min infinity ((r / span - 1) * span + mantissa r) := by
        rw [nearest_scaled (by omega) (by omega)
          ((scale_eq_zero_or r).imp_right fun h => by omega), hround]
    _ = r := by rw [scale_add_mantissa, Nat.min_eq_right hr]

/-- A fifth of the distance below a rank is rounded to it. -/
lemma nearest_below {r : ℕ} (hr : r ≤ infinity) (hpos : 0 < r) :
    nearest (5 * units r - gap r) 5 = r := by
  have hm := mantissa_lt r
  have hspan : span = 2 ^ 23 := rfl
  have hscale := scale_add_mantissa r
  have hterms : 5 * units r - gap r = (5 * mantissa r - 1) * gap r := by
    rw [units_eq, Nat.sub_mul, Nat.one_mul, Nat.mul_assoc]
  rw [hterms, gap]
  by_cases hborder : r / span - 1 = 0 ∨ span < mantissa r
  · have hround : roundHalfEven (5 * mantissa r - 1) 5 = mantissa r := by
      have hmpos := mantissa_pos hpos
      unfold roundHalfEven
      dsimp only
      split_ifs <;> omega
    rw [nearest_scaled (by omega) (by omega) (hborder.imp_right fun h => by omega), hround, hscale,
      Nat.min_eq_right hr]
  · -- at a power of two the neighbour below belongs to the power before
    obtain ⟨hs, hmantissa⟩ := not_or.mp hborder
    have hmantissa : mantissa r = span := by
      have hge := (scale_eq_zero_or r).resolve_left hs
      omega
    obtain ⟨s, hs⟩ := Nat.exists_eq_succ_of_ne_zero hs
    have hround : roundHalfEven (10 * span - 2) 5 = 2 * span := by decide
    calc nearest ((5 * mantissa r - 1) * 2 ^ (r / span - 1)) 5
      _ = nearest ((10 * span - 2) * 2 ^ s) 5 := by
          have htwice : (5 * span - 1) * 2 = 10 * span - 2 := rfl
          rw [hmantissa, hs, Nat.succ_eq_add_one, pow_succ', ← Nat.mul_assoc, htwice]
      _ = min infinity (s * span + 2 * span) := by
          rw [nearest_scaled (by omega) (by decide) (.inr (by decide)), hround]
      _ = r := by
          rw [hmantissa, hs, Nat.succ_mul] at hscale
          rw [Nat.two_mul, ← Nat.add_assoc, hscale, Nat.min_eq_right hr]

/-- A decimal whose value is near to that of a rank is rounded to it. -/
lemma ofDecimal_eq_of_near {d : Decimal} {r : ℕ} (hr : r ≤ infinity) (hpos : 0 < r)
    (h : |d.value * 2 ^ 149 - units r| ≤ (gap r : ℚ) / 5) : ofDecimal d = r := by
  obtain ⟨hlow, hhigh⟩ := abs_le.mp h
  have hle : gap r ≤ 5 * units r := by
    rw [units_eq, ← Nat.mul_assoc]
    exact Nat.le_mul_of_pos_left _ (Nat.mul_pos (by decide) (mantissa_pos hpos))
  rw [ofDecimal_eq_nearest]
  apply le_antisymm
  · refine le_trans (nearest_mono (terms_snd_pos d) (by omega) ?_) (nearest_above hr).le
    rw [terms_value]
    push_cast
    linarith
  · refine (nearest_below hr hpos).symm.le.trans (nearest_mono (by omega) (terms_snd_pos d) ?_)
    rw [terms_value, Nat.cast_sub hle]
    push_cast
    linarith

end Reckon.Single
