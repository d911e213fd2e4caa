/-
# The order of binary32 numbers

The rank of a number is its bit pattern without the sign.  The comparisons of binary32 numbers
unpack the pattern into a sign, a mantissa and a power of two.  What comes out is told by the sign
and the rank, `Single.unpack_eq`.  So being finite is a condition on the rank,
`Single.isFinite_iff`, and finite numbers without a minus sign are compared by their ranks,
`Single.le_iff` and `Single.lt_iff`.  The absolute value has the rank of the number and no sign,
`Single.abs_eq`.

A pattern is that of one number, `Single.toBits_ofBits`, unless it is one of the many that stand for
no number.
-/
import Reckon.Proofs.Monotone
import Reckon.Proofs.Roundtrip

namespace Reckon.Single

open Float.Model Float.Model.UnpackedFloat

/-! ## Bit patterns -/

/-- The exponent in a pattern. -/
def exponentBits (b : UInt32) : BitVec 8 := @unpackExponent .binary32 b.toBitVec

/-- The mantissa in a pattern, without its leading bit. -/
def mantissaBits (b : UInt32) : BitVec 23 := @unpackMantissa .binary32 b.toBitVec

/-- The sign in a pattern. -/
def sign (b : UInt32) : Sign := .ofBitVec (@unpackSign .binary32 b.toBitVec)

section Fields

variable (b : UInt32)

lemma toNat_exponentBits : (exponentBits b).toNat = b.toNat % signBit / span := by
  have hfield : (exponentBits b).toNat = b.toNat / span % 256 := by
    simp [exponentBits, unpackExponent, span, Nat.shiftRight_eq_div_pow]
  rw [hfield]
  unfold signBit span
  omega

lemma toNat_mantissaBits : (mantissaBits b).toNat = b.toNat % signBit % span := by
  have hfield : (mantissaBits b).toNat = b.toNat % span := by
    simp [mantissaBits, unpackMantissa, span]
  rw [hfield]
  unfold signBit span
  omega

lemma exponentBits_eq_ones : exponentBits b = -1#8 ↔ infinity ≤ b.toNat % signBit := by
  rw [← BitVec.toNat_inj, toNat_exponentBits]
  simp only [signBit, infinity, span, BitVec.reduceNeg, BitVec.reduceToNat]
  omega

lemma exponentBits_eq_zero : exponentBits b = 0#8 ↔ b.toNat % signBit < span := by
  rw [← BitVec.toNat_inj, toNat_exponentBits]
  simp only [signBit, span, BitVec.reduceToNat]
  omega

lemma mantissaBits_eq_zero : mantissaBits b = 0#23 ↔ b.toNat % signBit % span = 0 := by
  rw [← BitVec.toNat_inj, toNat_mantissaBits]
  rfl

end Fields

/-- A number as the comparisons see it, told by its sign and its rank. -/
def unpacked (s : Sign) (r : ℕ) : UnpackedFloat :=
  if h : 0 < r then
    if r < infinity then .finite s (mantissa r) ((r / span - 1 : ℕ) - 149) (mantissa_pos h)
    else if r = infinity then .infinity s
    else .notANumber
  else .zero s

lemma unpacked_zero (s : Sign) : unpacked s 0 = .zero s := rfl

lemma unpacked_finite {s : Sign} {r : ℕ} (hpos : 0 < r) (hr : r < infinity) :
    unpacked s r =
      .finite s (mantissa r) ((r / span - 1 : ℕ) - 149) (mantissa_pos hpos) := by
  rw [unpacked, dif_pos hpos, if_pos hr]

lemma unpacked_infinity (s : Sign) : unpacked s infinity = .infinity s := rfl

lemma unpacked_of_lt {s : Sign} {r : ℕ} (h : infinity < r) : unpacked s r = .notANumber := by
  rw [unpacked, dif_pos (by omega), if_neg (by omega), if_neg (by omega)]

/-- Unpacking a pattern is told by its sign and its rank. -/
lemma unpack_pattern (b : UInt32) :
    UnpackedFloat.unpack .binary32 b.toBitVec = unpacked (sign b) (b.toNat % signBit) := by
  have hones := exponentBits_eq_ones b
  have hzeros := exponentBits_eq_zero b
  have hmantissa := mantissaBits_eq_zero b
  have hexponent := toNat_exponentBits b
  have hfraction := toNat_mantissaBits b
  have hlt : b.toNat % signBit < signBit := Nat.mod_lt _ (by decide)
  generalize b.toNat % signBit = r at *
  fun_cases UnpackedFloat.unpack with
  | case1 m e v s he hm =>
    have hr : r = infinity := by
      have hle := hones.mp he
      have hmod := hmantissa.mp hm
      unfold infinity span signBit at *
      omega
    rw [hr, unpacked_infinity]
    rfl
  | case2 m e he hm =>
    have hr : infinity < r := by
      have hle := hones.mp he
      have hmod := mt hmantissa.mpr hm
      unfold infinity span at *
      omega
    rw [unpacked_of_lt hr]
  | case3 m e v s he' he hm =>
    have hr : r = 0 := by
      have hsmall := hzeros.mp he
      rw [← Nat.mod_eq_of_lt hsmall]
      exact hmantissa.mp hm
    rw [hr, unpacked_zero]
    rfl
  | case4 m e k v s he' he hm =>
    have hsmall := hzeros.mp he
    have hpos : 0 < r := Nat.pos_of_ne_zero fun hr => hm (hmantissa.mpr (by rw [hr, Nat.zero_mod]))
    have hm' : m.toNat = mantissa r := by
      rw [Nat.mod_eq_of_lt hsmall] at hfraction
      rw [mantissa, if_pos hsmall]
      exact hfraction
    have hk : k + 1 = ((r / span - 1 : ℕ) : ℤ) - 149 := by
      have hbias : k = (e.toNat : ℤ) - 150 := rfl
      rw [hbias, he, Nat.div_eq_of_lt hsmall]
      rfl
    rw [unpacked_finite hpos (hsmall.trans (by decide)), UnpackedFloat.finite.injEq]
    exact ⟨rfl, hm', hk⟩
  | case5 m e k v s he' he =>
    have hlarge : span ≤ r := Nat.le_of_not_lt (mt hzeros.mpr he)
    have hfinite : r < infinity := Nat.lt_of_not_le (mt hones.mpr he')
    have hm' : (1#1 ++ m).toNat = mantissa r := by
      rw [mantissa, if_neg hlarge.not_gt, BitVec.toNat_append, ← hfraction,
        ← Nat.shiftLeft_add_eq_or_of_lt m.isLt]
      rfl
    have hk : k = ((r / span - 1 : ℕ) : ℤ) - 149 := by
      have hbias : k = (e.toNat : ℤ) - 150 := rfl
      have hfield : e.toNat = r / span := hexponent
      have hone : 1 ≤ r / span := (Nat.one_le_div_iff (by decide)).mpr hlarge
      omega
    rw [unpacked_finite (Nat.lt_of_lt_of_le (by decide) hlarge) hfinite, UnpackedFloat.finite.injEq]
    exact ⟨rfl, hm', hk⟩

/-- A pattern is that of one number, unless it is one of those that stand for no number. -/
lemma toBits_ofBits {b : UInt32} (h : b.toNat % signBit ≤ infinity) :
    (Float32.ofBits b).toBits = b := by
  have hvalid : Format.binary32.Valid b.toBitVec := by
    refine ⟨fun hexponent hmantissa => absurd ?_ hmantissa⟩
    have hr := le_antisymm h ((exponentBits_eq_ones b).mp hexponent)
    exact (mantissaBits_eq_zero b).mpr (by rw [hr]; rfl)
  have hbits := Float32.ofBits_toBits (.ofModel ⟨b, hvalid⟩)
  exact congrArg Float32.toBits hbits

section Numbers

variable {x y : Float32}

/-! ## Finite numbers -/

/-- A number as the comparisons see it is told by its sign and its rank. -/
lemma unpack_eq (x : Float32) : x.toModel.unpack = unpacked (sign x.toBits) (rank x) :=
  unpack_pattern x.toBits

lemma isFinite_iff : x.isFinite = true ↔ rank x < infinity := by
  change x.toModel.unpack.isFinite = true ↔ _
  rw [unpack_eq]
  unfold unpacked
  split_ifs with hpos hlt
  · exact iff_of_true rfl hlt
  · exact iff_of_false Bool.false_ne_true hlt
  · exact iff_of_false Bool.false_ne_true hlt
  · exact iff_of_true rfl (Nat.eq_zero_of_not_pos hpos ▸ (by decide : 0 < infinity))

/-! ## Absolute values -/

lemma abs_unpacked (s : Sign) (r : ℕ) : (unpacked s r).abs = unpacked .positive r := by
  unfold unpacked
  split_ifs <;> rfl

lemma sign_eq (b : UInt32) : sign b = if signBit ≤ b.toNat then .negative else .positive := by
  have hlt := b.toNat_lt
  have hfield : (@unpackSign .binary32 b.toBitVec).toNat = b.toNat / signBit := by
    change b.toNat >>> 31 % 2 = b.toNat / signBit
    rw [Nat.shiftRight_eq_div_pow, Nat.mod_eq_of_lt (by omega)]
    rfl
  have hzero : @unpackSign .binary32 b.toBitVec = 0#1 ↔ ¬ signBit ≤ b.toNat := by
    rw [← BitVec.toNat_inj, hfield, BitVec.toNat_zero, Nat.div_eq_zero_iff, Nat.not_le]
    exact or_iff_right (by decide)
  rw [sign, Sign.ofBitVec]
  simp only [hzero, ite_not]

/-- The absolute value has the rank of the number and no sign. -/
lemma abs_eq (x : Float32) : x.abs = ofRank false (rank x) := by
  have hlt : rank x < signBit := Nat.mod_lt _ (by decide)
  have hnat : (UInt32.ofNat (rank x)).toNat = rank x :=
    UInt32.toNat_ofNat_of_lt' (hlt.trans (by decide))
  have hunpack : UnpackedFloat.unpack .binary32 (UInt32.ofNat (rank x)).toBitVec =
      x.toModel.unpack.abs := by
    rw [unpack_eq, abs_unpacked, unpack_pattern, sign_eq, hnat, if_neg hlt.not_ge,
      Nat.mod_eq_of_lt hlt]
  change Float32.ofModel (.pack x.toModel.unpack.abs) = Float32.ofModel (.pack _)
  rw [← hunpack]
  rfl

lemma toBits_abs (h : rank x ≤ infinity) : x.abs.toBits.toNat = rank x := by
  have hnat : (UInt32.ofNat (rank x)).toNat = rank x :=
    UInt32.toNat_ofNat_of_lt' (h.trans_lt (by decide))
  rw [abs_eq, ofRank, if_neg Bool.false_ne_true, Nat.add_zero, toBits_ofBits, hnat]
  rw [hnat, Nat.mod_eq_of_lt (h.trans_lt (by decide))]
  exact h

/-! ## Comparisons -/

/-- The comparisons go by the power of two first and then by the mantissa, and so do the ranks. -/
lemma scale_lt_or {r r' : ℕ} (h : r < r') :
    r / span - 1 < r' / span - 1 ∨ r / span - 1 = r' / span - 1 ∧ mantissa r < mantissa r' := by
  have hscale := scale_add_mantissa r
  have hscale' := scale_add_mantissa r'
  have hle : r / span - 1 ≤ r' / span - 1 := Nat.sub_le_sub_right (Nat.div_le_div_right h.le) 1
  rcases hle.lt_or_eq with hlt | heq
  · exact .inl hlt
  · rw [heq] at hscale
    exact .inr ⟨heq, by omega⟩

lemma compare_scale (r r' : ℕ) :
    (compare (((r / span - 1 : ℕ) : ℤ) - 149) ((r' / span - 1 : ℕ) - 149)).then
      (compare (mantissa r) (mantissa r')) = compare r r' := by
  rcases Nat.lt_trichotomy r r' with h | rfl | h
  · rw [compare_lt_iff_lt.mpr h, Ordering.then_eq_lt, compare_lt_iff_lt, compare_eq_iff_eq,
      compare_lt_iff_lt]
    exact (scale_lt_or h).imp (by omega) (And.imp_left (by omega))
  · simp only [compare_eq_iff_eq.mpr, Ordering.then_eq]
  · rw [compare_gt_iff_gt.mpr h, Ordering.then_eq_gt, compare_gt_iff_gt, compare_eq_iff_eq,
      compare_gt_iff_gt]
    exact (scale_lt_or h).imp (by omega) (And.imp_left (by omega))

/-- Without a minus sign the comparisons are those of the ranks. -/
lemma compare_unpacked {r r' : ℕ} (hr : r < infinity) (hr' : r' < infinity) :
    (unpacked .positive r).compare (unpacked .positive r') = some (compare r r') := by
  rcases Nat.eq_zero_or_pos r with rfl | hpos <;> rcases Nat.eq_zero_or_pos r' with rfl | hpos'
  · rfl
  · rw [unpacked_finite hpos' hr', compare_lt_iff_lt.mpr hpos']
    rfl
  · rw [unpacked_finite hpos hr, compare_gt_iff_gt.mpr hpos]
    rfl
  · rw [unpacked_finite hpos hr, unpacked_finite hpos' hr', ← compare_scale]
    rfl

lemma unpack_eq_of_not_isNegative (h : isNegative x = false) :
    x.toModel.unpack = unpacked .positive (rank x) := by
  rw [unpack_eq, sign_eq, if_neg (of_decide_eq_false h)]

lemma le_iff (hx : isNegative x = false) (hx' : rank x < infinity) (hy : isNegative y = false)
    (hy' : rank y < infinity) : x ≤ y ↔ rank x ≤ rank y := by
  have hle : x ≤ y ↔ x.toModel.unpack.le y.toModel.unpack = true := decide_eq_true_iff
  rw [hle, unpack_eq_of_not_isNegative hx, unpack_eq_of_not_isNegative hy, UnpackedFloat.le,
    compare_unpacked hx' hy', Option.any_some, Nat.isLE_compare]

lemma lt_iff (hx : isNegative x = false) (hx' : rank x < infinity) (hy : isNegative y = false)
    (hy' : rank y < infinity) : x < y ↔ rank x < rank y := by
  have hlt : x < y ↔ x.toModel.unpack.lt y.toModel.unpack = true := decide_eq_true_iff
  rw [hlt, unpack_eq_of_not_isNegative hx, unpack_eq_of_not_isNegative hy, UnpackedFloat.lt,
    compare_unpacked hx' hy', beq_iff_eq, Option.some_inj, compare_lt_iff_lt]

/-- A number compares equal to zero if its rank is zero, whatever its sign is. -/
lemma beq_zero_iff : (x == 0) = true ↔ rank x = 0 := by
  change x.toModel.unpack.beq (.zero .positive) = true ↔ _
  rw [unpack_eq, UnpackedFloat.beq, beq_iff_eq]
  unfold unpacked
  split_ifs with hpos hlt heq
  · cases sign x.toBits <;> exact iff_of_false (by simp [UnpackedFloat.compare]) hpos.ne'
  · cases sign x.toBits <;> exact iff_of_false (by simp [UnpackedFloat.compare]) hpos.ne'
  · exact iff_of_false (by simp [UnpackedFloat.compare]) hpos.ne'
  · exact iff_of_true rfl (Nat.eq_zero_of_not_pos hpos)

end Numbers

end Reckon.Single
