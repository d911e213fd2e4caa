/-
# Binary32 numbers are read back from their texts

A binary32 number is told by its sign and its rank, or it is the one that stands for no number.  The
sign stands before the text of the rank, and no text of a rank begins with a sign or is taken for a
name that it is not.  Therefore reading the text of a binary32 number, in either style, gives this
number: `FloatStyle.float32?_text`.
-/
import Mathlib
import Reckon.Proofs.Numerals

namespace Reckon

namespace Single

/-- There is one bit pattern that stands for no number. -/
lemma eq_nan_of_infinity_lt {x : Float32} (h : infinity < rank x) : x = nan := by
  have hrank : 0x7F800000 < x.toModel.toBits.toNat % 0x80000000 := h
  have hvalid := x.toModel.valid.eq_packedNaN ?exponent ?mantissa
  case exponent =>
    apply BitVec.eq_of_toNat_eq
    simp [Float.Model.UnpackedFloat.unpackExponent, Nat.shiftRight_eq_div_pow]
    omega
  case mantissa =>
    intro hzero
    have hbits := congrArg BitVec.toNat hzero
    simp [Float.Model.UnpackedFloat.unpackMantissa] at hbits
    omega
  have hbits : x.toBits = 0x7FC00000 := UInt32.toBitVec_inj.mp hvalid
  rw [← Float32.ofBits_toBits x, hbits, nan]

/-- A number is told by its sign and its rank. -/
lemma ofRank_rank (x : Float32) : ofRank (isNegative x) (rank x) = x := by
  have hlt := x.toBits.toNat_lt
  have hbits : rank x + (if isNegative x then signBit else 0) = x.toBits.toNat := by
    by_cases h : signBit ≤ x.toBits.toNat
    · simp only [rank, isNegative, h, decide_true, if_true]
      unfold signBit at h ⊢
      omega
    · simp only [rank, isNegative, h, decide_false, Bool.false_eq_true, if_false]
      unfold signBit at h ⊢
      omega
  rw [ofRank, hbits, UInt32.ofNat_toNat, Float32.ofBits_toBits]

end Single

namespace FloatStyle

open Numeral

lemma float32?_infinity {cs name : List Char} {negative : Bool}
    (hunsign : unsign cs = (negative, name))
    (hname : String.ofList (name.map Char.toLower) = "inf" ∨
      String.ofList (name.map Char.toLower) = "infinity") :
    float32? cs = some (Single.ofRank negative Single.infinity) := by
  simp only [float32?, hunsign, if_pos hname]

/-- What begins with a digit is none of the names. -/
lemma float32?_decimal {cs us : List Char} {c : Char} {negative : Bool}
    (hunsign : unsign cs = (negative, c :: us)) (hc : c.isDigit = true) :
    float32? cs =
      (decimal? (c :: us)).map fun d => Single.ofRank negative (Single.ofDecimal d) := by
  have hlower : c.toLower = c := by
    refine Char.toLower_eq_of_not_isUpper fun hupper => ?_
    have hdigit := Char.isDigit_iff_toNat.mp hc
    have hletter := UInt32.le_iff_toNat_le.mp (of_decide_eq_true hupper).1
    exact absurd (hletter.trans hdigit.2) (by decide)
  have hname {name : String} (h : ∀ d ∈ name.toList.head?, d.isDigit = false) :
      String.ofList ((c :: us).map Char.toLower) ≠ name := by
    rintro rfl
    have hfalse := h c (by simp [hlower])
    exact absurd (hc.symm.trans hfalse) (by decide)
  have hinf : ¬ (String.ofList ((c :: us).map Char.toLower) = "inf" ∨
      String.ofList ((c :: us).map Char.toLower) = "infinity") :=
    not_or.mpr ⟨hname (by simp), hname (by simp)⟩
  have hnan : String.ofList ((c :: us).map Char.toLower) ≠ "nan" := hname (by simp)
  simp only [float32?, hunsign, if_neg hinf, if_neg hnan]

/-- Reading the text of a number gives this number. -/
theorem float32?_text {style : FloatStyle} (h : style.IsRead) (x : Float32) :
    float32? (style.text x).toList = some x := by
  rcases Nat.lt_or_ge Single.infinity (Single.rank x) with hnan | hle
  · have htext : style.text x = "NaN" := by simp only [text, if_pos hnan]
    rw [htext, Single.eq_nan_of_infinity_lt hnan]
    rfl
  have hrank := Single.ofRank_rank x
  rw [text_of_le hle]
  rcases hle.eq_or_lt with hinfinity | hfinite
  · rw [hinfinity] at hrank ⊢
    rw [magnitude_infinity]
    rcases h.infinity with hname | hname
    · have hunsign := unsign_sign (c := 'i') (by decide) (Single.isNegative x = true) ['n', 'f']
      rw [Bool.decide_eq_true] at hunsign
      rw [hname]
      exact (float32?_infinity hunsign (by decide)).trans (congrArg some hrank)
    · have hunsign := unsign_sign (c := 'I') (by decide) (Single.isNegative x = true)
        ['n', 'f', 'i', 'n', 'i', 't', 'y']
      rw [Bool.decide_eq_true] at hunsign
      rw [hname]
      exact (float32?_infinity hunsign (by decide)).trans (congrArg some hrank)
  · obtain ⟨c, cs, hcs, hc⟩ := isDigit_head_magnitude style hfinite
    obtain ⟨d, hd, hround⟩ := decimal?_magnitude h hfinite
    rw [hcs] at hd ⊢
    rw [float32?_decimal (unsign_sign (ne_of_isDigit hc) _ _) hc, hd, Option.map_some, hround,
      Bool.decide_eq_true, hrank]

end FloatStyle

end Reckon
