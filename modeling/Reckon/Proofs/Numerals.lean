/-
# The texts of numbers

A finite binary32 number is written with the digits of a decimal that is rounded to its rank, in one
of two layouts.  Either layout is read as a decimal that stands for the same number, so that the
text of a rank is read as a decimal that is rounded to it, `FloatStyle.decimal?_magnitude`.

The texts of numbers, of either kind, are made of letters, digits, points and minus signs; a text of
a binary32 number has one that is neither a digit nor a minus sign, by which it is told from the
text of an integer.
-/
import Mathlib.Tactic.Common
import Mathlib.Tactic.NormNum
import Reckon.Proofs.Rounding
import Reckon.Proofs.Runs
import Reckon.Scalar
import Reckon.Single.Numeral

namespace Reckon

/-! ## Reading numerals -/

namespace Numeral

lemma ne_of_isDigit {c : Char} (h : c.isDigit = true) : c ≠ '-' ∧ c ≠ '+' := by
  constructor
  all_goals
    rintro rfl
    exact absurd h (by decide)

/-- A minus sign, if there is one, is taken off. -/
lemma unsign_sign {c : Char} (h : c ≠ '-' ∧ c ≠ '+') (p : Prop) [Decidable p] (cs : List Char) :
    unsign ((if p then ['-'] else []) ++ c :: cs) = (decide p, c :: cs) := by
  by_cases hp : p
  · simp [hp, unsign]
  · simp [hp, unsign, h.1, h.2]

/-- The characters of an integer: its digits, and a minus sign before them if it is below zero. -/
lemma toList_toString (n : ℤ) : (toString n).toList =
    (if n < 0 then ['-'] else []) ++ Nat.toDigits 10 n.natAbs := by
  cases n with
  | ofNat m =>
    have hsign : ¬ Int.ofNat m < 0 := by simp
    rw [if_neg hsign, Int.toString_eq_repr]
    simp [Int.repr, Nat.repr]
  | negSucc m =>
    rw [if_pos (Int.negSucc_lt_zero m), Int.toString_eq_repr]
    simp [Int.repr, Nat.repr]

/-- The decimal text of an integer is read as that integer. -/
lemma integer?_toString (n : ℤ) : integer? (toString n).toList = some n := by
  obtain ⟨c, cs, hcs⟩ := List.exists_cons_of_ne_nil (Nat.toDigits_ne_nil (n := n.natAbs) (b := 10))
  have hc : c.isDigit = true :=
    Nat.isDigit_of_mem_toDigits (n := n.natAbs) (by omega) le_rfl (hcs ▸ List.mem_cons_self)
  have hunsign := unsign_sign (ne_of_isDigit hc) (n < 0) cs
  rw [← hcs] at hunsign
  have hread : integer? (toString n).toList =
      some (if n < 0 then -(n.natAbs : ℤ) else n.natAbs) := by
    rw [toList_toString, integer?, hunsign]
    simp [natural?_toDigits]
  rw [hread]
  split_ifs
  · exact congrArg some (by omega)
  · exact congrArg some (by omega)

lemma exponent?_toString {mark : Char} (h : mark = 'e' ∨ mark = 'E') (n : ℤ) :
    exponent? (mark :: (toString n).toList) = some n := by
  rw [exponent?, if_pos h, integer?_toString]

/-- A numeral without a point. -/
lemma decimal?_whole {ds rest : List Char} (hne : ds ≠ []) (hds : ∀ c ∈ ds, c.isDigit = true)
    (hrest : ∀ c ∈ rest.head?, c.isDigit = false ∧ c ≠ '.') :
    decimal? (ds ++ rest) =
      (exponent? rest).map fun e => ⟨Nat.ofDigitChars 10 ds 0, e⟩ := by
  obtain ⟨htake, hdrop⟩ := run_append hds fun c hc => (hrest c hc).1
  have hfraction : fraction rest = ([], rest) := by
    unfold fraction
    split
    · exact absurd rfl (hrest '.' rfl).2
    · rfl
  simp [decimal?, htake, hdrop, hfraction, hne]

/-- A numeral with a point.  There is at least one digit, on one of the sides of it. -/
lemma decimal?_around_point {ds fs rest : List Char} (hds : ∀ c ∈ ds, c.isDigit = true)
    (hfs : ∀ c ∈ fs, c.isDigit = true) (hrest : ∀ c ∈ rest.head?, c.isDigit = false) :
    decimal? (ds ++ '.' :: (fs ++ rest)) =
      if ds = [] ∧ fs = [] then none
      else (exponent? rest).map fun e => ⟨Nat.ofDigitChars 10 (ds ++ fs) 0, e - fs.length⟩ := by
  have hpoint : ∀ c ∈ ('.' :: (fs ++ rest)).head?, c.isDigit = false := by simp
  obtain ⟨htake, hdrop⟩ := run_append hds hpoint
  obtain ⟨hparts, hafter⟩ := run_append hfs hrest
  simp only [decimal?, htake, hdrop, fraction, hparts, hafter]

/-- A numeral with digits before its point. -/
lemma decimal?_point {ds fs rest : List Char} (hne : ds ≠ []) (hds : ∀ c ∈ ds, c.isDigit = true)
    (hfs : ∀ c ∈ fs, c.isDigit = true) (hrest : ∀ c ∈ rest.head?, c.isDigit = false) :
    decimal? (ds ++ '.' :: (fs ++ rest)) =
      (exponent? rest).map fun e => ⟨Nat.ofDigitChars 10 (ds ++ fs) 0, e - fs.length⟩ := by
  rw [decimal?_around_point hds hfs hrest, if_neg fun h => hne h.1]

end Numeral

/-! ## Reading layouts -/

namespace FloatStyle

open Numeral

/-- What a style needs so that its texts are read back: a mark by which exponents are known, a
padding that adds nothing, and one of the names of infinity. -/
structure IsRead (style : FloatStyle) : Prop where
  mark : style.mark = 'e' ∨ style.mark = 'E'
  padding : style.padding = "" ∨ style.padding = ".0"
  infinity : style.infinity = "inf" ∨ style.infinity = "Infinity"

lemma isRead_printed : printed.IsRead := ⟨.inr rfl, .inr rfl, .inr rfl⟩

lemma isRead_literal : literal.IsRead := ⟨.inl rfl, .inl rfl, .inl rfl⟩

lemma isDigit_of_mem_replicate {n : ℕ} {c : Char} (h : c ∈ List.replicate n '0') :
    c.isDigit = true := by
  obtain rfl := List.eq_of_mem_replicate h
  rfl

lemma ofDigitChars_digits (d : Decimal) : Nat.ofDigitChars 10 d.digits 0 = d.coefficient :=
  Nat.ofDigitChars_ten_toDigits

/-- Zeros behind the digits multiply by ten each. -/
lemma ofDigitChars_digits_append (d : Decimal) (k : ℕ) :
    Nat.ofDigitChars 10 (d.digits ++ List.replicate k '0') 0 = d.coefficient * 10 ^ k := by
  rw [Nat.ofDigitChars_append, ofDigitChars_digits, Nat.ofDigitChars_replicate_zero, Nat.mul_comm]

/-- The digits of a decimal with a point among them. -/
lemma decimal?_digits (d : Decimal) {k : ℕ} (hk : 0 < k) {rest : List Char}
    (hrest : ∀ c ∈ rest.head?, c.isDigit = false) :
    decimal? (d.digits.take k ++ '.' :: (d.digits.drop k ++ rest)) =
      (exponent? rest).map fun e => ⟨d.coefficient, e - (d.digits.length - k : ℕ)⟩ := by
  have hdigits : ∀ c ∈ d.digits, c.isDigit = true := fun c => Decimal.isDigit_of_mem_digits
  have hne : d.digits.take k ≠ [] := by simp [hk.ne']
  rw [decimal?_point hne (fun c hc => hdigits c (List.mem_of_mem_take hc))
    (fun c hc => hdigits c (List.mem_of_mem_drop hc)) hrest, List.take_append_drop,
    ofDigitChars_digits, List.length_drop]

/-- The digits of a decimal with zeros behind them, of which the last one follows a point. -/
lemma decimal?_padded (d : Decimal) (k : ℕ) {rest : List Char}
    (hrest : ∀ c ∈ rest.head?, c.isDigit = false) :
    decimal? (d.digits ++ List.replicate k '0' ++ '.' :: ('0' :: rest)) =
      (exponent? rest).map fun e => ⟨d.coefficient * 10 ^ (k + 1), e - 1⟩ := by
  have hzeros : ∀ c ∈ d.digits ++ List.replicate k '0', c.isDigit = true := fun c hc =>
    (List.mem_append.mp hc).elim Decimal.isDigit_of_mem_digits isDigit_of_mem_replicate
  have hzero : ∀ c ∈ ['0'], c.isDigit = true := by simp
  have hread := decimal?_point (by simp) hzeros hzero hrest
  have hlast : d.digits ++ List.replicate k '0' ++ ['0'] =
      d.digits ++ List.replicate (k + 1) '0' := by
    rw [List.append_assoc, List.replicate_succ']
  rwa [hlast, ofDigitChars_digits_append] at hread

/-- A decimal that is written plainly is read as one that stands for the same number. -/
lemma decimal?_plain (d : Decimal) : ∃ d', decimal? (plain d) = some d' ∧ d'.value = d.value := by
  have hnone : ∀ c ∈ ([] : List Char).head?, c.isDigit = false := by simp
  have hpoint : d.point = d.exponent + d.digits.length := rfl
  unfold plain
  split_ifs with hpositive
  · dsimp only
    split_ifs with hinside
    · -- the point stands among the digits
      have hread := decimal?_digits d (k := d.point.toNat) (by omega) hnone
      rw [List.append_nil] at hread
      exact ⟨_, hread, Decimal.value_eq (by omega)⟩
    · -- zeros fill up the digits to the point, and one follows it
      exact ⟨_, decimal?_padded d (d.point.toNat - d.digits.length) hnone,
        Decimal.value_shift (by omega)⟩
  · -- zeros stand between the point and the digits
    have hzeros : ∀ c ∈ List.replicate (-d.point).toNat '0' ++ d.digits, c.isDigit = true :=
      fun c hc =>
        (List.mem_append.mp hc).elim isDigit_of_mem_replicate Decimal.isDigit_of_mem_digits
    have hzero : ∀ c ∈ ['0'], c.isDigit = true := by simp
    have hread := decimal?_point (List.cons_ne_nil '0' []) hzero hzeros hnone
    have hvalue :
        Nat.ofDigitChars 10 (['0'] ++ (List.replicate (-d.point).toNat '0' ++ d.digits)) 0 =
          d.coefficient := by
      rw [List.singleton_append, ← List.cons_append, ← List.replicate_succ,
        Nat.ofDigitChars_append, Nat.ofDigitChars_replicate_zero, Nat.mul_zero, ofDigitChars_digits]
    rw [List.append_nil, hvalue, List.length_append, List.length_replicate] at hread
    exact ⟨_, hread, Decimal.value_eq (by omega)⟩

/-- A decimal in scientific notation is read as one that stands for the same number. -/
lemma decimal?_scientific {style : FloatStyle} (h : style.IsRead) (d : Decimal) :
    ∃ d', decimal? (style.scientific d) = some d' ∧ d'.value = d.value := by
  have hexponent := exponent?_toString h.mark (d.point - 1)
  have hmark : style.mark.isDigit = false ∧ style.mark ≠ '.' := by
    rcases h.mark with hmark | hmark <;> rw [hmark] <;> decide
  have hrest : ∀ c ∈ (style.mark :: (toString (d.point - 1)).toList).head?,
      c.isDigit = false ∧ c ≠ '.' := by
    rintro c ⟨⟩
    exact hmark
  have hpoint : d.point = d.exponent + d.digits.length := rfl
  have hpositive : 0 < d.digits.length := List.length_pos_of_ne_nil d.digits_ne_nil
  unfold scientific
  dsimp only
  split_ifs with hone
  · rw [List.take_of_length_le hone.le]
    rcases h.padding with hpadding | hpadding
    · -- one digit and no point
      have hread := decimal?_whole d.digits_ne_nil
        (fun c => Decimal.isDigit_of_mem_digits) hrest
      rw [hexponent, Option.map_some, ofDigitChars_digits] at hread
      rw [hpadding, String.toList_empty, List.append_nil]
      exact ⟨_, hread, Decimal.value_eq (by omega)⟩
    · -- one digit, and a zero behind the point
      have hread := decimal?_padded d 0 fun c hc => (hrest c hc).1
      rw [hexponent, Option.map_some, List.replicate_zero, List.append_nil] at hread
      have htext : d.digits ++ ".0".toList = d.digits ++ ['.', '0'] := rfl
      rw [hpadding, htext, List.append_assoc]
      exact ⟨_, hread, Decimal.value_shift (by omega)⟩
  · -- one digit, and the others behind the point
    have hread := decimal?_digits d (k := 1) Nat.one_pos fun c hc => (hrest c hc).1
    rw [hexponent, Option.map_some] at hread
    rw [List.append_assoc]
    exact ⟨_, hread, Decimal.value_eq (by omega)⟩

/-- The text of a finite rank is read as a decimal that is rounded to it. -/
lemma decimal?_magnitude {style : FloatStyle} (h : style.IsRead) {r : ℕ}
    (hr : r < Single.infinity) :
    ∃ d, decimal? (style.magnitude r) = some d ∧ Single.ofDecimal d = r := by
  unfold magnitude
  split_ifs with hzero hinfinity
  · exact ⟨⟨0, -1⟩, rfl, hzero.symm⟩
  · exact absurd hinfinity hr.ne
  · obtain ⟨d, hd, hvalue⟩ := decimal?_plain (Single.shortest r)
    exact ⟨d, hd, (Single.ofDecimal_congr hvalue).trans (Single.ofDecimal_shortest hr.le)⟩
  · obtain ⟨d, hd, hvalue⟩ := decimal?_scientific h (Single.shortest r)
    exact ⟨d, hd, (Single.ofDecimal_congr hvalue).trans (Single.ofDecimal_shortest hr.le)⟩

/-- The text of a finite rank begins with a digit. -/
lemma isDigit_head_magnitude (style : FloatStyle) {r : ℕ} (hr : r < Single.infinity) :
    ∃ c cs, style.magnitude r = c :: cs ∧ c.isDigit = true := by
  have htake {k : ℕ} (hk : 0 < k) (d : Decimal) (rest : List Char) :
      ∃ c cs, d.digits.take k ++ rest = c :: cs ∧ c.isDigit = true := by
    obtain ⟨c, cs, hcs⟩ := List.exists_cons_of_ne_nil d.digits_ne_nil
    obtain ⟨n, rfl⟩ := Nat.exists_eq_succ_of_ne_zero hk.ne'
    exact ⟨c, cs.take n ++ rest, by rw [hcs]; rfl,
      Decimal.isDigit_of_mem_digits (d := d) (hcs ▸ List.mem_cons_self)⟩
  unfold magnitude
  split_ifs with hzero hinfinity
  · exact ⟨_, _, rfl, rfl⟩
  · exact absurd hinfinity hr.ne
  · unfold plain
    split_ifs with hpositive
    · dsimp only
      split_ifs with hinside
      · exact htake (by omega) _ _
      · rw [List.append_assoc, ← List.take_length (l := (Single.shortest r).digits)]
        exact htake (List.length_pos_of_ne_nil (Decimal.digits_ne_nil _)) _ _
    · exact ⟨_, _, rfl, rfl⟩
  · unfold scientific
    dsimp only
    rw [List.append_assoc]
    exact htake Nat.one_pos _ _

lemma text_of_le {x : Float32} (h : Single.rank x ≤ Single.infinity) (style : FloatStyle) :
    (style.text x).toList =
      (if Single.isNegative x then ['-'] else []) ++ style.magnitude (Single.rank x) := by
  simp only [text, if_neg (Nat.not_lt.mpr h), String.toList_ofList]

lemma magnitude_infinity (style : FloatStyle) :
    style.magnitude Single.infinity = style.infinity.toList := by
  rw [magnitude, if_neg (by decide), if_pos rfl]

end FloatStyle

/-! ## The characters of numerals -/

/-- The characters of numerals: letters, digits, the point and the minus sign. -/
def isNumeric (c : Char) : Bool := c.isAlphanum || c = '.' || c = '-'

lemma isNumeric_of_isDigit {c : Char} (h : c.isDigit = true) : isNumeric c = true := by
  simp [isNumeric, Char.isAlphanum, h]

lemma isNumeric_toString (n : ℤ) : ∀ c ∈ (toString n).toList, isNumeric c = true := by
  rw [Numeral.toList_toString, List.forall_mem_append]
  refine ⟨?_, fun c hc => isNumeric_of_isDigit (Nat.isDigit_of_mem_toDigits (by omega) le_rfl hc)⟩
  split_ifs
  · simp [isNumeric]
  · simp

namespace FloatStyle

lemma isNumeric_digits (d : Decimal) : ∀ c ∈ d.digits, isNumeric c = true :=
  fun _ hc => isNumeric_of_isDigit (Decimal.isDigit_of_mem_digits hc)

lemma isNumeric_zeros (n : ℕ) : ∀ c ∈ List.replicate n '0', isNumeric c = true :=
  fun _ hc => isNumeric_of_isDigit (isDigit_of_mem_replicate hc)

lemma isNumeric_plain (d : Decimal) : ∀ c ∈ plain d, isNumeric c = true := by
  have hdigits := isNumeric_digits d
  have hpoint : isNumeric '.' = true := by decide
  have hzero : isNumeric '0' = true := by decide
  unfold plain
  split_ifs
  · dsimp only
    split_ifs
    · refine List.forall_mem_append.mpr ⟨fun c hc => hdigits c (List.mem_of_mem_take hc), ?_⟩
      exact List.forall_mem_cons.mpr ⟨hpoint, fun c hc => hdigits c (List.mem_of_mem_drop hc)⟩
    · refine List.forall_mem_append.mpr ⟨List.forall_mem_append.mpr ⟨hdigits, ?_⟩, ?_⟩
      · exact isNumeric_zeros _
      · simp [hpoint, hzero]
  · refine List.forall_mem_append.mpr ⟨?_, hdigits⟩
    exact List.forall_mem_cons.mpr ⟨hzero, List.forall_mem_cons.mpr ⟨hpoint, isNumeric_zeros _⟩⟩

lemma isNumeric_scientific {style : FloatStyle} (h : style.IsRead) (d : Decimal) :
    ∀ c ∈ style.scientific d, isNumeric c = true := by
  have hdigits := isNumeric_digits d
  have hmark : isNumeric style.mark = true := by
    rcases h.mark with hmark | hmark <;> rw [hmark] <;> decide
  have hpadding : ∀ c ∈ style.padding.toList, isNumeric c = true := by
    rcases h.padding with hpadding | hpadding <;> rw [hpadding] <;> simp [isNumeric]
  unfold scientific
  dsimp only
  refine List.forall_mem_append.mpr ⟨List.forall_mem_append.mpr ⟨?_, ?_⟩, ?_⟩
  · exact fun c hc => hdigits c (List.mem_of_mem_take hc)
  · split_ifs
    · exact hpadding
    · exact List.forall_mem_cons.mpr
        ⟨by decide, fun c hc => hdigits c (List.mem_of_mem_drop hc)⟩
  · exact List.forall_mem_cons.mpr ⟨hmark, isNumeric_toString _⟩

lemma isNumeric_magnitude {style : FloatStyle} (h : style.IsRead) (r : ℕ) :
    ∀ c ∈ style.magnitude r, isNumeric c = true := by
  unfold magnitude
  split_ifs
  · simp [isNumeric]
  · rcases h.infinity with hname | hname <;> rw [hname] <;> simp [isNumeric]
  · exact isNumeric_plain _
  · exact isNumeric_scientific h _

/-- The text of a binary32 number is a numeral. -/
lemma isNumeric_text {style : FloatStyle} (h : style.IsRead) (x : Float32) :
    ∀ c ∈ (style.text x).toList, isNumeric c = true := by
  rcases Nat.lt_or_ge Single.infinity (Single.rank x) with hnan | hle
  · have htext : style.text x = "NaN" := by simp only [text, if_pos hnan]
    rw [htext]
    simp [isNumeric]
  · rw [text_of_le hle, List.forall_mem_append]
    refine ⟨?_, isNumeric_magnitude h _⟩
    split_ifs
    · simp [isNumeric]
    · simp

lemma point_mem_plain (d : Decimal) : '.' ∈ plain d := by
  unfold plain
  split_ifs
  · dsimp only
    split_ifs
    · exact List.mem_append_right _ List.mem_cons_self
    · exact List.mem_append_right _ List.mem_cons_self
  · exact List.mem_append_left _ (List.mem_cons_of_mem _ List.mem_cons_self)

lemma exists_mem_magnitude {style : FloatStyle} (h : style.IsRead) (r : ℕ) :
    ∃ c ∈ style.magnitude r, c.isDigit = false ∧ c ≠ '-' := by
  unfold magnitude
  split_ifs
  · exact ⟨'.', by simp, by decide⟩
  · rcases h.infinity with hname | hname <;> rw [hname] <;> exact ⟨'f', by simp, by decide⟩
  · exact ⟨'.', point_mem_plain _, by decide⟩
  · refine ⟨style.mark, List.mem_append_right _ List.mem_cons_self, ?_⟩
    rcases h.mark with hmark | hmark <;> rw [hmark] <;> decide

/-- A point, a mark or a letter tells the text of a binary32 number from that of an integer. -/
lemma exists_mem_text {style : FloatStyle} (h : style.IsRead) (x : Float32) :
    ∃ c ∈ (style.text x).toList, c.isDigit = false ∧ c ≠ '-' := by
  rcases Nat.lt_or_ge Single.infinity (Single.rank x) with hnan | hle
  · have htext : style.text x = "NaN" := by simp only [text, if_pos hnan]
    rw [htext]
    exact ⟨'N', by simp, by decide⟩
  · obtain ⟨c, hc, hne⟩ := exists_mem_magnitude h (Single.rank x)
    rw [text_of_le hle]
    exact ⟨c, List.mem_append_right _ hc, hne⟩

end FloatStyle

/-- The text of a number is a numeral. -/
lemma Scalar.isNumeric_text (a : Scalar) : ∀ c ∈ a.text.toList, isNumeric c = true := by
  cases a with
  | int n => exact isNumeric_toString n.toInt
  | float x => exact FloatStyle.isNumeric_text FloatStyle.isRead_printed x

end Reckon
