/-
# The printed text of a binary32 number is faithful

Program output writes a finite number plainly if it is zero or lies from a thousandth up to ten
million, and in scientific notation otherwise.  Which of the two it is, what the text looks like,
which number it is read back as and that it has no more digits than that needs is
`FloatStyle.text_printed_faithful`.

The two notations have their shape whatever the decimal is, except that the exponent of the
scientific one is not zero: a number with one digit before the point is written plainly.
-/
import Reckon.Proofs.Ordering
import Reckon.Proofs.Shortest

namespace Reckon

/-! ## Shapes -/

/-- One or more digits. -/
structure IsDigits (ds : List Char) : Prop where
  ne_nil : ds ≠ []
  isDigit : ∀ c ∈ ds, c.isDigit = true

/-- A minus sign, if there is one. -/
def minus (negative : Bool) : List Char := if negative then ['-'] else []

/-- Digits, a point and digits. -/
def PlainForm (cs : List Char) : Prop :=
  ∃ ds fs, cs = ds ++ '.' :: fs ∧ IsDigits ds ∧ IsDigits fs

/-- One digit other than zero, a point and digits, the letter `E`, and an exponent of ten, which has
no leading zero. -/
def ScientificForm (cs : List Char) : Prop :=
  ∃ d fs negative es, cs = d :: '.' :: (fs ++ 'E' :: (minus negative ++ es)) ∧
    d.isDigit = true ∧ d ≠ '0' ∧ IsDigits fs ∧ IsDigits es ∧ es.head? ≠ some '0'

lemma IsDigits.append {ds fs : List Char} (hds : IsDigits ds)
    (hfs : ∀ c ∈ fs, c.isDigit = true) : IsDigits (ds ++ fs) :=
  ⟨by simp [hds.ne_nil], List.forall_mem_append.mpr ⟨hds.isDigit, hfs⟩⟩

lemma isDigits_toDigits (n : ℕ) : IsDigits (Nat.toDigits 10 n) :=
  ⟨Nat.toDigits_ne_nil, fun _ => Nat.isDigit_of_mem_toDigits (by omega) le_rfl⟩

lemma isDigits_zero : IsDigits ['0'] := isDigits_toDigits 0

/-- The first digit of a number is zero for zero only. -/
lemma head?_toDigits_ne {n : ℕ} (h : n ≠ 0) : (Nat.toDigits 10 n).head? ≠ some '0' := by
  have hdigit : ∀ m < 10, m ≠ 0 → Nat.digitChar m ≠ '0' := by decide
  induction n using Nat.strongRecOn with
  | ind n ih =>
    rw [Nat.toDigits_eq_if (by omega)]
    split_ifs with hn
    · rw [List.head?_cons, Ne, Option.some_inj]
      exact hdigit n hn h
    · rw [List.head?_append_of_ne_nil _ Nat.toDigits_ne_nil]
      exact ih (n / 10) (by omega) (by omega)

namespace FloatStyle

/-- A decimal that is written plainly has digits on both sides of its point. -/
lemma plainForm_plain (d : Decimal) : PlainForm (plain d) := by
  have hdigits : IsDigits d.digits := isDigits_toDigits _
  unfold plain
  split_ifs with hpositive
  · dsimp only
    split_ifs with hinside
    · refine ⟨_, _, rfl, ⟨?_, fun c hc => hdigits.isDigit c (List.mem_of_mem_take hc)⟩,
        ⟨?_, fun c hc => hdigits.isDigit c (List.mem_of_mem_drop hc)⟩⟩
      · simp [show d.point.toNat ≠ 0 by omega]
      · exact mt List.drop_eq_nil_iff.mp (by omega)
    · exact ⟨_, _, rfl, hdigits.append fun _ => isDigit_of_mem_replicate, isDigits_zero⟩
  · refine ⟨['0'], _, rfl, isDigits_zero, ?_, ?_⟩
    · simp
    · exact List.forall_mem_append.mpr ⟨fun _ => isDigit_of_mem_replicate, hdigits.isDigit⟩

/-- The exponent that is written for a decimal other than zero has no leading zero if the decimal
does not have its point behind its first digit. -/
lemma scientificForm_scientific {d : Decimal} (hne : d.coefficient ≠ 0) (hpoint : d.point ≠ 1) :
    ScientificForm (printed.scientific d) := by
  obtain ⟨c, cs, hcs⟩ := List.exists_cons_of_ne_nil d.digits_ne_nil
  have hdigit : ∀ x ∈ c :: cs, x.isDigit = true := fun x hx =>
    Decimal.isDigit_of_mem_digits (d := d) (hcs ▸ hx)
  have hlead : c ≠ '0' := by
    have hhead := head?_toDigits_ne hne
    change d.digits.head? ≠ some '0' at hhead
    rwa [hcs, List.head?_cons, Ne, Option.some_inj] at hhead
  have hexponent : (toString (d.point - 1)).toList =
      minus (d.point - 1 < 0) ++ Nat.toDigits 10 (d.point - 1).natAbs := by
    rw [Numeral.toList_toString]
    simp [minus]
  have hfraction : ∃ fs, IsDigits fs ∧ printed.scientific d =
      c :: '.' :: (fs ++ 'E' :: (toString (d.point - 1)).toList) := by
    unfold scientific
    rw [hcs]
    dsimp only
    split_ifs with hone
    · exact ⟨['0'], isDigits_zero, rfl⟩
    · refine ⟨cs, ⟨?_, fun x hx => hdigit x (List.mem_cons_of_mem c hx)⟩, rfl⟩
      rintro rfl
      exact hone rfl
  obtain ⟨fs, hfs, htext⟩ := hfraction
  exact ⟨c, fs, _, _, by rw [htext, hexponent], hdigit c List.mem_cons_self, hlead, hfs,
    isDigits_toDigits _, head?_toDigits_ne (by omega)⟩

/-! ## The shortest decimal -/

/-- A decimal that is rounded to a rank, with as few digits as any that is. -/
structure IsShortest (r : ℕ) (d : Decimal) : Prop where
  rounds : Single.ofDecimal d = r
  length_le : ∀ d', Single.ofDecimal d' = r → d.digits.length ≤ d'.digits.length

lemma isShortest_zero : IsShortest 0 ⟨0, 0⟩ := ⟨rfl, fun d _ => d.length_digits_pos⟩

lemma isShortest_shortest {r : ℕ} (hr : r ≤ Single.infinity) (hpos : 0 < r) :
    IsShortest r (Single.shortest r) :=
  ⟨Single.ofDecimal_shortest hr, fun _ => Single.length_digits_shortest_le hr hpos⟩

lemma IsShortest.coefficient_ne {r : ℕ} {d : Decimal} (h : IsShortest r d) (hpos : 0 < r) :
    d.coefficient ≠ 0 := by
  intro hzero
  have hround : Single.ofDecimal d = 0 := by rw [Single.ofDecimal, if_pos hzero]
  exact hpos.ne (hround.symm.trans h.rounds)

/-- What is not written plainly does not have its point behind its first digit. -/
lemma IsShortest.point_ne {r : ℕ} {d : Decimal} (h : IsShortest r d) (hpos : 0 < r)
    (hplain : printed.isPlain r = false) : d.point ≠ 1 := by
  intro hpoint
  have hlow := Decimal.le_value (h.coefficient_ne hpos)
  have hhigh := d.value_lt
  rw [hpoint] at hlow hhigh
  have hfrom : Single.ofDecimal printed.plainFrom ≤ r := by
    rw [← h.rounds]
    refine Single.ofDecimal_mono (le_trans ?_ hlow)
    norm_num [Decimal.value, printed]
  have hten : Single.ofDecimal d ≤ Single.ofDecimal ⟨1, 1⟩ := by
    refine Single.ofDecimal_mono (hhigh.le.trans_eq ?_)
    norm_num [Decimal.value]
  have hbelow : r < Single.ofDecimal printed.plainBelow := by
    rw [← h.rounds]
    exact hten.trans_lt (by decide)
  rw [isPlain, decide_eq_true hfrom, decide_eq_true hbelow] at hplain
  exact absurd hplain (by decide)

/-! ## The range of plain notation -/

/-- The numbers that program output writes plainly, told by the comparisons of binary32 numbers. -/
def InPlainRange (x : Float32) : Prop :=
  (x == 0) = true ∨ (1e-3 : Float32) ≤ x.abs ∧ x.abs < 1e7

lemma inPlainRange_iff {x : Float32} (hx : Single.rank x < Single.infinity) :
    InPlainRange x ↔ Single.rank x = 0 ∨ printed.isPlain (Single.rank x) = true := by
  have hlt : Single.rank x < Single.signBit := Nat.mod_lt _ (by decide)
  have hbits := Single.toBits_abs hx.le
  have hrank : Single.rank x.abs = Single.rank x := by
    rw [Single.rank, hbits, Nat.mod_eq_of_lt hlt]
  have hsign : Single.isNegative x.abs = false := by
    rw [Single.isNegative, hbits]
    exact decide_eq_false hlt.not_ge
  have hfinite : Single.rank x.abs < Single.infinity := hrank ▸ hx
  have hfrom : Single.rank 1e-3 = Single.ofDecimal printed.plainFrom := by decide
  have hbelow : Single.rank 1e7 = Single.ofDecimal printed.plainBelow := by decide
  have hle := Single.le_iff (by rfl) (hfrom.trans_lt (by decide)) hsign hfinite
  have hlt := Single.lt_iff hsign hfinite (by rfl) (hbelow.trans_lt (by decide))
  rw [InPlainRange, Single.beq_zero_iff, hle, hlt, hrank, hfrom, hbelow, isPlain, Bool.and_eq_true,
    decide_eq_true_iff, decide_eq_true_iff]

/-! ## Texts -/

/-- The two notations of a finite rank, each with a shortest decimal. -/
lemma exists_magnitude_eq {r : ℕ} (hr : r < Single.infinity) :
    ∃ d, IsShortest r d ∧
      (r = 0 ∨ printed.isPlain r = true → printed.magnitude r = plain d) ∧
      (¬ (r = 0 ∨ printed.isPlain r = true) →
        printed.magnitude r = printed.scientific d ∧ ScientificForm (printed.scientific d)) := by
  rcases Nat.eq_zero_or_pos r with rfl | hpos
  · exact ⟨⟨0, 0⟩, isShortest_zero, fun _ => rfl, fun h => absurd (.inl rfl) h⟩
  · have hshortest := isShortest_shortest hr.le hpos
    refine ⟨_, hshortest, fun h => ?_, fun h => ?_⟩
    · rw [magnitude, if_neg hpos.ne', if_neg hr.ne, if_pos (h.resolve_left hpos.ne')]
    · have hplain := Bool.eq_false_of_not_eq_true fun hplain => h (.inr hplain)
      refine ⟨?_, scientificForm_scientific (hshortest.coefficient_ne hpos)
        (hshortest.point_ne hpos hplain)⟩
      rw [magnitude, if_neg hpos.ne', if_neg hr.ne, if_neg (by simp [hplain])]

/-- The names of what is not finite are read back as what they name. -/
lemma text_ne_of_isFinite {x : Float32} (hx : x.isFinite = true) :
    printed.text x ≠ "Infinity" ∧ printed.text x ≠ "-Infinity" ∧ printed.text x ≠ "NaN" := by
  have hread := float32?_text isRead_printed x
  have hne {name : String} {y : Float32} (hname : Numeral.float32? name.toList = some y)
      (hy : y.isFinite = false) : printed.text x ≠ name := by
    rintro rfl
    rw [Option.some_inj.mp (hread.symm.trans hname), hy] at hx
    exact absurd hx (by decide)
  exact ⟨hne rfl rfl, hne rfl rfl, hne rfl rfl⟩

end FloatStyle

namespace Single

/-- All patterns above that of infinity stand for no number. -/
lemma ofBits_of_lt {b : UInt32} (h : infinity < b.toNat % signBit) : Float32.ofBits b = nan := by
  have hunpack := unpack_pattern b
  rw [unpacked_of_lt h] at hunpack
  change Float32.ofModel (.pack (.unpack .binary32 b.toBitVec)) = nan
  rw [hunpack]
  rfl

/-- A number is told by its pattern, unless it is no number. -/
lemma eq_of_ofBits_eq {b b' : UInt32} (h : Float32.ofBits b = Float32.ofBits b') :
    b = b' ∨ (Float32.ofBits b).isNaN = true ∧ (Float32.ofBits b').isNaN = true := by
  by_cases hnan : (Float32.ofBits b).isNaN = true
  · exact .inr ⟨hnan, h ▸ hnan⟩
  · have hle {c : UInt32} (hc : ¬ (Float32.ofBits c).isNaN = true) :
        c.toNat % signBit ≤ infinity :=
      Nat.le_of_not_lt fun hlt => hc (ofBits_of_lt hlt ▸ rfl)
    have hbits := congrArg Float32.toBits h
    rw [toBits_ofBits (hle hnan), toBits_ofBits (hle (h ▸ hnan))] at hbits
    exact .inl hbits

end Single

namespace FloatStyle

/-- **Program output writes binary32 numbers faithfully.**  A finite number is written plainly if it
is zero or lies in the range of plain notation, and in scientific notation otherwise; its sign
stands before it, that of zero too, and its digits are the fewest that are read back as it.  What is
not finite has texts of its own.  Every text is read back as the number that it was written for, so
that two bit patterns have one text only if they are equal or neither of them is a number. -/
theorem text_printed_faithful (x : Float32) :
    (x.isFinite = true →
      (∃ d, IsShortest (Single.rank x) d ∧
        (InPlainRange x →
          (printed.text x).toList = minus (Single.isNegative x) ++ plain d ∧
            PlainForm (plain d)) ∧
        (¬ InPlainRange x →
          (printed.text x).toList = minus (Single.isNegative x) ++ printed.scientific d ∧
            ScientificForm (printed.scientific d))) ∧
      printed.text x ≠ "Infinity" ∧ printed.text x ≠ "-Infinity" ∧ printed.text x ≠ "NaN") ∧
    Numeral.float32? (printed.text x).toList = some x ∧
    ∀ b b' : UInt32, printed.text (.ofBits b) = printed.text (.ofBits b') →
      b = b' ∨ (Float32.ofBits b).isNaN = true ∧ (Float32.ofBits b').isNaN = true := by
  refine ⟨fun hx => ⟨?_, text_ne_of_isFinite hx⟩, float32?_text isRead_printed x,
    fun b b' htext => Single.eq_of_ofBits_eq ?_⟩
  · have hr := Single.isFinite_iff.mp hx
    obtain ⟨d, hshortest, hplain, hscientific⟩ := exists_magnitude_eq hr
    rw [inPlainRange_iff hr, text_of_le hr.le]
    refine ⟨d, hshortest, fun h => ⟨?_, plainForm_plain d⟩, fun h => ⟨?_, (hscientific h).2⟩⟩
    · rw [hplain h, minus]
    · rw [(hscientific h).1, minus]
  · have hread := float32?_text isRead_printed (.ofBits b)
    rw [htext, float32?_text isRead_printed] at hread
    exact (Option.some_inj.mp hread).symm

/-- The least number above zero has one digit, which is written in scientific notation. -/
theorem text_printed_faithful_least :
    let x := Float32.ofBits 1
    x.isFinite = true ∧ ¬ InPlainRange x ∧
      ∃ d, IsShortest (Single.rank x) d ∧
        "1.0E-45".toList = minus (Single.isNegative x) ++ printed.scientific d ∧
        ScientificForm (printed.scientific d) := by
  intro x
  have hx : x.isFinite = true := by decide +kernel
  have hrange : ¬ InPlainRange x := by
    rw [inPlainRange_iff (Single.isFinite_iff.mp hx)]
    decide +kernel
  have htext : printed.text x = "1.0E-45" := by decide +kernel
  obtain ⟨⟨d, hshortest, -, hscientific⟩, -⟩ := (text_printed_faithful x).1 hx
  obtain ⟨hwritten, hform⟩ := hscientific hrange
  rw [htext] at hwritten
  exact ⟨hx, hrange, d, hshortest, hwritten, hform⟩

end FloatStyle

end Reckon
