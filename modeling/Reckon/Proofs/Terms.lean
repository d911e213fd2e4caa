/-
# Terms can be read back

The listing of a program determines it up to places.  Its rows are those of the statements, and in
the term of a statement it is plain where that of a part ends: a numeral ends before a blank or a
parenthesis, and any other term with the parenthesis that closes it.  Therefore, of two terms that
are followed by a blank, by a closing parenthesis or by nothing, neither goes on where the other
ends, `Expr.listing_append_inj`.

A sign and an operator that are written alike are told apart by what stands behind their first
operand.
-/
import Reckon.Expr.Listing
import Reckon.Proofs.Relocation
import Reckon.Proofs.Roundtrip
import Reckon.Proofs.Symbols

namespace Reckon

/-! ## Numerals -/

/-- A text that does not go on with a character of a numeral. -/
def EndsNumeral (s : List Char) : Prop := ∀ c ∈ s.head?, isNumeric c = false

lemma endsNumeral_blank (s : List Char) : EndsNumeral (' ' :: s) := by
  simp [EndsNumeral, isNumeric]

lemma endsNumeral_rparen (s : List Char) : EndsNumeral (')' :: s) := by
  simp [EndsNumeral, isNumeric]

/-- The text of a literal. -/
def Scalar.literalText : Scalar → String
  | int n => toString n.toInt
  | float x => FloatStyle.literal.text x

namespace Scalar

lemma isNumeric_literalText (a : Scalar) : ∀ c ∈ a.literalText.toList, isNumeric c = true := by
  cases a with
  | int n => exact isNumeric_toString n.toInt
  | float x => exact FloatStyle.isNumeric_text FloatStyle.isRead_literal x

lemma newline_not_mem_literalText (a : Scalar) : '\n' ∉ a.literalText.toList :=
  fun hmem => absurd (a.isNumeric_literalText _ hmem) (by decide)

/-- An integer has a text without points and letters. -/
lemma literalText_int_ne_float (n : Int32) (x : Float32) :
    (int n).literalText ≠ (float x).literalText := by
  intro h
  obtain ⟨c, hc, hdigit, hsign⟩ := FloatStyle.exists_mem_text FloatStyle.isRead_literal x
  have hmem : c ∈ (toString n.toInt).toList := (congrArg String.toList h) ▸ hc
  rw [Numeral.toList_toString, List.mem_append] at hmem
  rcases hmem with hmem | hmem
  · split_ifs at hmem
    · exact hsign (List.mem_singleton.mp hmem)
    · exact absurd hmem List.not_mem_nil
  · exact absurd (Nat.isDigit_of_mem_toDigits (by omega) le_rfl hmem) (by simp [hdigit])

/-- A literal can be read back from its text. -/
lemma literalText_inj {a b : Scalar} : a.literalText = b.literalText ↔ a = b := by
  refine ⟨fun h => ?_, congrArg _⟩
  cases a with
  | int n =>
    cases b with
    | int m =>
      have hread := Numeral.integer?_toString n.toInt
      rw [show toString n.toInt = toString m.toInt from h, Numeral.integer?_toString] at hread
      exact congrArg int (Int32.toInt_inj.mp (Option.some.inj hread).symm)
    | float y => exact absurd h (literalText_int_ne_float n y)
  | float x =>
    cases b with
    | int m => exact absurd h.symm (literalText_int_ne_float m x)
    | float y =>
      have hread := FloatStyle.float32?_text FloatStyle.isRead_literal x
      rw [show FloatStyle.literal.text x = FloatStyle.literal.text y from h,
        FloatStyle.float32?_text FloatStyle.isRead_literal] at hread
      exact congrArg float (Option.some.inj hread).symm

lemma literalText_append_inj {a b : Scalar} {s t : List Char} (hs : EndsNumeral s)
    (ht : EndsNumeral t) (h : a.literalText.toList ++ s = b.literalText.toList ++ t) :
    a = b ∧ s = t := by
  obtain ⟨htext, hrest⟩ :=
    run_append_inj a.isNumeric_literalText b.isNumeric_literalText hs ht h
  exact ⟨literalText_inj.mp (String.toList_inj.mp htext), hrest⟩

lemma literalText_ne_nil (a : Scalar) : a.literalText.toList ≠ [] := by
  cases a with
  | int n =>
    have hdigits : Nat.toDigits 10 n.toInt.natAbs ≠ [] := Nat.toDigits_ne_nil
    rw [literalText, Numeral.toList_toString]
    exact List.append_ne_nil_of_right_ne_nil _ hdigits
  | float x =>
    obtain ⟨c, hc, -⟩ := FloatStyle.exists_mem_text FloatStyle.isRead_literal x
    exact List.ne_nil_of_mem hc

end Scalar

/-! ## Expressions -/

/-- The character behind the parenthesis with which a text begins. -/
def leadOf : List Char → Option Char
  | '(' :: c :: _ => some c
  | _ => none

namespace Expr

/-- The character behind the parenthesis with which a term begins; literals have none. -/
def lead : Expr → Option Char
  | int .. | float .. => none
  | binary op .. | unary op _ => some op.symbol
  | group _ => some 'g'

section Parts

variable (op : Operator) (l r e : Expr) (p : Position)

lemma unplaced_binary :
    (binary op l r p).unplaced = binary op l.unplaced r.unplaced .start := rfl

lemma unplaced_unary : (unary op e).unplaced = unary op e.unplaced := rfl

lemma unplaced_group : (group e).unplaced = group e.unplaced := rfl

end Parts

section Listing

variable (op : Operator) (l r e : Expr) (p : Position)

lemma listing_int (n : Int32) : (int n p).listing = (Scalar.int n).literalText := by
  simp [listing, listOnto, Scalar.literalText]

lemma listing_float (x : Float32) : (float x p).listing = (Scalar.float x).literalText := by
  simp [listing, listOnto, Scalar.literalText]

lemma toList_listing_binary : (binary op l r p).listing.toList =
    '(' :: op.symbol :: ' ' :: (l.listing.toList ++ ' ' :: (r.listing.toList ++ [')'])) := by
  rw [listing, listOnto, listOnto_eq, listOnto_eq l]
  simp

lemma toList_listing_unary : (unary op e).listing.toList =
    '(' :: op.symbol :: ' ' :: (e.listing.toList ++ [')']) := by
  rw [listing, listOnto, listOnto_eq]
  simp

lemma toList_listing_group : (group e).listing.toList =
    '(' :: 'g' :: 'r' :: 'o' :: 'u' :: 'p' :: ' ' :: (e.listing.toList ++ [')']) := by
  rw [listing, listOnto, listOnto_eq]
  simp

/-- Literals do not begin with a parenthesis. -/
lemma leadOf_literalText_append (a : Scalar) (s : List Char) :
     leadOf (a.literalText.toList ++ s) = none := by
  obtain ⟨c, cs, hcs⟩ := List.exists_cons_of_ne_nil a.literalText_ne_nil
  have hnumeric : isNumeric c = true :=
    a.isNumeric_literalText c (by rw [hcs]; exact List.mem_cons_self)
  have hc : c ≠ '(' := by
    rintro rfl
    exact absurd hnumeric (by decide)
  rw [hcs, List.cons_append]
  unfold leadOf
  split
  · rename_i heq
    exact absurd (List.cons.inj heq).1 hc
  · rfl

lemma leadOf_listing_append (s : List Char) : leadOf (e.listing.toList ++ s) = e.lead := by
  cases e with
  | int n p => rw [listing_int, leadOf_literalText_append, lead]
  | float x p => rw [listing_float, leadOf_literalText_append, lead]
  | binary op l r p => rw [toList_listing_binary]; rfl
  | unary op e => rw [toList_listing_unary]; rfl
  | group e => rw [toList_listing_group]; rfl

end Listing

/-- Terms that begin texts that are the same begin alike. -/
lemma lead_eq_of_append_eq {e f : Expr} {s t : List Char}
    (h : e.listing.toList ++ s = f.listing.toList ++ t) : e.lead = f.lead := by
  rw [← leadOf_listing_append e s, h, leadOf_listing_append]

lemma symbol_ne_group (op : Operator) : op.symbol ≠ 'g' := by
  cases op <;> decide

/-- Where a term ends is plain from the term, and so is the expression, places apart. -/
theorem listing_append_inj {e f : Expr} {s t : List Char} (hs : EndsNumeral s)
    (ht : EndsNumeral t) (h : e.listing.toList ++ s = f.listing.toList ++ t) :
    e.unplaced = f.unplaced ∧ s = t := by
  induction e generalizing f s t with
  | int n p =>
    have hlead := lead_eq_of_append_eq h
    cases f with
    | int m q =>
      rw [listing_int, listing_int] at h
      obtain ⟨hliteral, hrest⟩ := Scalar.literalText_append_inj hs ht h
      obtain rfl := Scalar.int.inj hliteral
      exact ⟨rfl, hrest⟩
    | float y q =>
      rw [listing_int, listing_float] at h
      exact absurd (Scalar.literalText_append_inj hs ht h).1 (by simp)
    | binary | unary | group => exact absurd hlead (by simp [lead])
  | float x p =>
    have hlead := lead_eq_of_append_eq h
    cases f with
    | int m q =>
      rw [listing_float, listing_int] at h
      exact absurd (Scalar.literalText_append_inj hs ht h).1 (by simp)
    | float y q =>
      rw [listing_float, listing_float] at h
      obtain ⟨hliteral, hrest⟩ := Scalar.literalText_append_inj hs ht h
      obtain rfl := Scalar.float.inj hliteral
      exact ⟨rfl, hrest⟩
    | binary | unary | group => exact absurd hlead (by simp [lead])
  | binary op l r p ihl ihr =>
    have hlead := lead_eq_of_append_eq h
    cases f with
    | binary op' l' r' q =>
      obtain rfl : op = op' := Operator.symbol_inj.mp (Option.some.inj hlead)
      simp only [toList_listing_binary, List.cons_append, List.append_assoc, List.nil_append,
        List.cons.injEq, true_and] at h
      obtain ⟨hl, hright⟩ := ihl (endsNumeral_blank _) (endsNumeral_blank _) h
      obtain ⟨hr, hrest⟩ :=
        ihr (endsNumeral_rparen s) (endsNumeral_rparen t) (List.cons.inj hright).2
      rw [unplaced_binary, unplaced_binary, hl, hr]
      exact ⟨rfl, (List.cons.inj hrest).2⟩
    | unary op' e' =>
      simp only [toList_listing_binary, toList_listing_unary, List.cons_append, List.append_assoc,
        List.nil_append, List.cons.injEq, true_and] at h
      -- a blank stands behind the first operand on one side only
      obtain ⟨-, hclose⟩ := ihl (endsNumeral_blank _) (endsNumeral_rparen t) h.2
      exact absurd (List.cons.inj hclose).1 (by decide)
    | int | float | group => exact absurd hlead (by simp [lead, symbol_ne_group])
  | unary op e ih =>
    have hlead := lead_eq_of_append_eq h
    cases f with
    | binary op' l' r' q =>
      simp only [toList_listing_unary, toList_listing_binary, List.cons_append, List.append_assoc,
        List.nil_append, List.cons.injEq, true_and] at h
      obtain ⟨-, hclose⟩ := ih (endsNumeral_rparen s) (endsNumeral_blank _) h.2
      exact absurd (List.cons.inj hclose).1 (by decide)
    | unary op' e' =>
      obtain rfl : op = op' := Operator.symbol_inj.mp (Option.some.inj hlead)
      simp only [toList_listing_unary, List.cons_append, List.append_assoc, List.nil_append,
        List.cons.injEq, true_and] at h
      obtain ⟨he, hrest⟩ := ih (endsNumeral_rparen s) (endsNumeral_rparen t) h
      rw [unplaced_unary, unplaced_unary, he]
      exact ⟨rfl, (List.cons.inj hrest).2⟩
    | int | float | group => exact absurd hlead (by simp [lead, symbol_ne_group])
  | group e ih =>
    have hlead := lead_eq_of_append_eq h
    cases f with
    | group e' =>
      simp only [toList_listing_group, List.cons_append, List.append_assoc, List.nil_append,
        List.cons.injEq, true_and] at h
      obtain ⟨he, hrest⟩ := ih (endsNumeral_rparen s) (endsNumeral_rparen t) h
      rw [unplaced_group, unplaced_group, he]
      exact ⟨rfl, (List.cons.inj hrest).2⟩
    | int | float => exact absurd hlead (by simp [lead])
    | binary op' | unary op' =>
      exact absurd hlead (by simp [lead, (symbol_ne_group op').symm])

/-- A term does not tell places. -/
lemma listing_unplaced (e : Expr) : e.unplaced.listing = e.listing := by
  induction e with
  | int n p => rfl
  | float x p => rfl
  | binary op l r p ihl ihr =>
    rw [unplaced_binary, ← String.toList_inj, toList_listing_binary, toList_listing_binary, ihl,
      ihr]
  | unary op e ih =>
    rw [unplaced_unary, ← String.toList_inj, toList_listing_unary, toList_listing_unary, ih]
  | group e ih =>
    rw [unplaced_group, ← String.toList_inj, toList_listing_group, toList_listing_group, ih]

/-- No term has a line feed. -/
lemma newline_not_mem_listing (e : Expr) : '\n' ∉ e.listing.toList := by
  induction e with
  | int n p => rw [listing_int]; exact Scalar.newline_not_mem_literalText _
  | float x p => rw [listing_float]; exact Scalar.newline_not_mem_literalText _
  | binary op l r p ihl ihr =>
    simp [toList_listing_binary, ihl, ihr, op.symbol_ne_newline.symm]
  | unary op e ih => simp [toList_listing_unary, ih, op.symbol_ne_newline.symm]
  | group e ih => simp [toList_listing_group, ih]

end Expr

/-! ## Programs -/

/-- A statement as a term. -/
def Stmt.listing : Stmt → String
  | print e => "(print " ++ e.listing ++ ")"

/-- The statements of programs have the same terms if they are the same, places apart. -/
lemma Stmt.listing_eq_iff {s t : Stmt} :
    s.listing = t.listing ↔ s.relocate (fun _ => .start) = t.relocate fun _ => .start := by
  obtain ⟨e⟩ := s
  obtain ⟨f⟩ := t
  constructor
  · intro h
    have hterms : e.listing.toList ++ [')'] = f.listing.toList ++ [')'] := by
      simpa [listing] using congrArg String.toList h
    obtain ⟨hunplaced, -⟩ :=
      Expr.listing_append_inj (endsNumeral_rparen []) (endsNumeral_rparen []) hterms
    exact congrArg print hunplaced
  · intro h
    have hunplaced : e.unplaced = f.unplaced := Stmt.print.inj h
    rw [listing, listing, ← e.listing_unplaced, hunplaced, f.listing_unplaced]

/-- A program is listed with a row for each statement. -/
lemma Program.hasRows_listing (p : Program) :
    Text.HasRows p.listing (p.statements.map Stmt.listing) := by
  refine .of_foldl (fun before s => ?_) p.statements fun s _ => ?_
  · obtain ⟨e⟩ := s
    simp [Stmt.listOnto, Stmt.listing, Expr.listOnto_eq, String.append_assoc]
  · obtain ⟨e⟩ := s
    simp [Stmt.listing, e.newline_not_mem_listing]

lemma map_eq_map_iff {α β γ : Type} {f : α → β} {g : α → γ}
    (h : ∀ x y, f x = f y ↔ g x = g y) {xs ys : List α} :
    xs.map f = ys.map f ↔ xs.map g = ys.map g := by
  induction xs generalizing ys with
  | nil => simp
  | cons x xs ih =>
    cases ys with
    | nil => simp
    | cons y ys => simp [h, ih]

/-- **The listing of a program tells the program.**

* Two programs are listed alike just if they are the same, places apart.
* Here, two binary32 numbers are the same if they have the same bits or are both not numbers. -/
theorem listing_tells_program :
    (∀ p q : Program, p.listing = q.listing ↔ p.unplaced = q.unplaced) ∧
    ∀ x y : Float32, x = y ↔ x.toBits = y.toBits ∨ x.isNaN = true ∧ y.isNaN = true := by
  constructor
  · intro p q
    have hstatements : p.unplaced = q.unplaced ↔
        p.statements.map Stmt.listing = q.statements.map Stmt.listing := by
      rw [map_eq_map_iff fun _ _ => Stmt.listing_eq_iff]
      simp only [Program.unplaced, Program.relocate, Program.mk.injEq]
    rw [hstatements]
    constructor
    · intro h
      exact (h ▸ p.hasRows_listing).unique q.hasRows_listing
    · intro h
      rw [p.hasRows_listing.text_eq, h, ← q.hasRows_listing.text_eq]
  · intro x y
    constructor
    · rintro rfl
      exact .inl rfl
    · rintro (hbits | ⟨hx, hy⟩)
      · exact Float32.toBits_inj.mp hbits
      · rw [Float32.isNaN_eq_decide_eq_nan, decide_eq_true_eq] at hx hy
        rw [hx, hy]

end Reckon
