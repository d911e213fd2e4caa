/-
# Token listings can be read back

The listing of a source text has a row for each token, and tells the tokens.  Their lexemes are
quoted, and a quoted text contains no line feed and ends with the first quote that belongs to no
escape.  `Text.Quoted.Escapes` lists the ways in which a character is written; what is written for a
character never goes on where what is written for another one ends, `Escapes.append_inj`.

The label and the numbers around the lexeme are letters and digits, and something else stands behind
them.
-/
import Reckon.Command
import Reckon.Proofs.Lines
import Reckon.Proofs.Numerals

namespace Reckon

/-! ## Digits -/

/-- The last digit of a number comes last. -/
lemma toDigits_eq_append {b : ℕ} (hb : 1 < b) (n : ℕ) :
    Nat.toDigits b n =
      (if n < b then [] else Nat.toDigits b (n / b)) ++ [Nat.digitChar (n % b)] := by
  rw [Nat.toDigits_eq_if hb]
  split_ifs with hn
  · rw [Nat.mod_eq_of_lt hn, List.nil_append]
  · rfl

lemma digitChar_inj : ∀ m < 16, ∀ n < 16, Nat.digitChar m = Nat.digitChar n → m = n := by
  decide

lemma isAlphanum_digitChar : ∀ n < 16, (Nat.digitChar n).isAlphanum = true := by
  decide

section Base

variable {b : ℕ} (hb : 1 < b) (hle : b ≤ 16)

include hb hle

/-- Numbers are told apart by their digits, in bases up to sixteen. -/
lemma toDigits_inj {m n : ℕ} (h : Nat.toDigits b m = Nat.toDigits b n) : m = n := by
  have hlt (k : ℕ) : k % b < 16 := (Nat.mod_lt k (Nat.zero_lt_of_lt hb)).trans_le hle
  induction m using Nat.strongRecOn generalizing n with
  | ind m ih =>
    rw [toDigits_eq_append hb m, toDigits_eq_append hb n] at h
    obtain ⟨hfront, hlast⟩ := List.append_inj' h rfl
    have hmod : m % b = n % b := digitChar_inj _ (hlt m) _ (hlt n) (List.cons.inj hlast).1
    by_cases hm : m < b
    · by_cases hn : n < b
      · rwa [Nat.mod_eq_of_lt hm, Nat.mod_eq_of_lt hn] at hmod
      · rw [if_pos hm, if_neg hn] at hfront
        exact absurd hfront.symm Nat.toDigits_ne_nil
    · by_cases hn : n < b
      · rw [if_neg hm, if_pos hn] at hfront
        exact absurd hfront Nat.toDigits_ne_nil
      · rw [if_neg hm, if_neg hn] at hfront
        have hdiv := ih (m / b) (Nat.div_lt_self (by omega) hb) hfront
        rw [← Nat.div_add_mod m b, ← Nat.div_add_mod n b, hdiv, hmod]

lemma isAlphanum_of_mem_toDigits (n : ℕ) : ∀ c ∈ Nat.toDigits b n, c.isAlphanum = true := by
  have hlt (k : ℕ) : k % b < 16 := (Nat.mod_lt k (Nat.zero_lt_of_lt hb)).trans_le hle
  induction n using Nat.strongRecOn with
  | ind n ih =>
    rw [toDigits_eq_append hb, List.forall_mem_append, List.forall_mem_singleton]
    refine ⟨?_, isAlphanum_digitChar _ (hlt n)⟩
    split_ifs with hn
    · simp
    · exact ih (n / b) (Nat.div_lt_self (by omega) hb)

end Base

/-! ## Quoted text -/

namespace Text.Quoted

/-- The characters that are written as a backslash and a letter, with their letters. -/
def letters : List (Char × Char) :=
  [('\x00', '0'), ('\t', 't'), ('\r', 'r'), ('\n', 'n'), ('"', '"'), ('\\', '\\')]

lemma letters_inj : ∀ x ∈ letters, ∀ y ∈ letters, x.2 = y.2 → x.1 = y.1 := by
  simp [letters]

lemma letters_ne : ∀ x ∈ letters, x.2 ≠ 'u' ∧ x.2 ≠ '\n' := by
  simp [letters]

/-- The ways in which a character is written. -/
inductive Escapes : Char → List Char → Prop where
  | letter {c l : Char} (mem : (c, l) ∈ letters) : Escapes c ['\\', l]
  | number (c : Char) : Escapes c (codePoint c)
  | plain {c : Char} (ne : ∀ x ∈ letters, c ≠ x.1) : Escapes c [c]

lemma escapes_escape (c : Char) : Escapes c (escape c) := by
  unfold escape
  split
  case h_7 hnul htab hreturn hnewline hquote hbackslash =>
    split
    · exact .number c
    · refine .plain ?_
      simp only [letters, List.forall_mem_cons]
      exact ⟨hnul, htab, hreturn, hnewline, hquote, hbackslash, by simp⟩
  all_goals exact .letter (by simp [letters])

namespace Escapes

variable {c d : Char} {u v s t : List Char}

lemma newline_not_mem (h : Escapes c u) : '\n' ∉ u := by
  cases h with
  | letter mem => simpa using (letters_ne _ mem).2.symm
  | number =>
    intro hmem
    have hdigit : '\n' ∈ Nat.toDigits 16 c.toNat := by simpa [codePoint] using hmem
    exact absurd (isAlphanum_of_mem_toDigits (by decide) le_rfl _ _ hdigit) (by decide)
  | plain ne => simpa using (ne ('\n', 'n') (by simp [letters])).symm

/-- A quote that ends a text is not taken for the beginning of a character. -/
lemma append_ne_quote (h : Escapes c u) : u ++ s ≠ '"' :: t := by
  cases h with
  | letter mem => simp
  | number => simp [codePoint]
  | plain ne =>
    have hquote := ne ('"', '"') (by simp [letters])
    simp [hquote]

/-- What is written for a character does not go on where what is written for another one ends. -/
lemma append_inj (hc : Escapes c u) (hd : Escapes d v) (h : u ++ s = v ++ t) : c = d ∧ s = t := by
  have hbackslash : ('\\', '\\') ∈ letters := by simp [letters]
  cases hc with
  | letter mem =>
    cases hd with
    | letter mem' =>
      simp only [List.cons_append, List.nil_append, List.cons.injEq, true_and] at h
      exact ⟨letters_inj _ mem _ mem' h.1, h.2⟩
    | number =>
      simp only [codePoint, List.cons_append, List.nil_append, List.cons.injEq, true_and] at h
      exact absurd h.1 (letters_ne _ mem).1
    | plain ne => exact absurd (List.cons.inj h).1.symm (ne _ hbackslash)
  | number =>
    cases hd with
    | letter mem' =>
      simp only [codePoint, List.cons_append, List.nil_append, List.cons.injEq, true_and] at h
      exact absurd h.1.symm (letters_ne _ mem').1
    | number =>
      have hdigits : Nat.toDigits 16 c.toNat ++ '\x7d' :: s =
          Nat.toDigits 16 d.toNat ++ '\x7d' :: t := by simpa [codePoint] using h
      obtain ⟨hnumber, hrest⟩ := run_append_inj
        (isAlphanum_of_mem_toDigits (by decide) le_rfl _)
        (isAlphanum_of_mem_toDigits (by decide) le_rfl _) (by simp) (by simp) hdigits
      have hnat := toDigits_inj (by decide) le_rfl hnumber
      exact ⟨Char.toNat_inj.mp hnat, (List.cons.inj hrest).2⟩
    | plain ne => exact absurd (List.cons.inj h).1.symm (ne _ hbackslash)
  | plain ne =>
    cases hd with
    | letter | number => exact absurd (List.cons.inj h).1 (ne _ hbackslash)
    | plain => exact List.cons.inj h

end Escapes

/-- A quoted text can be read back, and where it ends is plain. -/
lemma encode_append_inj {cs ds s t : List Char} (h : encode cs ++ s = encode ds ++ t) :
    cs = ds ∧ s = t := by
  have hquoted : cs.flatMap escape ++ '"' :: s = ds.flatMap escape ++ '"' :: t := by
    simpa [encode] using h
  clear h
  induction cs generalizing ds with
  | nil =>
    cases ds with
    | nil => simpa using hquoted
    | cons d ds =>
      rw [List.flatMap_cons, List.append_assoc] at hquoted
      exact absurd hquoted.symm (escapes_escape d).append_ne_quote
  | cons c cs ih =>
    rw [List.flatMap_cons, List.append_assoc] at hquoted
    cases ds with
    | nil => exact absurd hquoted (escapes_escape c).append_ne_quote
    | cons d ds =>
      rw [List.flatMap_cons, List.append_assoc] at hquoted
      obtain ⟨rfl, hrest⟩ := (escapes_escape c).append_inj (escapes_escape d) hquoted
      obtain ⟨rfl, hend⟩ := ih hrest
      exact ⟨rfl, hend⟩

lemma newline_not_mem_encode (cs : List Char) : '\n' ∉ encode cs := by
  have hescape (c : Char) : '\n' ∉ escape c := (escapes_escape c).newline_not_mem
  simp [encode, hescape]

end Text.Quoted

/-! ## Tokens -/

lemma TokenKind.isAlphanum_label (k : TokenKind) : ∀ c ∈ k.label.toList, c.isAlphanum = true := by
  cases k <;> simp [label]

namespace Token

/-- What the listing says of a token with its number. -/
def row (t : Token) (number : ℕ) : String :=
  threeDigits number ++ " " ++ t.kind.label ++ " " ++
    String.ofList (Text.Quoted.encode t.lexeme.toList) ++ " at " ++ toString t.position.line ++
    ":" ++ toString t.position.column

lemma line_eq_row (t : Token) (number : ℕ) : t.line number = t.row number ++ "\n" := by
  simp [line, row, String.append_assoc]

lemma toList_row (t : Token) (number : ℕ) : (t.row number).toList =
    (threeDigits number).toList ++ ' ' :: (t.kind.label.toList ++ ' ' ::
      (Text.Quoted.encode t.lexeme.toList ++ ' ' :: 'a' :: 't' :: ' ' ::
        (Nat.toDigits 10 t.position.line ++ ':' :: Nat.toDigits 10 t.position.column))) := by
  simp [row]

/-- What is said of tokens with the same number tells them apart. -/
lemma row_inj {t u : Token} {number : ℕ} (h : t.row number = u.row number) : t = u := by
  have hrows := congrArg String.toList h
  rw [toList_row, toList_row, List.append_cancel_left_eq, List.cons.injEq] at hrows
  obtain ⟨hlabel, hafter⟩ := run_append_inj t.kind.isAlphanum_label u.kind.isAlphanum_label
    (by simp) (by simp) hrows.2
  obtain ⟨hlexeme, hplace⟩ := Text.Quoted.encode_append_inj (List.cons.inj hafter).2
  simp only [List.cons.injEq, true_and] at hplace
  obtain ⟨hline, hcolumn⟩ := run_append_inj
    (isAlphanum_of_mem_toDigits (by decide) (by decide) _)
    (isAlphanum_of_mem_toDigits (by decide) (by decide) _) (by simp) (by simp) hplace
  obtain ⟨kind, lexeme, line, column⟩ := t
  obtain ⟨kind', lexeme', line', column'⟩ := u
  obtain rfl : kind = kind' := TokenKind.label_inj.mp (String.toList_inj.mp hlabel)
  obtain rfl : lexeme = lexeme' := String.toList_inj.mp hlexeme
  obtain rfl : line = line' := toDigits_inj (by decide) (by decide) hline
  obtain rfl : column = column' :=
    toDigits_inj (by decide) (by decide) (List.cons.inj hcolumn).2
  rfl

lemma newline_not_mem_row (t : Token) (number : ℕ) : '\n' ∉ (t.row number).toList := by
  have hrun {cs : List Char} (h : ∀ c ∈ cs, c.isAlphanum = true) : '\n' ∉ cs :=
    fun hmem => absurd (h _ hmem) (by decide)
  have hdigits (n : ℕ) : '\n' ∉ Nat.toDigits 10 n :=
    hrun (isAlphanum_of_mem_toDigits (by decide) (by decide) n)
  have hlabel := hrun t.kind.isAlphanum_label
  have hlexeme := Text.Quoted.newline_not_mem_encode t.lexeme.toList
  simp [toList_row, threeDigits, hdigits, hlabel, hlexeme]

/-- The rows of a listing. -/
def rows (ts : List Token) : List String :=
  ts.zipIdx.map fun (t, number) => t.row number

lemma length_rows (ts : List Token) : (rows ts).length = ts.length := by
  simp [rows]

lemma getElem?_rows (ts : List Token) (number : ℕ) :
    (rows ts)[number]? = ts[number]?.map (·.row number) := by
  simp [rows, List.getElem?_zipIdx]
  rfl

lemma rows_inj {ts us : List Token} : rows ts = rows us ↔ ts = us := by
  refine ⟨fun h => List.ext_getElem? fun number => ?_, congrArg rows⟩
  have hrow : (rows ts)[number]? = (rows us)[number]? := by rw [h]
  rw [getElem?_rows, getElem?_rows] at hrow
  exact Option.map_injective (fun _ _ => row_inj) hrow

/-- Tokens are listed with a row for each of them. -/
lemma hasRows_listing (ts : List Token) : Text.HasRows (listing ts) (rows ts) := by
  refine .of_foldl (fun before x => ?_) ts.zipIdx fun x _ => x.1.newline_not_mem_row x.2
  exact congrArg (before ++ ·) (x.1.line_eq_row x.2)

end Token

/-! ## Source texts -/

/-- **The listing of the tokens of a source text tells the tokens.**

* The command that lists them succeeds, with a row for each token.
* The listings of two source texts are the same just if their tokens are, with their kinds, lexemes
  and places. -/
theorem token_listing_tells_tokens (unchecked : Bool) :
    (∀ path source : String, ∃ text rows,
      Command.tokens.answer unchecked path source = .success text ∧
      Text.HasRows text rows ∧ rows.length = (tokenize source).length) ∧
    ∀ path source path' source' : String,
      (Command.tokens.answer unchecked path source).output =
        (Command.tokens.answer unchecked path' source').output ↔
      tokenize source = tokenize source' := by
  constructor
  · intro path source
    exact ⟨_, Token.rows (tokenize source), rfl, Token.hasRows_listing _, Token.length_rows _⟩
  · intro path source path' source'
    have houtput : Token.listing (tokenize source) = Token.listing (tokenize source') ↔
        tokenize source = tokenize source' := by
      refine ⟨fun h => Token.rows_inj.mp ?_, congrArg _⟩
      exact (h ▸ Token.hasRows_listing _).unique (Token.hasRows_listing _)
    exact houtput

end Reckon
