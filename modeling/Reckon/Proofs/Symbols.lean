/-
# Operators and their symbols

A tree keeps the places of its operators, the parser has taken them from their tokens, and the lexer
has cut these from the source text.  Followed back in this way, the place of an operator leads to an
offset in the text.  The token of an operator is its symbol, `Cuts.lexeme_operator`, and so the
lines of the text have this character where the place tells, `Program.hasAt_of_mem_sites`.
-/
import Reckon.Proofs.Hopeless
import Reckon.Proofs.Lines
import Reckon.Proofs.Sites

namespace Reckon

/-! ## The tokens of operators -/

lemma eq_symbol_of_symbol? {c : Char} {op : Operator} (h : symbol? c = some op.tokenKind) :
    c = op.symbol := by
  unfold symbol? at h
  split at h
  all_goals
    cases op <;> first | rfl | exact absurd h (by simp [Operator.tokenKind])

/-- The token of an operator is its symbol. -/
lemma Munches.eq_symbol {c : Char} {cs : List Char} {kind : TokenKind} {n : ℕ} {op : Operator}
    (h : Munches c cs kind n) (hkind : kind = op.tokenKind) : c = op.symbol ∧ n = 0 := by
  cases h with
  | block | line | float | integer => cases op <;> simp [Operator.tokenKind] at hkind
  | word letter =>
    rcases wordKind_eq (c :: cs.takeWhile Text.isAlphabetic) with hword | hword
    all_goals
      rw [hword] at hkind
      cases op <;> simp [Operator.tokenKind] at hkind
  | symbol symbol _ => exact ⟨eq_symbol_of_symbol? (symbol.trans (congrArg some hkind)), rfl⟩

lemma Cuts.lexeme_operator {p : Position} {cs : List Char} {ts : List Token} (h : Cuts p cs ts) :
    ∀ t ∈ ts, ∀ op : Operator, t.kind = op.tokenKind → t.lexeme.toList = [op.symbol] := by
  induction h with
  | done p =>
    refine List.forall_mem_singleton.mpr fun op hkind => ?_
    exact absurd hkind.symm op.tokenKind_ne_eof
  | skip _ _ ih => exact ih
  | @token p c cs kind n ts some _ ih =>
    refine List.forall_mem_cons.mpr ⟨fun op hkind => ?_, ih⟩
    obtain ⟨rfl, rfl⟩ := (munch_eq_some_iff.mp some).eq_symbol hkind
    simp

/-! ## The tokens of a source text -/

/-- The tokens of a source text stand in it, and the parser reads them up to the end of the text. -/
lemma exists_tokenize_eq (source : String) :
    ∃ ts, tokenize source = ts ++ [.endAt (.ofOffset source.toList source.toList.length)] ∧
      (∀ t ∈ ts, t.kind ≠ .eof) ∧ ∀ t ∈ ts, ∃ o, t.StandsAt source.toList o := by
  obtain ⟨placed, hts, hkind, hplaces⟩ := (Cuts.tokenize source).exists_places
    (show Position.start = Position.start.advance [] from rfl)
  rw [Position.advance_start] at hts
  rw [List.nil_append] at hplaces
  refine ⟨placed.map Prod.snd, hts, List.forall_mem_map.mpr hkind, List.forall_mem_map.mpr ?_⟩
  exact fun x hx => ⟨x.1, hplaces.stands x hx⟩

lemma Parser.ofTokens_concat {ts : List Token} (hts : ∀ t ∈ ts, t.kind ≠ .eof) (stop : Position) :
    ofTokens (ts ++ [.endAt stop]) = ⟨ts, stop⟩ := by
  have hfind : (ts ++ [Token.endAt stop]).find? (·.kind = .eof) = some (.endAt stop) := by
    rw [List.find?_append, List.find?_eq_none.mpr (by simpa using hts)]
    rfl
  rw [ofTokens, takeWhile_of_eof hts rfl, hfind]
  rfl

/-- What the parser is given of a source text. -/
lemma Parser.exists_ofSource_eq (source : String) :
    ∃ ts, ofSource source = ⟨ts, .ofOffset source.toList source.toList.length⟩ ∧
      (∀ t ∈ ts, t ∈ tokenize source) ∧ ∀ t ∈ ts, ∃ o, t.StandsAt source.toList o := by
  obtain ⟨ts, htokens, hkind, hstands⟩ := exists_tokenize_eq source
  refine ⟨ts, ?_, fun t ht => ?_, hstands⟩
  · rw [ofSource, htokens, ofTokens_concat hkind]
  · rw [htokens]
    exact List.mem_append_left _ ht

/-! ## Operators in trees -/

namespace Expr

/-- The operators of an expression have the places of their tokens. -/
lemma Yields.exists_operator {e : Expr} {ts : List Token} (h : e.Yields ts) {op : Operator}
    {l r : Expr} {q : Position} {exposed b : Bool}
    (hs : ⟨.binary op l r q, b⟩ ∈ e.sites exposed) :
    ∃ t ∈ ts, t.kind = op.tokenKind ∧ t.position = q := by
  induction h generalizing exposed with
  | int kind value | float kind value =>
    obtain ⟨⟩ := List.mem_singleton.mp hs
  | @binary op' l' r' t ts us left operator right ihl ihr =>
    simp only [sites, List.mem_append, List.mem_singleton] at hs
    rcases hs with (hs | hs) | hs
    · obtain ⟨u, hu, hop⟩ := ihl hs
      exact ⟨u, List.mem_append_left _ hu, hop⟩
    · obtain ⟨u, hu, hop⟩ := ihr hs
      exact ⟨u, List.mem_append_right _ (List.mem_cons_of_mem _ hu), hop⟩
    · obtain ⟨⟩ := hs
      exact ⟨t, List.mem_append_right _ List.mem_cons_self, operator, rfl⟩
  | unary sign operand ih =>
    simp only [sites, List.mem_append, List.mem_singleton] at hs
    rcases hs with hs | hs
    · obtain ⟨u, hu, hop⟩ := ih hs
      exact ⟨u, List.mem_cons_of_mem _ hu, hop⟩
    · obtain ⟨⟩ := hs
  | group left inner right ih =>
    simp only [sites, List.mem_append, List.mem_singleton] at hs
    rcases hs with hs | hs
    · obtain ⟨u, hu, hop⟩ := ih hs
      exact ⟨u, List.mem_cons_of_mem _ (List.mem_append_left _ hu), hop⟩
    · obtain ⟨⟩ := hs

lemma Canonical.of_mem_sites {e : Expr} (h : e.Canonical) {s : Site} {exposed : Bool}
    (hs : s ∈ e.sites exposed) : s.tree.Canonical := by
  induction h generalizing exposed with
  | int n p =>
    obtain rfl := List.mem_singleton.mp hs
    exact .int n p
  | float x p =>
    obtain rfl := List.mem_singleton.mp hs
    exact .float x p
  | binary left right rank_left rank_right closed ihl ihr =>
    simp only [sites, List.mem_append, List.mem_singleton] at hs
    rcases hs with (hs | hs) | rfl
    · exact ihl hs
    · exact ihr hs
    · exact .binary left right rank_left rank_right closed
  | unary sign operand ih =>
    simp only [sites, List.mem_append, List.mem_singleton] at hs
    rcases hs with hs | rfl
    · exact ih hs
    · exact .unary sign operand
  | group inner ih =>
    simp only [sites, List.mem_append, List.mem_singleton] at hs
    rcases hs with hs | rfl
    · exact ih hs
    · exact .group inner

end Expr

lemma Stmt.AllYield.exists_operator {ss : List Stmt} {ts : List Token} (h : AllYield ss ts)
    {op : Operator} {l r : Expr} {q : Position} {b : Bool}
    (hs : ⟨.binary op l r q, b⟩ ∈ allSites ss) :
    ∃ t ∈ ts, t.kind = op.tokenKind ∧ t.position = q := by
  induction h with
  | nil => exact absurd hs (by simp)
  | comment kind _ ih =>
    obtain ⟨t, ht, hop⟩ := ih hs
    exact ⟨t, List.mem_cons_of_mem _ ht, hop⟩
  | @print e ss t u ts us keyword value semi _ ih =>
    rw [allSites_cons, List.mem_append] at hs
    rcases hs with hs | hs
    · obtain ⟨v, hv, hop⟩ := value.exists_operator hs
      exact ⟨v, List.mem_cons_of_mem _ (List.mem_append_left _ hv), hop⟩
    · obtain ⟨v, hv, hop⟩ := ih hs
      refine ⟨v, List.mem_cons_of_mem _ (List.mem_append_right _ ?_), hop⟩
      exact List.mem_cons_of_mem _ hv

lemma Program.Canonical.of_mem_sites {p : Program} (h : p.Canonical) {s : Site}
    (hs : s ∈ p.sites) : s.tree.Canonical := by
  obtain ⟨stmt, hstmt, hmem⟩ := List.mem_flatMap.mp hs
  exact (h stmt hstmt).of_mem_sites hmem

/-! ## The characters of operators -/

/-- A source text has a character at a place, lines and columns being counted from one. -/
structure Text.HasAt (source : String) (p : Position) (c : Char) : Prop where
  line_pos : 1 ≤ p.line
  column_pos : 1 ≤ p.column
  char : charAt? source p = some c

/-- A token of one character leads to this character. -/
lemma Token.StandsAt.hasAt {t : Token} {source : String} {o : ℕ} {c : Char}
    (h : t.StandsAt source.toList o) (hlexeme : t.lexeme.toList = [c]) (hne : c ≠ '\n') :
    Text.HasAt source t.position c := by
  have hlength : t.lexeme.length = 1 := by
    rw [← String.length_toList, hlexeme]
    rfl
  -- the lexeme is all that the text has of the token
  have hchar : source.toList[o]? = some c := by
    have htake := h.lexeme
    rw [hlength, hlexeme] at htake
    have hhead := congrArg List.head? htake
    rwa [List.head?_take, if_neg Nat.one_ne_zero, List.head?_drop] at hhead
  rw [h.position]
  exact ⟨Nat.le_add_right 1 _, Nat.le_add_left 1 _, Text.charAt?_ofOffset hchar hne⟩

lemma Operator.symbol_ne_newline (op : Operator) : op.symbol ≠ '\n' := by
  cases op <;> decide

/-- At the place of an operator the source text has its symbol. -/
theorem Program.hasAt_of_mem_sites {source : String} {p : Program} (hp : ofSource source = .ok p)
    {op : Operator} {l r : Expr} {q : Position} {b : Bool}
    (hs : ⟨.binary op l r q, b⟩ ∈ p.sites) : Text.HasAt source q op.symbol := by
  obtain ⟨ts, hsource, hmem, hstands⟩ := Parser.exists_ofSource_eq source
  obtain ⟨ss, hss, -, hyields⟩ := Parser.allYield_of_statements hp
  obtain rfl : p.statements = ss := hss
  rw [hsource] at hyields
  obtain ⟨t, ht, hkind, rfl⟩ := hyields.exists_operator hs
  obtain ⟨o, ho⟩ := hstands t ht
  have hlexeme := (Cuts.tokenize source).lexeme_operator t (hmem t ht) op hkind
  exact ho.hasAt hlexeme op.symbol_ne_newline

end Reckon
