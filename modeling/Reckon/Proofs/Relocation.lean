/-
# Programs with other places

The places in a program are for messages.  If they are replaced by others, the check finds the same
errors with the new places, and the program does the same, a failure having the new place.  This is
`Program.kindErrors_relocate` and `Program.execute_relocate`, for any function that tells the new
places.

A program without its places is one that has the same place everywhere.  Programs that are the same
without their places are read from tokens that are alike, which means that they are of the same
kinds and have the same lexemes, comments apart.
-/
import Mathlib.Data.List.Forall2
import Reckon.Proofs.Exactness
import Reckon.Proofs.Sites
import Reckon.Typing

namespace Reckon

variable (f : Position → Position)

/-! ## Other places -/

/-- An expression with other places. -/
def Expr.relocate : Expr → Expr
  | int n p => int n (f p)
  | float x p => float x (f p)
  | binary op l r p => binary op l.relocate r.relocate (f p)
  | unary op e => unary op e.relocate
  | group e => group e.relocate

/-- A statement with other places. -/
def Stmt.relocate : Stmt → Stmt
  | print e => print (e.relocate f)

/-- A program with other places. -/
def Program.relocate (p : Program) : Program := ⟨p.statements.map (Stmt.relocate f)⟩

/-- An error in kinds with another place. -/
def KindError.relocate (e : KindError) : KindError := { e with position := f e.position }

/-- A failure with another place. -/
def RunError.relocate (e : RunError) : RunError := { e with position := e.position.map f }

lemma KindError.between?_relocate (op : Operator) (k l : Option Kind) (p : Position) :
    between? op k l (f p) = (between? op k l p).map (KindError.relocate f) := by
  cases k with
  | none => rfl
  | some k =>
    cases l with
    | none => rfl
    | some l =>
      simp only [between?]
      split <;> rfl

lemma Expr.typing_relocate (e : Expr) :
    (e.relocate f).typing = (e.typing.1, e.typing.2.map (KindError.relocate f)) := by
  induction e with
  | int n p => rfl
  | float x p => rfl
  | binary op l r p ihl ihr =>
    simp only [relocate, typing, ihl, ihr, KindError.between?_relocate, List.map_append]
    cases KindError.between? op l.typing.1 r.typing.1 p <;> rfl
  | unary op e ih => rfl
  | group e ih => rfl

/-- The check finds the same errors with the new places. -/
theorem Program.kindErrors_relocate (p : Program) :
    (p.relocate f).kindErrors = p.kindErrors.map (KindError.relocate f) := by
  rw [kindErrors_eq, kindErrors_eq, relocate]
  induction p.statements with
  | nil => rfl
  | cons s ss ih =>
    obtain ⟨e⟩ := s
    simp only [List.map_cons, List.flatMap_cons, List.map_append, ih]
    simp only [Stmt.relocate, Expr.typing_relocate]

lemma Value.combine_relocate (op : Operator) (a b : Value) (p : Position) :
    combine op a b (f p) = (combine op a b p).mapError (RunError.relocate f) := by
  unfold combine
  split <;> rfl

lemma Value.signed_relocate (op : Operator) (a : Value) :
    signed op a = (signed op a).mapError (RunError.relocate f) := by
  unfold signed
  split <;> rfl

/-- An expression has the same value, or fails in the same way at the new place. -/
lemma Expr.eval_relocate (e : Expr) :
    (e.relocate f).eval = e.eval.mapError (RunError.relocate f) := by
  induction e with
  | int n p => rfl
  | float x p => rfl
  | binary op l r p ihl ihr =>
    rw [relocate, eval, eval, ihl, ihr]
    cases l.eval with
    | error err => rfl
    | ok a =>
      cases r.eval with
      | error err => rfl
      | ok b => exact Value.combine_relocate f op a b p
  | unary op e ih =>
    rw [relocate, eval, eval, ih]
    cases e.eval with
    | error err => rfl
    | ok a => exact Value.signed_relocate f op a
  | group e ih => exact ih

lemma executeAll_relocate (ss : List Stmt) (sink : Sink) :
    executeAll (ss.map (Stmt.relocate f)) sink =
      ((executeAll ss sink).1.mapError (RunError.relocate f), (executeAll ss sink).2) := by
  induction ss generalizing sink with
  | nil => rfl
  | cons s ss ih =>
    obtain ⟨e⟩ := s
    simp only [List.map_cons, Stmt.relocate, executeAll, Stmt.execute, Expr.evaluate_eq_eval,
      Expr.eval_relocate]
    cases e.eval with
    | error err => rfl
    | ok v =>
      -- a refused line has no place
      rcases sink.printLine_cases v.scalar with ⟨sink', hline, -⟩ | ⟨refusal, sink', hline, -⟩
      · simp only [Except.mapError, hline, ih]
      · simp only [Except.mapError, hline]
        rfl

/-- A program does the same, and a failure has the new place. -/
theorem Program.execute_relocate (p : Program) (sink : Sink) :
    (p.relocate f).execute sink =
      ((p.execute sink).1.mapError (RunError.relocate f), (p.execute sink).2) :=
  executeAll_relocate f p.statements sink

/-! ## Canonical trees -/

namespace Expr

lemma rank_relocate (e : Expr) : (e.relocate f).rank = e.rank := by
  cases e <;> rfl

lemma openRight_relocate (e : Expr) : (e.relocate f).OpenRight ↔ e.OpenRight := by
  induction e with
  | binary op l r p _ ihr => exact ihr
  | int | float | unary | group => exact .rfl

/-- Whether a tree is canonical does not depend on its places. -/
lemma canonical_relocate (e : Expr) : (e.relocate f).Canonical ↔ e.Canonical := by
  induction e with
  | int n p => exact iff_of_true (.int n (f p)) (.int n p)
  | float x p => exact iff_of_true (.float x (f p)) (.float x p)
  | binary op l r p ihl ihr =>
    constructor
    · rintro (_ | _ | ⟨hl, hr, hrankl, hrankr, hopen⟩)
      rw [rank_relocate] at hrankl hrankr
      rw [openRight_relocate] at hopen
      exact .binary (ihl.mp hl) (ihr.mp hr) hrankl hrankr hopen
    · rintro (_ | _ | ⟨hl, hr, hrankl, hrankr, hopen⟩)
      rw [← rank_relocate f] at hrankl hrankr
      rw [← openRight_relocate f] at hopen
      exact .binary (ihl.mpr hl) (ihr.mpr hr) hrankl hrankr hopen
  | unary op e ih =>
    constructor
    · rintro (_ | _ | _ | ⟨hop, he⟩)
      exact .unary hop (ih.mp he)
    · rintro (_ | _ | _ | ⟨hop, he⟩)
      exact .unary hop (ih.mpr he)
  | group e ih =>
    constructor
    · rintro (_ | _ | _ | _ | he)
      exact .group (ih.mp he)
    · rintro (_ | _ | _ | _ | he)
      exact .group (ih.mpr he)

end Expr

/-! ## Without places -/

/-- An expression without its places. -/
def Expr.unplaced (e : Expr) : Expr := e.relocate fun _ => .start

/-- A program without its places. -/
def Program.unplaced (p : Program) : Program := p.relocate fun _ => .start

/-- Two tokens are of the same kind and have the same lexeme, unless they are comments. -/
structure Token.Alike (t u : Token) : Prop where
  kind : t.kind = u.kind
  lexeme : t.kind ≠ .comment → t.lexeme = u.lexeme

/-- A list that corresponds to two lists one after the other. -/
lemma exists_append_of_forall₂ {α β : Type} {R : α → β → Prop} {xs ys : List α} {zs : List β}
    (h : List.Forall₂ R (xs ++ ys) zs) :
    ∃ xs' ys', zs = xs' ++ ys' ∧ List.Forall₂ R xs xs' ∧ List.Forall₂ R ys ys' := by
  induction xs generalizing zs with
  | nil => exact ⟨[], zs, rfl, .nil, h⟩
  | cons x xs ih =>
    obtain ⟨z, zs, hx, hrest, rfl⟩ := List.forall₂_cons_left_iff.mp h
    obtain ⟨xs', ys', rfl, hxs, hys⟩ := ih hrest
    exact ⟨z :: xs', ys', rfl, .cons hx hxs, hys⟩

/-- Tokens that are alike are those of expressions that are the same without their places. -/
lemma Expr.Yields.exists_alike {e : Expr} {ts us : List Token} (h : e.Yields ts)
    (halike : List.Forall₂ Token.Alike ts us) :
    ∃ e' : Expr, e'.unplaced = e.unplaced ∧ e'.Yields us := by
  induction h generalizing us with
  | int kind value =>
    obtain ⟨u, _, ht, hnil, rfl⟩ := List.forall₂_cons_left_iff.mp halike
    obtain rfl := List.forall₂_nil_left_iff.mp hnil
    have hlexeme := ht.lexeme (by simp [kind])
    exact ⟨.int _ u.position, rfl, .int (ht.kind.symm.trans kind) (hlexeme ▸ value)⟩
  | float kind value =>
    obtain ⟨u, _, ht, hnil, rfl⟩ := List.forall₂_cons_left_iff.mp halike
    obtain rfl := List.forall₂_nil_left_iff.mp hnil
    have hlexeme := ht.lexeme (by simp [kind])
    exact ⟨.float _ u.position, rfl, .float (ht.kind.symm.trans kind) (hlexeme ▸ value)⟩
  | binary _ operator _ ihl ihr =>
    obtain ⟨left, _, rfl, hleft, hrest⟩ := exists_append_of_forall₂ halike
    obtain ⟨u, right, ht, hright, rfl⟩ := List.forall₂_cons_left_iff.mp hrest
    obtain ⟨l, hl, hlyields⟩ := ihl hleft
    obtain ⟨r, hr, hryields⟩ := ihr hright
    refine ⟨_, ?_, .binary hlyields (ht.kind.symm.trans operator) hryields⟩
    simp only [unplaced, relocate] at hl hr ⊢
    rw [hl, hr]
  | unary sign _ ih =>
    obtain ⟨u, operand, ht, hoperand, rfl⟩ := List.forall₂_cons_left_iff.mp halike
    obtain ⟨e, he, hyields⟩ := ih hoperand
    refine ⟨_, ?_, .unary (ht.kind.symm.trans sign) hyields⟩
    simp only [unplaced, relocate] at he ⊢
    rw [he]
  | group left _ right ih =>
    obtain ⟨t, _, ht, hrest, rfl⟩ := List.forall₂_cons_left_iff.mp halike
    obtain ⟨inner, _, rfl, hinner, hclose⟩ := exists_append_of_forall₂ hrest
    obtain ⟨u, _, hu, hnil, rfl⟩ := List.forall₂_cons_left_iff.mp hclose
    obtain rfl := List.forall₂_nil_left_iff.mp hnil
    obtain ⟨e, he, hyields⟩ := ih hinner
    refine ⟨_, ?_, .group (ht.kind.symm.trans left) hyields (hu.kind.symm.trans right)⟩
    simp only [unplaced, relocate] at he ⊢
    rw [he]

/-- The same for statements. -/
lemma Stmt.AllYield.exists_alike {ss : List Stmt} {ts us : List Token} (h : AllYield ss ts)
    (halike : List.Forall₂ Token.Alike ts us) :
    ∃ ss' : List Stmt, (⟨ss'⟩ : Program).unplaced = (⟨ss⟩ : Program).unplaced ∧
      AllYield ss' us := by
  induction h generalizing us with
  | nil =>
    obtain rfl := List.forall₂_nil_left_iff.mp halike
    exact ⟨[], rfl, .nil⟩
  | comment kind _ ih =>
    obtain ⟨u, rest, ht, hrest, rfl⟩ := List.forall₂_cons_left_iff.mp halike
    obtain ⟨ss', hss, hyields⟩ := ih hrest
    exact ⟨ss', hss, .comment (ht.kind.symm.trans kind) hyields⟩
  | print keyword value semi _ ih =>
    obtain ⟨t, _, ht, hrest, rfl⟩ := List.forall₂_cons_left_iff.mp halike
    obtain ⟨expr, _, rfl, hexpr, hclose⟩ := exists_append_of_forall₂ hrest
    obtain ⟨u, rest, hu, hothers, rfl⟩ := List.forall₂_cons_left_iff.mp hclose
    obtain ⟨e, he, hvalue⟩ := value.exists_alike hexpr
    obtain ⟨ss', hss, hyields⟩ := ih hothers
    refine ⟨.print e :: ss', ?_,
      .print (ht.kind.symm.trans keyword) hvalue (hu.kind.symm.trans semi) hyields⟩
    simp only [Program.unplaced, Program.relocate, Program.mk.injEq, List.map_cons] at hss ⊢
    rw [hss]
    exact congrArg (Stmt.print · :: _) he

/-- Whether the expressions of a program are canonical does not depend on its places. -/
lemma Program.canonical_of_unplaced_eq {p q : Program} (h : p.unplaced = q.unplaced)
    (hp : p.Canonical) : q.Canonical := by
  intro s hs
  have hmem : s.relocate (fun _ => .start) ∈ p.unplaced.statements := by
    rw [h]
    exact List.mem_map_of_mem hs
  obtain ⟨s', hs', heq⟩ := List.mem_map.mp hmem
  obtain ⟨e⟩ := s
  obtain ⟨e'⟩ := s'
  have hexpr : e'.relocate (fun _ => .start) = e.relocate fun _ => .start := Stmt.print.inj heq
  exact (e.canonical_relocate _).mp (hexpr ▸ (e'.canonical_relocate _).mpr (hp _ hs'))

/-- The tokens before the end marker are alike if all tokens are. -/
lemma Token.Alike.takeWhile {ts us : List Token} (h : List.Forall₂ Token.Alike ts us) :
    List.Forall₂ Token.Alike (ts.takeWhile (·.kind ≠ .eof)) (us.takeWhile (·.kind ≠ .eof)) := by
  induction h with
  | nil => exact .nil
  | @cons t u ts us ht _ ih =>
    by_cases heof : t.kind = .eof
    · simp [heof, ht.kind.symm.trans heof]
    · have hne : u.kind ≠ .eof := fun hu => heof (ht.kind.trans hu)
      simp only [List.takeWhile_cons, heof, hne, ne_eq, not_false_eq_true, decide_true, if_true]
      exact .cons ht ih

/-- Tokens that are alike are read as programs that are the same without their places. -/
theorem Program.exists_ofTokens_of_alike {ts us : List Token} {p : Program}
    (h : List.Forall₂ Token.Alike ts us) (hp : ofTokens ts = .ok p) :
    ∃ q, ofTokens us = .ok q ∧ q.unplaced = p.unplaced := by
  obtain ⟨ss, hss, hcanonical, hyields⟩ := Parser.allYield_of_statements hp
  obtain rfl : p.statements = ss := hss
  obtain ⟨ss', hss', hyields'⟩ := hyields.exists_alike (Token.Alike.takeWhile h)
  have hcanonical' := canonical_of_unplaced_eq hss'.symm hcanonical
  exact ⟨⟨ss'⟩, Parser.statements_of_allYield hyields' hcanonical' [], hss'⟩

end Reckon
