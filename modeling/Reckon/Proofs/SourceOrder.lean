/-
# The order of the errors of the check

The check reports an operator when its operands have been compared, and its right operand is
compared before.  So the errors come in postorder, and this is not the order in which the operators
stand in the source text: an error in the right operand of an operator comes before that of the
operator, and stands behind it.  In a program that was read it is that of a product in the right
operand of a sum, since the right operand of a product has no operators but in groups and behind
signs, where nothing is reported.

Everywhere else the two orders agree.  That the errors come in postorder is
`Program.kindErrors_sublist_postorder`.  `Program.kindErrors_order` says how the two orders differ
for each pair of errors, and when the errors of a program come in the order of the text.
-/
import Reckon.Expr.Postorder
import Reckon.Proofs.Diagnostics

namespace Reckon

/-- There are two levels only. -/
lemma Level.eq_of_rank_lt {k l : Level} (h : k.rank < l.rank) : k = .product ∧ l = .sum := by
  cases k <;> cases l <;> simp [rank] at h ⊢

/-! ## Postorder -/

/-- The sites of an expression are its nodes, in postorder. -/
lemma Expr.map_node_sites (e : Expr) (b : Bool) :
    (e.sites b).map (fun s => s.tree.node) = e.postorder := by
  induction e generalizing b with
  | int n p | float x p => rfl
  | binary op l r p ihl ihr =>
    rw [sites, List.map_append, List.map_append, ihl, ihr, postorder_binary]
    rfl
  | unary op e ih =>
    rw [sites, List.map_append, ih, postorder_unary]
    rfl
  | group e ih =>
    rw [sites, List.map_append, ih, postorder_group]
    rfl

/-- An error is that of the operator at the root of its site. -/
lemma Site.operator?_node {s : Site} {e : KindError} (h : s.kindError? = some e) :
    s.tree.node.operator? = some (e.op, e.position) := by
  obtain ⟨op, l, r, q, a, c, rfl, -, -, -, rfl⟩ := kindError?_eq_some h
  rfl

/-- **The errors of a program come in the order of its operators**, when its expressions are written
down in postorder. -/
theorem Program.kindErrors_sublist_postorder (p : Program) :
    (p.kindErrors.map fun e => (e.op, e.position)).Sublist
      (p.statements.flatMap fun s => s.expr.postorder.filterMap Node.operator?) := by
  have hnodes : (p.statements.flatMap fun s => s.expr.postorder.filterMap Node.operator?) =
      p.sites.filterMap fun s => s.tree.node.operator? := by
    rw [sites, Stmt.allSites, List.filterMap_flatMap]
    refine List.flatMap_congr fun s _ => ?_
    rw [← s.expr.map_node_sites true, List.filterMap_map]
    rfl
  have herrors : (p.kindErrors.map fun e => (e.op, e.position)) =
      (p.sites.filter fun s => s.kindError?.isSome).filterMap fun s => s.tree.node.operator? := by
    rw [kindErrors_eq_filterMap, List.map_filterMap, List.filterMap_filter]
    refine List.filterMap_congr fun s _ => ?_
    cases he : s.kindError? with
    | none => rfl
    | some e => exact (Site.operator?_node he).symm
  rw [hnodes, herrors]
  exact List.filter_sublist.filterMap _

/-! ## Tokens in order -/

lemma Position.Before.asymm {p q : Position} (h : p.Before q) : ¬ q.Before p :=
  fun h' => Before.irrefl p (h.trans h')

/-- The tokens come in the order of their places. -/
def InOrder (ts : List Token) : Prop := ts.Pairwise fun t u => t.position.Before u.position

namespace InOrder

variable {ts us : List Token}

lemma of_infix (h : InOrder ts) (hus : us <:+: ts) : InOrder us :=
  List.Pairwise.sublist hus.sublist h

lemma left (h : InOrder (ts ++ us)) : InOrder ts := (List.pairwise_append.mp h).1

lemma right (h : InOrder (ts ++ us)) : InOrder us := (List.pairwise_append.mp h).2.1

lemma before (h : InOrder (ts ++ us)) : ∀ t ∈ ts, ∀ u ∈ us, t.position.Before u.position :=
  (List.pairwise_append.mp h).2.2

end InOrder

/-- The parser is given the tokens of a source text in order. -/
lemma Parser.inOrder_ahead (source : String) : InOrder (ofSource source).ahead :=
  (Cuts.tokenize source).pairwise_before.sublist (List.takeWhile_sublist _)

/-! ## Sites and the operands that they are in -/

/-- A site is in the right operand of another one. -/
def Site.InRight (s t : Site) : Prop :=
  ∃ op l r p, t.tree = .binary op l r p ∧ s ∈ r.sites t.exposed

/-- The sites below a site come right before it. -/
lemma Expr.sites_infix {e : Expr} {t : Site} {b : Bool} (ht : t ∈ e.sites b) :
    t.tree.sites t.exposed <:+: e.sites b := by
  induction e generalizing b with
  | int n p | float x p =>
    obtain rfl := List.mem_singleton.mp ht
    exact List.infix_rfl
  | binary op l r p ihl ihr =>
    simp only [sites, List.mem_append, List.mem_singleton] at ht
    rcases ht with (ht | ht) | rfl
    · exact (ihl ht).trans ⟨[], r.sites b ++ [⟨binary op l r p, b⟩], by simp [sites]⟩
    · exact (ihr ht).trans ⟨l.sites b, [⟨binary op l r p, b⟩], by simp [sites]⟩
    · exact List.infix_rfl
  | unary op e ih | group e ih =>
    simp only [sites, List.mem_append, List.mem_singleton] at ht
    rcases ht with ht | rfl
    · exact (ih ht).trans (List.prefix_append _ _).isInfix
    · exact List.infix_rfl

/-- A site in the right operand of another one comes before it. -/
lemma Site.InRight.sublist {s t : Site} (h : s.InRight t) {e : Expr} {b : Bool}
    (ht : t ∈ e.sites b) : [s, t].Sublist (e.sites b) := by
  obtain ⟨op, l, r, p, htree, hs⟩ := h
  have hpair : [s, t].Sublist (t.tree.sites t.exposed) := by
    obtain ⟨tree, exposed⟩ := t
    subst htree
    have hright : [s].Sublist (l.sites exposed ++ r.sites exposed) :=
      List.singleton_sublist.mpr (List.mem_append_right _ hs)
    exact hright.append (List.Sublist.refl [_])
  exact hpair.trans (Expr.sites_infix ht).sublist

/-- The tokens of a site stand next to each other. -/
lemma Expr.Yields.exists_infix {e : Expr} {ts : List Token} (h : e.Yields ts) {t : Site} {b : Bool}
    (ht : t ∈ e.sites b) : ∃ us, t.tree.Yields us ∧ us <:+: ts := by
  induction h generalizing b with
  | int kind value =>
    obtain rfl := List.mem_singleton.mp ht
    exact ⟨_, .int kind value, List.infix_rfl⟩
  | float kind value =>
    obtain rfl := List.mem_singleton.mp ht
    exact ⟨_, .float kind value, List.infix_rfl⟩
  | @binary op l r u ts us left operator right ihl ihr =>
    simp only [sites, List.mem_append, List.mem_singleton] at ht
    rcases ht with (ht | ht) | rfl
    · obtain ⟨vs, hvs, hinfix⟩ := ihl ht
      exact ⟨vs, hvs, hinfix.trans (List.prefix_append ts _).isInfix⟩
    · obtain ⟨vs, hvs, hinfix⟩ := ihr ht
      exact ⟨vs, hvs, hinfix.trans ⟨ts ++ [u], [], by simp⟩⟩
    · exact ⟨_, .binary left operator right, List.infix_rfl⟩
  | @unary op e u ts sign operand ih =>
    simp only [sites, List.mem_append, List.mem_singleton] at ht
    rcases ht with ht | rfl
    · obtain ⟨vs, hvs, hinfix⟩ := ih ht
      exact ⟨vs, hvs, hinfix.trans (List.suffix_cons u ts).isInfix⟩
    · exact ⟨_, .unary sign operand, List.infix_rfl⟩
  | @group e u v ts left inner right ih =>
    simp only [sites, List.mem_append, List.mem_singleton] at ht
    rcases ht with ht | rfl
    · obtain ⟨vs, hvs, hinfix⟩ := ih ht
      exact ⟨vs, hvs, hinfix.trans ⟨[u], [v], by simp⟩⟩
    · exact ⟨_, .group left inner right, List.infix_rfl⟩

/-- An operator that is exposed in a canonical tree holds it together no more loosely than the root
does. -/
lemma Expr.Canonical.rank_of_mem_sites {e : Expr} (h : e.Canonical) {op : Operator} {l r : Expr}
    {q : Position} (hs : ⟨.binary op l r q, true⟩ ∈ e.sites true) : op.level.rank + 1 ≤ e.rank := by
  induction h with
  | int n p | float x p => obtain ⟨⟩ := List.mem_singleton.mp hs
  | @binary op' l' r' p left right rank_left rank_right closed ihl ihr =>
    simp only [sites, List.mem_append, List.mem_singleton] at hs
    rcases hs with (hs | hs) | hs
    · exact (ihl hs).trans rank_left
    · exact (ihr hs).trans (rank_right.trans (Nat.le_succ _))
    · obtain ⟨⟩ := hs
      exact Nat.le_refl _
  | unary sign operand ih | group inner ih =>
    simp only [sites, List.mem_append, List.mem_singleton] at hs
    rcases hs with hs | hs
    · exact absurd (exposed_of_mem_sites hs) (by simp)
    · obtain ⟨⟩ := hs

/-! ## The places of errors -/

section errors

variable {s t : Site} {e f : KindError}

/-- An error has the place of a token of its expression. -/
lemma Expr.Yields.exists_position {x : Expr} {ts : List Token} (h : x.Yields ts) {b : Bool}
    (hs : s ∈ x.sites b) (he : s.kindError? = some e) : ∃ u ∈ ts, u.position = e.position := by
  obtain ⟨op, l, r, q, a, c, rfl, -, -, -, rfl⟩ := Site.kindError?_eq_some he
  obtain ⟨u, hu, -, hposition⟩ := h.exists_operator hs
  exact ⟨u, hu, hposition⟩

lemma Stmt.AllYield.exists_position {ss : List Stmt} {ts : List Token} (h : AllYield ss ts)
    (hs : s ∈ allSites ss) (he : s.kindError? = some e) : ∃ u ∈ ts, u.position = e.position := by
  obtain ⟨op, l, r, q, a, c, rfl, -, -, -, rfl⟩ := Site.kindError?_eq_some he
  obtain ⟨u, hu, -, hposition⟩ := h.exists_operator hs
  exact ⟨u, hu, hposition⟩

/-- An error in the right operand of another one stands behind it; it is that of a product, and the
other one that of a sum. -/
lemma Site.InRight.before {ts : List Token} (h : s.InRight t) (hyields : t.tree.Yields ts)
    (hcanonical : t.tree.Canonical) (hts : InOrder ts) (he : s.kindError? = some e)
    (hf : t.kindError? = some f) :
    f.position.Before e.position ∧ e.op.level = .product ∧ f.op.level = .sum := by
  obtain ⟨_, _, _, _, htree, hs⟩ := h
  obtain ⟨op, l, r, q, a, c, rfl, -, -, -, rfl⟩ := kindError?_eq_some hf
  obtain ⟨rfl, rfl, rfl, rfl⟩ := Expr.binary.inj htree
  obtain ⟨op', l', r', q', a', c', rfl, -, -, -, rfl⟩ := kindError?_eq_some he
  cases hyields with
  | @binary _ _ _ u ts us left operator right =>
    obtain ⟨v, hv, -, hposition⟩ := right.exists_operator hs
    have hbefore := List.rel_of_pairwise_cons hts.right hv
    rw [hposition] at hbefore
    cases hcanonical with
    | binary _ cright _ rank_right _ =>
      have hrank : op'.level.rank + 1 ≤ op.level.rank :=
        (cright.rank_of_mem_sites hs).trans rank_right
      have hlevels := Level.eq_of_rank_lt hrank
      exact ⟨hbefore, hlevels⟩

/-- Of two errors of an expression, the first in postorder is in the right operand of the other, or
it stands before it. -/
lemma Expr.Yields.pairwise_sites {x : Expr} {ts : List Token} (h : x.Yields ts) (hts : InOrder ts)
    (b : Bool) : (x.sites b).Pairwise fun s t => ∀ e f, s.kindError? = some e →
      t.kindError? = some f → s.InRight t ∨ e.position.Before f.position := by
  induction h generalizing b with
  | int kind value | float kind value => exact List.pairwise_singleton _ _
  | @binary op l r u ts us left operator right ihl ihr =>
    have hright : InOrder us := InOrder.of_infix hts.right (List.suffix_cons u us).isInfix
    rw [sites, List.pairwise_append, List.pairwise_append]
    refine ⟨⟨ihl hts.left b, ihr hright b, ?_⟩, List.pairwise_singleton _ _, ?_⟩
    · intro s hs t ht e f he hf
      obtain ⟨v, hv, hve⟩ := left.exists_position hs he
      obtain ⟨w, hw, hwf⟩ := right.exists_position ht hf
      rw [← hve, ← hwf]
      exact .inr (hts.before v hv w (List.mem_cons_of_mem u hw))
    · intro s hs t ht e f he hf
      obtain rfl := List.mem_singleton.mp ht
      rcases List.mem_append.mp hs with hs | hs
      · obtain ⟨v, hv, hve⟩ := left.exists_position hs he
        obtain ⟨op', l', r', q, a, c, heq, -, -, -, rfl⟩ := Site.kindError?_eq_some hf
        obtain ⟨⟩ := heq
        rw [← hve]
        exact .inr (hts.before v hv u List.mem_cons_self)
      · exact .inl ⟨op, l, r, u.position, rfl, hs⟩
  | @unary op x u ts sign operand ih =>
    rw [sites, List.pairwise_append]
    have hoperand : InOrder ts := hts.of_infix (List.suffix_cons u ts).isInfix
    refine ⟨ih hoperand false, List.pairwise_singleton _ _, ?_⟩
    intro s hs t _ e f he _
    rw [Site.kindError?_of_not_exposed (exposed_of_mem_sites hs)] at he
    exact absurd he (by simp)
  | @group x u v ts left inner right ih =>
    rw [sites, List.pairwise_append]
    refine ⟨ih (hts.of_infix ⟨[u], [v], by simp⟩) false, List.pairwise_singleton _ _, ?_⟩
    intro s hs t _ e f he _
    rw [Site.kindError?_of_not_exposed (exposed_of_mem_sites hs)] at he
    exact absurd he (by simp)

/-! ## Statements -/

namespace Stmt.AllYield

variable {ss ss' : List Stmt} {ts : List Token}

/-- The tokens of statements are those of the first of them and those of the others. -/
lemma exists_append (h : AllYield (ss ++ ss') ts) :
    ∃ us vs, ts = us ++ vs ∧ AllYield ss us ∧ AllYield ss' vs := by
  generalize hall : ss ++ ss' = all at h
  induction h generalizing ss with
  | nil =>
    obtain ⟨rfl, rfl⟩ := List.append_eq_nil_iff.mp hall
    exact ⟨[], [], rfl, .nil, .nil⟩
  | @comment _ t ts kind _ ih =>
    obtain ⟨us, vs, rfl, hus, hvs⟩ := ih hall
    exact ⟨t :: us, vs, rfl, .comment kind hus, hvs⟩
  | @print e all t u ts us keyword value semi rest ih =>
    cases ss with
    | nil =>
      obtain rfl : ss' = .print e :: all := hall
      exact ⟨[], _, rfl, .nil, .print keyword value semi rest⟩
    | cons s ss =>
      obtain ⟨rfl, rfl⟩ := List.cons.inj hall
      obtain ⟨us', vs, rfl, hus, hvs⟩ := ih rfl
      exact ⟨t :: (ts ++ u :: us'), vs, by simp, .print keyword value semi hus, hvs⟩

lemma exists_infix (h : AllYield ss ts) (ht : t ∈ allSites ss) :
    ∃ us, t.tree.Yields us ∧ us <:+: ts := by
  induction h with
  | nil => exact absurd ht (by simp)
  | @comment _ u ts _ _ ih =>
    obtain ⟨us, hus, hinfix⟩ := ih ht
    exact ⟨us, hus, hinfix.trans (List.suffix_cons u ts).isInfix⟩
  | @print e ss u v ts us keyword value semi _ ih =>
    rw [allSites_cons, List.mem_append] at ht
    rcases ht with ht | ht
    · obtain ⟨vs, hvs, hinfix⟩ := value.exists_infix ht
      exact ⟨vs, hvs, hinfix.trans ⟨[u], v :: us, by simp⟩⟩
    · obtain ⟨vs, hvs, hinfix⟩ := ih ht
      exact ⟨vs, hvs, hinfix.trans ⟨u :: (ts ++ [v]), [], by simp⟩⟩

/-- The errors of statements stand before those of later statements. -/
lemma before {us vs : List Token} (hus : AllYield ss us) (hvs : AllYield ss' vs)
    (h : InOrder (us ++ vs)) (hs : s ∈ allSites ss) (ht : t ∈ allSites ss')
    (he : s.kindError? = some e) (hf : t.kindError? = some f) : e.position.Before f.position := by
  obtain ⟨u, hu, hue⟩ := hus.exists_position hs he
  obtain ⟨v, hv, hvf⟩ := hvs.exists_position ht hf
  rw [← hue, ← hvf]
  exact h.before u hu v hv

/-- Of two errors, the first in postorder is in the right operand of the other, or it stands before
it. -/
lemma pairwise_sites (h : AllYield ss ts) (hts : InOrder ts) :
    (allSites ss).Pairwise fun s t => ∀ e f, s.kindError? = some e →
      t.kindError? = some f → s.InRight t ∨ e.position.Before f.position := by
  induction h with
  | nil => exact .nil
  | @comment _ u ts _ _ ih => exact ih (hts.of_infix (List.suffix_cons u ts).isInfix)
  | @print x ss u v ts us keyword value semi rest ih =>
    have htail : InOrder (ts ++ v :: us) := hts.of_infix (List.suffix_cons u _).isInfix
    have hrest : InOrder us := InOrder.of_infix htail.right (List.suffix_cons v us).isInfix
    rw [allSites_cons, List.pairwise_append]
    refine ⟨value.pairwise_sites htail.left true, ih hrest, fun s hs t ht e f he hf => .inr ?_⟩
    obtain ⟨y, hy, hye⟩ := value.exists_position hs he
    obtain ⟨z, hz, hzf⟩ := rest.exists_position ht hf
    rw [← hye, ← hzf]
    exact htail.before y hy z (List.mem_cons_of_mem v hz)

end Stmt.AllYield

end errors

/-! ## Programs -/

namespace Program

variable {p : Program}

/-- The sites of an expression that a program prints are some of those of the program. -/
lemma sublist_sites {s t : Site} (ht : t ∈ p.sites) (h : s.InRight t) : [s, t].Sublist p.sites := by
  obtain ⟨stmt, hstmt, hmem⟩ := List.mem_flatMap.mp ht
  have hsites : (stmt.expr.sites true).Sublist p.sites :=
    List.sublist_flatten_of_mem (List.mem_map_of_mem hstmt)
  exact (h.sublist hmem).trans hsites

/-- How the errors of a program come one after the other, and how they stand in the source text. -/
structure ErrorOrder (p : Program) : Prop where
  /-- The errors are those of the sites, in postorder. -/
  postorder : p.kindErrors = p.sites.filterMap Site.kindError?
  /-- If the first of two errors is in the right operand of the other, it stands behind that, and it
  is the error of a product in a sum. -/
  behind : p.sites.Pairwise fun s t => ∀ e f, s.kindError? = some e → t.kindError? = some f →
    s.InRight t → f.position.Before e.position ∧ e.op.level = .product ∧ f.op.level = .sum
  /-- If it is not, it stands before that. -/
  before : p.sites.Pairwise fun s t => ∀ e f, s.kindError? = some e → t.kindError? = some f →
    ¬ s.InRight t → e.position.Before f.position
  /-- The errors of the first statements of a program stand before those of the others. -/
  statements : ∀ q r : Program, p.statements = q.statements ++ r.statements →
    ∀ e ∈ q.kindErrors, ∀ f ∈ r.kindErrors, e.position.Before f.position
  /-- The errors come in the order of the text just if no operator with an error has another one in
  its right operand. -/
  inOrder_iff : p.kindErrors.Pairwise (fun e f => e.position.Before f.position) ↔
    ∀ s t : Site, t ∈ p.sites → s.InRight t → s.kindError? = none ∨ t.kindError? = none

/-- **The errors of a program come in postorder**, which is the order of the text but for products
in the right operands of sums. -/
theorem kindErrors_order {source : String} (hp : ofSource source = .ok p) : p.ErrorOrder := by
  obtain ⟨ss, hss, hcanonical, hyields⟩ := Parser.allYield_of_statements hp
  obtain rfl : p.statements = ss := hss
  have hinOrder := Parser.inOrder_ahead source
  have hpairs : p.sites.Pairwise _ := hyields.pairwise_sites hinOrder
  have hbehind : ∀ s t : Site, t ∈ p.sites → ∀ e f : KindError, s.kindError? = some e →
      t.kindError? = some f → s.InRight t →
      f.position.Before e.position ∧ e.op.level = .product ∧ f.op.level = .sum := by
    intro s t ht e f he hf hright
    obtain ⟨us, hus, hinfix⟩ := hyields.exists_infix ht
    exact hright.before hus (Canonical.of_mem_sites hcanonical ht) (hinOrder.of_infix hinfix) he hf
  refine ⟨kindErrors_eq_filterMap p, ?_, ?_, ?_, ?_⟩
  · exact hpairs.imp_of_mem fun {s t} _ ht _ => hbehind s t ht
  · exact hpairs.imp fun {s t} h e f he hf hright => (h e f he hf).resolve_left hright
  · intro q r heq e he f hf
    rw [kindErrors_eq_filterMap] at he hf
    obtain ⟨s, hs, hse⟩ := List.mem_filterMap.mp he
    obtain ⟨t, ht, htf⟩ := List.mem_filterMap.mp hf
    rw [heq] at hyields
    obtain ⟨us, vs, htokens, hus, hvs⟩ := hyields.exists_append
    rw [htokens] at hinOrder
    exact hus.before hvs hinOrder hs ht hse htf
  · rw [kindErrors_eq_filterMap, List.pairwise_filterMap]
    constructor
    · intro h s t ht hright
      by_contra! hne
      obtain ⟨e, he⟩ := Option.ne_none_iff_exists'.mp hne.1
      obtain ⟨f, hf⟩ := Option.ne_none_iff_exists'.mp hne.2
      have hbefore := List.pairwise_pair.mp (h.sublist (sublist_sites ht hright)) e he f hf
      exact hbefore.asymm (hbehind s t ht e f he hf hright).1
    · intro h
      refine hpairs.imp_of_mem fun {s t} _ ht hst e he f hf => (hst e f he hf).resolve_left ?_
      intro hright
      rcases h s t ht hright with hnone | hnone
      · exact absurd (he.symm.trans hnone) (by simp)
      · exact absurd (hf.symm.trans hnone) (by simp)

/-- In `print 1 + 2.0 * 3;` the product is an error, and so is the sum. -/
lemma exists_ofSource_product : ∃ p, ofSource "print 1 + 2.0 * 3;" = .ok p ∧
    p.kindErrors = [⟨.times, .float, .int, ⟨1, 15⟩⟩, ⟨.plus, .int, .float, ⟨1, 9⟩⟩] := by
  have htokens : tokenize "print 1 + 2.0 * 3;" = [⟨.print, "print", ⟨1, 1⟩⟩,
      ⟨.integer, "1", ⟨1, 7⟩⟩, ⟨.plus, "+", ⟨1, 9⟩⟩, ⟨.float, "2.0", ⟨1, 11⟩⟩,
      ⟨.times, "*", ⟨1, 15⟩⟩, ⟨.integer, "3", ⟨1, 17⟩⟩, ⟨.semi, ";", ⟨1, 18⟩⟩,
      ⟨.eof, "EOF", ⟨1, 19⟩⟩] := by
    decide +kernel
  obtain ⟨x, hx⟩ := Option.isSome_iff_exists.mp
    (show (Numeral.float32? "2.0".toList).isSome = true by decide)
  let product : Expr := .binary .times (.float x ⟨1, 11⟩) (.int 3 ⟨1, 17⟩) ⟨1, 15⟩
  have hone : (Expr.int 1 ⟨1, 7⟩).Yields [⟨.integer, "1", ⟨1, 7⟩⟩] :=
    .int (t := ⟨.integer, "1", ⟨1, 7⟩⟩) rfl (by decide)
  have htwo : (Expr.float x ⟨1, 11⟩).Yields [⟨.float, "2.0", ⟨1, 11⟩⟩] :=
    .float (t := ⟨.float, "2.0", ⟨1, 11⟩⟩) rfl hx
  have hthree : (Expr.int 3 ⟨1, 17⟩).Yields [⟨.integer, "3", ⟨1, 17⟩⟩] :=
    .int (t := ⟨.integer, "3", ⟨1, 17⟩⟩) rfl (by decide)
  have hproduct : product.Yields [⟨.float, "2.0", ⟨1, 11⟩⟩, ⟨.times, "*", ⟨1, 15⟩⟩,
      ⟨.integer, "3", ⟨1, 17⟩⟩] :=
    htwo.binary (t := ⟨.times, "*", ⟨1, 15⟩⟩) rfl hthree
  have hsum : (Expr.binary .plus (.int 1 ⟨1, 7⟩) product ⟨1, 9⟩).Yields
      [⟨.integer, "1", ⟨1, 7⟩⟩, ⟨.plus, "+", ⟨1, 9⟩⟩, ⟨.float, "2.0", ⟨1, 11⟩⟩,
        ⟨.times, "*", ⟨1, 15⟩⟩, ⟨.integer, "3", ⟨1, 17⟩⟩] :=
    hone.binary (t := ⟨.plus, "+", ⟨1, 9⟩⟩) rfl hproduct
  have hcanonical : (Expr.binary .plus (.int 1 ⟨1, 7⟩) product ⟨1, 9⟩).Canonical :=
    .binary (.int 1 _) (.binary (.float x _) (.int 3 _) (Nat.zero_le _) (Nat.zero_le _) id)
      (Nat.zero_le _) (Nat.le_refl _) id
  refine ⟨_, ofSource_of_yields htokens rfl rfl hsum hcanonical (by simp), ?_⟩
  rw [kindErrors_eq]
  rfl

/-- Both errors of `print 1 + 2.0 * 3;` are reported, the product first. -/
theorem kindErrors_order_product :
    ∃ p, ofSource "print 1 + 2.0 * 3;" = .ok p ∧
      p.kindErrors = [⟨.times, .float, .int, ⟨1, 15⟩⟩, ⟨.plus, .int, .float, ⟨1, 9⟩⟩] ∧
      p.ErrorOrder := by
  obtain ⟨p, hp, herrors⟩ := exists_ofSource_product
  exact ⟨p, hp, herrors, kindErrors_order hp⟩

/-- The sum stands before the product, so that the errors do not come in the order of the text. -/
theorem kindErrors_not_inOrder :
    ∃ p, ofSource "print 1 + 2.0 * 3;" = .ok p ∧
      ¬ p.kindErrors.Pairwise fun e f => e.position.Before f.position := by
  obtain ⟨p, hp, herrors⟩ := exists_ofSource_product
  refine ⟨p, hp, fun h => ?_⟩
  rw [herrors, List.pairwise_pair] at h
  have hreversed : Position.Before ⟨1, 9⟩ ⟨1, 15⟩ := .inr ⟨rfl, by decide⟩
  exact hreversed.asymm h

end Program

end Reckon
