/-
# Runs

A run is a longest piece of one class: its elements are of the class, and the one behind it, if
there is one, is not.  This says what a run is without finding it, and `List.takeWhile` is what
finds it.  A run is determined by the list that begins with it, and it stays the same if the list is
changed behind its end.
-/
import Mathlib.Data.List.TakeWhile
import Mathlib.Tactic.Common

namespace Reckon

section Run

variable {α : Type} {q : α → Bool} {w : α} {xs ys rest : List α}

/-- `xs` is a run in front of `rest`. -/
structure IsRun (q : α → Bool) (xs rest : List α) : Prop where
  /-- Its elements are of the class, -/
  all : ∀ x ∈ xs, q x = true
  /-- and the next one is not. -/
  ends : ∀ x ∈ rest.head?, q x = false

/-- A run is as long as it can be if something else follows. -/
lemma run_append (hxs : ∀ x ∈ xs, q x = true) (hrest : ∀ x ∈ rest.head?, q x = false) :
    (xs ++ rest).takeWhile q = xs ∧ (xs ++ rest).dropWhile q = rest := by
  rw [List.takeWhile_append_of_pos hxs, List.dropWhile_append_of_pos hxs]
  cases rest with
  | nil => simp
  | cons x rest =>
    have hx := hrest x rfl
    simp [hx]

/-- Two runs that are followed by something else end at the same place. -/
lemma run_append_inj {s t : List α} (hxs : ∀ x ∈ xs, q x = true) (hys : ∀ y ∈ ys, q y = true)
    (hs : ∀ x ∈ s.head?, q x = false) (ht : ∀ x ∈ t.head?, q x = false)
    (h : xs ++ s = ys ++ t) : xs = ys ∧ s = t := by
  obtain ⟨hxs', hs'⟩ := run_append hxs hs
  obtain ⟨hys', ht'⟩ := run_append hys ht
  rw [h] at hxs' hs'
  exact ⟨hxs'.symm.trans hys', hs'.symm.trans ht'⟩

lemma IsRun.takeWhile_eq (h : IsRun q xs rest) : (xs ++ rest).takeWhile q = xs :=
  (run_append h.all h.ends).1

lemma IsRun.cons_iff {x : α} : IsRun q (x :: xs) rest ↔ q x = true ∧ IsRun q xs rest := by
  constructor
  · rintro ⟨hall, hends⟩
    obtain ⟨hx, hxs⟩ := List.forall_mem_cons.mp hall
    exact ⟨hx, hxs, hends⟩
  · rintro ⟨hx, hxs, hends⟩
    exact ⟨List.forall_mem_cons.mpr ⟨hx, hxs⟩, hends⟩

/-- Every list begins with a run. -/
lemma exists_isRun (q : α → Bool) (xs : List α) : ∃ ys rest, xs = ys ++ rest ∧ IsRun q ys rest := by
  refine ⟨xs.takeWhile q, xs.dropWhile q, List.takeWhile_append_dropWhile.symm, ?_, ?_⟩
  · intro x hx
    exact List.mem_takeWhile_imp hx
  · intro x hx
    have hhead := List.head?_dropWhile_not q xs
    rw [hx] at hhead
    simpa using hhead

/-- A run that ends inside a text does not depend on what follows. -/
lemma takeWhile_append_of_lt (h : ((xs ++ ys).takeWhile q).length < xs.length) (zs : List α) :
    (xs ++ zs).takeWhile q = (xs ++ ys).takeWhile q := by
  induction xs with
  | nil => exact absurd h (Nat.not_lt_zero _)
  | cons x xs ih =>
    cases hx : q x with
    | false => simp [hx]
    | true =>
      simp only [List.cons_append, List.takeWhile_cons, hx, if_true, List.length_cons] at h ⊢
      rw [ih (Nat.lt_of_succ_lt_succ h)]

/-- A run that ends with a text still does if something is put there that does not belong to it. -/
lemma takeWhile_insert (hw : q w = false) (h : ((xs ++ ys).takeWhile q).length ≤ xs.length) :
    (xs ++ w :: ys).takeWhile q = (xs ++ ys).takeWhile q := by
  induction xs with
  | nil =>
    rw [List.nil_append, List.takeWhile_cons_of_neg (by simp [hw])]
    exact (List.length_eq_zero_iff.mp (Nat.le_zero.mp h)).symm
  | cons x xs ih =>
    cases hx : q x with
    | false => simp [hx]
    | true =>
      simp only [List.cons_append, List.takeWhile_cons, hx, if_true, List.length_cons] at h ⊢
      rw [ih (Nat.le_of_succ_le_succ h)]

/-- A run that ends with a text is prolonged by one at most. -/
lemma length_takeWhile_insert (h : ((xs ++ ys).takeWhile q).length = xs.length) :
    ((xs ++ w :: ys).takeWhile q).length = xs.length ∨
      ((xs ++ w :: ys).takeWhile q).length = xs.length + 1 := by
  induction xs with
  | nil =>
    have hnil : ys.takeWhile q = [] := List.length_eq_zero_iff.mp h
    cases hw : q w with
    | false => simp [hw]
    | true => simp [hw, hnil]
  | cons x xs ih =>
    cases hx : q x with
    | false => simp [hx] at h
    | true =>
      simp only [List.cons_append, List.takeWhile_cons, hx, if_true, List.length_cons] at h ⊢
      rcases ih (Nat.succ.inj h) with hsame | hmore
      · exact .inl (congrArg (· + 1) hsame)
      · exact .inr (congrArg (· + 1) hmore)

/-- A run ends at what does not belong to it. -/
lemma takeWhile_append_cons (hw : q w = false) (xs ys : List α) :
    (xs ++ w :: ys).takeWhile q = xs.takeWhile q := by
  induction xs with
  | nil => simp [hw]
  | cons x xs ih =>
    rw [List.cons_append, List.takeWhile_cons, List.takeWhile_cons, ih]

end Run

end Reckon
