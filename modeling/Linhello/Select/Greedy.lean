import Mathlib.Data.List.Perm.Basic
import Mathlib.Data.List.Sort
/-!
# Greedy selection

`select ok xs` goes through `xs` once and keeps an element that is compatible with all
that were kept before it. What is kept is a sublist, it is pairwise compatible, and what
is left out clashes with something kept that stands before it. When `xs` is sorted, the
something comes first in the order as well.
-/

namespace Linhello.Select

variable {α : Type} (ok : α → α → Bool)

def offer (kept : List α) (x : α) : List α := if kept.all (ok x) then kept ++ [x] else kept

def select (xs : List α) : List α := xs.foldl (offer ok) []

variable {ok} {R : α → α → Prop} {kept seen xs : List α} {x : α}

theorem offer_of_compatible (h : ∀ k ∈ kept, ok x k = true) : offer ok kept x = kept ++ [x] :=
  if_pos (List.all_eq_true.2 h)

theorem offer_of_clash (h : ∃ k ∈ kept, ok x k = false) : offer ok kept x = kept := by
  obtain ⟨k, hk, hclash⟩ := h
  apply if_neg
  intro hall
  rw [List.all_eq_true.1 hall k hk] at hclash
  cases hclash

/-- What holds after `seen` was gone through with the outcome `kept`. -/
structure Selected (ok : α → α → Bool) (R : α → α → Prop) (seen kept : List α) : Prop where
  sublist : kept.Sublist seen
  apart : kept.Pairwise fun k x => ok x k = true
  /-- What was left out clashes with something kept that is ahead of it. -/
  covered : ∃ dropped, seen.Perm (kept ++ dropped) ∧
    ∀ x ∈ dropped, ∃ k ∈ kept, R k x ∧ ok x k = false

theorem selected_nil : Selected ok R [] [] where
  sublist := .slnil
  apart := .nil
  covered := ⟨[], .nil, fun _ h => absurd h List.not_mem_nil⟩

theorem Selected.offer (h : Selected ok R seen kept) (hahead : ∀ y ∈ seen, R y x) :
    Selected ok R (seen ++ [x]) (offer ok kept x) := by
  obtain ⟨dropped, hperm, hcovered⟩ := h.covered
  by_cases hok : ∀ k ∈ kept, ok x k = true
  · rw [offer_of_compatible hok]
    have hperm' : (seen ++ [x]).Perm (kept ++ [x] ++ dropped) := by
      have hmove : (dropped ++ [x]).Perm ([x] ++ dropped) := List.perm_append_comm
      have hlast : (seen ++ [x]).Perm (kept ++ (dropped ++ [x])) := by
        rw [← List.append_assoc]
        exact hperm.append_right [x]
      rw [List.append_assoc]
      exact hlast.trans (hmove.append_left kept)
    refine ⟨h.sublist.append (.refl [x]), ?_, dropped, hperm', ?_⟩
    · rw [List.pairwise_append]
      refine ⟨h.apart, List.pairwise_singleton _ x, fun k hk y hy => ?_⟩
      rw [List.mem_singleton.1 hy]
      exact hok k hk
    · intro y hy
      obtain ⟨k, hk, hclash⟩ := hcovered y hy
      exact ⟨k, List.mem_append_left _ hk, hclash⟩
  · have hclash : ∃ k ∈ kept, ok x k = false := by
      simpa only [not_forall, Bool.not_eq_true, exists_prop] using hok
    rw [offer_of_clash hclash]
    refine ⟨h.sublist.trans (List.sublist_append_left seen [x]), h.apart, dropped ++ [x], ?_, ?_⟩
    · rw [← List.append_assoc]
      exact hperm.append_right [x]
    · intro y hy
      cases List.mem_append.1 hy with
      | inl hold => exact hcovered y hold
      | inr hnew =>
          obtain ⟨k, hk, hfalse⟩ := hclash
          rw [List.mem_singleton.1 hnew]
          exact ⟨k, hk, hahead k (h.sublist.subset hk), hfalse⟩

theorem Selected.foldl (h : Selected ok R seen kept) (hsorted : (seen ++ xs).Pairwise R) :
    Selected ok R (seen ++ xs) (xs.foldl (Select.offer ok) kept) := by
  induction xs generalizing seen kept with
  | nil => rwa [List.append_nil]
  | cons x xs ih =>
      have hahead : ∀ y ∈ seen, R y x := fun y hy =>
        (List.pairwise_append.1 hsorted).2.2 y hy x List.mem_cons_self
      rw [List.append_cons] at hsorted ⊢
      exact ih (h.offer hahead) hsorted

/-- The selection from a list in which `R` holds between an element and all that follow. -/
theorem selected_select (hsorted : xs.Pairwise R) : Selected ok R xs (select ok xs) :=
  selected_nil.foldl hsorted

theorem selected_any (ok : α → α → Bool) (xs : List α) :
    Selected ok (fun _ _ => True) xs (select ok xs) :=
  selected_select (List.pairwise_of_forall fun _ _ => trivial)

theorem select_ne_nil (h : xs ≠ []) : select ok xs ≠ [] := by
  obtain ⟨dropped, hperm, hcovered⟩ := (selected_any ok xs).covered
  intro hnil
  rw [hnil, List.nil_append] at hperm
  obtain ⟨x, hx⟩ := List.exists_mem_of_ne_nil xs h
  obtain ⟨k, hk, -⟩ := hcovered x (hperm.subset hx)
  rw [hnil] at hk
  exact List.not_mem_nil hk

private theorem foldl_offer_of_apart (h : (kept ++ xs).Pairwise fun k x => ok x k = true) :
    xs.foldl (offer ok) kept = kept ++ xs := by
  induction xs generalizing kept with
  | nil => exact (List.append_nil kept).symm
  | cons x xs ih =>
      have hok : ∀ k ∈ kept, ok x k = true := fun k hk =>
        (List.pairwise_append.1 h).2.2 k hk x List.mem_cons_self
      rw [List.append_cons] at h ⊢
      rw [List.foldl_cons, offer_of_compatible hok, ih h]

/-- Nothing is left out of a list that is pairwise compatible. -/
theorem select_of_apart (h : xs.Pairwise fun k x => ok x k = true) : select ok xs = xs :=
  foldl_offer_of_apart h

theorem select_idem (xs : List α) : select ok (select ok xs) = select ok xs :=
  select_of_apart (selected_any ok xs).apart

theorem head?_select (xs : List α) : (select ok xs).head? = xs.head? := by
  cases xs with
  | nil => rfl
  | cons x xs =>
      have hfirst : ∀ (ys kept : List α), (ys.foldl (offer ok) (x :: kept)).head? = some x := by
        intro ys
        induction ys with
        | nil => exact fun _ => rfl
        | cons y ys ih =>
            intro kept
            rw [List.foldl_cons]
            by_cases hall : (x :: kept).all (ok y) = true
            · rw [offer, if_pos hall, List.cons_append]
              exact ih _
            · rw [offer, if_neg hall]
              exact ih kept
      exact hfirst xs []

end Linhello.Select
