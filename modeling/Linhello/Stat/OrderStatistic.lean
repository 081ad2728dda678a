import Mathlib.Data.List.Sort
/-!
# Order statistics of a list

`kth v i` is the entry with `i` smaller or equal ones before it in the sorted list.
It is compared with a threshold by counting the entries below that threshold; the
other rules (order of the list, larger entries, larger index) follow by counting.
-/

namespace Linhello.Stat

variable {α : Type*} [LinearOrder α]

/-- The entry at index `i` once `v` is sorted. -/
def kth (v : List α) (i : Nat) (hi : i < v.length) : α :=
  (v.insertionSort (· ≤ ·)).get ⟨i, by rwa [List.length_insertionSort]⟩

/-- The entries below a threshold that come first in a sorted list are as many as there are. -/
theorem get_lt_iff_lt_countP {s : List α} (hs : s.Pairwise (· ≤ ·)) {t : α} {i : Nat}
    (hi : i < s.length) : s.get ⟨i, hi⟩ < t ↔ i < s.countP (· < t) := by
  induction s generalizing i with
  | nil => simp at hi
  | cons x s ih =>
      have hx : ∀ y ∈ s, x ≤ y := (List.pairwise_cons.1 hs).1
      by_cases hxt : x < t
      · rw [List.countP_cons_of_pos (by simpa using hxt)]
        cases i with
        | zero => simpa using hxt
        | succ i =>
            have hi' : i < s.length := by simpa using hi
            have := ih (List.pairwise_cons.1 hs).2 hi'
            simp only [List.get_cons_succ]
            rw [this]
            omega
      · -- the first entry is not below `t`, so none is
        have hnone : (x :: s).countP (· < t) = 0 := by
          rw [List.countP_eq_zero]
          intro y hy
          have hxy : x ≤ y := by
            cases List.mem_cons.1 hy with
            | inl h => exact h.symm.le
            | inr h => exact hx y h
          simpa using (not_lt.1 hxt).trans hxy
        rw [hnone]
        have hle : x ≤ (x :: s).get ⟨i, hi⟩ := by
          cases i with
          | zero => exact le_rfl
          | succ i => exact hx _ (List.get_mem _ _)
        exact iff_of_false (fun h => hxt (hle.trans_lt h)) (Nat.not_lt_zero i)

theorem kth_lt_iff {v : List α} {i : Nat} (hi : i < v.length) {t : α} :
    kth v i hi < t ↔ i < v.countP (· < t) := by
  rw [kth, get_lt_iff_lt_countP (List.pairwise_insertionSort _ v),
    (List.perm_insertionSort _ v).countP_eq]

theorem le_kth_iff {v : List α} {i : Nat} (hi : i < v.length) {t : α} :
    t ≤ kth v i hi ↔ v.countP (· < t) ≤ i := by
  rw [← not_lt, kth_lt_iff, not_lt]

/-- At most `i` entries are below the one at index `i`. -/
theorem countP_lt_kth {v : List α} {i : Nat} (hi : i < v.length) :
    v.countP (· < kth v i hi) ≤ i :=
  (le_kth_iff hi).1 le_rfl

theorem kth_le_kth {v : List α} {i j : Nat} (hij : i ≤ j) (hj : j < v.length) :
    kth v i (hij.trans_lt hj) ≤ kth v j hj := by
  rw [le_kth_iff]
  exact (countP_lt_kth (hij.trans_lt hj)).trans hij

theorem kth_perm {v w : List α} (h : v.Perm w) {i : Nat} (hi : i < v.length) :
    kth v i hi = kth w i (h.length_eq ▸ hi) := by
  apply le_antisymm
  · rw [le_kth_iff, ← h.countP_eq]
    exact countP_lt_kth hi
  · rw [le_kth_iff, h.countP_eq]
    exact countP_lt_kth _

/-- Raising entries leaves no more of them below a threshold. -/
theorem countP_lt_mono {v w : List α} (h : List.Forall₂ (· ≤ ·) v w) (t : α) :
    w.countP (· < t) ≤ v.countP (· < t) := by
  induction h with
  | nil => exact le_rfl
  | @cons a b v w hab _ ih =>
      by_cases hb : b < t
      · have ha : a < t := hab.trans_lt hb
        rw [List.countP_cons_of_pos (by simpa using hb),
          List.countP_cons_of_pos (by simpa using ha)]
        omega
      · rw [List.countP_cons_of_neg (by simpa using hb)]
        exact ih.trans ((List.sublist_cons_self a v).countP_le)

theorem kth_mono {v w : List α} (h : List.Forall₂ (· ≤ ·) v w) {i : Nat} (hi : i < v.length) :
    kth v i hi ≤ kth w i (h.length_eq ▸ hi) := by
  rw [le_kth_iff]
  exact (countP_lt_mono h _).trans (countP_lt_kth hi)

theorem countP_lt_add_countP_le (v : List α) (t : α) :
    v.countP (· < t) + v.countP (t ≤ ·) = v.length := by
  rw [List.length_eq_countP_add_countP (· < t)]
  congr 1
  apply List.countP_congr
  simp

end Linhello.Stat
