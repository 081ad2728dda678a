import Mathlib.Order.Lattice
/-!
# The last maximum

`maxBy cmp xs` is the last of the elements that compare highest. A comparison that goes by a
key in a linear order ranks by that key, and then nothing in the list has a higher one.
-/

namespace Linhello.Select

variable {α β : Type} {cmp : α → α → Ordering}

/-- `Iterator::max_by`. -/
def maxBy (cmp : α → α → Ordering) : List α → Option α
  | [] => none
  | x :: xs => some (xs.foldl (fun best y => if cmp best y = .gt then best else y) x)

variable [LinearOrder β] {key : α → β} {xs : List α} {m : α}

def Ranks (cmp : α → α → Ordering) (key : α → β) : Prop := ∀ a b, cmp a b = .gt ↔ key b < key a

theorem foldl_maxBy (h : Ranks cmp key) (x : α) :
    let m := xs.foldl (fun best y => if cmp best y = .gt then best else y) x
    (m = x ∨ m ∈ xs) ∧ key x ≤ key m ∧ ∀ y ∈ xs, key y ≤ key m := by
  induction xs generalizing x with
  | nil => exact ⟨.inl rfl, le_rfl, fun y hy => absurd hy List.not_mem_nil⟩
  | cons y xs ih =>
      have hstep : key x ≤ key (if cmp x y = .gt then x else y) ∧
          key y ≤ key (if cmp x y = .gt then x else y) := by
        split
        next hgt => exact ⟨le_rfl, ((h x y).1 hgt).le⟩
        next hle => exact ⟨not_lt.1 fun hlt => hle ((h x y).2 hlt), le_rfl⟩
      obtain ⟨hmem, hbest, hrest⟩ := ih (if cmp x y = .gt then x else y)
      refine ⟨?_, hstep.1.trans hbest, fun z hz => ?_⟩
      · rcases hmem with hsame | hin
        · rw [List.foldl_cons, hsame]
          split
          · exact .inl rfl
          · exact .inr List.mem_cons_self
        · exact .inr (List.mem_cons_of_mem y hin)
      · rcases List.mem_cons.1 hz with rfl | hin
        · exact hstep.2.trans hbest
        · exact hrest z hin

theorem maxBy_eq_none : maxBy cmp xs = none ↔ xs = [] := by
  cases xs <;> simp [maxBy]

theorem mem_of_maxBy (h : Ranks cmp key) (hm : maxBy cmp xs = some m) : m ∈ xs := by
  cases xs with
  | nil => cases hm
  | cons x xs =>
      cases hm
      rcases (foldl_maxBy h x).1 with hsame | hin
      · rw [hsame]
        exact List.mem_cons_self
      · exact List.mem_cons_of_mem x hin

theorem le_of_maxBy (h : Ranks cmp key) (hm : maxBy cmp xs = some m) {y : α} (hy : y ∈ xs) :
    key y ≤ key m := by
  cases xs with
  | nil => cases hm
  | cons x xs =>
      cases hm
      rcases List.mem_cons.1 hy with rfl | hin
      · exact (foldl_maxBy h y).2.1
      · exact (foldl_maxBy h x).2.2 y hin

end Linhello.Select
