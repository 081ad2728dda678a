import Linhello.Linear.Elimination
import Mathlib.Algebra.BigOperators.Ring.List
import Mathlib.Algebra.Order.BigOperators.Group.List
/-!
# Least squares

The normal equations of an overdetermined system. A solution of them has the smallest sum
of squared residuals among all vectors.
-/

namespace Linhello.Linear

variable {n : Nat} {K : Type} [Field K]

/-- One equation `row · x = target`. -/
structure Equation (n : Nat) (K : Type) where
  row : Fin n → K
  target : K

variable {es : List (Equation n K)} {p q : Fin n → K}

def Equation.eval (e : Equation n K) (x : Fin n → K) : K := ∑ c, e.row c * x c

/-- By how much `x` misses the target. -/
def Equation.error (e : Equation n K) (x : Fin n → K) : K := e.eval x - e.target

def residual (es : List (Equation n K)) (x : Fin n → K) : K :=
  (es.map fun e => e.error x ^ 2).sum

/-- What one equation adds to the normal equations. -/
def accumulate (s : System n K) (e : Equation n K) : System n K where
  m := fun r c => s.m r c + e.row r * e.row c
  b := fun r => s.b r + e.row r * e.target

def normalEquations (es : List (Equation n K)) : System n K :=
  es.foldl accumulate { m := fun _ _ => 0, b := fun _ => 0 }

theorem foldl_accumulate (s : System n K) (es : List (Equation n K)) : es.foldl accumulate s =
    { m := fun r c => s.m r c + (es.map fun e => e.row r * e.row c).sum
      b := fun r => s.b r + (es.map fun e => e.row r * e.target).sum } := by
  induction es generalizing s with
  | nil => simp
  | cons e es ih =>
      rw [List.foldl_cons, ih]
      simp [accumulate, add_assoc]

theorem sum_mul_eval (es : List (Equation n K)) (f : Equation n K → K) (x : Fin n → K) :
    (es.map fun e => f e * e.eval x).sum = ∑ c, (es.map fun e => f e * e.row c).sum * x c := by
  induction es with
  | nil => simp
  | cons e es ih =>
      simp only [List.map_cons, List.sum_cons, add_mul, Finset.sum_add_distrib]
      rw [ih, Equation.eval, Finset.mul_sum]
      simp only [mul_assoc]

/-- A solution of the normal equations has errors orthogonal to every column. -/
theorem errors_orthogonal (h : (normalEquations es).Solves p) (r : Fin n) :
    (es.map fun e => e.row r * e.error p).sum = 0 := by
  have hr := h r
  rw [normalEquations, foldl_accumulate] at hr
  simp only [zero_add] at hr
  rw [← sum_mul_eval es (fun e => e.row r)] at hr
  have hsplit : (es.map fun e => e.row r * e.eval p).sum =
      (es.map fun e => e.row r * e.error p).sum + (es.map fun e => e.row r * e.target).sum := by
    rw [← List.sum_map_add]
    simp only [Equation.error, mul_sub, sub_add_cancel]
  rw [hsplit] at hr
  exact add_eq_right.1 hr

theorem Equation.eval_sub (e : Equation n K) (x y : Fin n → K) :
    e.eval (x - y) = e.eval x - e.eval y := by
  simp only [Equation.eval, Pi.sub_apply, mul_sub, Finset.sum_sub_distrib]

/-- The errors of `q` are those of `p` and, orthogonal to them, the distance to `p`. -/
theorem residual_eq (h : (normalEquations es).Solves p) (q : Fin n → K) :
    residual es q = residual es p + (es.map fun e => e.eval (q - p) ^ 2).sum := by
  have hcross : (es.map fun e => e.error p * e.eval (q - p)).sum = 0 := by
    rw [sum_mul_eval es (fun e => e.error p)]
    refine Finset.sum_eq_zero fun c _ => ?_
    have horth := errors_orthogonal h c
    simp only [mul_comm (Equation.row _ c)] at horth
    rw [horth, zero_mul]
  have hsquare : ∀ e : Equation n K, e.error q ^ 2 =
      e.error p ^ 2 + e.eval (q - p) ^ 2 + 2 * (e.error p * e.eval (q - p)) := by
    intro e
    rw [e.eval_sub, Equation.error, Equation.error]
    ring
  have hsum : residual es q = residual es p + (es.map fun e => e.eval (q - p) ^ 2).sum +
      2 * (es.map fun e => e.error p * e.eval (q - p)).sum := by
    rw [residual, residual, List.map_congr_left fun e _ => hsquare e, List.sum_map_add,
      List.sum_map_add, List.sum_map_mul_left]
  rw [hsum, hcross, mul_zero, add_zero]

variable [LinearOrder K] [IsStrictOrderedRing K]

theorem residual_nonneg (es : List (Equation n K)) (x : Fin n → K) : 0 ≤ residual es x := by
  apply List.sum_nonneg
  intro y hy
  obtain ⟨e, -, rfl⟩ := List.mem_map.1 hy
  exact sq_nonneg _

theorem residual_le (h : (normalEquations es).Solves p) (q : Fin n → K) :
    residual es p ≤ residual es q := by
  rw [residual_eq h q, le_add_iff_nonneg_right]
  apply List.sum_nonneg
  intro y hy
  obtain ⟨e, -, rfl⟩ := List.mem_map.1 hy
  exact sq_nonneg _

/-- Where some vector meets all equations, a solution of the normal equations does. -/
theorem exact_of_exact (h : (normalEquations es).Solves p) (hq : ∀ e ∈ es, e.error q = 0) :
    ∀ e ∈ es, e.error p = 0 := by
  have hzero : residual es q = 0 := by
    apply List.sum_eq_zero
    intro y hy
    obtain ⟨e, he, rfl⟩ := List.mem_map.1 hy
    rw [hq e he]
    ring
  have hall : residual es p = 0 := le_antisymm (hzero ▸ residual_le h q) (residual_nonneg es p)
  intro e he
  have hnonneg : ∀ y ∈ es.map fun e => e.error p ^ 2, 0 ≤ y := by
    intro y hy
    obtain ⟨e', -, rfl⟩ := List.mem_map.1 hy
    exact sq_nonneg _
  have hsq : e.error p ^ 2 = 0 :=
    List.all_zero_of_le_zero_le_of_sum_eq_zero hnonneg hall (List.mem_map_of_mem he)
  exact pow_eq_zero_iff two_ne_zero |>.1 hsq

end Linhello.Linear
