import Mathlib.Data.Fin.VecNotation
import Linhello.Linear.LeastSquares
import Linhello.Liveness.Image
/-!
# Face alignment

The similarity from the detected landmarks to the ArcFace template (`align.rs`). It is fitted
by linear least squares on `[a, b, tx, ty]`, and the crop is sampled through its inverse.
-/

namespace Linhello.Biometrics

open Linear
open Liveness (Point Landmarks)

structure Similarity where
  a : ℚ
  b : ℚ
  tx : ℚ
  ty : ℚ
  deriving DecidableEq

namespace Similarity

def apply (t : Similarity) (p : Point) : Point :=
  { x := t.a * p.x - t.b * p.y + t.tx, y := t.b * p.x + t.a * p.y + t.ty }

def invert (t : Similarity) : Similarity :=
  let det := t.a * t.a + t.b * t.b
  let ia := t.a / det
  let ib := -t.b / det
  { a := ia, b := ib, tx := -(ia * t.tx - ib * t.ty), ty := -(ib * t.tx + ia * t.ty) }

def ofVector (p : Fin 4 → ℚ) : Similarity := { a := p 0, b := p 1, tx := p 2, ty := p 3 }

def toVector (t : Similarity) : Fin 4 → ℚ := ![t.a, t.b, t.tx, t.ty]

theorem toVector_ofVector (p : Fin 4 → ℚ) : (ofVector p).toVector = p := by
  funext i
  match i with
  | 0 => rfl
  | 1 => rfl
  | 2 => rfl
  | 3 => rfl

end Similarity

def TINY : ℚ := 1 / 10 ^ 12

/-- `solve4`. -/
def solve4 (m : Fin 4 → Fin 4 → ℚ) (b : Fin 4 → ℚ) : Option (Fin 4 → ℚ) :=
  System.solve TINY { m := m, b := b }

def correspondence (src dst : Point) : List (Equation 4 ℚ) :=
  [{ row := ![src.x, -src.y, 1, 0], target := dst.x },
   { row := ![src.y, src.x, 0, 1], target := dst.y }]

def correspondences (src dst : Fin 5 → Point) : List (Equation 4 ℚ) :=
  (List.finRange 5).flatMap fun i => correspondence (src i) (dst i)

/-- The system `estimate_similarity` builds, solved. -/
def fit (src dst : Fin 5 → Point) : Option (Fin 4 → ℚ) :=
  let s := normalEquations (correspondences src dst)
  solve4 s.m s.b

def estimateSimilarity (src dst : Fin 5 → Point) : Similarity :=
  .ofVector ((fit src dst).getD ![1, 0, 0, 0])

/-! ## What is fitted -/

variable {src dst : Fin 5 → Point} {t q : Similarity} {x : Fin 4 → ℚ}

def distance2 (p q : Point) : ℚ := (p.x - q.x) ^ 2 + (p.y - q.y) ^ 2

/-- The summed squared distance between the mapped source points and the targets. -/
def misfit (t : Similarity) (src dst : Fin 5 → Point) : ℚ :=
  ∑ i, distance2 (t.apply (src i)) (dst i)

theorem solve4_solves {m : Fin 4 → Fin 4 → ℚ} {b : Fin 4 → ℚ} (h : solve4 m b = some x) :
    ∀ r, ∑ c, m r c * x c = b r := by
  have htiny : 0 < TINY := by norm_num [TINY]
  exact System.solve_solves htiny h

theorem solves_of_fit (h : fit src dst = some x) :
    (normalEquations (correspondences src dst)).Solves x :=
  solve4_solves h

/-- The errors of a correspondence are the two coordinates of the distance. -/
theorem error_correspondence (t : Similarity) (p p' : Point) :
    (correspondence p p').map (fun e => e.error t.toVector) =
      [(t.apply p).x - p'.x, (t.apply p).y - p'.y] := by
  simp only [correspondence, List.map_cons, List.map_nil, Equation.error, Equation.eval,
    Similarity.toVector, Similarity.apply, Fin.sum_univ_four, Matrix.cons_val]
  congr 1
  · ring
  · congr 1
    ring

theorem residual_correspondences (t : Similarity) (src dst : Fin 5 → Point) :
    Linear.residual (correspondences src dst) t.toVector = misfit t src dst := by
  have hone : ∀ p p', ((correspondence p p').map fun e => e.error t.toVector ^ 2).sum =
      distance2 (t.apply p) p' := by
    intro p p'
    have herrors := congrArg (List.map (· ^ 2)) (error_correspondence t p p')
    rw [List.map_map] at herrors
    have hsum := congrArg List.sum herrors
    simpa [Function.comp_def, distance2] using hsum
  have hall : ∀ l : List (Fin 5),
      ((l.flatMap fun i => correspondence (src i) (dst i)).map fun e =>
        e.error t.toVector ^ 2).sum =
        (l.map fun i => distance2 (t.apply (src i)) (dst i)).sum := by
    intro l
    induction l with
    | nil => rfl
    | cons i l ih =>
        rw [List.flatMap_cons, List.map_append, List.sum_append, hone, ih, List.map_cons,
          List.sum_cons]
  rw [Linear.residual, correspondences, hall, misfit, Fin.sum_univ_def]

theorem misfit_le (h : fit src dst = some x) (q : Similarity) :
    misfit (.ofVector x) src dst ≤ misfit q src dst := by
  rw [← residual_correspondences, ← residual_correspondences, Similarity.toVector_ofVector]
  exact residual_le (solves_of_fit h) q.toVector

theorem apply_eq_iff_error (p p' : Point) : t.apply p = p' ↔
    ∀ e ∈ correspondence p p', e.error t.toVector = 0 := by
  have herrors := error_correspondence t p p'
  have hmem : (∀ e ∈ correspondence p p', e.error t.toVector = 0) ↔
      ∀ y ∈ [(t.apply p).x - p'.x, (t.apply p).y - p'.y], y = 0 := by
    rw [← herrors, List.forall_mem_map]
  rw [hmem, List.forall_mem_cons, List.forall_mem_singleton, sub_eq_zero, sub_eq_zero]
  constructor
  · intro h
    rw [h]
    exact ⟨rfl, rfl⟩
  · rintro ⟨hx, hy⟩
    obtain ⟨px, py⟩ := p'
    exact congrArg₂ Point.mk hx hy

theorem eq_of_apply_eq {p p' : Point} (hne : p ≠ p') (hp : t.apply p = q.apply p)
    (hp' : t.apply p' = q.apply p') : t = q := by
  have hx : t.a * p.x - t.b * p.y + t.tx = q.a * p.x - q.b * p.y + q.tx := congrArg Point.x hp
  have hy : t.b * p.x + t.a * p.y + t.ty = q.b * p.x + q.a * p.y + q.ty := congrArg Point.y hp
  have hx' : t.a * p'.x - t.b * p'.y + t.tx = q.a * p'.x - q.b * p'.y + q.tx :=
    congrArg Point.x hp'
  have hy' : t.b * p'.x + t.a * p'.y + t.ty = q.b * p'.x + q.a * p'.y + q.ty :=
    congrArg Point.y hp'
  have hdist : 0 < (p.x - p'.x) ^ 2 + (p.y - p'.y) ^ 2 := by
    by_contra hle
    have hsum : (p.x - p'.x) ^ 2 + (p.y - p'.y) ^ 2 = 0 :=
      le_antisymm (not_lt.1 hle) (add_nonneg (sq_nonneg _) (sq_nonneg _))
    have hxx : (p.x - p'.x) ^ 2 = 0 := by linarith [sq_nonneg (p.x - p'.x), sq_nonneg (p.y - p'.y)]
    have hyy : (p.y - p'.y) ^ 2 = 0 := by linarith [sq_nonneg (p.x - p'.x), sq_nonneg (p.y - p'.y)]
    apply hne
    obtain ⟨px, py⟩ := p
    obtain ⟨px', py'⟩ := p'
    rw [Point.mk.injEq]
    exact ⟨sub_eq_zero.1 (pow_eq_zero_iff two_ne_zero |>.1 hxx),
      sub_eq_zero.1 (pow_eq_zero_iff two_ne_zero |>.1 hyy)⟩
  -- the difference of the two maps is linear on `p - p'` and vanishes there
  have ha : (t.a - q.a) * ((p.x - p'.x) ^ 2 + (p.y - p'.y) ^ 2) = 0 := by
    linear_combination (p.x - p'.x) * (hx - hx') + (p.y - p'.y) * (hy - hy')
  have hb : (t.b - q.b) * ((p.x - p'.x) ^ 2 + (p.y - p'.y) ^ 2) = 0 := by
    linear_combination (p.x - p'.x) * (hy - hy') - (p.y - p'.y) * (hx - hx')
  have haq : t.a = q.a := sub_eq_zero.1 ((mul_eq_zero.1 ha).resolve_right hdist.ne')
  have hbq : t.b = q.b := sub_eq_zero.1 ((mul_eq_zero.1 hb).resolve_right hdist.ne')
  rw [haq, hbq] at hx hy
  obtain ⟨ta, tb, ttx, tty⟩ := t
  rw [Similarity.mk.injEq]
  exact ⟨haq, hbq, add_left_cancel hx, add_left_cancel hy⟩

theorem fit_exact (h : fit src dst = some x) (hq : ∀ i, q.apply (src i) = dst i) :
    ∀ i, (Similarity.ofVector x).apply (src i) = dst i := by
  have hmem : ∀ e, e ∈ correspondences src dst ↔ ∃ i, e ∈ correspondence (src i) (dst i) := by
    intro e
    rw [correspondences, List.mem_flatMap]
    exact ⟨fun ⟨i, _, he⟩ => ⟨i, he⟩, fun ⟨i, he⟩ => ⟨i, List.mem_finRange i, he⟩⟩
  have hzero : ∀ e ∈ correspondences src dst, e.error q.toVector = 0 := by
    intro e he
    obtain ⟨i, hi⟩ := (hmem e).1 he
    exact (apply_eq_iff_error (src i) (dst i)).1 (hq i) e hi
  have hfit := exact_of_exact (solves_of_fit h) hzero
  intro i
  rw [apply_eq_iff_error, Similarity.toVector_ofVector]
  exact fun e he => hfit e ((hmem e).2 ⟨i, he⟩)

/-- A fit of the targets. -/
structure BestFit (t : Similarity) (src dst : Fin 5 → Point) : Prop where
  least : ∀ q, misfit t src dst ≤ misfit q src dst
  recovers : (∃ i j, src i ≠ src j) → ∀ q : Similarity, (∀ i, q.apply (src i) = dst i) → t = q

theorem bestFit_of_fit (h : (fit src dst).isSome = true) :
    BestFit (estimateSimilarity src dst) src dst := by
  obtain ⟨x, hx⟩ := Option.isSome_iff_exists.1 h
  have hest : estimateSimilarity src dst = .ofVector x := by rw [estimateSimilarity, hx]; rfl
  rw [hest]
  refine ⟨misfit_le hx, ?_⟩
  rintro ⟨i, j, hij⟩ q hq
  have hexact := fit_exact hx hq
  exact eq_of_apply_eq hij ((hexact i).trans (hq i).symm) ((hexact j).trans (hq j).symm)

theorem Similarity.invert_apply (h : t.a * t.a + t.b * t.b ≠ 0) (p : Point) :
    t.invert.apply (t.apply p) = p ∧ t.apply (t.invert.apply p) = p := by
  obtain ⟨x, y⟩ := p
  have hdet : t.a ^ 2 + t.b ^ 2 ≠ 0 := by rwa [sq, sq]
  simp only [Similarity.apply, Similarity.invert, Point.mk.injEq]
  refine ⟨⟨?_, ?_⟩, ?_, ?_⟩ <;>
  · field_simp
    ring

/-- Elimination solves the system it is given, the fit has the least squared distance and
recovers an exact similarity, and the inverse is one on both sides. -/
theorem alignment_least_squares :
    (∀ m b x, solve4 m b = some x → ∀ r, ∑ c, m r c * x c = b r) ∧
    (∀ src dst, (fit src dst).isSome = true → BestFit (estimateSimilarity src dst) src dst) ∧
    ∀ t : Similarity, t.a * t.a + t.b * t.b ≠ 0 → ∀ p,
      t.invert.apply (t.apply p) = p ∧ t.apply (t.invert.apply p) = p :=
  ⟨fun _ _ _ => solve4_solves, fun _ _ => bestFit_of_fit, fun _ => Similarity.invert_apply⟩

def squarePoints : Fin 5 → Point := ![⟨0, 0⟩, ⟨2, 0⟩, ⟨0, 2⟩, ⟨2, 2⟩, ⟨1, 1⟩]

def turned : Similarity := { a := 0, b := 3, tx := 5, ty := -1 }

/-- A quarter turn, three times as large and shifted, is found again. -/
theorem alignment_of_square :
    estimateSimilarity squarePoints (fun i => turned.apply (squarePoints i)) = turned ∧
      turned.invert.apply (turned.apply ⟨1, 2⟩) = ⟨1, 2⟩ := by
  have hfit : (fit squarePoints fun i => turned.apply (squarePoints i)).isSome = true := by
    decide +kernel
  have hpoints : ∃ i j, squarePoints i ≠ squarePoints j := ⟨0, 1, by decide +kernel⟩
  constructor
  · exact (alignment_least_squares.2.1 _ _ hfit).recovers hpoints turned fun _ => rfl
  · exact (alignment_least_squares.2.2 turned (by norm_num [turned]) _).1

end Linhello.Biometrics
