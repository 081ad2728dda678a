import Mathlib.Data.List.Basic
import Mathlib.Tactic.Common
/-!
# Stacks with jumps

A stack is a list of entries that are tried in order. Each one changes the state of the
evaluation and says where to go on: at the next entry, behind some that are skipped, or
nowhere. A jump past the end breaks the stack.
-/

namespace Linhello.LinuxPam

/-- Where the evaluation goes on after an entry. -/
inductive Next where
  | on
  | stop
  | skip (n : Nat)
deriving DecidableEq, Repr

abbrev Entry (S : Type) := S → S × Next

/-- The position of an entry of a stack into which one was put at `k`. -/
def shiftAt (k j : Nat) : Nat := if j < k then j else j + 1

/-- Where a jump from `j` over `n` entries lands: at an entry, or at the end. -/
def landing (length j n : Nat) : Option Nat :=
  if j + 1 + n ≤ length then some (j + 1 + n) else none

section Machine

variable {S : Type} (broken : S → S)

/-- Evaluate the entries from position `i` on after jumping over `skip` of them: which of
them ran, and the state at the end. -/
def runFrom : S → Nat → Nat → List (Entry S) → List Nat × S
  | s, skip, _, [] => ([], if skip = 0 then s else broken s)
  | s, skip + 1, i, _ :: rest => runFrom s skip (i + 1) rest
  | s, 0, i, e :: rest =>
      match e s with
      | (s', .on) => (i :: (runFrom s' 0 (i + 1) rest).1, (runFrom s' 0 (i + 1) rest).2)
      | (s', .skip n) => (i :: (runFrom s' n (i + 1) rest).1, (runFrom s' n (i + 1) rest).2)
      | (s', .stop) => ([i], s')

variable {broken} {s s' : S} {skip i n : Nat} {e x : Entry S} {front back stack : List (Entry S)}

/-! ## One entry -/

theorem runFrom_on (h : e s = (s', .on)) :
    runFrom broken s 0 i (e :: stack) =
      (i :: (runFrom broken s' 0 (i + 1) stack).1, (runFrom broken s' 0 (i + 1) stack).2) := by
  rw [runFrom, h]

theorem runFrom_skip (h : e s = (s', .skip n)) :
    runFrom broken s 0 i (e :: stack) =
      (i :: (runFrom broken s' n (i + 1) stack).1, (runFrom broken s' n (i + 1) stack).2) := by
  rw [runFrom, h]

theorem runFrom_stop (h : e s = (s', .stop)) :
    runFrom broken s 0 i (e :: stack) = ([i], s') := by
  rw [runFrom, h]

theorem runFrom_jumped : runFrom broken s (skip + 1) i (e :: stack) =
    runFrom broken s skip (i + 1) stack := by
  rw [runFrom]

/-! ## Positions -/

theorem le_of_mem_runFrom {j : Nat} (h : j ∈ (runFrom broken s skip i stack).1) : i ≤ j := by
  induction stack generalizing s skip i with
  | nil => exact absurd h List.not_mem_nil
  | cons e stack ih =>
      cases skip with
      | succ skip =>
          rw [runFrom_jumped] at h
          have := ih h
          omega
      | zero =>
          rcases hstep : e s with ⟨s', _ | _ | n⟩
          · rw [runFrom_on hstep] at h
            cases List.mem_cons.1 h with
            | inl heq => omega
            | inr h =>
                have := ih h
                omega
          · rw [runFrom_stop hstep] at h
            exact Nat.le_of_eq (List.mem_singleton.1 h).symm
          · rw [runFrom_skip hstep] at h
            cases List.mem_cons.1 h with
            | inl heq => omega
            | inr h =>
                have := ih h
                omega

theorem mem_runFrom_head : i ∈ (runFrom broken s 0 i (e :: stack)).1 := by
  rcases hstep : e s with ⟨s', _ | _ | n⟩
  · rw [runFrom_on hstep]
    exact List.mem_cons_self
  · rw [runFrom_stop hstep]
    exact List.mem_cons_self
  · rw [runFrom_skip hstep]
    exact List.mem_cons_self

theorem runFrom_succ (s : S) (skip i : Nat) (stack : List (Entry S)) :
    runFrom broken s skip (i + 1) stack =
      ((runFrom broken s skip i stack).1.map (· + 1), (runFrom broken s skip i stack).2) := by
  induction stack generalizing s skip i with
  | nil => rw [runFrom, runFrom, List.map_nil]
  | cons e stack ih =>
      cases skip with
      | succ skip => rw [runFrom_jumped, runFrom_jumped, ih]
      | zero =>
          rcases hstep : e s with ⟨s', _ | _ | n⟩
          · rw [runFrom_on hstep, runFrom_on hstep, ih, List.map_cons]
          · rw [runFrom_stop hstep, runFrom_stop hstep, List.map_singleton]
          · rw [runFrom_skip hstep, runFrom_skip hstep, ih, List.map_cons]

theorem runFrom_of_length_lt (h : stack.length < skip) :
    runFrom broken s skip i stack = ([], broken s) := by
  induction stack generalizing skip i with
  | nil =>
      rw [runFrom, if_neg]
      exact Nat.ne_of_gt h
  | cons e stack ih =>
      cases skip with
      | zero => exact absurd h (Nat.not_lt_zero _)
      | succ skip =>
          rw [runFrom_jumped]
          apply ih
          rw [List.length_cons] at h
          omega

/-! ## A neutral entry -/

/-- No jump from the entries in front lands at the place behind them, or behind it; only
jumps that break the longer stack as well may leave. -/
def JumpsClear (length : Nat) : List (Entry S) → Prop
  | [] => True
  | e :: front =>
      (∀ s s' n, e s = (s', .skip n) → n < front.length ∨ front.length + length + 1 < n) ∧
        JumpsClear length front

/-- Putting an entry that does nothing where no jump crosses it changes nothing else. -/
theorem runFrom_insert (hx : ∀ s, x s = (s, .on)) (hclear : JumpsClear back.length front)
    (hskip : skip = 0 ∨ skip < front.length ∨ front.length + back.length + 1 < skip) :
    (runFrom broken s skip i (front ++ x :: back)).2 = (runFrom broken s skip i (front ++ back)).2 ∧
      ∀ j, j ∈ (runFrom broken s skip i (front ++ back)).1 →
        shiftAt (i + front.length) j ∈ (runFrom broken s skip i (front ++ x :: back)).1 := by
  induction front generalizing s skip i with
  | nil =>
      rw [List.nil_append, List.nil_append]
      by_cases hzero : skip = 0
      · subst hzero
        rw [runFrom_on (hx s), runFrom_succ]
        refine ⟨rfl, ?_⟩
        intro j hj
        have hle := le_of_mem_runFrom hj
        have hshift : shiftAt (i + 0) j = j + 1 := if_neg (by omega)
        apply List.mem_cons_of_mem
        rw [List.length_nil, hshift]
        exact List.mem_map.2 ⟨j, hj, rfl⟩
      · have hlong : back.length + 1 < skip := by
          simp only [List.length_nil] at hskip
          omega
        rw [runFrom_of_length_lt (by rw [List.length_cons]; omega),
          runFrom_of_length_lt (by omega)]
        exact ⟨rfl, fun j hj => absurd hj List.not_mem_nil⟩
  | cons e front ih =>
      obtain ⟨hjump, hclear⟩ := hclear
      have hplace : i + (e :: front).length = i + 1 + front.length := by
        rw [List.length_cons]
        omega
      -- the entry itself stays at its place
      have hhere : shiftAt (i + (e :: front).length) i = i := by
        apply if_pos
        rw [List.length_cons]
        omega
      rw [List.cons_append, List.cons_append]
      cases skip with
      | succ skip =>
          rw [runFrom_jumped, runFrom_jumped, hplace]
          apply ih hclear
          rw [List.length_cons] at hskip
          omega
      | zero =>
          have hcons : ∀ {s' : S} {n : Nat}, (n = 0 ∨ n < front.length ∨
              front.length + back.length + 1 < n) →
              (runFrom broken s' n (i + 1) (front ++ x :: back)).2 =
                (runFrom broken s' n (i + 1) (front ++ back)).2 ∧
              ∀ j, j ∈ i :: (runFrom broken s' n (i + 1) (front ++ back)).1 →
                shiftAt (i + (e :: front).length) j ∈
                  i :: (runFrom broken s' n (i + 1) (front ++ x :: back)).1 := by
            intro s' n hn
            obtain ⟨hstate, hran⟩ := @ih s' n (i + 1) hclear hn
            refine ⟨hstate, ?_⟩
            intro j hj
            cases List.mem_cons.1 hj with
            | inl heq =>
                rw [heq, hhere]
                exact List.mem_cons_self
            | inr hj =>
                rw [hplace]
                exact List.mem_cons_of_mem _ (hran j hj)
          rcases hstep : e s with ⟨s', _ | _ | n⟩
          · rw [runFrom_on hstep, runFrom_on hstep]
            exact hcons (.inl rfl)
          · rw [runFrom_stop hstep, runFrom_stop hstep]
            refine ⟨rfl, ?_⟩
            intro j hj
            rw [List.mem_singleton.1 hj, hhere]
            exact List.mem_singleton.2 rfl
          · rw [runFrom_skip hstep, runFrom_skip hstep]
            exact hcons (.inr (hjump s s' n hstep))

end Machine

end Linhello.LinuxPam
