import Mathlib.Algebra.BigOperators.Fin
import Mathlib.Algebra.Order.Field.Basic
import Mathlib.Tactic.LinearCombination
import Mathlib.Tactic.Ring
/-!
# Gaussian elimination with partial pivoting

A square system over an ordered field is brought to triangular form column by column and
solved from the last row up. A pivot below `tiny` ends the elimination without a result.
No step changes the solutions, so a result solves the system that was given.
-/

namespace Linhello.Linear

variable {n : Nat} {K : Type}

/-- `m x = b`. -/
@[ext] structure System (n : Nat) (K : Type) where
  m : Fin n → Fin n → K
  b : Fin n → K

def System.swap (s : System n K) (i j : Fin n) : System n K where
  m := fun r => s.m (Equiv.swap i j r)
  b := fun r => s.b (Equiv.swap i j r)

@[simp] theorem System.swap_m (s : System n K) (i j r : Fin n) :
    (s.swap i j).m r = s.m (Equiv.swap i j r) := rfl

@[simp] theorem System.swap_b (s : System n K) (i j r : Fin n) :
    (s.swap i j).b r = s.b (Equiv.swap i j r) := rfl

variable [Field K]

def System.Solves (s : System n K) (x : Fin n → K) : Prop :=
  ∀ r, ∑ c, s.m r c * x c = s.b r

/-! ## The operations -/

/-- The indices after `i`. -/
def after (i : Fin n) : List (Fin n) := (List.finRange n).filter fun r => i < r

@[simp] theorem mem_after {i r : Fin n} : r ∈ after i ↔ i < r := by
  rw [after, List.mem_filter, decide_eq_true_iff]
  exact and_iff_right (List.mem_finRange r)

/-- Subtract the multiple of row `i` that clears column `i` of row `r`. Columns before `i`
are left as they are. -/
def System.eliminate (s : System n K) (i r : Fin n) : System n K :=
  let f := s.m r i / s.m i i
  { m := Function.update s.m r fun c => if i ≤ c then s.m r c - f * s.m i c else s.m r c
    b := Function.update s.b r (s.b r - f * s.b i) }

/-- Row `i` solved for its own unknown, with the later ones given by `x`. -/
def System.substitute (s : System n K) (i : Fin n) (x : Fin n → K) : Fin n → K :=
  Function.update x i (((after i).foldl (fun t c => t - s.m i c * x c) (s.b i)) / s.m i i)

def System.backSubstitute (s : System n K) : Fin n → K :=
  (List.finRange n).foldr s.substitute 0

/-! ## Solutions are kept -/

theorem System.eliminate_m_self (s : System n K) (i r c : Fin n) : (s.eliminate i r).m r c =
    if i ≤ c then s.m r c - s.m r i / s.m i i * s.m i c else s.m r c := by
  simp [System.eliminate]

theorem System.eliminate_b_self (s : System n K) (i r : Fin n) :
    (s.eliminate i r).b r = s.b r - s.m r i / s.m i i * s.b i := by
  simp [System.eliminate]

theorem System.eliminate_of_ne (s : System n K) (i : Fin n) {r q : Fin n} (h : q ≠ r) :
    (s.eliminate i r).m q = s.m q ∧ (s.eliminate i r).b q = s.b q :=
  ⟨Function.update_of_ne h _ _, Function.update_of_ne h _ _⟩

theorem System.swap_solves {s : System n K} {i j : Fin n} {x : Fin n → K} :
    (s.swap i j).Solves x ↔ s.Solves x := by
  constructor
  · intro h r
    have hrow := h (Equiv.swap i j r)
    rwa [System.swap_m, System.swap_b, Equiv.swap_apply_self] at hrow
  · exact fun h r => h (Equiv.swap i j r)

theorem System.eliminate_solves {s : System n K} {i r : Fin n} {x : Fin n → K} (hne : r ≠ i)
    (hzero : ∀ c < i, s.m i c = 0) : (s.eliminate i r).Solves x ↔ s.Solves x := by
  have hrow : ∑ c, (s.eliminate i r).m r c * x c =
      ∑ c, s.m r c * x c - s.m r i / s.m i i * ∑ c, s.m i c * x c := by
    rw [Finset.mul_sum, ← Finset.sum_sub_distrib]
    refine Finset.sum_congr rfl fun c _ => ?_
    rw [System.eliminate_m_self]
    by_cases hc : i ≤ c
    · rw [if_pos hc]
      ring
    · rw [if_neg hc, hzero c (not_le.1 hc)]
      ring
  have hother : ∀ q, q ≠ r → (s.eliminate i r).m q = s.m q ∧ (s.eliminate i r).b q = s.b q :=
    fun q hq => s.eliminate_of_ne i hq
  have hb : (s.eliminate i r).b r = s.b r - s.m r i / s.m i i * s.b i := s.eliminate_b_self i r
  constructor
  · intro h q
    have hi : ∑ c, s.m i c * x c = s.b i := by
      have hrow' := h i
      rwa [(hother i hne.symm).1, (hother i hne.symm).2] at hrow'
    by_cases hq : q = r
    · rw [hq]
      have hr := h r
      rw [hrow, hb, hi] at hr
      linear_combination hr
    · have hrow' := h q
      rwa [(hother q hq).1, (hother q hq).2] at hrow'
  · intro h q
    by_cases hq : q = r
    · rw [hq, hrow, hb, h r, h i]
    · rw [(hother q hq).1, (hother q hq).2]
      exact h q

/-! ## The triangular form -/

/-- The columns before the `k`-th are done: a nonzero pivot with zeros below it. -/
structure System.Cleared (k : Nat) (s : System n K) : Prop where
  pivot : ∀ c : Fin n, c.val < k → s.m c c ≠ 0
  below : ∀ c r : Fin n, c.val < k → c < r → s.m r c = 0

theorem System.eliminate_cleared {s : System n K} {i r : Fin n} (h : s.Cleared i.val)
    (hr : i < r) : (s.eliminate i r).Cleared i.val ∧ (s.eliminate i r).m i = s.m i := by
  have hother : ∀ q, q ≠ r → (s.eliminate i r).m q = s.m q :=
    fun q hq => (s.eliminate_of_ne i hq).1
  refine ⟨⟨fun c hc => ?_, fun c q hc hq => ?_⟩, hother i hr.ne⟩
  · have hcr : c ≠ r := (lt_trans (Fin.lt_def.2 hc) hr).ne
    rw [hother c hcr]
    exact h.pivot c hc
  · by_cases hqr : q = r
    · have hci : ¬ i ≤ c := not_le.2 (Fin.lt_def.2 hc)
      rw [hqr, System.eliminate_m_self, if_neg hci]
      exact h.below c r hc (hqr ▸ hq)
    · rw [hother q hqr]
      exact h.below c q hc hq

/-- A row whose entry in column `i` is zero, or is made zero, has it zero from then on. -/
theorem System.eliminate_entry {s : System n K} {i r q : Fin n} (hpivot : s.m i i ≠ 0)
    (h : q = r ∨ s.m q i = 0) : (s.eliminate i r).m q i = 0 := by
  by_cases hq : q = r
  · rw [hq, System.eliminate_m_self, if_pos le_rfl, div_mul_cancel₀ _ hpivot, sub_self]
  · rw [(s.eliminate_of_ne i hq).1]
    exact h.resolve_left hq

/-- The inner loop: the rows in `l` are cleared in column `i`, and those that were stay so. -/
theorem System.eliminate_all {s : System n K} {i : Fin n} {l : List (Fin n)}
    (hl : ∀ r ∈ l, i < r) (hpivot : s.m i i ≠ 0) (h : s.Cleared i.val) :
    (l.foldl (fun s r => s.eliminate i r) s).Cleared i.val ∧
      (l.foldl (fun s r => s.eliminate i r) s).m i = s.m i ∧
      (∀ q, q ∈ l ∨ s.m q i = 0 → (l.foldl (fun s r => s.eliminate i r) s).m q i = 0) ∧
      ∀ x, (l.foldl (fun s r => s.eliminate i r) s).Solves x ↔ s.Solves x := by
  induction l generalizing s with
  | nil => exact ⟨h, rfl, fun q hq => hq.resolve_left List.not_mem_nil, fun _ => .rfl⟩
  | cons r l ih =>
      have hr : i < r := hl r List.mem_cons_self
      obtain ⟨hcleared, hrow⟩ := System.eliminate_cleared h hr
      have hpivot' : (s.eliminate i r).m i i ≠ 0 := by rwa [hrow]
      obtain ⟨hclear, hrows, hzero, hsolves⟩ :=
        ih (fun q hq => hl q (List.mem_cons_of_mem r hq)) hpivot' hcleared
      refine ⟨hclear, hrows.trans hrow, fun q hq => hzero q ?_, fun x => ?_⟩
      · rw [List.mem_cons, or_assoc, or_left_comm] at hq
        exact hq.imp_right (System.eliminate_entry hpivot)
      · exact (hsolves x).trans (System.eliminate_solves hr.ne' fun c hc =>
          h.below c i (Fin.lt_def.1 hc) hc)

theorem System.swap_cleared {s : System n K} {i p : Fin n} (hp : i ≤ p) (h : s.Cleared i.val) :
    (s.swap i p).Cleared i.val := by
  have hbefore : ∀ c : Fin n, c.val < i.val → Equiv.swap i p c = c := by
    intro c hc
    have hci : c < i := Fin.lt_def.2 hc
    exact Equiv.swap_apply_of_ne_of_ne hci.ne (hci.trans_le hp).ne
  constructor
  · intro c hc
    rw [System.swap_m, hbefore c hc]
    exact h.pivot c hc
  · intro c r hc hr
    have hle : i ≤ r → i ≤ Equiv.swap i p r := by
      intro hir
      rw [Equiv.swap_apply_def]
      split
      · exact hp
      · split
        · exact le_rfl
        · exact hir
    by_cases hri : r < i
    · rw [System.swap_m, hbefore r (Fin.lt_def.1 hri)]
      exact h.below c r hc hr
    · exact h.below c _ hc ((Fin.lt_def.2 hc).trans_le (hle (not_lt.1 hri)))

/-! ## Back substitution -/

theorem foldl_sub_eq (f : Fin n → K) (l : List (Fin n)) (t : K) :
    l.foldl (fun t c => t - f c) t = t - (l.map f).sum := by
  induction l generalizing t with
  | nil => simp
  | cons c l ih =>
      rw [List.foldl_cons, ih, List.map_cons, List.sum_cons]
      ring

private theorem sum_after (i : Fin n) (f : Fin n → K) :
    ((after i).map f).sum = ∑ c, if i < c then f c else 0 := by
  have hfilter : ∀ l : List (Fin n), ((l.filter fun c => i < c).map f).sum =
      (l.map fun c => if i < c then f c else 0).sum := by
    intro l
    induction l with
    | nil => rfl
    | cons c l ih =>
        by_cases hc : i < c
        · rw [List.filter_cons, if_pos (decide_eq_true hc), List.map_cons, List.sum_cons, ih,
            List.map_cons, List.sum_cons, if_pos hc]
        · rw [List.filter_cons, if_neg (by simpa using hc), ih, List.map_cons, List.sum_cons,
            if_neg hc, zero_add]
  rw [after, hfilter, Fin.sum_univ_def]

/-- Substituting for unknown `i` makes row `i` hold and keeps the rows below it. -/
theorem System.substitute_row {s : System n K} (h : s.Cleared n) (i : Fin n) (x : Fin n → K) :
    (∑ c, s.m i c * s.substitute i x c = s.b i) ∧
      ∀ r, i < r → ∑ c, s.m r c * s.substitute i x c = ∑ c, s.m r c * x c := by
  have hother : ∀ c, c ≠ i → s.substitute i x c = x c := fun c hc => Function.update_of_ne hc _ _
  constructor
  · have hself :
        s.m i i * s.substitute i x i = s.b i - ∑ c, if i < c then s.m i c * x c else 0 := by
      rw [System.substitute, Function.update_self, foldl_sub_eq, sum_after,
        mul_div_cancel₀ _ (h.pivot i i.isLt)]
    have hrest : ∀ c, s.m i c * s.substitute i x c =
        (if c = i then s.m i i * s.substitute i x i else 0)
          + if i < c then s.m i c * x c else 0 := by
      intro c
      rcases lt_trichotomy c i with hlt | heq | hgt
      · rw [if_neg hlt.ne, if_neg hlt.asymm, h.below c i c.isLt hlt]
        ring
      · rw [if_pos heq, heq, if_neg (lt_irrefl i), add_zero]
      · rw [if_neg hgt.ne', if_pos hgt, zero_add, hother c hgt.ne']
    rw [Finset.sum_congr rfl fun c _ => hrest c, Finset.sum_add_distrib, Finset.sum_ite_eq' _ i,
      if_pos (Finset.mem_univ i), hself]
    ring
  · intro r hr
    refine Finset.sum_congr rfl fun c _ => ?_
    by_cases hc : c = i
    · rw [hc, h.below i r i.isLt hr]
      ring
    · rw [hother c hc]

theorem System.backSubstitute_solves {s : System n K} (h : s.Cleared n) :
    s.Solves s.backSubstitute := by
  have hrows : ∀ l : List (Fin n), l.Pairwise (· < ·) →
      ∀ r ∈ l, ∑ c, s.m r c * l.foldr s.substitute 0 c = s.b r := by
    intro l hl
    induction l with
    | nil => exact fun r hr => absurd hr List.not_mem_nil
    | cons i l ih =>
        intro r hr
        obtain ⟨hfirst, hrest⟩ := List.pairwise_cons.1 hl
        obtain ⟨hrow, hkept⟩ := System.substitute_row h i (l.foldr s.substitute 0)
        rw [List.foldr_cons]
        cases List.mem_cons.1 hr with
        | inl heq => rwa [heq]
        | inr hmem =>
            rw [hkept r (hfirst r hmem)]
            exact ih hrest r hmem
  exact fun r => hrows _ (List.pairwise_lt_finRange n) r (List.mem_finRange r)

/-! ## Elimination with pivots -/

variable [LinearOrder K]

/-- The row from `i` on with the largest entry in column `i`; the first one on a tie. -/
def System.pivot (s : System n K) (i : Fin n) : Fin n :=
  (after i).foldl (fun p r => if |s.m p i| < |s.m r i| then r else p) i

def System.stage (tiny : K) (s : System n K) (i : Fin n) : Option (System n K) :=
  let p := s.pivot i
  if |s.m p i| < tiny then none
  else
    let s := s.swap i p
    some ((after i).foldl (fun s r => s.eliminate i r) s)

def System.solve (tiny : K) (s : System n K) : Option (Fin n → K) :=
  ((List.finRange n).foldlM (System.stage tiny) s).map System.backSubstitute

theorem System.le_pivot (s : System n K) (i : Fin n) : i ≤ s.pivot i := by
  have hle : ∀ (l : List (Fin n)) (p : Fin n), (∀ r ∈ l, i ≤ r) → i ≤ p →
      i ≤ l.foldl (fun p r => if |s.m p i| < |s.m r i| then r else p) p := by
    intro l
    induction l with
    | nil => exact fun _ _ hp => hp
    | cons r l ih =>
        intro p hl hp
        apply ih
        · exact fun q hq => hl q (List.mem_cons_of_mem r hq)
        · dsimp only
          split
          · exact hl r List.mem_cons_self
          · exact hp
  exact hle _ i (fun r hr => (mem_after.1 hr).le) le_rfl

variable [IsStrictOrderedRing K]

/-- One column: the solutions are those of before, and one more column is done. -/
theorem System.stage_cleared {tiny : K} (htiny : 0 < tiny) {s t : System n K} {i : Fin n}
    (h : s.Cleared i.val) (hstage : s.stage tiny i = some t) :
    t.Cleared (i.val + 1) ∧ ∀ x, t.Solves x ↔ s.Solves x := by
  unfold System.stage at hstage
  simp only at hstage
  split at hstage
  · cases hstage
  · next hlarge =>
      obtain rfl := Option.some.inj hstage
      have hswapped := System.swap_cleared (s.le_pivot i) h
      have hpivot : (s.swap i (s.pivot i)).m i i ≠ 0 := by
        rw [System.swap_m, Equiv.swap_apply_left]
        intro hzero
        rw [hzero, abs_zero] at hlarge
        exact hlarge htiny
      obtain ⟨hcleared, hrow, hzero, hsolves⟩ :=
        System.eliminate_all (l := after i) (fun r hr => mem_after.1 hr) hpivot hswapped
      refine ⟨⟨fun c hc => ?_, fun c r hc hr => ?_⟩, fun x =>
        (hsolves x).trans System.swap_solves⟩
      · by_cases hci : c = i
        · rw [hci, hrow]
          exact hpivot
        · have hlt : c.val < i.val :=
            lt_of_le_of_ne (Nat.lt_succ_iff.1 hc) fun heq => hci (Fin.ext heq)
          exact hcleared.pivot c hlt
      · by_cases hci : c = i
        · rw [hci] at hr ⊢
          exact hzero r (.inl (mem_after.2 hr))
        · have hlt : c.val < i.val :=
            lt_of_le_of_ne (Nat.lt_succ_iff.1 hc) fun heq => hci (Fin.ext heq)
          exact hcleared.below c r hlt hr

/-- The outer loop over the columns from the `k`-th on. -/
theorem System.stages_cleared {tiny : K} (htiny : 0 < tiny) {s t : System n K} {k : Nat}
    {l : List (Fin n)} (hl : l = (List.finRange n).drop k) (h : s.Cleared k)
    (hrun : l.foldlM (System.stage tiny) s = some t) :
    t.Cleared n ∧ ∀ x, t.Solves x ↔ s.Solves x := by
  induction l generalizing s k with
  | nil =>
      obtain rfl := Option.some.inj hrun
      have hk : n ≤ k := by
        have hlen := congrArg List.length hl
        rw [List.length_drop, List.length_finRange, List.length_nil] at hlen
        omega
      exact ⟨⟨fun c _ => h.pivot c (c.isLt.trans_le hk),
        fun c r _ => h.below c r (c.isLt.trans_le hk)⟩, fun _ => .rfl⟩
  | cons i l ih =>
      have hk : k < (List.finRange n).length := by
        apply Nat.lt_of_not_le
        intro hle
        rw [List.drop_eq_nil_of_le hle] at hl
        cases hl
      rw [List.drop_eq_getElem_cons hk, List.getElem_finRange] at hl
      obtain ⟨hi, hrest⟩ := List.cons.inj hl
      have hik : i.val = k := congrArg Fin.val hi
      rw [List.foldlM_cons] at hrun
      obtain ⟨u, hstage, hstages⟩ := Option.bind_eq_some_iff.1 hrun
      rw [← hik] at h hrest
      obtain ⟨hcleared, hsolves⟩ := System.stage_cleared htiny h hstage
      obtain ⟨hall, hsolves'⟩ := ih hrest hcleared hstages
      exact ⟨hall, fun x => (hsolves' x).trans (hsolves x)⟩

theorem System.solve_solves {tiny : K} (htiny : 0 < tiny) {s : System n K} {x : Fin n → K}
    (h : s.solve tiny = some x) : s.Solves x := by
  obtain ⟨t, hrun, rfl⟩ := Option.map_eq_some_iff.1 h
  have hnone : s.Cleared 0 := ⟨fun c hc => absurd hc (Nat.not_lt_zero _),
    fun c r hc => absurd hc (Nat.not_lt_zero _)⟩
  obtain ⟨hcleared, hsolves⟩ := System.stages_cleared htiny List.drop_zero.symm hnone hrun
  exact (hsolves _).1 (System.backSubstitute_solves hcleared)

end Linhello.Linear
