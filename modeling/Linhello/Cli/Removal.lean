import Linhello.Cli.TextEdits
import Linhello.LinuxPam.Directives
import Mathlib.Data.List.Forall2
/-!
# The directives that a removal takes out

The removal drops every physical line that names the module outside of a comment line; a
directive has several lines, and may name the module without running it.
-/

namespace Linhello.Cli.Pamwire

open Common LinuxPam

/-! ## The lines of the editor -/

theorem physicalLines_unlines {ls : List String} (h : ∀ l ∈ ls, '\n' ∉ l.toList) :
    physicalLines (unlines ls) = ls := by
  induction ls with
  | nil => rfl
  | cons l ls ih =>
      rw [unlines, physicalLines_cons (h l List.mem_cons_self),
        ih fun l' hl' => h l' (List.mem_cons_of_mem _ hl')]

def ReadAs (p l : String) : Prop := l = p ∨ l = stripCr p

theorem activeLine_of_readAs {p l : String} (h : ReadAs p l) : activeLine l = activeLine p := by
  cases h with
  | inl h => rw [h]
  | inr h => rw [h, activeLine_stripCr]

/-- The editor has the physical lines, some without their carriage return. -/
theorem readAs_linesFrom (cur cs : List Char) :
    List.Forall₂ ReadAs (physicalFrom cur cs) (linesFrom cur cs) := by
  induction cs generalizing cur with
  | nil =>
      rw [physicalFrom, linesFrom]
      split
      · exact .nil
      · exact .cons (.inl rfl) .nil
  | cons c cs ih =>
      by_cases hc : c = '\n'
      · subst hc
        rw [physicalFrom, if_pos rfl, linesFrom.eq_def]
        simp only [if_true]
        apply List.Forall₂.cons _ (ih [])
        split
        next body =>
          have hlast : (String.ofList ('\r' :: body).reverse).toList.getLast? = some '\r' := by
            rw [String.toList_ofList, List.getLast?_reverse]
            rfl
          apply Or.inr
          rw [stripCr, if_pos hlast, String.toList_ofList, List.reverse_cons, List.dropLast_concat]
        · exact .inl rfl
      · rw [physicalFrom, if_neg hc, linesFrom_cons_of_ne hc]
        exact ih (c :: cur)

theorem readAs_lines (text : String) : List.Forall₂ ReadAs (physicalLines text) (lines text) :=
  readAs_linesFrom [] text.toList

theorem exists_readAs {text p : String} (hp : p ∈ physicalLines text) :
    ∃ l ∈ lines text, ReadAs p l := by
  obtain ⟨i, hi, rfl⟩ := List.getElem_of_mem hp
  have hpairs := readAs_lines text
  have hi' : i < (lines text).length := hpairs.length_eq ▸ hi
  exact ⟨(lines text)[i], List.getElem_mem hi', hpairs.get hi hi'⟩

/-- Nothing but a carriage return was in a line that says nothing without it. -/
theorem isContent_of_stripCr {p : String} (h : isContent (stripCr p) = true) :
    isContent p = true := by
  by_cases hcr : p.toList.getLast? = some '\r'
  · have hne : p.toList ≠ [] := by
      intro hnil
      rw [hnil] at hcr
      exact nomatch hcr
    have hsplit : p.toList = p.toList.dropLast ++ ['\r'] := by
      rw [List.getLast?_eq_some_getLast hne] at hcr
      rw [← Option.some.inj hcr, List.dropLast_append_getLast hne]
    unfold isContent at h ⊢
    rw [stripCr, if_pos hcr, String.toList_ofList] at h
    generalize p.toList.dropLast = body at hsplit h
    rw [hsplit, List.dropWhile_append]
    cases hbody : body.dropWhile isBlank with
    | nil => rfl
    | cons c rest =>
        rw [hbody] at h
        exact h
  · rw [stripCr_of_noReturn hcr] at h
    exact h

/-- The line says something and is not taken for one of the module. -/
def stays (l : String) : Bool := isContent l && !activeLine l

theorem stays_of_readAs {p l : String} (h : ReadAs p l) (hl : stays l = true) : stays p = true := by
  have hactive := activeLine_of_readAs h
  rw [stays, Bool.and_eq_true] at hl ⊢
  refine ⟨?_, hactive ▸ hl.2⟩
  cases h with
  | inl heq => rw [← heq, hl.1]
  | inr heq => exact isContent_of_stripCr (heq ▸ hl.1)

theorem length_lt_of_readAs {p l : String} (h : ReadAs p l) (hne : l ≠ p) :
    l.toList.length < p.toList.length := by
  cases h with
  | inl heq => exact absurd heq hne
  | inr heq =>
      rw [stripCr] at heq
      split at heq
      next hcr =>
        rw [heq, String.toList_ofList, List.length_dropLast]
        have hpos : p.toList ≠ [] := by
          intro hnil
          rw [hnil] at hcr
          cases hcr
        have := List.length_pos_of_ne_nil hpos
        omega
      · exact absurd heq hne

/-- Carriage returns that go only make the lines that stay shorter. -/
theorem length_flatMap_stays_le {ps ls : List String} (h : List.Forall₂ ReadAs ps ls) :
    ((ls.filter stays).flatMap String.toList).length ≤
      ((ps.filter stays).flatMap String.toList).length := by
  induction h with
  | nil => exact Nat.le_refl _
  | @cons p l ps ls hread _ ih =>
      rw [List.filter_cons, List.filter_cons]
      by_cases hl : stays l = true
      · have hle : l.toList.length ≤ p.toList.length := by
          by_cases heq : l = p
          · rw [heq]
          · exact (length_lt_of_readAs hread heq).le
        rw [if_pos hl, if_pos (stays_of_readAs hread hl), List.flatMap_cons, List.flatMap_cons,
          List.length_append, List.length_append]
        omega
      · rw [if_neg hl]
        split
        · rw [List.flatMap_cons, List.length_append]
          omega
        · exact ih

/-- The lines that stay are as they were if and only if none of them lost a carriage return. -/
theorem filter_stays_iff {ps ls : List String} (h : List.Forall₂ ReadAs ps ls) :
    ls.filter stays = ps.filter stays ↔
      ∀ pl ∈ ps.zip ls, stays pl.1 = true → pl.2 = pl.1 := by
  induction h with
  | nil => simp
  | @cons p l ps ls hread hrest ih =>
      have hle := length_flatMap_stays_le hrest
      rw [List.zip_cons_cons, List.forall_mem_cons, List.filter_cons, List.filter_cons]
      by_cases hp : stays p = true
      · by_cases heq : l = p
        · rw [heq, if_pos hp, if_pos hp, List.cons_inj_right, ih]
          exact ⟨fun hall => ⟨fun _ => rfl, hall⟩, And.right⟩
        · -- the line became shorter, or says nothing any more
          have hshort := length_lt_of_readAs hread heq
          rw [if_pos hp]
          constructor
          · intro hsame
            have hlength := congrArg (fun xs => (xs.flatMap String.toList).length) hsame
            simp only [List.flatMap_cons, List.length_append] at hlength
            split at hlength
            · rw [List.flatMap_cons, List.length_append] at hlength
              omega
            · omega
          · exact fun hall => absurd (hall.1 hp) heq
      · have hl : ¬ stays l = true := fun hl => hp (stays_of_readAs hread hl)
        rw [if_neg hp, if_neg hl, ih]
        exact ⟨fun hall => ⟨fun hpos => absurd hpos hp, hall⟩, And.right⟩

/-! ## The directives -/

def runsModule (line : List String) : Bool := moduleOf line == some MODULE

/-- What is left are the other directives in order, and each line that stays is as it was. -/
structure RemovesModule (text : String) : Prop where
  directives : logicalLines (removeModule text).1 =
    (logicalLines text).filter fun g => !runsModule g
  unchanged : (physicalLines (removeModule text).1).filter isContent =
    (physicalLines text).filter stays

/-- A physical line is taken for one of the module if and only if its directive runs it. -/
def NamedAsRun (text : String) : Prop :=
  ∀ g ∈ logicalLines text, ∀ l ∈ g, activeLine l = runsModule g

/-- The editor sees each line that stays as it is: without a carriage return at its end. -/
def SeesLines (text : String) : Prop :=
  ∀ pl ∈ (physicalLines text).zip (lines text), stays pl.1 = true → pl.2 = pl.1

section Removal

variable {text : String}

private theorem physicalLines_inactive (h : contentHasModule text = false) :
    ∀ p ∈ physicalLines text, activeLine p = false := by
  intro p hp
  obtain ⟨l, hl, hread⟩ := exists_readAs hp
  rw [← activeLine_of_readAs hread, inactive_of_mem h hl]

theorem filter_isContent_of_inactive (h : contentHasModule text = false) :
    (physicalLines text).filter isContent = (physicalLines text).filter stays := by
  apply List.filter_congr
  intro p hp
  rw [stays, physicalLines_inactive h p hp, Bool.not_false, Bool.and_true]

private theorem filter_isContent_joinLines {out : List String} (h : ∀ l ∈ out, '\n' ∉ l.toList) :
    (physicalLines (joinLines out)).filter isContent = out.filter isContent := by
  by_cases hout : out = []
  · rw [hout]
    rfl
  · rw [joinLines_eq_unlines hout, physicalLines_unlines h]

private theorem filter_isContent_removeModule (h : contentHasModule text = true) :
    (physicalLines (removeModule text).1).filter isContent = (lines text).filter stays := by
  have hout : ∀ l ∈ (lines text).filter (fun l => !activeLine l), '\n' ∉ l.toList :=
    fun l hl => no_newline_of_mem_lines (List.mem_filter.1 hl).1
  rw [removeModule, h, if_pos rfl, filter_isContent_joinLines hout, List.filter_filter]
  rfl

theorem unchanged_iff : (physicalLines (removeModule text).1).filter isContent =
    (physicalLines text).filter stays ↔ (contentHasModule text = true → SeesLines text) := by
  cases h : contentHasModule text with
  | false =>
      rw [removeModule, h, if_neg Bool.false_ne_true]
      exact iff_of_true (filter_isContent_of_inactive h)
        fun htrue => absurd htrue Bool.false_ne_true
  | true =>
      rw [filter_isContent_removeModule h, filter_stays_iff (readAs_lines text)]
      exact ⟨fun hall _ => hall, fun hall => hall rfl⟩

/-- With the lines that stay as they were, the directives that are left are as they should be
if and only if each line shares the fate of its directive. -/
theorem directives_iff (h : (physicalLines (removeModule text).1).filter isContent =
    (physicalLines text).filter stays) :
    logicalLines (removeModule text).1 = (logicalLines text).filter (fun g => !runsModule g) ↔
      NamedAsRun text := by
  have hleft : logicalLines (removeModule text).1 =
      logicalFrom [] ((physicalLines text).filter fun p => !activeLine p) := by
    rw [logicalLines, ← logicalFrom_filter_isContent, h,
      ← logicalFrom_filter_isContent [] ((physicalLines text).filter fun p => !activeLine p),
      List.filter_filter]
    rfl
  rw [hleft, logicalLines, logicalFrom_filter_iff]
  constructor
  · intro hagree g hg l hl
    exact Bool.not_inj (hagree g hg l hl)
  · intro hnamed g hg l hl
    rw [hnamed g hg l hl]

end Removal

/-- The removal takes out the module's directives, all of them and no others, if and only if
every physical line names the module just when its directive runs it, and no line that stays
loses a carriage return. -/
theorem removesModule_iff (text : String) :
    RemovesModule text ↔
      NamedAsRun text ∧ (contentHasModule text = true → SeesLines text) := by
  constructor
  · intro h
    exact ⟨(directives_iff h.unchanged).1 h.directives, unchanged_iff.1 h.unchanged⟩
  · rintro ⟨hnamed, hsees⟩
    have hunchanged := unchanged_iff.2 hsees
    exact ⟨(directives_iff hunchanged).2 hnamed, hunchanged⟩

/-- A directive that names the module in a comment goes with it. -/
theorem not_removesModule_commented :
    ¬ RemovesModule "auth required pam_unix.so # before pam_linhello.so\n" :=
  fun h => absurd h.directives (by decide +kernel)

end Linhello.Cli.Pamwire
