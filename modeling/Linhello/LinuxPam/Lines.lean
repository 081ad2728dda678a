import Mathlib.Data.List.Infix
import Mathlib.Tactic.Common
/-!
# The lines of a Linux-PAM service file

A physical line ends at a newline. Blank lines and lines that start with a number sign say
nothing; from any other line the text up to the first number sign is read, and a backslash at
the end of a line without one continues it on the next line that says something.
-/

namespace Linhello.LinuxPam

/-! ## Physical lines -/

/-- The physical lines still to come; `cur` holds the current one backwards. -/
def physicalFrom (cur : List Char) : List Char → List String
  | [] => if cur = [] then [] else [String.ofList cur.reverse]
  | c :: rest =>
      if c = '\n' then String.ofList cur.reverse :: physicalFrom [] rest
      else physicalFrom (c :: cur) rest

def physicalLines (text : String) : List String := physicalFrom [] text.toList

def isBlank (c : Char) : Bool := c == ' ' || c == '\t'

/-- The line says something: after its blanks there is text, and no comment. -/
def isContent (line : String) : Bool :=
  match line.toList.dropWhile isBlank with
  | [] => false
  | c :: _ => c != '#'

/-- The line goes on: it has no comment, and a backslash is the last that is not blank. -/
def continues (line : String) : Bool :=
  !line.toList.contains '#' && (line.toList.reverse.dropWhile isBlank).head? == some '\\'

/-- What is read of a line: a backslash that continues it counts as a blank. -/
def reading (line : String) : List Char :=
  if continues line then (line.toList.reverse.dropWhile isBlank).tail.reverse ++ [' ']
  else line.toList.takeWhile (· != '#')

/-! ## Logical lines -/

/-- The logical lines of `ls`, each as its physical lines that say something; `cur` holds
those of the one that is still open. -/
def logicalFrom (cur : List String) : List String → List (List String)
  | [] => if cur = [] then [] else [cur]
  | l :: ls =>
      if isContent l then
        if continues l then logicalFrom (cur ++ [l]) ls else (cur ++ [l]) :: logicalFrom [] ls
      else logicalFrom cur ls

/-- The logical line that is open after `ls`. -/
def openAfter (cur : List String) : List String → List String
  | [] => cur
  | l :: ls =>
      if isContent l then
        if continues l then openAfter (cur ++ [l]) ls else openAfter [] ls
      else openAfter cur ls

def logicalLines (text : String) : List (List String) := logicalFrom [] (physicalLines text)

def assembled (line : List String) : List Char := line.flatMap reading

/-! ## The physical lines of a text -/

private theorem physicalFrom_line {line : List Char} (h : '\n' ∉ line) (rest cur : List Char) :
    physicalFrom cur (line ++ '\n' :: rest) =
      String.ofList (cur.reverse ++ line) :: physicalFrom [] rest := by
  induction line generalizing cur with
  | nil => rw [List.nil_append, physicalFrom, if_pos rfl, List.append_nil]
  | cons c line ih =>
      have hc : c ≠ '\n' := fun heq => h (heq ▸ List.mem_cons_self)
      rw [List.cons_append, physicalFrom, if_neg hc, ih fun hmem => h (List.mem_cons_of_mem _ hmem),
        List.reverse_cons, List.append_assoc, List.singleton_append]

theorem physicalLines_cons {line : String} (h : '\n' ∉ line.toList) (text : String) :
    physicalLines (line ++ "\n" ++ text) = line :: physicalLines text := by
  have htext : (line ++ "\n" ++ text).toList = line.toList ++ '\n' :: text.toList := by
    rw [String.toList_append, String.toList_append, List.append_assoc]
    rfl
  rw [physicalLines, htext, physicalFrom_line h, List.reverse_nil, List.nil_append,
    String.ofList_toList]
  rfl

/-! ## Assembling -/

section Assembling

variable {l : String} {cur ls : List String}

theorem logicalFrom_skip (h : isContent l = false) :
    logicalFrom cur (l :: ls) = logicalFrom cur ls := by
  rw [logicalFrom, h, if_neg Bool.false_ne_true]

theorem logicalFrom_continue (h : isContent l = true) (hc : continues l = true) :
    logicalFrom cur (l :: ls) = logicalFrom (cur ++ [l]) ls := by
  rw [logicalFrom, if_pos h, if_pos hc]

theorem logicalFrom_close (h : isContent l = true) (hc : continues l = false) :
    logicalFrom cur (l :: ls) = (cur ++ [l]) :: logicalFrom [] ls := by
  rw [logicalFrom, if_pos h, hc, if_neg Bool.false_ne_true]

theorem logicalFrom_filter_isContent (cur ls : List String) :
    logicalFrom cur (ls.filter isContent) = logicalFrom cur ls := by
  induction ls generalizing cur with
  | nil => rfl
  | cons l ls ih =>
      rw [List.filter_cons]
      cases h : isContent l with
      | false => rw [if_neg Bool.false_ne_true, logicalFrom_skip h, ih]
      | true =>
          rw [if_pos rfl]
          cases hc : continues l with
          | true => rw [logicalFrom_continue h hc, logicalFrom_continue h hc, ih]
          | false => rw [logicalFrom_close h hc, logicalFrom_close h hc, ih]

/-- Assembling loses no line that says something, and moves none. -/
theorem flatten_logicalFrom (cur ls : List String) :
    (logicalFrom cur ls).flatten = cur ++ ls.filter isContent := by
  induction ls generalizing cur with
  | nil =>
      rw [logicalFrom, List.filter_nil, List.append_nil]
      split
      next h => rw [h, List.flatten_nil]
      · rw [List.flatten_singleton]
  | cons l ls ih =>
      cases h : isContent l with
      | false =>
          rw [logicalFrom_skip h, ih, List.filter_cons, h, if_neg Bool.false_ne_true]
      | true =>
          have hfilter : (l :: ls).filter isContent = l :: ls.filter isContent := by
            rw [List.filter_cons, if_pos h]
          cases hc : continues l with
          | true =>
              rw [logicalFrom_continue h hc, ih, hfilter, List.append_assoc, List.singleton_append]
          | false =>
              rw [logicalFrom_close h hc, List.flatten_cons, ih, hfilter, List.append_assoc]
              rfl

theorem mem_of_mem_logicalFrom {g : List String} (hg : g ∈ logicalFrom [] ls) (hl : l ∈ g) :
    l ∈ ls ∧ isContent l = true := by
  have hflat : l ∈ (logicalFrom [] ls).flatten := List.mem_flatten.2 ⟨g, hg, hl⟩
  rw [flatten_logicalFrom, List.nil_append] at hflat
  exact List.mem_filter.1 hflat

/-- A line that does not go on closes the logical line that was open before it. -/
theorem logicalFrom_split (h : isContent l = true) (hc : continues l = false)
    (cur front back : List String) :
    ∃ closed, logicalFrom cur (front ++ l :: back) =
        closed ++ (openAfter cur front ++ [l]) :: logicalFrom [] back ∧
      closed.flatten ++ openAfter cur front = cur ++ front.filter isContent := by
  induction front generalizing cur with
  | nil =>
      refine ⟨[], ?_, ?_⟩
      · rw [List.nil_append, logicalFrom_close h hc, openAfter, List.nil_append]
      · rw [List.flatten_nil, List.nil_append, openAfter, List.filter_nil, List.append_nil]
  | cons x front ih =>
      cases hx : isContent x with
      | false =>
          obtain ⟨closed, hlines, hflat⟩ := ih cur
          have hopen : openAfter cur (x :: front) = openAfter cur front := by
            rw [openAfter, hx, if_neg Bool.false_ne_true]
          refine ⟨closed, ?_, ?_⟩
          · rw [List.cons_append, logicalFrom_skip hx, hopen, hlines]
          · rw [hopen, hflat, List.filter_cons, hx, if_neg Bool.false_ne_true]
      | true =>
          have hfilter : (x :: front).filter isContent = x :: front.filter isContent := by
            rw [List.filter_cons, if_pos hx]
          cases hxc : continues x with
          | true =>
              obtain ⟨closed, hlines, hflat⟩ := ih (cur ++ [x])
              have hopen : openAfter cur (x :: front) = openAfter (cur ++ [x]) front := by
                rw [openAfter, if_pos hx, if_pos hxc]
              refine ⟨closed, ?_, ?_⟩
              · rw [List.cons_append, logicalFrom_continue hx hxc, hopen, hlines]
              · rw [hopen, hflat, hfilter, List.append_assoc, List.singleton_append]
          | false =>
              obtain ⟨closed, hlines, hflat⟩ := ih []
              have hopen : openAfter cur (x :: front) = openAfter [] front := by
                rw [openAfter, if_pos hx, hxc, if_neg Bool.false_ne_true]
              refine ⟨(cur ++ [x]) :: closed, ?_, ?_⟩
              · rw [List.cons_append, logicalFrom_close hx hxc, hopen, hlines, List.cons_append]
              · rw [hopen, List.flatten_cons, List.append_assoc, hflat, hfilter, List.nil_append,
                  List.append_assoc, List.singleton_append]

end Assembling

/-! ## Dropping physical lines -/

section Dropping

variable {keep : String → Bool} {P : List String → Bool}

/-- Where the lines of every logical line share its fate, dropping lines drops logical lines. -/
theorem logicalFrom_filter {cur ls : List String}
    (h : ∀ g ∈ logicalFrom cur ls, ∀ l ∈ g, keep l = P g) :
    logicalFrom (cur.filter keep) (ls.filter keep) = (logicalFrom cur ls).filter P := by
  -- a logical line that is kept keeps all its lines, another one keeps none
  have hkept : ∀ g, (∀ l ∈ g, keep l = P g) → g.filter keep = if P g then g else [] := by
    intro g hg
    cases hP : P g with
    | true =>
        rw [if_pos rfl, List.filter_eq_self]
        intro l hl
        rw [hg l hl, hP]
    | false =>
        rw [if_neg Bool.false_ne_true, List.filter_eq_nil_iff]
        intro l hl
        rw [hg l hl, hP]
        exact Bool.false_ne_true
  induction ls generalizing cur with
  | nil =>
      rw [logicalFrom] at h
      rw [List.filter_nil, logicalFrom, logicalFrom]
      by_cases hcur : cur = []
      · rw [hcur]
        rfl
      · rw [if_neg hcur] at h
        rw [hkept cur (h cur (List.mem_singleton.2 rfl)), if_neg hcur, List.filter_singleton]
        cases P cur with
        | true => rw [if_pos rfl, if_neg hcur, cond_true]
        | false => rfl
  | cons l ls ih =>
      cases hl : isContent l with
      | false =>
          rw [logicalFrom_skip hl] at h ⊢
          rw [← ih h, List.filter_cons]
          split
          · exact logicalFrom_skip hl
          · rfl
      | true =>
          cases hc : continues l with
          | true =>
              rw [logicalFrom_continue hl hc] at h ⊢
              rw [← ih h, List.filter_append, List.filter_cons, List.filter_cons, List.filter_nil]
              cases keep l with
              | true => rw [if_pos rfl, if_pos rfl, logicalFrom_continue hl hc]
              | false =>
                  rw [if_neg Bool.false_ne_true, if_neg Bool.false_ne_true, List.append_nil]
          | false =>
              rw [logicalFrom_close hl hc] at h ⊢
              have hline := h (cur ++ [l]) List.mem_cons_self
              have hrest := ih fun g hg => h g (List.mem_cons_of_mem _ hg)
              have hcur := hkept _ hline
              have hlast := hline l (List.mem_append_right _ List.mem_cons_self)
              rw [List.filter_nil] at hrest
              rw [List.filter_append, List.filter_cons, List.filter_nil, hlast] at hcur
              rw [List.filter_cons, List.filter_cons, hlast, ← hrest]
              cases hP : P (cur ++ [l]) with
              | true =>
                  rw [hP, if_pos rfl, if_pos rfl] at hcur
                  rw [if_pos rfl, if_pos rfl, List.append_cancel_right hcur,
                    logicalFrom_close hl hc]
              | false =>
                  rw [hP, if_neg Bool.false_ne_true, if_neg Bool.false_ne_true,
                    List.append_nil] at hcur
                  rw [if_neg Bool.false_ne_true, if_neg Bool.false_ne_true, hcur]

private theorem filter_flatten_of_kept {gs : List (List String)}
    (hkeep : ∀ g ∈ gs, P g = true → ∀ l ∈ g, keep l = true) :
    (gs.filter P).flatten.length ≤ (gs.flatten.filter keep).length := by
  induction gs with
  | nil => exact Nat.le_refl 0
  | cons g gs ih =>
      have hrest := ih fun g' hg' => hkeep g' (List.mem_cons_of_mem _ hg')
      rw [List.flatten_cons, List.filter_append, List.length_append, List.filter_cons]
      cases hP : P g with
      | false =>
          rw [if_neg Bool.false_ne_true]
          omega
      | true =>
          have hall : g.filter keep = g := List.filter_eq_self.2 (hkeep g List.mem_cons_self hP)
          rw [if_pos rfl, List.flatten_cons, List.length_append, hall]
          omega

/-- What is left has the lines that should be left only if each line shares the fate of its
logical line. -/
theorem agree_of_filter_flatten {gs : List (List String)}
    (h : gs.flatten.filter keep = (gs.filter P).flatten) : ∀ g ∈ gs, ∀ l ∈ g, keep l = P g := by
  have hkeep : ∀ g ∈ gs, P g = true → ∀ l ∈ g, keep l = true := by
    intro g hg hP l hl
    have hmem : l ∈ (gs.filter P).flatten :=
      List.mem_flatten.2 ⟨g, List.mem_filter.2 ⟨hg, hP⟩, hl⟩
    rw [← h] at hmem
    exact (List.mem_filter.1 hmem).2
  induction gs with
  | nil => exact fun g hg => absurd hg List.not_mem_nil
  | cons g gs ih =>
      have hrest := fun g' hg' => hkeep g' (List.mem_cons_of_mem g hg')
      have hle := filter_flatten_of_kept hrest
      rw [List.flatten_cons, List.filter_append, List.filter_cons] at h
      intro g' hg' l hl
      cases hP : P g with
      | true =>
          have hall : g.filter keep = g := List.filter_eq_self.2 (hkeep g List.mem_cons_self hP)
          rw [hP, if_pos rfl, List.flatten_cons, hall] at h
          cases List.mem_cons.1 hg' with
          | inl heq =>
              subst heq
              rw [hP]
              exact hkeep g' List.mem_cons_self hP l hl
          | inr hmem => exact ih (List.append_cancel_left h) hrest g' hmem l hl
      | false =>
          rw [hP, if_neg Bool.false_ne_true] at h
          have hlength := congrArg List.length h
          rw [List.length_append] at hlength
          have hnone : g.filter keep = [] := List.eq_nil_of_length_eq_zero (by omega)
          rw [hnone, List.nil_append] at h
          cases List.mem_cons.1 hg' with
          | inl heq =>
              subst heq
              rw [hP, ← Bool.not_eq_true]
              exact List.filter_eq_nil_iff.1 hnone l hl
          | inr hmem => exact ih h hrest g' hmem l hl

/-- Dropping physical lines drops exactly the logical lines that it should if and only if
each physical line shares the fate of its logical line. -/
theorem logicalFrom_filter_iff (ls : List String) :
    logicalFrom [] (ls.filter keep) = (logicalFrom [] ls).filter P ↔
      ∀ g ∈ logicalFrom [] ls, ∀ l ∈ g, keep l = P g := by
  constructor
  · intro h
    apply agree_of_filter_flatten
    rw [← h, flatten_logicalFrom, flatten_logicalFrom, List.nil_append, List.nil_append,
      List.filter_filter, List.filter_filter]
    exact List.filter_congr fun l _ => Bool.and_comm _ _
  · exact logicalFrom_filter

end Dropping

/-! ## What is read -/

/-- A line is read up to where its comment starts, or it goes on after a blank. -/
theorem reading_eq (line : String) :
    ∃ text, text <+: line.toList ∧ '#' ∉ text ∧
      (reading line = text ∨ reading line = text ++ [' ']) := by
  by_cases hc : continues line = true
  · refine ⟨(line.toList.reverse.dropWhile isBlank).tail.reverse, ?_, ?_, ?_⟩
    · rw [← List.reverse_suffix, List.reverse_reverse]
      exact (List.tail_suffix _).trans (List.dropWhile_suffix _)
    · have hcomment : '#' ∉ line.toList := by
        rw [continues, Bool.and_eq_true, Bool.not_eq_true', ← Bool.not_eq_true] at hc
        exact fun hmem => hc.1 (List.contains_iff_mem.2 hmem)
      intro hmem
      apply hcomment
      apply List.mem_reverse.1
      exact ((List.tail_suffix _).trans (List.dropWhile_suffix _)).mem (List.mem_reverse.1 hmem)
    · rw [reading, if_pos hc]
      exact .inr rfl
  · refine ⟨line.toList.takeWhile (· != '#'), List.takeWhile_prefix _, ?_, ?_⟩
    · intro hmem
      have hne := List.all_eq_true.1 List.all_takeWhile _ hmem
      exact absurd hne (by decide)
    · rw [reading, if_neg hc]
      exact .inl rfl

theorem reading_of_continues {line : String} (h : continues line = true) :
    reading line = (line.toList.reverse.dropWhile isBlank).tail.reverse ++ [' '] :=
  if_pos h

theorem continues_of_mem_dropLast {cur ls g : List String} (hcur : ∀ l ∈ cur, continues l = true)
    (hg : g ∈ logicalFrom cur ls) : ∀ l ∈ g.dropLast, continues l = true := by
  induction ls generalizing cur with
  | nil =>
      rw [logicalFrom] at hg
      split at hg
      · exact absurd hg List.not_mem_nil
      · rw [List.mem_singleton.1 hg]
        exact fun l hl => hcur l (List.mem_of_mem_dropLast hl)
  | cons x ls ih =>
      cases hx : isContent x with
      | false =>
          rw [logicalFrom_skip hx] at hg
          exact ih hcur hg
      | true =>
          cases hc : continues x with
          | true =>
              rw [logicalFrom_continue hx hc] at hg
              apply ih _ hg
              intro l hl
              cases List.mem_append.1 hl with
              | inl hl => exact hcur l hl
              | inr hl =>
                  rw [List.mem_singleton.1 hl]
                  exact hc
          | false =>
              rw [logicalFrom_close hx hc] at hg
              cases List.mem_cons.1 hg with
              | inl heq =>
                  rw [heq, List.dropLast_concat]
                  exact hcur
              | inr hg => exact ih (fun l hl => absurd hl List.not_mem_nil) hg

end Linhello.LinuxPam
