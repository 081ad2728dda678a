import Mathlib.Data.List.DropRight
import Linhello.Common.Config
/-!
# Lines and words

What the command line tool uses of `str` and `char` beyond the parser of key files, and
what joining lines or words says about splitting them again.
-/

namespace Linhello.Common

/-- The words still to come; `cur` holds the current one backwards. -/
def wordsFrom (cur : List Char) : List Char → List String
  | [] => if cur = [] then [] else [String.ofList cur.reverse]
  | c :: rest =>
      if isWhiteSpace c then
        if cur = [] then wordsFrom [] rest else String.ofList cur.reverse :: wordsFrom [] rest
      else wordsFrom (c :: cur) rest

/-- `str::split_whitespace`. -/
def splitWhitespace (s : String) : List String := wordsFrom [] s.toList

/-- `char::to_uppercase`, whose Unicode table is not spelled out. -/
structure CaseMap where
  upper : Char → List Char
  ascii : ∀ c, c.toNat < 128 → upper c = [c.toUpper]

/-! ## Lines -/

def unlines : List String → String
  | [] => ""
  | l :: ls => l ++ "\n" ++ unlines ls

/-- A line that is read back as it was written. -/
def IsLine (s : String) : Prop := '\n' ∉ s.toList ∧ s.toList.getLast? ≠ some '\r'

theorem lines_unlines {ls : List String} (h : ∀ l ∈ ls, IsLine l) : lines (unlines ls) = ls := by
  induction ls with
  | nil => rfl
  | cons l ls ih =>
      obtain ⟨hnewline, hcr⟩ := h l List.mem_cons_self
      rw [unlines, lines_cons hnewline hcr, ih fun l' hl' => h l' (List.mem_cons_of_mem _ hl')]

private theorem infix_of_mem_linesFrom {l : String} {cur cs : List Char}
    (h : l ∈ linesFrom cur cs) :
    l.toList <:+: cur.reverse ++ cs := by
  induction cs generalizing cur with
  | nil =>
      rw [linesFrom] at h
      by_cases hcur : cur = []
      · rw [if_pos hcur] at h
        exact absurd h List.not_mem_nil
      · rw [if_neg hcur, List.mem_singleton] at h
        rw [h, String.toList_ofList, List.append_nil]
  | cons c cs ih =>
      rw [linesFrom.eq_def] at h
      dsimp only at h
      by_cases hc : c = '\n'
      · rw [if_pos hc] at h
        rcases List.mem_cons.1 h with rfl | h
        · rw [String.toList_ofList]
          refine List.infix_append_of_infix_left ?_
          -- a carriage return before the newline goes with it
          split
          · rw [List.reverse_cons]
            exact List.infix_append_left
          · exact List.infix_refl _
        · have hrest := ih h
          rw [List.reverse_nil, List.nil_append] at hrest
          exact List.infix_append_of_infix_right (List.infix_cons hrest)
      · rw [if_neg hc] at h
        have hrest := ih h
        rw [List.reverse_cons, List.append_assoc] at hrest
        exact hrest

theorem infix_of_mem_lines {s l : String} (h : l ∈ lines s) : l.toList <:+: s.toList :=
  infix_of_mem_linesFrom h

theorem infix_append_newline {pat a b : List Char} (hpat : '\n' ∉ pat)
    (h : pat <:+: a ++ '\n' :: b) : pat <:+: a ∨ pat <:+: b := by
  have hempty : ∀ l, l <+: '\n' :: b → '\n' ∉ l → l = [] := by
    intro l hl hmem
    cases l with
    | nil => rfl
    | cons c l =>
        rw [(List.cons_prefix_cons.1 hl).1] at hmem
        exact absurd List.mem_cons_self hmem
  rcases List.infix_append_iff.1 h with h | h | ⟨l, l', rfl, hl, hl'⟩
  · exact .inl h
  · rcases List.infix_cons_iff.1 h with h | h
    · rw [hempty pat h hpat]
      exact .inl List.nil_infix
    · exact .inr h
  · rw [List.mem_append, not_or] at hpat
    rw [hempty l' hl' hpat.2, List.append_nil]
    exact .inl hl.isInfix

/-- Nor does it lie in several lines joined by newlines, if it lies in none of them. -/
theorem not_infix_intercalate {pat : List Char} (hpat : '\n' ∉ pat) (hne : pat ≠ [])
    {ls : List String}
    (h : ∀ l ∈ ls, ¬pat <:+: l.toList) : ¬pat <:+: ("\n".intercalate ls).toList := by
  induction ls with
  | nil => exact fun hwithin => hne (List.eq_nil_of_infix_nil hwithin)
  | cons l ls ih =>
      have hl := h l List.mem_cons_self
      cases ls with
      | nil =>
          rw [String.intercalate_singleton]
          exact hl
      | cons l' ls =>
          intro hwithin
          rw [String.intercalate_cons_cons, String.toList_append, String.toList_append,
            List.append_assoc] at hwithin
          rcases infix_append_newline hpat hwithin with hwithin | hwithin
          · exact hl hwithin
          · exact ih (fun m hm => h m (List.mem_cons_of_mem _ hm)) hwithin

/-! ## Lines that were written

A line that ends in a carriage return loses it when it is written and read again. -/

/-- A line after it was written and read again. -/
def stripCr (l : String) : String :=
  if l.toList.getLast? = some '\r' then String.ofList l.toList.dropLast else l

theorem stripCr_of_noReturn {l : String} (h : l.toList.getLast? ≠ some '\r') : stripCr l = l :=
  if_neg h

theorem toList_stripCr (l : String) : ∃ tail, l.toList = (stripCr l).toList ++ tail := by
  by_cases h : l.toList.getLast? = some '\r'
  · have hne : l.toList ≠ [] := by
      intro hnil
      rw [hnil] at h
      exact nomatch h
    rw [stripCr, if_pos h, String.toList_ofList]
    exact ⟨_, (List.dropLast_append_getLast hne).symm⟩
  · rw [stripCr, if_neg h]
    exact ⟨[], (List.append_nil _).symm⟩

theorem lines_cons_stripCr {line : String} (h : '\n' ∉ line.toList) (text : String) :
    lines (line ++ "\n" ++ text) = stripCr line :: lines text := by
  by_cases hcr : line.toList.getLast? = some '\r'
  · have htext : (line ++ "\n" ++ text).toList = line.toList ++ '\n' :: text.toList := by
      rw [String.toList_append, String.toList_append, List.append_assoc]
      rfl
    obtain ⟨body, hbody⟩ : ∃ body, line.toList = body ++ ['\r'] := by
      have hne : line.toList ≠ [] := by
        intro hnil
        rw [hnil] at hcr
        exact nomatch hcr
      refine ⟨line.toList.dropLast, ?_⟩
      rw [List.getLast?_eq_some_getLast hne] at hcr
      rw [← Option.some.inj hcr, List.dropLast_append_getLast hne]
    rw [lines, htext, linesFrom_line h, List.append_nil, stripCr, if_pos hcr, hbody,
      List.reverse_append, linesFrom.eq_def]
    simp only [List.reverse_cons, List.reverse_nil, List.nil_append, List.singleton_append,
      if_true, List.reverse_reverse, List.dropLast_concat]
    rfl
  · rw [stripCr_of_noReturn hcr, lines_cons h hcr]

theorem lines_unlines_stripCr {ls : List String} (h : ∀ l ∈ ls, '\n' ∉ l.toList) :
    lines (unlines ls) = ls.map stripCr := by
  induction ls with
  | nil => rfl
  | cons l ls ih =>
      rw [unlines, lines_cons_stripCr (h l List.mem_cons_self), List.map_cons,
        ih fun l' hl' => h l' (List.mem_cons_of_mem _ hl')]

private theorem no_newline_of_mem_linesFrom {l : String} {cur cs : List Char} (hcur : '\n' ∉ cur)
    (h : l ∈ linesFrom cur cs) : '\n' ∉ l.toList := by
  induction cs generalizing cur with
  | nil =>
      rw [linesFrom] at h
      split at h
      · exact absurd h List.not_mem_nil
      · rw [List.mem_singleton.1 h, String.toList_ofList, List.mem_reverse]
        exact hcur
  | cons c cs ih =>
      by_cases hc : c = '\n'
      · subst hc
        rw [linesFrom.eq_def] at h
        simp only [if_true] at h
        cases List.mem_cons.1 h with
        | inl hl =>
            rw [hl, String.toList_ofList, List.mem_reverse]
            split
            · exact fun hmem => hcur (List.mem_cons_of_mem _ hmem)
            · exact hcur
        | inr hl => exact ih List.not_mem_nil hl
      · rw [linesFrom_cons_of_ne hc] at h
        apply ih _ h
        intro hmem
        cases List.mem_cons.1 hmem with
        | inl heq => exact hc heq.symm
        | inr hmem => exact hcur hmem

theorem no_newline_of_mem_lines {c l : String} (h : l ∈ lines c) : '\n' ∉ l.toList :=
  no_newline_of_mem_linesFrom List.not_mem_nil h

/-- Text up to a newline and text after it have their own lines. -/
theorem linesFrom_append_newline (cur xs ys : List Char) :
    linesFrom cur (xs ++ '\n' :: ys) = linesFrom cur (xs ++ ['\n']) ++ linesFrom [] ys := by
  induction xs generalizing cur with
  | nil =>
      rw [List.nil_append, List.nil_append, linesFrom.eq_def, linesFrom.eq_def cur ['\n']]
      simp only [if_true]
      rfl
  | cons x xs ih =>
      by_cases hx : x = '\n'
      · subst hx
        rw [List.cons_append, List.cons_append, linesFrom.eq_def, linesFrom.eq_def cur]
        simp only [if_true, ih, List.cons_append]
      · rw [List.cons_append, List.cons_append, linesFrom_cons_of_ne hx, linesFrom_cons_of_ne hx,
          ih]

theorem lines_append_newline (a b : String) :
    lines (a ++ "\n" ++ b) = lines (a ++ "\n") ++ lines b := by
  have hlong : (a ++ "\n" ++ b).toList = a.toList ++ '\n' :: b.toList := by
    rw [String.toList_append, String.toList_append, List.append_assoc]
    rfl
  have hshort : (a ++ "\n").toList = a.toList ++ ['\n'] := String.toList_append
  rw [lines, hlong, linesFrom_append_newline, lines, hshort]
  rfl

/-! ## Words -/

def IsWord (s : String) : Prop := s.toList ≠ [] ∧ ∀ c ∈ s.toList, isWhiteSpace c = false

theorem wordsFrom_append {w : List Char} (h : ∀ c ∈ w, isWhiteSpace c = false)
    (rest cur : List Char) : wordsFrom cur (w ++ rest) = wordsFrom (w.reverse ++ cur) rest := by
  induction w generalizing cur with
  | nil => rfl
  | cons c w ih =>
      rw [List.cons_append, wordsFrom, h c List.mem_cons_self, if_neg Bool.false_ne_true,
        ih fun d hd => h d (List.mem_cons_of_mem _ hd), List.reverse_cons, List.append_assoc]
      rfl

theorem wordsFrom_word {s : String} (h : IsWord s) (rest : List Char) :
    wordsFrom [] (s.toList ++ ' ' :: rest) = s :: wordsFrom [] rest := by
  have hspace : isWhiteSpace ' ' = true := by decide
  rw [wordsFrom_append h.2, List.append_nil, wordsFrom, if_pos hspace,
    if_neg (List.reverse_ne_nil_iff.2 h.1), List.reverse_reverse, String.ofList_toList]

theorem wordsFrom_last {s : String} (h : IsWord s) : wordsFrom [] s.toList = [s] := by
  have hrun := wordsFrom_append h.2 [] []
  rw [List.append_nil, List.append_nil, wordsFrom, if_neg (List.reverse_ne_nil_iff.2 h.1),
    List.reverse_reverse, String.ofList_toList] at hrun
  exact hrun

theorem dropWhile_eq_self {α : Type} {p : α → Bool} {l : List α} (h : ∀ a ∈ l.head?, p a = false) :
    l.dropWhile p = l := by
  cases l with
  | nil => rfl
  | cons a l =>
      rw [List.dropWhile_cons, h a rfl]
      rfl

theorem trimChars_of_ends {cs : List Char} (hfirst : ∀ c ∈ cs.head?, isWhiteSpace c = false)
    (hlast : ∀ c ∈ cs.getLast?, isWhiteSpace c = false) : trimChars cs = cs := by
  have hreverse : ∀ c ∈ cs.reverse.head?, isWhiteSpace c = false := by
    rw [List.head?_reverse]
    exact hlast
  rw [trimChars, dropWhile_eq_self hfirst, dropWhile_eq_self hreverse, List.reverse_reverse]

theorem trimChars_of_clean {cs : List Char} (h : ∀ c ∈ cs, isWhiteSpace c = false) :
    trimChars cs = cs :=
  trimChars_of_ends (fun c hc => h c (List.mem_of_mem_head? hc))
    fun c hc => h c (List.mem_of_getLast? hc)

theorem trim_trim (s : String) : trim (trim s) = trim s := by
  have hhead : ∀ cs : List Char, ∀ c ∈ (cs.dropWhile isWhiteSpace).head?,
      isWhiteSpace c = false := by
    intro cs c hc
    have hnot := List.head?_dropWhile_not isWhiteSpace cs
    rw [hc] at hnot
    exact hnot
  have hfirst : ∀ c ∈ (trimChars s.toList).head?, isWhiteSpace c = false := by
    intro c hc
    obtain ⟨tail, htail⟩ :=
      List.rdropWhile_prefix isWhiteSpace (l := s.toList.dropWhile isWhiteSpace)
    apply hhead s.toList
    rw [← htail, List.head?_append]
    have hc' : ((s.toList.dropWhile isWhiteSpace).rdropWhile isWhiteSpace).head? = some c := hc
    rw [hc']
    rfl
  have hlast : ∀ c ∈ (trimChars s.toList).getLast?, isWhiteSpace c = false := by
    intro c hc
    rw [trimChars, List.getLast?_reverse] at hc
    exact hhead _ c hc
  rw [trim, trim, String.toList_ofList, trimChars_of_ends hfirst hlast]

theorem isWhiteSpace_of_isDigit {c : Char} (h : c.isDigit = true) : isWhiteSpace c = false := by
  simp only [Char.isDigit, Bool.and_eq_true, decide_eq_true_eq] at h
  have hlow : 48 ≤ c.toNat := h.1
  have hhigh : c.toNat ≤ 57 := h.2
  simp only [isWhiteSpace, Bool.or_eq_false_iff, Bool.and_eq_false_iff, decide_eq_false_iff_not,
    beq_eq_false_iff_ne, ne_eq]
  omega

theorem mem_of_mem_trim {c : Char} {s : String} (h : c ∈ (trim s).toList) : c ∈ s.toList := by
  rw [trim, String.toList_ofList, trimChars, List.mem_reverse] at h
  exact List.dropWhile_subset _ (List.mem_reverse.1 (List.dropWhile_subset _ h))

private theorem trimChars_eq_self {c : Char} {body : List Char} {s : String}
    (hc : isWhiteSpace c = false)
    (h : IsWord s) : trimChars (c :: body ++ s.toList) = c :: body ++ s.toList := by
  apply trimChars_of_ends
  · intro d hd
    obtain rfl : c = d := Option.some.inj hd
    exact hc
  · intro d hd
    rw [List.getLast?_append_of_ne_nil _ h.1] at hd
    exact h.2 d (List.mem_of_getLast? hd)

theorem trim_append_word {s w : String} {c : Char} {body : List Char} (hs : s.toList = c :: body)
    (hc : isWhiteSpace c = false) (hw : IsWord w) : trim (s ++ w) = s ++ w := by
  rw [trim, String.toList_append, hs, trimChars_eq_self hc hw, ← hs, ← String.toList_append,
    String.ofList_toList]

theorem stripPrefix_append (pat rest : String) : stripPrefix (pat ++ rest) pat = some rest := by
  have hstarts : startsWith (pat ++ rest) pat = true := by
    rw [startsWith, String.toList_append, List.isPrefixOf_iff_prefix]
    exact List.prefix_append _ _
  rw [stripPrefix, if_pos hstarts, String.toList_append, List.drop_left, String.ofList_toList]

end Linhello.Common
