import Linhello.Cli.Pamwire
/-!
# Inserting and removing, on text

What the lines of a service text are after the stanza went in, and after the module went
out again. The editor splits at newlines, drops the carriage return before one, and writes
bare newlines; so a line loses one carriage return at its end each time it is written.
-/

namespace Linhello.Cli.Pamwire

open Common

/-! ## The first line -/

private theorem prefix_of_linesFrom {l : String} {ls : List String} {cur cs : List Char}
    (h : linesFrom cur cs = l :: ls) : l.toList <+: cur.reverse ++ cs := by
  induction cs generalizing cur with
  | nil =>
      rw [linesFrom] at h
      split at h
      · cases h
      · rw [← (List.cons.inj h).1, String.toList_ofList, List.append_nil]
  | cons c cs ih =>
      by_cases hc : c = '\n'
      · subst hc
        rw [linesFrom.eq_def] at h
        simp only [if_true] at h
        rw [← (List.cons.inj h).1, String.toList_ofList]
        split
        · rw [List.reverse_cons, List.append_assoc]
          exact List.prefix_append _ _
        · exact List.prefix_append _ _
      · rw [linesFrom_cons_of_ne hc] at h
        have hrest := ih h
        rw [List.reverse_cons, List.append_assoc] at hrest
        exact hrest

theorem prefix_of_lines {c l : String} {ls : List String} (h : lines c = l :: ls) :
    l.toList <+: c.toList :=
  prefix_of_linesFrom h

/-! ## Active lines -/

private theorem infix_of_infix_concat {pat d : List Char} {x : Char} (hne : pat ≠ [])
    (hx : pat.getLast? ≠ some x) (h : pat <:+: d ++ [x]) : pat <:+: d := by
  rcases List.infix_concat_iff.1 h with h | h
  · obtain ⟨front, hfront⟩ := h
    have hlast : (front ++ pat).getLast? = some x := by rw [hfront, List.getLast?_concat]
    rw [List.getLast?_append_of_ne_nil _ hne] at hlast
    exact absurd hlast hx
  · exact h

/-- A carriage return at the end of a line does not make it active or inactive. -/
theorem activeLine_stripCr (l : String) : activeLine (stripCr l) = activeLine l := by
  by_cases hcr : l.toList.getLast? = some '\r'
  · have hne : l.toList ≠ [] := by
      intro hnil
      rw [hnil] at hcr
      exact nomatch hcr
    have hsplit : l.toList = l.toList.dropLast ++ ['\r'] := by
      rw [List.getLast?_eq_some_getLast hne] at hcr
      rw [← Option.some.inj hcr, List.dropLast_append_getLast hne]
    unfold activeLine trimStart
    rw [stripCr, if_pos hcr, String.toList_ofList]
    generalize l.toList.dropLast = body at hsplit ⊢
    rw [hsplit]
    by_cases hblank : body.dropWhile isWhiteSpace = []
    · have hall : (body ++ ['\r']).dropWhile isWhiteSpace = [] := by
        rw [List.dropWhile_append, hblank]
        rfl
      rw [hblank, hall]
    · have htail : (body ++ ['\r']).dropWhile isWhiteSpace =
          body.dropWhile isWhiteSpace ++ ['\r'] := by
        rw [List.dropWhile_append, if_neg (by simpa using hblank)]
      rw [htail]
      generalize body.dropWhile isWhiteSpace = d at hblank
      have hcomment : startsWith (String.ofList (d ++ ['\r'])) "#" =
          startsWith (String.ofList d) "#" := by
        cases d with
        | nil => exact absurd rfl hblank
        | cons x d =>
            simp only [startsWith, String.toList_ofList, List.cons_append]
            rfl
      have hmodule : contains (String.ofList (d ++ ['\r'])) MODULE =
          contains (String.ofList d) MODULE := by
        unfold contains
        rw [String.toList_ofList, String.toList_ofList, decide_eq_decide]
        constructor
        · exact infix_of_infix_concat (by decide) (by decide)
        · exact fun h => h.trans (List.prefix_append _ _).isInfix
      simp only [hcomment, hmodule]
  · rw [stripCr_of_noReturn hcr]

/-! ## The stanza goes in -/

/-- What the editor relies on of the line it puts in. -/
structure IsStanza (stanza : String) : Prop where
  active : activeLine stanza = true
  oneLine : '\n' ∉ stanza.toList
  noReturn : stanza.toList.getLast? ≠ some '\r'
  unmarked : startsWith stanza CREATED_PREFIX = false

def STANZAS : List String := [GREETER_STANZA, SUFFICIENT_STANZA, WAIT_STANZA]

theorem isStanza_of_mem {stanza : String} (h : stanza ∈ STANZAS) : IsStanza stanza := by
  rcases List.mem_cons.1 h with rfl | h
  · exact ⟨by decide +kernel, by decide +kernel, by decide +kernel, by decide +kernel⟩
  rcases List.mem_cons.1 h with rfl | h
  · exact ⟨by decide +kernel, by decide +kernel, by decide +kernel, by decide +kernel⟩
  rw [List.mem_singleton.1 h]
  exact ⟨by decide +kernel, by decide +kernel, by decide +kernel, by decide +kernel⟩

section Text

variable {c stanza : String}

theorem inactive_of_mem (h : contentHasModule c = false) {l : String} (hl : l ∈ lines c) :
    activeLine l = false := by
  have hnone := List.any_eq_false.1 h l hl
  simpa using hnone

/-- Where the stanza goes: the lines before the first auth directive, and those from it on. -/
def before (c : String) : List String := (lines c).takeWhile fun l => !isAuthDirective l

def after (c : String) : List String := (lines c).dropWhile fun l => !isAuthDirective l

theorem before_append_after (c : String) : before c ++ after c = lines c :=
  List.takeWhile_append_dropWhile

private theorem insertFirst_lines (c stanza : String) :
    insertFirst isAuthDirective stanza (lines c) = before c ++ stanza :: after c :=
  insertFirst_eq _ _ _

theorem insertFirstAuth_eq (h : contentHasModule c = false) (stanza : String) :
    insertFirstAuth c stanza = (unlines (before c ++ stanza :: after c), true) := by
  rw [insertFirstAuth, h, if_neg Bool.false_ne_true,
    joinLines_eq_unlines (insertFirst_ne_nil _ _ _),
    insertFirst_lines]

theorem no_newline_inserted (hstanza : IsStanza stanza) :
    ∀ l ∈ before c ++ stanza :: after c, '\n' ∉ l.toList := by
  intro l hl
  have hmem : l = stanza ∨ l ∈ lines c := by
    rw [← before_append_after c, List.mem_append]
    rw [List.mem_append, List.mem_cons] at hl
    tauto
  cases hmem with
  | inl heq =>
      rw [heq]
      exact hstanza.oneLine
  | inr hmem => exact no_newline_of_mem_lines hmem

theorem lines_insertFirstAuth (hstanza : IsStanza stanza) (h : contentHasModule c = false) :
    lines (insertFirstAuth c stanza).1 =
      (before c).map stripCr ++ stanza :: (after c).map stripCr := by
  rw [insertFirstAuth_eq h, lines_unlines_stripCr (no_newline_inserted hstanza), List.map_append,
    List.map_cons, stripCr_of_noReturn hstanza.noReturn]

/-- After an insertion the module is there, whether it was before or not. -/
theorem contentHasModule_insertFirstAuth (hstanza : IsStanza stanza) (c : String) :
    contentHasModule (insertFirstAuth c stanza).1 = true := by
  cases h : contentHasModule c with
  | true =>
      rw [insertFirstAuth, h, if_pos rfl]
      exact h
  | false =>
      rw [contentHasModule, lines_insertFirstAuth hstanza h, List.any_append, List.any_cons,
        hstanza.active, Bool.true_or, Bool.or_true]

theorem insertFirstAuth_idem (hstanza : IsStanza stanza) (c : String) :
    insertFirstAuth (insertFirstAuth c stanza).1 stanza =
      ((insertFirstAuth c stanza).1, false) := by
  have h := contentHasModule_insertFirstAuth hstanza c
  generalize (insertFirstAuth c stanza).1 = new at h
  rw [insertFirstAuth, h, if_pos rfl]

/-! ## The module goes out -/

theorem filter_inactive {ls : List String} (h : ∀ l ∈ ls, activeLine l = false) :
    (ls.map stripCr).filter (fun l => !activeLine l) = ls.map stripCr := by
  rw [List.filter_eq_self]
  intro l hl
  obtain ⟨l', hl', rfl⟩ := List.mem_map.1 hl
  rw [activeLine_stripCr, h l' hl', Bool.not_false]

theorem removeModule_insertFirstAuth (hstanza : IsStanza stanza) (h : contentHasModule c = false) :
    removeModule (insertFirstAuth c stanza).1 = (joinLines ((lines c).map stripCr), true) := by
  have hbefore : ∀ l ∈ before c, activeLine l = false := by
    intro l hl
    apply inactive_of_mem h
    rw [← before_append_after c]
    exact List.mem_append_left _ hl
  have hafter : ∀ l ∈ after c, activeLine l = false := by
    intro l hl
    apply inactive_of_mem h
    rw [← before_append_after c]
    exact List.mem_append_right _ hl
  rw [removeModule, contentHasModule_insertFirstAuth hstanza, if_pos rfl,
    lines_insertFirstAuth hstanza h, List.filter_append, List.filter_cons, hstanza.active,
    Bool.not_true, if_neg Bool.false_ne_true, filter_inactive hbefore, filter_inactive hafter,
      ← List.map_append, before_append_after]

/-- The lines come back, up to the carriage returns the two writes took. -/
theorem lines_removeModule_insertFirstAuth (hstanza : IsStanza stanza)
    (h : contentHasModule c = false) :
    lines (removeModule (insertFirstAuth c stanza).1).1 =
      if lines c = [] then [""] else (lines c).map (stripCr ∘ stripCr) := by
  rw [removeModule_insertFirstAuth hstanza h]
  by_cases hempty : lines c = []
  · rw [if_pos hempty, hempty]
    decide
  · have hne : (lines c).map stripCr ≠ [] := fun hnil => hempty (List.map_eq_nil_iff.1 hnil)
    have hlines : ∀ l ∈ (lines c).map stripCr, '\n' ∉ l.toList := by
      intro l hl hmem
      obtain ⟨l', hl', rfl⟩ := List.mem_map.1 hl
      obtain ⟨tail, htail⟩ := toList_stripCr l'
      apply no_newline_of_mem_lines hl'
      rw [htail]
      exact List.mem_append_left _ hmem
    rw [if_neg hempty, joinLines_eq_unlines hne, lines_unlines_stripCr hlines, List.map_map]

theorem contentHasModule_removed (hstanza : IsStanza stanza) (h : contentHasModule c = false) :
    contentHasModule (removeModule (insertFirstAuth c stanza).1).1 = false := by
  rw [contentHasModule, lines_removeModule_insertFirstAuth hstanza h, List.any_eq_false]
  intro l hl
  split at hl
  · rw [List.mem_singleton.1 hl]
    decide
  · obtain ⟨l', hl', rfl⟩ := List.mem_map.1 hl
    rw [Function.comp_apply, activeLine_stripCr, activeLine_stripCr, inactive_of_mem h hl']
    exact Bool.false_ne_true

/-! ## The marker -/

theorem startsWith_of_prefix {s t pat : String} (hs : s.toList <+: t.toList)
    (h : startsWith s pat = true) : startsWith t pat = true := by
  rw [startsWith, List.isPrefixOf_iff_prefix] at h ⊢
  exact h.trans hs

/-- Text without a newline that starts some lines starts the first of them. -/
theorem startsWith_unlines {l : String} {ls : List String} {pat : String}
    (hpat : '\n' ∉ pat.toList) (h : startsWith (unlines (l :: ls)) pat = true) :
    startsWith l pat = true := by
  rw [startsWith, List.isPrefixOf_iff_prefix] at h ⊢
  have htext : (unlines (l :: ls)).toList = l.toList ++ '\n' :: (unlines ls).toList := by
    rw [unlines, String.toList_append, String.toList_append, List.append_assoc]
    rfl
  rw [htext] at h
  rcases List.prefix_or_prefix_of_prefix h (List.prefix_append l.toList _) with hl | ⟨rest, hrest⟩
  · exact hl
  · rw [← hrest, List.prefix_append_right_inj] at h
    cases rest with
    | nil =>
        rw [← hrest, List.append_nil]
    | cons x rest =>
        have hx : x = '\n' := (List.cons_prefix_cons.1 h).1
        apply absurd _ hpat
        rw [← hrest, hx]
        exact List.mem_append_right _ List.mem_cons_self

theorem no_newline_created : '\n' ∉ CREATED_PREFIX.toList := by decide +kernel

theorem isCreatedOverride_insertFirstAuth (hstanza : IsStanza stanza)
    (h : contentHasModule c = false) (hcreated : isCreatedOverride c = false) :
    isCreatedOverride (insertFirstAuth c stanza).1 = false := by
  rw [insertFirstAuth_eq h, isCreatedOverride, ← Bool.not_eq_true]
  intro hmarked
  cases hbefore : before c with
  | nil =>
      rw [hbefore] at hmarked
      have := startsWith_unlines no_newline_created hmarked
      rw [hstanza.unmarked] at this
      exact Bool.false_ne_true this
  | cons l ls =>
      rw [hbefore] at hmarked
      have hl := startsWith_unlines no_newline_created hmarked
      have hfirst : lines c = l :: (ls ++ after c) := by
        rw [← before_append_after c, hbefore, List.cons_append]
      have := startsWith_of_prefix (prefix_of_lines hfirst) hl
      rw [isCreatedOverride] at hcreated
      rw [hcreated] at this
      exact Bool.false_ne_true this

theorem isCreatedOverride_removed (hstanza : IsStanza stanza) (h : contentHasModule c = false)
    (hcreated : isCreatedOverride c = false) :
    isCreatedOverride (removeModule (insertFirstAuth c stanza).1).1 = false := by
  rw [removeModule_insertFirstAuth hstanza h, isCreatedOverride, ← Bool.not_eq_true]
  intro hmarked
  cases hlines : lines c with
  | nil =>
      rw [hlines] at hmarked
      exact absurd hmarked (by decide +kernel)
  | cons l ls =>
      rw [hlines, List.map_cons, joinLines_eq_unlines (List.cons_ne_nil _ _)] at hmarked
      have hl := startsWith_unlines no_newline_created hmarked
      obtain ⟨tail, htail⟩ := toList_stripCr l
      have hwhole : startsWith l CREATED_PREFIX = true :=
        startsWith_of_prefix ⟨tail, htail.symm⟩ hl
      have := startsWith_of_prefix (prefix_of_lines hlines) hwhole
      rw [isCreatedOverride] at hcreated
      rw [hcreated] at this
      exact Bool.false_ne_true this

theorem isCreatedOverride_buildOverride (vendor v stanza : String) :
    isCreatedOverride (buildOverride vendor v stanza) = true := by
  rw [isCreatedOverride, startsWith, List.isPrefixOf_iff_prefix, buildOverride]
  simp only [String.append_assoc]
  rw [String.toList_append]
  exact List.prefix_append _ _

theorem buildOverride_eq (vendor v stanza : String) :
    buildOverride vendor v stanza =
      (CREATED_PREFIX ++ vendor ++ " — delete this file to revert to the vendor copy") ++ "\n" ++
        (insertFirstAuth v stanza).1 := by
  have hmarker : " — delete this file to revert to the vendor copy\n" =
      " — delete this file to revert to the vendor copy" ++ "\n" := rfl
  rw [buildOverride, hmarker]
  simp only [String.append_assoc]

theorem contentHasModule_buildOverride (hstanza : IsStanza stanza) (vendor v : String) :
    contentHasModule (buildOverride vendor v stanza) = true := by
  have hmodule := contentHasModule_insertFirstAuth hstanza v
  rw [contentHasModule] at hmodule
  rw [buildOverride_eq, contentHasModule, lines_append_newline, List.any_append, hmodule,
    Bool.or_true]

end Text

end Linhello.Cli.Pamwire
