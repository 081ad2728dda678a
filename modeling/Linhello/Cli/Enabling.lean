import Linhello.Cli.Removal
import Linhello.Cli.RoundTrip
/-!
# What enable wires

A service file whose enable returned `Ok` has a directive that authenticates with the module
just when the stanza became a directive of its own, or the text had such a directive already.
The editor looks for the name of the module in any phase, and puts the stanza after a line
that may be continued.
-/

namespace Linhello.Cli.Pamwire

open Common Effect LinuxPam Machine

/-- The directive runs the module in the auth phase. -/
def authenticates (line : List String) : Bool :=
  facility line == some .auth && runsModule line

/-- The text has a directive that authenticates with the module, before every line that is
recognised as an auth directive, or the text that was there had it. -/
def FaceAuth (old new : String) : Prop :=
  ∃ front g back, logicalLines new = front ++ g :: back ∧ authenticates g = true ∧
    (g ∈ logicalLines old ∨ ∀ g' ∈ front, ∀ l ∈ g', isAuthDirective l = false)

/-- A text that names the module has such a directive, or the stanza is one, together with
what is left open before it. -/
def Wirable (c stanza : String) : Prop :=
  (contentHasModule c = true ∧ ∃ g ∈ logicalLines c, authenticates g = true) ∨
    (contentHasModule c = false ∧ authenticates (openAfter [] (before c) ++ [stanza]) = true)

/-! ## Where the module is named -/

theorem prefix_append_cases {w front back : List Char} (h : w <+: front ++ back) :
    w <+: front ∨ ∃ more, more <+: back ∧ w = front ++ more := by
  rcases List.prefix_or_prefix_of_prefix h (List.prefix_append front back) with h' | ⟨more, rfl⟩
  · exact .inl h'
  · rw [List.prefix_append_right_inj] at h
    exact .inr ⟨more, h, rfl⟩

theorem infix_of_infix_append {w front back : List Char} (hne : w ≠ [])
    (hfront : ∀ c ∈ front, c ∉ w) (h : w <:+: front ++ back) : w <:+: back := by
  have hnone : ∀ s, s <:+: front → (∀ c ∈ s, c ∈ w) → s = [] := by
    intro s hs hw
    cases s with
    | nil => rfl
    | cons c s =>
        have hc : c ∈ front := hs.subset List.mem_cons_self
        exact absurd (hw c List.mem_cons_self) (hfront c hc)
  rcases List.infix_append_iff.1 h with h | h | ⟨s, t, rfl, hs, ht⟩
  · exact absurd (hnone w h fun c hc => hc) hne
  · exact h
  · rw [hnone s hs.isInfix fun c hc => List.mem_append_left _ hc, List.nil_append]
    exact ht.isInfix

private theorem not_mem_module_of_isWhiteSpace {c : Char} (h : isWhiteSpace c = true) :
    c ∉ MODULE.toList := by
  have hall : MODULE.toList.all (fun c => !isWhiteSpace c) = true := by decide
  intro hmem
  have hnot := List.all_eq_true.1 hall c hmem
  rw [h] at hnot
  exact Bool.false_ne_true hnot

private theorem activeLine_of_infix {l : String} {front : List Char} (hfront : front <+: l.toList)
    (hcomment : '#' ∉ front) (h : MODULE.toList <:+: front) : activeLine l = true := by
  have hsplit := List.takeWhile_append_dropWhile (p := isWhiteSpace) (l := l.toList)
  have hblank : ∀ c ∈ l.toList.takeWhile isWhiteSpace, c ∉ MODULE.toList := fun c hc =>
    not_mem_module_of_isWhiteSpace (List.all_eq_true.1 List.all_takeWhile c hc)
  have hne : MODULE.toList ≠ [] := by decide
  have hwithin : MODULE.toList <:+: l.toList.dropWhile isWhiteSpace := by
    apply infix_of_infix_append hne hblank
    rw [hsplit]
    exact h.trans hfront.isInfix
  have hstart : startsWith (trimStart l) "#" = false := by
    rw [← Bool.not_eq_true]
    intro hstart
    rw [startsWith, trimStart, String.toList_ofList, List.isPrefixOf_iff_prefix,
      String.toList_ofList] at hstart
    obtain ⟨rest, hrest⟩ := hstart
    -- all before the number sign is white space
    have hbefore : front <+: l.toList.takeWhile isWhiteSpace := by
      rw [← hsplit] at hfront
      rcases prefix_append_cases hfront with hpre | ⟨more, hmore, rfl⟩
      · exact hpre
      · cases more with
        | nil => rw [List.append_nil]
        | cons x more =>
            rw [← hrest] at hmore
            have hx : x = '#' := (List.cons_prefix_cons.1 hmore).1
            apply absurd _ hcomment
            rw [hx]
            exact List.mem_append_right _ List.mem_cons_self
    have hnil : MODULE.toList <:+: [] := by
      apply infix_of_infix_append hne hblank
      rw [List.append_nil]
      exact h.trans hbefore.isInfix
    exact hne (List.eq_nil_of_infix_nil hnil)
  have hcontains : contains (trimStart l) MODULE = true := by
    rw [contains, trimStart, String.toList_ofList, decide_eq_true_iff]
    exact hwithin
  unfold activeLine
  simp only [hstart, hcontains, Bool.not_false, Bool.and_self]

/-- A directive that runs the module names it in one of its lines. -/
theorem exists_active_of_runsModule {text : String} {g : List String} (hg : g ∈ logicalLines text)
    (h : runsModule g = true) : ∃ l ∈ g, activeLine l = true := by
  have hmodule : moduleOf g = some MODULE := beq_iff_eq.1 h
  obtain ⟨l, hl, front, hfront, hcomment, hwithin⟩ :=
    exists_infix_of_moduleOf hg (by decide) (by decide) (by decide) hmodule
  exact ⟨l, hl, activeLine_of_infix hfront hcomment hwithin⟩

/-! ## The text after the edit -/

/-- A stanza closes the logical line it stands on, and is a directive by itself. -/
theorem stanza_closes {stanza : String} (h : stanza ∈ STANZAS) :
    isContent stanza = true ∧ continues stanza = false ∧ authenticates [stanza] = true := by
  rcases List.mem_cons.1 h with rfl | h
  · decide +kernel
  rcases List.mem_cons.1 h with rfl | h
  · decide +kernel
  rw [List.mem_singleton.1 h]
  decide +kernel

section Text

variable {c stanza : String}

theorem mem_lines_of_mem_before {l : String} (h : l ∈ before c) : l ∈ lines c := by
  rw [← before_append_after c]
  exact List.mem_append_left _ h

theorem mem_lines_of_mem_after {l : String} (h : l ∈ after c) : l ∈ lines c := by
  rw [← before_append_after c]
  exact List.mem_append_right _ h

theorem logicalLines_insertFirstAuth (hstanza : stanza ∈ STANZAS) (h : contentHasModule c = false) :
    ∃ closed, logicalLines (insertFirstAuth c stanza).1 =
        closed ++ (openAfter [] (before c) ++ [stanza]) :: logicalFrom [] (after c) ∧
      ∀ g ∈ closed, ∀ l ∈ g, l ∈ before c := by
  obtain ⟨hcontent, hcloses, -⟩ := stanza_closes hstanza
  obtain ⟨closed, hlines, hflat⟩ := logicalFrom_split hcontent hcloses [] (before c) (after c)
  refine ⟨closed, ?_, ?_⟩
  · rw [insertFirstAuth_eq h, logicalLines,
      physicalLines_unlines (no_newline_inserted (isStanza_of_mem hstanza)), hlines]
  · intro g hg l hl
    have hmem : l ∈ (before c).filter isContent := by
      rw [List.nil_append] at hflat
      rw [← hflat]
      exact List.mem_append_left _ (List.mem_flatten.2 ⟨g, hg, hl⟩)
    exact List.mem_of_mem_filter hmem

private theorem isAuthDirective_of_mem_before {l : String} (h : l ∈ before c) :
    isAuthDirective l = false := by
  have hnot := List.all_eq_true.1 List.all_takeWhile l h
  rw [Bool.not_eq_true'] at hnot
  exact hnot

/-- In a text that does not name the module, only the stanza can run it. -/
theorem faceAuth_inserted_iff (hstanza : stanza ∈ STANZAS) (h : contentHasModule c = false) :
    FaceAuth c (insertFirstAuth c stanza).1 ↔
      authenticates (openAfter [] (before c) ++ [stanza]) = true := by
  obtain ⟨closed, hlines, hclosed⟩ := logicalLines_insertFirstAuth hstanza h
  constructor
  · rintro ⟨front, g, back, hsplit, hauth, -⟩
    have hg : g ∈ logicalLines (insertFirstAuth c stanza).1 := by
      rw [hsplit]
      exact List.mem_append_right _ List.mem_cons_self
    obtain ⟨l, hl, hactive⟩ := exists_active_of_runsModule hg (Bool.and_eq_true_iff.1 hauth).2
    have hold : l ∉ lines c := by
      intro hmem
      rw [inactive_of_mem h hmem] at hactive
      exact Bool.false_ne_true hactive
    rw [hlines, List.mem_append, List.mem_cons] at hg
    rcases hg with hg | rfl | hg
    · exact absurd (mem_lines_of_mem_before (hclosed g hg l hl)) hold
    · exact hauth
    · exact absurd (mem_lines_of_mem_after (mem_of_mem_logicalFrom hg hl).1) hold
  · intro hauth
    refine ⟨closed, _, _, hlines, hauth, .inr ?_⟩
    intro g hg l hl
    exact isAuthDirective_of_mem_before (hclosed g hg l hl)

/-- After the edit the text authenticates with the module just when it was wirable. -/
theorem faceAuth_insertFirstAuth_iff (hstanza : stanza ∈ STANZAS) (c : String) :
    FaceAuth c (insertFirstAuth c stanza).1 ↔ Wirable c stanza := by
  cases h : contentHasModule c with
  | false =>
      rw [faceAuth_inserted_iff hstanza h, Wirable, h]
      simp only [Bool.false_eq_true, false_and, true_and, false_or]
  | true =>
      rw [insertFirstAuth, Wirable, h, if_pos rfl]
      simp only [Bool.true_eq_false, false_and, true_and, or_false]
      constructor
      · rintro ⟨front, g, back, hlines, hauth, -⟩
        refine ⟨g, ?_, hauth⟩
        rw [hlines]
        exact List.mem_append_right _ List.mem_cons_self
      · rintro ⟨g, hg, hauth⟩
        obtain ⟨front, back, hlines⟩ := List.append_of_mem hg
        exact ⟨front, g, back, hlines, hauth, .inl hg⟩

/-- A text that does not name the module, and leaves no line open where the stanza goes, is
wirable. -/
theorem wirable_of_closed (hstanza : stanza ∈ STANZAS) (h : contentHasModule c = false)
    (hopen : openAfter [] (before c) = []) : Wirable c stanza := by
  apply Or.inr
  rw [hopen, List.nil_append]
  exact ⟨h, (stanza_closes hstanza).2.2⟩

end Text

/-! ## The file after the command -/

/-- The services for which an override is made. -/
def OVERRIDE_PLANS : List OverridePlan :=
  [⟨KDE_FP_LOCKSCREEN, KDE_FP_VENDOR, WAIT_STANZA⟩, ⟨KDE_LOCKSCREEN, KDE_VENDOR, SUFFICIENT_STANZA⟩,
    ⟨PLASMALOGIN_ETC, PLASMALOGIN_VENDOR, SUFFICIENT_STANZA⟩]

theorem logicalLines_buildOverride {vendor : String} (h : '\n' ∉ vendor.toList)
    (v stanza : String) :
    logicalLines (buildOverride vendor v stanza) = logicalLines (insertFirstAuth v stanza).1 := by
  have hline : '\n' ∉ (CREATED_PREFIX ++ vendor ++
      " — delete this file to revert to the vendor copy").toList := by
    simp only [String.toList_append, List.mem_append, not_or]
    exact ⟨⟨no_newline_created, h⟩, by decide +kernel⟩
  have hcomment : isContent (CREATED_PREFIX ++ vendor ++
      " — delete this file to revert to the vendor copy") = false := by
    rw [isContent, String.append_assoc, String.toList_append]
    rfl
  rw [buildOverride_eq, logicalLines, physicalLines_cons hline, logicalFrom_skip hcomment,
    logicalLines]

/-- What enable leaves where a file holds the text `c`. -/
def FileWired (c stanza : String) : Prop :=
  ∀ (path : OsPath) (d d' : Disk) (change : Change),
    d.content path = some (.text c) → NoLink d (tmpPath path) →
    Exec honest (editIn path stanza false).run d (.ok change) d' →
    ∃ c', d'.content path = some (.text c') ∧ (FaceAuth c c' ↔ Wirable c stanza)

/-- What enable leaves where only the vendor has a file. -/
def VendorWired (plan : OverridePlan) : Prop :=
  ∀ (d d' : Disk) (change : Change), ¬ Exists d plan.etc → NoLink d (tmpPath plan.etc) →
    Exec honest (applyOverride plan false).run d (.ok change) d' →
    ∃ v c', d.content plan.vendor = some (.text v) ∧ d'.content plan.etc = some (.text c') ∧
      (FaceAuth v c' ↔ Wirable v plan.stanza)

theorem fileWired {stanza : String} (hstanza : stanza ∈ STANZAS) (c : String) :
    FileWired c stanza := by
  intro path d d' change hcontent hlink h
  have hwired := faceAuth_insertFirstAuth_iff hstanza c
  cases hmodule : contentHasModule c with
  | false =>
      obtain ⟨-, hnode, -⟩ := exec_editIn hcontent hmodule hlink h
      exact ⟨_, content_of_node hnode, hwired⟩
  | true =>
      obtain ⟨-, rfl⟩ := exec_editIn_wired hcontent hmodule h
      refine ⟨c, hcontent, ?_⟩
      rwa [insertFirstAuth, hmodule, if_pos rfl] at hwired

private theorem vendorWired {plan : OverridePlan} (hstanza : plan.stanza ∈ STANZAS)
    (hvendor : '\n' ∉ plan.vendor.toList) : VendorWired plan := by
  intro d d' change hmissing hlink h
  obtain ⟨-, -, v, hread, hnode⟩ := exec_applyOverride_missing hmissing hlink h
  have hcontent := content_of_node hnode
  have hsame := logicalLines_buildOverride hvendor v plan.stanza
  refine ⟨v, buildOverride plan.vendor v plan.stanza, hread, hcontent, ?_⟩
  rw [← faceAuth_insertFirstAuth_iff hstanza v, FaceAuth, FaceAuth, hsame]

/-- After enable returned `Ok` a file authenticates with the module if and only if its text,
or the vendor's, was wirable. -/
theorem enable_wires_iff (c : String) :
    (∀ stanza ∈ STANZAS, (FaceAuth c (insertFirstAuth c stanza).1 ↔ Wirable c stanza) ∧
      FileWired c stanza) ∧
    ∀ plan ∈ OVERRIDE_PLANS, VendorWired plan ∧
      ∀ (d d' : Disk) (change : Change), Exists d plan.etc →
        Exec honest (applyOverride plan false).run d (.ok change) d' →
        Exec honest (editIn plan.etc plan.stanza false).run d (.ok change) d' := by
  constructor
  · intro stanza hstanza
    exact ⟨faceAuth_insertFirstAuth_iff hstanza c, fileWired hstanza c⟩
  · intro plan hplan
    have hknown : plan.stanza ∈ STANZAS ∧ '\n' ∉ plan.vendor.toList := by
      rcases List.mem_cons.1 hplan with rfl | hplan
      · decide +kernel
      rcases List.mem_cons.1 hplan with rfl | hplan
      · decide +kernel
      rw [List.mem_singleton.1 hplan]
      decide +kernel
    constructor
    · exact vendorWired hknown.1 hknown.2
    · intro d d' change hthere h
      exact exec_applyOverride_existing hthere h

def sddmHost (text : String) : Disk where
  node p := if p = SDDM then some (.file (.text text)) else none

private theorem noLink_sddmHost (text : String) (p : OsPath) : NoLink (sddmHost text) p := by
  intro target h
  have h : (if p = SDDM then some (Node.file (.text text)) else none) = some (.link target) := h
  split at h
  · exact nomatch h
  · exact nomatch h

set_option maxRecDepth 4000 in
theorem enable_wires_sddm : ∃ d' c',
    Exec honest (editIn SDDM GREETER_STANZA false).run (sddmHost GDM) (.ok (.edited SDDM)) d' ∧
      d'.content SDDM = some (.text c') ∧ FaceAuth GDM c' := by
  have henable := exec_of_eval honest_sound (editIn SDDM GREETER_STANZA false).run (sddmHost GDM)
  have hedited : (eval sound (editIn SDDM GREETER_STANZA false).run (sddmHost GDM)).1 =
      .ok (.edited SDDM) := by
    rfl
  rw [hedited] at henable
  generalize (eval sound (editIn SDDM GREETER_STANZA false).run (sddmHost GDM)).2 = d' at henable
  have hcontent : (sddmHost GDM).content SDDM = some (.text GDM) := by rfl
  obtain ⟨c', hcontent, hwired⟩ := ((enable_wires_iff GDM).1 GREETER_STANZA (by decide)).2 SDDM
    (sddmHost GDM) d' _ hcontent (noLink_sddmHost GDM _) henable
  have hmodule : contentHasModule GDM = false := by decide +kernel
  have hclosed : openAfter [] (before GDM) = [] := by decide +kernel
  have hwirable : Wirable GDM GREETER_STANZA := wirable_of_closed (by decide) hmodule hclosed
  exact ⟨d', c', henable, hcontent, hwired.2 hwirable⟩

/-- The line that keeps the sealed password in step. -/
def RESEAL : String := "password optional   pam_linhello.so\n"

set_option maxRecDepth 4000 in
/-- With that line in another phase the file counts as wired, and does not authenticate. -/
theorem not_faceAuth_reseal : ∃ d',
    Exec honest (editIn SDDM GREETER_STANZA false).run (sddmHost RESEAL)
        (.ok (.alreadyWired SDDM)) d' ∧
      d'.content SDDM = some (.text RESEAL) ∧ ¬ FaceAuth RESEAL RESEAL := by
  have henable := exec_of_eval honest_sound (editIn SDDM GREETER_STANZA false).run
    (sddmHost RESEAL)
  have hwired : (eval sound (editIn SDDM GREETER_STANZA false).run (sddmHost RESEAL)).1 =
      .ok (.alreadyWired SDDM) := by
    rfl
  rw [hwired] at henable
  generalize (eval sound (editIn SDDM GREETER_STANZA false).run (sddmHost RESEAL)).2 = d' at henable
  have hmodule : contentHasModule RESEAL = true := by decide +kernel
  have hcontent : (sddmHost RESEAL).content SDDM = some (.text RESEAL) := by rfl
  obtain ⟨-, hsame⟩ := exec_editIn_wired hcontent hmodule henable
  apply Exists.intro d'
  apply And.intro henable
  rw [hsame]
  apply And.intro hcontent
  rintro ⟨front, g, back, hlines, hauth, -⟩
  have hg : g ∈ logicalLines RESEAL := by
    rw [hlines]
    exact List.mem_append_right _ List.mem_cons_self
  have hnone : ∀ g ∈ logicalLines RESEAL, authenticates g = false := by decide +kernel
  rw [hnone g hg] at hauth
  exact Bool.false_ne_true hauth

end Linhello.Cli.Pamwire
