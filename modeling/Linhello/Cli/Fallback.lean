import Linhello.Cli.Enabling
import Linhello.LinuxPam.Control
/-!
# The stack after the stanza failed

The stanza that enable puts in does nothing when the face module fails. It can still make a
jump of an earlier handler land elsewhere: the editor looks for the first line whose word is
`auth`, and libpam reads that word without regard to case.
-/

namespace Linhello.Cli.Pamwire

open Common LinuxPam

/-! ## One directive per line -/

/-- Every line that says something is a directive, for libpam and for the editor. -/
structure LineByLine (c : String) : Prop where
  closed : ∀ p ∈ physicalLines c, isContent p = true → continues p = false
  seen : ∀ p ∈ physicalLines c, isContent p = true → p.toList.getLast? ≠ some '\r'

def authSites (files : String → List Site) (ls : List String) : List Site :=
  sitesFor .auth files (logicalFrom [] ls)

/-- The handlers in front of the place where the stanza goes. -/
def sitesBefore (files : String → List Site) (c : String) : List Site :=
  authSites files (before c)

def sitesAfter (files : String → List Site) (c : String) : List Site :=
  authSites files (after c)

section Lines

variable {c stanza : String} {files : String → List Site} {ls ls' : List String}

theorem logicalFrom_of_closed (h : ∀ l ∈ ls, isContent l = true → continues l = false) :
    logicalFrom [] ls = (ls.filter isContent).map fun l => [l] := by
  induction ls with
  | nil => rfl
  | cons l ls ih =>
      have hrest := ih fun l' hl' => h l' (List.mem_cons_of_mem _ hl')
      cases hl : isContent l with
      | false => rw [logicalFrom_skip hl, hrest, List.filter_cons, hl, if_neg Bool.false_ne_true]
      | true =>
          rw [logicalFrom_close hl (h l List.mem_cons_self hl), hrest, List.filter_cons, if_pos hl,
            List.map_cons, List.nil_append]

theorem authSites_append (h : ∀ l ∈ ls ++ ls', isContent l = true → continues l = false) :
    authSites files (ls ++ ls') = authSites files ls ++ authSites files ls' := by
  have hleft : ∀ l ∈ ls, isContent l = true → continues l = false :=
    fun l hl => h l (List.mem_append_left _ hl)
  have hright : ∀ l ∈ ls', isContent l = true → continues l = false :=
    fun l hl => h l (List.mem_append_right _ hl)
  rw [authSites, authSites, authSites, logicalFrom_of_closed h, logicalFrom_of_closed hleft,
    logicalFrom_of_closed hright, List.filter_append, List.map_append, sitesFor, sitesFor, sitesFor,
    List.filter_append, List.flatMap_append]

theorem filter_isContent_lines (hmodule : contentHasModule c = false) (h : LineByLine c) :
    (lines c).filter isContent = (physicalLines c).filter isContent := by
  have hlines : (lines c).filter isContent = (lines c).filter stays := by
    apply List.filter_congr
    intro l hl
    rw [stays, inactive_of_mem hmodule hl, Bool.not_false, Bool.and_true]
  rw [hlines, filter_isContent_of_inactive hmodule, filter_stays_iff (readAs_lines c)]
  intro pl hpl hstays
  obtain ⟨hp, -⟩ := List.of_mem_zip hpl
  have hcontent : isContent pl.1 = true := (Bool.and_eq_true_iff.1 hstays).1
  cases List.forall₂_zip (readAs_lines c) hpl with
  | inl heq => exact heq
  | inr heq => rw [heq, stripCr_of_noReturn (h.seen _ hp hcontent)]

theorem closed_lines (hmodule : contentHasModule c = false) (h : LineByLine c) :
    ∀ l ∈ lines c, isContent l = true → continues l = false := by
  intro l hl hcontent
  have hmem : l ∈ (lines c).filter isContent := List.mem_filter.2 ⟨hl, hcontent⟩
  rw [filter_isContent_lines hmodule h] at hmem
  exact h.closed l (List.mem_filter.1 hmem).1 hcontent

theorem authSites_lines (hmodule : contentHasModule c = false) (h : LineByLine c) :
    authSites files (physicalLines c) = sitesBefore files c ++ sitesAfter files c := by
  have hsame : logicalFrom [] (physicalLines c) = logicalFrom [] (lines c) := by
    rw [← logicalFrom_filter_isContent, ← filter_isContent_lines hmodule h,
      logicalFrom_filter_isContent]
  have hclosed := closed_lines hmodule h
  rw [← before_append_after c] at hclosed
  rw [authSites, hsame, ← before_append_after c]
  exact authSites_append hclosed

theorem authSites_inserted (hstanza : stanza ∈ STANZAS) (hmodule : contentHasModule c = false)
    (h : LineByLine c) :
    authSites files (physicalLines (insertFirstAuth c stanza).1) =
      sitesBefore files c ++ sitesOf files [stanza] ++ sitesAfter files c := by
  obtain ⟨hcontent, hcloses, hauth⟩ := stanza_closes hstanza
  have hclosed := closed_lines hmodule h
  have hall : ∀ l ∈ before c ++ stanza :: after c, isContent l = true → continues l = false := by
    intro l hl
    rw [List.mem_append, List.mem_cons] at hl
    rcases hl with hl | rfl | hl
    · exact hclosed l (mem_lines_of_mem_before hl)
    · exact fun _ => hcloses
    · exact hclosed l (mem_lines_of_mem_after hl)
  have hone : authSites files [stanza] = sitesOf files [stanza] := by
    have hfacility : facility [stanza] = some .auth := by
      exact beq_iff_eq.1 (Bool.and_eq_true_iff.1 hauth).1
    rw [authSites, logicalFrom_close hcontent hcloses, sitesFor, List.nil_append, logicalFrom,
      if_pos rfl, List.filter_singleton, hfacility]
    exact List.flatMap_singleton _ _
  have htail :
      authSites files (stanza :: after c) = sitesOf files [stanza] ++ sitesAfter files c := by
    rw [← List.singleton_append, authSites_append fun l hl => hall l (List.mem_append_right _ hl),
      hone]
    rfl
  rw [insertFirstAuth_eq hmodule,
    physicalLines_unlines (no_newline_inserted (isStanza_of_mem hstanza)), authSites_append hall,
    htail, List.append_assoc]
  rfl

end Lines

/-! ## The stanza -/

/-- The control of the directive that a stanza is. -/
def stanzaControl (stanza : String) : Control :=
  match tokens [stanza] with
  | _ :: control :: _ => controlOf control
  | _ => fun _ => .bad

/-- The face module returned neither of the values that mean success. -/
def FaceFails (outcome : Outcome) : Prop :=
  outcome.ret ≠ SUCCESS ∧ outcome.ret ≠ NEW_AUTHTOK_REQD

theorem sitesOf_stanza {stanza : String} (h : stanza ∈ STANZAS) (files : String → List Site) :
    sitesOf files [stanza] = [.module (stanzaControl stanza)] := by
  have hwords : ∃ kind control path, tokens [stanza] = kind :: control :: path ∧
      sameWord control "include" = false ∧ sameWord control "substack" = false := by
    rcases List.mem_cons.1 h with rfl | h
    · exact ⟨"auth", "success=1 default=ignore", ["pam_linhello.so"], by decide +kernel⟩
    rcases List.mem_cons.1 h with rfl | h
    · exact ⟨"auth", "sufficient", ["pam_linhello.so"], by decide +kernel⟩
    rw [List.mem_singleton.1 h]
    exact ⟨"auth", "sufficient", ["pam_linhello.so", "wait"], by decide +kernel⟩
  obtain ⟨kind, control, path, htokens, hinclude, hsubstack⟩ := hwords
  rw [sitesOf_words htokens hinclude hsubstack, stanzaControl, htokens]

theorem greeterControl_eq :
    stanzaControl GREETER_STANZA = bracketed [("success", .jump 1), ("default", .ignore)] := by
  have htokens :
      tokens [GREETER_STANZA] = ["auth", "success=1 default=ignore", "pam_linhello.so"] := by
    decide +kernel
  have hpairs : (tokensFrom .between "success=1 default=ignore".toList).mapM valueAction =
      some [("success", .jump 1), ("default", .ignore)] := by
    decide +kernel
  have hkeyword : sameWord "success=1 default=ignore" "required" = false ∧
      sameWord "success=1 default=ignore" "requisite" = false ∧
      sameWord "success=1 default=ignore" "sufficient" = false ∧
      sameWord "success=1 default=ignore" "optional" = false := by
    decide +kernel
  obtain ⟨hrequired, hrequisite, hsufficient, hoptional⟩ := hkeyword
  rw [stanzaControl, htokens]
  simp only [controlOf, hrequired, hrequisite, hsufficient, hoptional, hpairs, Bool.false_eq_true,
    if_false]

theorem sufficientControl_eq {stanza : String}
    (h : stanza = SUFFICIENT_STANZA ∨ stanza = WAIT_STANZA) :
    stanzaControl stanza = sufficient := by
  have htokens : ∃ kind path, tokens [stanza] = kind :: "sufficient" :: path := by
    cases h with
    | inl h =>
        rw [h]
        exact ⟨"auth", ["pam_linhello.so"], by decide +kernel⟩
    | inr h =>
        rw [h]
        exact ⟨"auth", ["pam_linhello.so", "wait"], by decide +kernel⟩
  have hkeyword : sameWord "sufficient" "required" = false ∧
      sameWord "sufficient" "requisite" = false ∧ sameWord "sufficient" "sufficient" = true := by
    decide +kernel
  obtain ⟨hrequired, hrequisite, hsufficient⟩ := hkeyword
  obtain ⟨kind, path, htokens⟩ := htokens
  rw [stanzaControl, htokens]
  simp only [controlOf, hrequired, hrequisite, hsufficient, Bool.false_eq_true, if_false, if_true]

private theorem bracketed_greeter {ret : String} (h : ret ≠ SUCCESS) :
    bracketed [("success", .jump 1), ("default", .ignore)] ret = .ignore := by
  have hsuccess : ("success" == ret) = false := by
    rw [beq_eq_false_iff_ne]
    exact fun heq => h heq.symm
  have hdefault : ("success" == "default") = false := by decide
  rw [bracketed]
  simp only [List.reverse_cons, List.reverse_nil, List.nil_append, List.singleton_append,
    List.find?_cons, hsuccess, hdefault, List.find?_nil]
  cases ("default" == ret) with
  | true => rfl
  | false => rfl

theorem stanza_neutral {stanza : String} (h : stanza ∈ STANZAS) (counts : Bool) {outcome : Outcome}
    (hfails : FaceFails outcome) (v : Verdict) :
    (Site.module (stanzaControl stanza)).entry counts outcome v = (v, .on) := by
  have hignore : stanzaControl stanza outcome.ret = .ignore := by
    have hsufficient : sufficient outcome.ret = .ignore := if_neg (not_or.2 hfails)
    rcases List.mem_cons.1 h with rfl | h
    · rw [greeterControl_eq, bracketed_greeter hfails.1]
    rcases List.mem_cons.1 h with rfl | h
    · rw [sufficientControl_eq (.inl rfl), hsufficient]
    rw [sufficientControl_eq (.inr (List.mem_singleton.1 h)), hsufficient]
  rw [Site.entry, hignore]
  rfl

/-! ## The stack after the edit -/

/-- What the edit leaves of the stack when the face module fails. -/
structure FallbackKept (counts : Bool) (files : String → List Site) (c stanza : String) : Prop where
  original : authSites files (physicalLines c) = sitesBefore files c ++ sitesAfter files c
  edited : authSites files (physicalLines (insertFirstAuth c stanza).1) =
    sitesBefore files c ++ .module (stanzaControl stanza) :: sitesAfter files c
  transparent : Transparent counts (.module (stanzaControl stanza)) FaceFails
    (sitesBefore files c) (sitesAfter files c)

private theorem fallbackKept_of_jumpsStay (counts : Bool) (files : String → List Site)
    {c stanza : String}
    (hstanza : stanza ∈ STANZAS) (hmodule : contentHasModule c = false) (h : LineByLine c)
    (hjumps : JumpsStay (sitesBefore files c ++ sitesAfter files c) (sitesBefore files c).length) :
    FallbackKept counts files c stanza := by
  constructor
  · exact authSites_lines hmodule h
  · rw [authSites_inserted hstanza hmodule h, sitesOf_stanza hstanza, List.append_assoc,
      List.singleton_append]
  · apply (transparent_iff _).2 hjumps
    intro outcome hfails v
    exact stanza_neutral hstanza counts hfails v

/-- With one directive per line, the edit keeps the fallback if and only if no jump of a
handler in front of the stanza crosses it. -/
theorem fallbackKept_iff (counts : Bool) (files : String → List Site) {c stanza : String}
    (hstanza : stanza ∈ STANZAS) (hmodule : contentHasModule c = false) (h : LineByLine c) :
    FallbackKept counts files c stanza ↔
      JumpsStay (sitesBefore files c ++ sitesAfter files c) (sitesBefore files c).length := by
  constructor
  · intro hkept
    apply (transparent_iff _).1 hkept.transparent
    intro outcome hfails v
    exact stanza_neutral hstanza counts hfails v
  · exact fallbackKept_of_jumpsStay counts files hstanza hmodule h

/-- Without an auth directive in front of the stanza there is no handler either. -/
theorem sitesBefore_eq_nil {c : String} (files : String → List Site)
    (hmodule : contentHasModule c = false)
    (h : LineByLine c)
    (hfirst : ∀ l ∈ before c, isContent l = true → facility [l] ≠ some .auth) :
    sitesBefore files c = [] := by
  have hclosed := closed_lines hmodule h
  rw [sitesBefore, authSites, logicalFrom_of_closed fun l hl =>
    hclosed l (mem_lines_of_mem_before hl), sitesFor]
  have hnone : (((before c).filter isContent).map fun l => [l]).filter
      (fun g => facility g == some .auth) = [] := by
    rw [List.filter_eq_nil_iff]
    intro g hg hauth
    obtain ⟨l, hl, rfl⟩ := List.mem_map.1 hg
    obtain ⟨hbefore, hcontent⟩ := List.mem_filter.1 hl
    exact hfirst l hbefore hcontent (beq_iff_eq.1 hauth)
  rw [hnone, List.flatMap_nil]

/-! ## A jump that is crossed -/

theorem fallbackKept_iff_gdm : FallbackKept true (fun _ => [.module required, .module sufficient])
    GDM GREETER_STANZA := by
  have hmodule : contentHasModule GDM = false := by decide +kernel
  have hlines : LineByLine GDM := ⟨by decide +kernel, by decide +kernel⟩
  refine (fallbackKept_iff true _ (by decide) hmodule hlines).2 ?_
  have hbefore : sitesBefore (fun _ => [.module required, .module sufficient]) GDM = [] := by
    apply sitesBefore_eq_nil _ hmodule hlines
    decide +kernel
  rw [hbefore]
  intro j control ret n hj
  exact absurd hj (Nat.not_lt_zero _)

/-- The first word of a rule may be written in capitals. -/
def CAPITALS : String :=
  "AUTH [success=1 default=ignore] pam_ldap.so\nauth required pam_unix.so\nauth required pam_env.so\n"

/-- The first module succeeds, which jumps over the second one, which fails. -/
def ldapOnly (j : Nat) : Outcome := ⟨if j = 1 then "auth_err" else "success", id⟩

def noFiles : String → List Site := fun _ => []

theorem capitals_lineByLine : contentHasModule CAPITALS = false ∧ LineByLine CAPITALS :=
  ⟨by decide +kernel, by decide +kernel, by decide +kernel⟩

private theorem capitals_sites :
    sitesBefore noFiles CAPITALS = [.module (controlOf "success=1 default=ignore")] ∧
      sitesAfter noFiles CAPITALS =
        [.module (controlOf "required"), .module (controlOf "required")] := by
  have hbefore : before CAPITALS = ["AUTH [success=1 default=ignore] pam_ldap.so"] := by
    decide +kernel
  have hafter : after CAPITALS = ["auth required pam_unix.so", "auth required pam_env.so"] := by
    decide +kernel
  have hldap : tokens ["AUTH [success=1 default=ignore] pam_ldap.so"] =
      ["AUTH", "success=1 default=ignore", "pam_ldap.so"] := by decide +kernel
  have hunix : tokens ["auth required pam_unix.so"] = ["auth", "required", "pam_unix.so"] := by
    decide +kernel
  have henv : tokens ["auth required pam_env.so"] = ["auth", "required", "pam_env.so"] := by
    decide +kernel
  have hfirst : logicalFrom [] ["AUTH [success=1 default=ignore] pam_ldap.so"] =
      [["AUTH [success=1 default=ignore] pam_ldap.so"]] := by decide +kernel
  have hrest : logicalFrom [] ["auth required pam_unix.so", "auth required pam_env.so"] =
      [["auth required pam_unix.so"], ["auth required pam_env.so"]] := by decide +kernel
  have hauth : ∀ word, sameWord word "auth" = true → word.toList.head? ≠ some '-' →
      facilityOf word = some .auth := by
    intro word hsame hdash
    rw [facilityOf]
    simp only [if_neg hdash, hsame, if_true]
  have hcapitals : facilityOf "AUTH" = some .auth := hauth "AUTH" (by decide) (by decide)
  have hlower : facilityOf "auth" = some .auth := hauth "auth" (by decide) (by decide)
  constructor
  · rw [sitesBefore, hbefore, authSites, hfirst, sitesFor, List.filter_singleton, facility, hldap]
    simp only [List.head?_cons, Option.bind_some, hcapitals, BEq.rfl, cond_true,
      List.flatMap_singleton]
    exact sitesOf_words hldap (by decide) (by decide)
  · rw [sitesAfter, hafter, authSites, hrest, sitesFor]
    simp only [List.filter_cons, List.filter_nil, facility, hunix, henv, List.head?_cons,
      Option.bind_some, hlower, BEq.rfl, if_true, List.flatMap_cons, List.flatMap_nil]
    rw [sitesOf_words hunix (by decide) (by decide), sitesOf_words henv (by decide) (by decide)]
    rfl

/-- The stanza goes behind the jump, which then lands on the module it jumped over: a user who
was let in is let in no more. -/
theorem not_fallbackKept : LineByLine CAPITALS ∧ contentHasModule CAPITALS = false ∧
    ∀ counts : Bool,
      (evaluate counts (authSites noFiles (physicalLines CAPITALS)) ldapOnly).2.grants = true ∧
      (evaluate counts
        (authSites noFiles (physicalLines (insertFirstAuth CAPITALS GREETER_STANZA).1))
        (insertAt 1 ⟨"auth_err", id⟩ ldapOnly)).2.grants = false ∧
      ¬ FallbackKept counts noFiles CAPITALS GREETER_STANZA := by
  obtain ⟨hmodule, hlines⟩ := capitals_lineByLine
  obtain ⟨hbefore, hafter⟩ := capitals_sites
  have hstanza : GREETER_STANZA ∈ STANZAS := List.mem_cons_self
  refine ⟨hlines, hmodule, ?_⟩
  intro counts
  have hgranted : (evaluate counts (authSites noFiles (physicalLines CAPITALS)) ldapOnly).2.grants =
      true := by
    rw [authSites_lines hmodule hlines, hbefore, hafter]
    cases counts with
    | true => decide +kernel
    | false => decide +kernel
  have hdenied : (evaluate counts
      (authSites noFiles (physicalLines (insertFirstAuth CAPITALS GREETER_STANZA).1))
      (insertAt 1 ⟨"auth_err", id⟩ ldapOnly)).2.grants = false := by
    rw [authSites_inserted hstanza hmodule hlines, hbefore, hafter, sitesOf_stanza hstanza,
      greeterControl_eq]
    cases counts with
    | true => decide +kernel
    | false => decide +kernel
  refine ⟨hgranted, hdenied, ?_⟩
  intro hkept
  have hfront : (sitesBefore noFiles CAPITALS).length = 1 := by rw [hbefore, List.length_singleton]
  have hfails : FaceFails ⟨"auth_err", id⟩ := by
    constructor
    · exact (by decide : ("auth_err" : String) ≠ SUCCESS)
    · exact (by decide : ("auth_err" : String) ≠ NEW_AUTHTOK_REQD)
  have hgrants := hkept.transparent.grants ldapOnly ⟨"auth_err", id⟩ hfails
  rw [hfront, ← hkept.edited, ← hkept.original, hgranted, hdenied] at hgrants
  exact Bool.false_ne_true hgrants

end Linhello.Cli.Pamwire
