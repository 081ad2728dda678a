import Linhello.Cli.Fallback
/-!
# The stack after the face module succeeded

The greeter stanza jumps over one handler. The directive it should jump over includes a file,
which stands for as many handlers as it has rules.
-/

namespace Linhello.Cli.Pamwire

open Common LinuxPam

/-- The first auth directive is `auth include S`. -/
structure FirstIncludes (c S : String) (rest : List String) : Prop where
  first : ∀ l ∈ before c, isContent l = true → facility [l] ≠ some .auth
  line : ∃ l, after c = l :: rest ∧ isContent l = true ∧ facility [l] = some .auth ∧
    ∃ kind control args, tokens [l] = kind :: control :: S :: args ∧
      sameWord control "include" = true

def FACE_SUCCESS : Outcome := ⟨SUCCESS, id⟩

/-- None of the rules of the file that is included runs, and all handlers behind them do. -/
def KeyringReached (counts : Bool) (files : String → List Site) (c S : String)
    (rest : List String) (out : Nat → Outcome) : Prop :=
  let ran := (evaluate counts (authSites files (physicalLines (insertFirstAuth c GREETER_STANZA).1))
    (insertAt 0 FACE_SUCCESS out)).1
  (∀ j, j < (files S).length → j + 1 ∉ ran) ∧
    ∀ j, j < (authSites files rest).length → (files S).length + 1 + j ∈ ran

def Verdict.afterJump (counts : Bool) : Verdict :=
  if counts then Verdict.initial.accept true else .initial

/-- The handlers from position `k` on all run, one after the other. -/
def AllRun (counts : Bool) (v : Verdict) (sites : List Site)
    (out : Nat → Outcome) (k : Nat) : Prop :=
  ∀ j, j < sites.length → j ∈ (runFrom Verdict.broken v 0 0 (entriesFrom counts out k sites)).1

section Greeter

variable {counts : Bool} {files : String → List Site} {c S : String} {rest : List String}
  {out : Nat → Outcome}

theorem authSites_greeter (hmodule : contentHasModule c = false) (h : LineByLine c)
    (hfirst : FirstIncludes c S rest) :
    authSites files (physicalLines (insertFirstAuth c GREETER_STANZA).1) =
      .module (stanzaControl GREETER_STANZA) :: (files S ++ authSites files rest) := by
  obtain ⟨l, hafter, hcontent, hfacility, kind, control, args, htokens, hinclude⟩ := hfirst.line
  have hstanza : GREETER_STANZA ∈ STANZAS := List.mem_cons_self
  have hclosed : ∀ l' ∈ l :: rest, isContent l' = true → continues l' = false := by
    intro l' hl'
    apply closed_lines hmodule h
    apply mem_lines_of_mem_after
    rw [hafter]
    exact hl'
  have hone : authSites files [l] = files S := by
    have hcloses := hclosed l List.mem_cons_self hcontent
    rw [authSites, logicalFrom_close hcontent hcloses, sitesFor, List.nil_append, logicalFrom,
      if_pos rfl, List.filter_singleton, hfacility]
    have hsites : sitesOf files [l] = files S := by
      rw [sitesOf, htokens]
      simp only [hinclude, if_true]
      rfl
    rw [← hsites]
    exact List.flatMap_singleton _ _
  have htail : sitesAfter files c = files S ++ authSites files rest := by
    rw [sitesAfter, hafter, ← List.singleton_append, authSites_append hclosed, hone]
  rw [authSites_inserted hstanza hmodule h, sitesOf_stanza hstanza,
    sitesBefore_eq_nil files hmodule h hfirst.first, htail]
  rfl

private theorem runFrom_greeter (sites : List Site) :
    evaluate counts (.module (stanzaControl GREETER_STANZA) :: sites)
        (insertAt 0 FACE_SUCCESS out) =
      (0 :: (runFrom Verdict.broken (Verdict.afterJump counts) 1 1
          (entriesFrom counts out 0 sites)).1,
        (runFrom Verdict.broken (Verdict.afterJump counts) 1 1
          (entriesFrom counts out 0 sites)).2) := by
  have hjump : stanzaControl GREETER_STANZA SUCCESS = .jump 1 := by
    rw [greeterControl_eq]
    decide
  have hentry : (Site.module (stanzaControl GREETER_STANZA)).entry counts FACE_SUCCESS .initial =
      (Verdict.afterJump counts, .skip 1) := by
    rw [Site.entry, FACE_SUCCESS, hjump]
    rfl
  have hentries := @entriesFrom_insert counts (.module (stanzaControl GREETER_STANZA)) FACE_SUCCESS
    out [] sites
  rw [evaluate, ← List.nil_append (Site.module _ :: sites)]
  exact (congrArg _ hentries).trans (runFrom_skip hentry)

/-- With one rule to jump over the handlers behind it are reached; with more, the second
rule is. -/
theorem keyringReached_iff (hmodule : contentHasModule c = false) (h : LineByLine c)
    (hfirst : FirstIncludes c S rest) (hrules : files S ≠ []) :
    KeyringReached counts files c S rest out ↔
      (files S).length = 1 ∧
        AllRun counts (Verdict.afterJump counts) (authSites files rest) out 1 := by
  rw [KeyringReached, authSites_greeter hmodule h hfirst, runFrom_greeter]
  generalize files S = rules at hrules
  generalize authSites files rest = behind
  cases rules with
  | nil => exact absurd rfl hrules
  | cons rule more =>
      rw [List.cons_append, entriesFrom, runFrom_jumped]
      cases more with
      | nil =>
          rw [List.nil_append, runFrom_succ, runFrom_succ, AllRun]
          generalize (runFrom Verdict.broken (Verdict.afterJump counts) 0 0
            (entriesFrom counts out 1 behind)).1 = ran
          -- the handlers behind the one rule stand two places further
          have hplaces : ∀ i, i ∈ 0 :: (ran.map (· + 1)).map (· + 1) ↔ i = 0 ∨
              ∃ j ∈ ran, j + 2 = i := by
            intro i
            rw [List.mem_cons, List.map_map, List.mem_map]
            rfl
          simp only [hplaces, List.length_singleton, true_and]
          constructor
          · rintro ⟨-, hreached⟩ j hj
            rcases hreached j hj with heq | ⟨i, hi, heq⟩
            · omega
            · obtain rfl : i = j := by omega
              exact hi
          · intro hall
            constructor
            · rintro j hj (heq | ⟨i, -, heq⟩)
              · omega
              · omega
            · intro j hj
              exact .inr ⟨j, hall j hj, by omega⟩
      | cons second more =>
          rw [List.cons_append, entriesFrom]
          refine iff_of_false ?_ ?_
          · intro hreached
            apply hreached.1 1
            · simp only [List.length_cons]
              omega
            · exact List.mem_cons_of_mem _ mem_runFrom_head
          · rintro ⟨hlength, -⟩
            simp only [List.length_cons] at hlength
            omega

end Greeter

/-! ## Two greeters -/

/-- The stack of a greeter that unlocks the keyring. -/
def KEYRING : String := "auth include system-login\nauth optional pam_gnome_keyring.so\n"

theorem keyring_firstIncludes :
    FirstIncludes KEYRING "system-login" ["auth optional pam_gnome_keyring.so"] where
  first := by decide +kernel
  line := ⟨"auth include system-login", by decide +kernel, by decide +kernel, by decide +kernel,
    "auth", "include", [], by decide +kernel⟩

theorem keyring_lineByLine : contentHasModule KEYRING = false ∧ LineByLine KEYRING :=
  ⟨by decide +kernel, by decide +kernel, by decide +kernel⟩

theorem keyringReached_iff_one : KeyringReached true (fun _ => [.module required]) KEYRING
    "system-login" ["auth optional pam_gnome_keyring.so"] fun _ => FACE_SUCCESS := by
  refine (keyringReached_iff keyring_lineByLine.1 keyring_lineByLine.2 keyring_firstIncludes
    (List.cons_ne_nil _ _)).2 ⟨rfl, ?_⟩
  have hsites :
      (authSites (fun _ => [.module required]) ["auth optional pam_gnome_keyring.so"]).length =
      1 := by decide +kernel
  intro j hj
  rw [hsites] at hj
  obtain rfl : j = 0 := by omega
  decide +kernel

/-- A file of two rules: the second of them runs. -/
theorem not_keyringReached : LineByLine KEYRING ∧
    FirstIncludes KEYRING "system-login" ["auth optional pam_gnome_keyring.so"] ∧
    ∀ counts, ¬ KeyringReached counts (fun _ => [.module required, .module required]) KEYRING
      "system-login" ["auth optional pam_gnome_keyring.so"] fun _ => FACE_SUCCESS := by
  refine ⟨keyring_lineByLine.2, keyring_firstIncludes, ?_⟩
  intro counts hreached
  have hran : ∀ counts, 2 ∈ (evaluate counts
      (authSites (fun _ => [.module required, .module required])
        (physicalLines (insertFirstAuth KEYRING GREETER_STANZA).1))
      (insertAt 0 FACE_SUCCESS fun _ => FACE_SUCCESS)).1 := by
    decide +kernel
  exact hreached.1 1 (by decide) (hran counts)

end Linhello.Cli.Pamwire
