import Linhello.Cli.Disk
import Linhello.Cli.Uninstall
import Linhello.Effect.Moments
/-!
# What the scrub leaves

The scrub skips a file it cannot read, a name that looks like a backup, and a write that
fails, and the removal of the module follows in any case. No stack that can be loaded is
left with a reference exactly as long as nothing of this happens to it.
-/

namespace Linhello.Cli.Uninstall

open Common Effect Machine Pamwire

/-! ## The cleaned text -/

private theorem contains_of_refers {s : String} (h : contentHasModule s = true) :
    contains s "pam_linhello" = true := by
  obtain ⟨l, hl, hactive⟩ := List.any_eq_true.1 h
  rw [activeLine, Bool.and_eq_true] at hactive
  have hmodule : MODULE.toList <:+: (trimStart l).toList := of_decide_eq_true hactive.2
  have htrim : (trimStart l).toList <:+: l.toList := by
    rw [trimStart, String.toList_ofList]
    exact (List.dropWhile_suffix _).isInfix
  have hname : "pam_linhello".toList <:+: MODULE.toList := by decide
  exact decide_eq_true (((hname.trans hmodule).trans htrim).trans (infix_of_mem_lines hl))

theorem not_refers_of_infix {s t : String} (hs : contains s "pam_linhello" = false)
    (ht : t.toList <:+: s.toList) : (Content.text t).refers = false := by
  rw [← Bool.not_eq_true] at hs ⊢
  intro hrefers
  have hwithin : "pam_linhello".toList <:+: t.toList :=
    of_decide_eq_true (contains_of_refers hrefers)
  exact hs (decide_eq_true (hwithin.trans ht))

/-- Nothing of the module is left in the cleaned text, commented or not. -/
theorem contains_cleanedOf (content : String) :
    contains (cleanedOf content) "pam_linhello" = false := by
  have hpat : '\n' ∉ "pam_linhello".toList := by decide
  have hne : "pam_linhello".toList ≠ [] := by decide
  have hkept : ∀ l ∈ (lines content).filter (fun l => !contains l "pam_linhello"),
      ¬"pam_linhello".toList <:+: l.toList := by
    intro l hl hwithin
    have hnot := (List.mem_filter.1 hl).2
    rw [contains, decide_eq_true hwithin] at hnot
    exact Bool.noConfusion hnot
  have hjoined := not_infix_intercalate hpat hne hkept
  rw [← Bool.not_eq_true]
  intro hcontains
  have hwithin : "pam_linhello".toList <:+: (cleanedOf content).toList :=
    of_decide_eq_true hcontains
  rw [cleanedOf, String.toList_append] at hwithin
  by_cases hend : endsWithNewline content = true
  · rw [if_pos hend] at hwithin
    rcases infix_append_newline hpat hwithin with hwithin | hwithin
    · exact hjoined hwithin
    · exact hne (List.eq_nil_of_infix_nil hwithin)
  · rw [if_neg hend] at hwithin
    have hempty : "".toList = [] := rfl
    rw [hempty, List.append_nil] at hwithin
    exact hjoined hwithin

/-! ## The condition -/

def service (name : OsPath) : OsPath := OsPath.join PAM_D name

/-- The service of a name has an active line with the module. -/
def Refers (d : Disk) (name : OsPath) : Prop :=
  ∃ c, d.content (service name) = some c ∧ c.refers = true

/-- None of the names `loads` refers to the module. -/
def Clean (loads : Set OsPath) (d : Disk) : Prop := ∀ name ∈ loads, ¬Refers d name

/-- The operation deletes a library of the module or removes the package. -/
def Deletes : Op → Prop
  | .removeFile p => ∃ lib ∈ under PAM_DIRS PAM_LIBS, p = (lib : OsPath)
  | .output cmd args => ∃ pm : PkgMgr, pm.removal = (cmd, args)
  | _ => False

/-- What must go well with the stacks that refer to the module and can be loaded: the
directory lists each of them, under a name that is not taken for a backup; each is found to
be a file, is UTF-8 and can be read; the write or removal of it succeeds. And no backup is
made in the place of a stack that can be loaded. -/
def GoesWell (loads : Set OsPath) (d : Disk) : (o : Op) → o.Ans → Prop
  | .readDir dir, r => dir = PAM_D → ∀ name ∈ loads, Refers d name →
      contains (name.toStr.getD "") ".pre-linhello" = false ∧ ∃ l, r = some l ∧ some name ∈ l
  | .isFile p, r => ∀ name ∈ loads, p = service name → Refers d name → r = true
  | .readToString p, r => ∀ name ∈ loads, p = service name → Refers d name → ∃ s, r = .ok s
  | .write p _, r => ∀ name ∈ loads, p = service name → Refers d name → r = .ok ()
  | .removeFile p, r => ∀ name ∈ loads, p = service name → Refers d name → r = .ok ()
  | .copy _ b, _ => ∀ name ∈ loads, ∀ q, d.resolve b = some q → d.resolve (service name) ≠ some q
  | _, _ => True

/-- Whether a moment is the one at which the scrub lists the service files. -/
def Moment.Lists (m : Moment machine Disk) : Prop := m.event.1 = .readDir PAM_D

/-- From the moment on at which the service files are listed, everything goes well. -/
def ScrubGoesWell (loads : Set OsPath) (ms : List (Moment machine Disk)) : Prop :=
  ∀ pre m post, ms = pre ++ m :: post → (∃ m' ∈ pre ++ [m], Moment.Lists m') →
    GoesWell loads m.world m.event.1 m.event.2

/-! ## What a step of the scrub leaves -/

section Scrub

variable {loads : Set OsPath} {d d' v : Disk} {name : OsPath} {p : OsPath} {r : List String}

abbrev well (loads : Set OsPath) : Semantics machine Disk :=
  Semantics.restrict Disk.allows (GoesWell loads)

/-- No name refers to the module that did not before. -/
def Fewer (loads : Set OsPath) (d d' : Disk) : Prop :=
  ∀ name ∈ loads, Refers d' name → Refers d name

theorem Fewer.refl : Fewer loads d d := fun _ _ h => h

theorem Fewer.trans (h : Fewer loads d v) (h' : Fewer loads v d') : Fewer loads d d' :=
  fun name hname hrefers => h name hname (h' name hname hrefers)

theorem refers_of_shrinks (h : d.Shrinks d') (hrefers : Refers d' name) : Refers d name := by
  obtain ⟨c, hc, hactive⟩ := hrefers
  rcases Disk.content_of_shrinks (p := service name) h with hsame | hgone
  · exact ⟨c, hsame.symm.trans hc, hactive⟩
  · rw [hgone] at hc
    exact absurd hc (Option.some_ne_none c).symm

theorem refers_of_wrote {ok : Content → Prop} (h : d.Wrote p ok d')
    (hok : ∀ c, ok c → c.refers = false)
    (hrefers : Refers d' name) : Refers d name ∧ p ≠ service name := by
  obtain ⟨q, c, hq, hc, rfl⟩ := h
  obtain ⟨c', hc', hactive⟩ := hrefers
  rw [Disk.content_put_file hq] at hc'
  by_cases hsame : d.resolve (service name) = some q
  · rw [if_pos hsame] at hc'
    rw [← Option.some.inj hc', hok c hc] at hactive
    exact Bool.noConfusion hactive
  · rw [if_neg hsame] at hc'
    refine ⟨⟨c', hc', hactive⟩, ?_⟩
    rintro rfl
    exact hsame hq

theorem refers_of_wrote_elsewhere {ok : Content → Prop} (h : d.Wrote p ok d')
    (helse : ∀ q, d.resolve p = some q → d.resolve (service name) ≠ some q)
    (hrefers : Refers d' name) : Refers d name := by
  obtain ⟨q, c, hq, -, rfl⟩ := h
  obtain ⟨c', hc', hactive⟩ := hrefers
  rw [Disk.content_put_file hq, if_neg (helse q hq)] at hc'
  exact ⟨c', hc', hactive⟩

theorem exec_removeLogged {message : String}
    (h : Exec (well loads) (removeLogged (service name) message) d r d') :
    Fewer loads d d' ∧ (name ∈ loads → ¬Refers d' name) := by
  obtain ⟨answer, v, ⟨hallows, hwell⟩, hrest⟩ := h
  cases answer with
  | ok =>
      obtain ⟨-, rfl⟩ := hrest
      have hgone : d' = d.put (service name) none := hallows
      subst hgone
      refine ⟨fun _ _ => refers_of_shrinks (d.shrinks_put_none _), ?_⟩
      rintro - ⟨c, hc, -⟩
      rw [Disk.content_put_none] at hc
      exact Option.some_ne_none c hc.symm
  | error e =>
      obtain ⟨-, rfl⟩ := hrest
      have hsame : d' = d := hallows
      subst hsame
      refine ⟨Fewer.refl, ?_⟩
      intro hname hrefers
      exact nomatch hwell name hname rfl hrefers

private theorem exec_scrubBackup {bak : OsPath} {u : Unit}
    (h : Exec (well loads) (scrubBackup p bak) d u d') :
    Fewer loads d d' := by
  obtain ⟨here, v, ⟨⟨rfl, -⟩, -⟩, hrest⟩ := h
  cases here with
  | true =>
      obtain ⟨-, rfl⟩ := hrest
      exact Fewer.refl
  | false =>
      obtain ⟨answer, u, ⟨hallows, hwell⟩, -, rfl⟩ := hrest
      intro name hname hrefers
      cases answer with
      | ok => exact refers_of_wrote_elsewhere hallows (hwell name hname) hrefers
      | error e =>
          rcases hallows with rfl | hwrote
          · exact hrefers
          · exact refers_of_wrote_elsewhere hwrote (hwell name hname) hrefers

private theorem exec_scrubFile {content : String}
    (h : Exec (well loads) (scrubFile (service name) content) d r d') :
    Fewer loads d d' ∧ (name ∈ loads → ¬Refers d' name) := by
  obtain ⟨_, v, hbackup, answer, u, ⟨hallows, hwell⟩, hrest⟩ := exec_bind.1 h
  have hbefore := exec_scrubBackup hbackup
  have hclean : ∀ t : String, t.toList <+: (cleanedOf content).toList →
      (Content.text t).refers = false := by
    intro t ht
    exact not_refers_of_infix (contains_cleanedOf content) ht.isInfix
  cases answer with
  | ok =>
      obtain ⟨-, rfl⟩ := hrest
      have hwrote : ∀ c, c = Content.text (cleanedOf content) → c.refers = false := by
        rintro c rfl
        exact hclean _ (List.prefix_refl _)
      refine ⟨hbefore.trans fun _ _ hrefers => (refers_of_wrote hallows hwrote hrefers).1, ?_⟩
      intro _ hrefers
      exact (refers_of_wrote hallows hwrote hrefers).2 rfl
  | error e =>
      obtain ⟨-, rfl⟩ := hrest
      have hafter : Fewer loads v d' := by
        rcases hallows with rfl | hwrote
        · exact Fewer.refl
        · intro _ _ hrefers
          refine (refers_of_wrote hwrote ?_ hrefers).1
          rintro c ⟨t, ht, rfl⟩
          exact hclean t ht
      refine ⟨hbefore.trans hafter, ?_⟩
      intro hname hrefers
      exact nomatch hwell name hname rfl (hafter name hname hrefers)

private theorem exec_scrubContent {content : String}
    (hcontent : d.content (service name) = some (.text content))
    (h : Exec (well loads) (scrubContent (service name) name content) d r d') :
    Fewer loads d d' ∧ (name ∈ loads → ¬Refers d' name) := by
  rw [scrubContent] at h
  by_cases hnamed : contains content "pam_linhello" = true
  · rw [hnamed, Bool.not_true, if_neg Bool.false_ne_true] at h
    split at h
    · exact exec_removeLogged h
    · split at h
      · exact exec_removeLogged h
      · exact exec_scrubFile h
  · rw [Bool.not_eq_true] at hnamed
    rw [hnamed, Bool.not_false, if_pos rfl] at h
    obtain ⟨-, rfl⟩ := h
    refine ⟨Fewer.refl, ?_⟩
    rintro - ⟨c, hc, hactive⟩
    rw [hcontent] at hc
    rw [← Option.some.inj hc, not_refers_of_infix hnamed (List.infix_refl _)] at hactive
    exact Bool.noConfusion hactive

/-- A file with a name that is not taken for a backup does not refer to the module
afterwards. -/
theorem exec_scrubOne (h : Exec (well loads) (scrubOne name) d r d') :
    Fewer loads d d' ∧ (name ∈ loads → contains (name.toStr.getD "") ".pre-linhello" = false →
      ¬Refers d' name) := by
  obtain ⟨isFile, v, hstep, hrest⟩ := exec_bind.1 h
  obtain ⟨⟨rfl, -⟩, hwell⟩ := exec_perform.1 hstep
  cases isFile with
  | false =>
      obtain ⟨-, rfl⟩ := hrest
      refine ⟨Fewer.refl, ?_⟩
      intro hname _ hrefers
      exact Bool.noConfusion (hwell name hname rfl hrefers)
  | true =>
      rw [Bool.not_true, if_neg Bool.false_ne_true] at hrest
      by_cases hbackup : contains (name.toStr.getD "") ".pre-linhello" = true
      · rw [if_pos hbackup] at hrest
        obtain ⟨-, rfl⟩ := hrest
        refine ⟨Fewer.refl, ?_⟩
        intro _ hnot
        rw [hbackup] at hnot
        exact Bool.noConfusion hnot
      · rw [if_neg hbackup] at hrest
        obtain ⟨answer, u, hstep, hrest⟩ := exec_bind.1 hrest
        obtain ⟨⟨rfl, hread⟩, hwell⟩ := exec_perform.1 hstep
        cases answer with
        | ok content =>
            obtain ⟨hfewer, hclean⟩ := exec_scrubContent (hread content rfl) hrest
            exact ⟨hfewer, fun hname _ => hclean hname⟩
        | error e =>
            obtain ⟨-, rfl⟩ := hrest
            refine ⟨Fewer.refl, ?_⟩
            intro hname _ hrefers
            obtain ⟨s, hs⟩ := hwell name hname rfl hrefers
            exact nomatch hs

private theorem exec_scrubEntries {l : List (Option OsPath)}
    (h : Exec (well loads) (scrubEntries l) d r d') :
    Fewer loads d d' ∧ ∀ name ∈ loads, some name ∈ l →
      contains (name.toStr.getD "") ".pre-linhello" = false → ¬Refers d' name := by
  induction l generalizing d r with
  | nil =>
      obtain ⟨-, rfl⟩ := h
      exact ⟨Fewer.refl, fun _ _ hmem => absurd hmem List.not_mem_nil⟩
  | cons entry l ih =>
      cases entry with
      | none =>
          obtain ⟨hfewer, hclean⟩ := ih h
          refine ⟨hfewer, ?_⟩
          intro name hname hmem
          exact hclean name hname ((List.mem_cons.1 hmem).resolve_left (Option.some_ne_none name))
      | some first =>
          obtain ⟨a, v, hone, hrest⟩ := exec_bind.1 h
          obtain ⟨b, u, hentries, -, rfl⟩ := exec_bind.1 hrest
          obtain ⟨hfirst, hgone⟩ := exec_scrubOne hone
          obtain ⟨hfewer, hclean⟩ := ih hentries
          refine ⟨hfirst.trans hfewer, ?_⟩
          intro name hname hmem hbackup hrefers
          rcases List.mem_cons.1 hmem with hsame | hmem
          · obtain rfl := Option.some.inj hsame
            exact hgone hname hbackup (hfewer name hname hrefers)
          · exact hclean name hname hmem hbackup hrefers

/-- After a scrub that goes well no stack refers to the module. -/
theorem clean_of_scrub (h : Exec (well loads) scrubPamReferences d r d') : Clean loads d' := by
  obtain ⟨answer, v, ⟨⟨rfl, -⟩, hwell⟩, hrest⟩ := h
  have hlisted := hwell rfl
  cases answer with
  | none =>
      obtain ⟨-, rfl⟩ := hrest
      intro name hname hrefers
      obtain ⟨-, l, hl, -⟩ := hlisted name hname hrefers
      exact Option.some_ne_none l hl.symm
  | some l =>
      obtain ⟨hfewer, hclean⟩ := exec_scrubEntries hrest
      intro name hname hrefers
      obtain ⟨hbackup, l', hl, hmem⟩ := hlisted name hname (hfewer name hname hrefers)
      rw [← Option.some.inj hl] at hmem
      exact hclean name hname hmem hbackup hrefers

end Scrub

/-! ## What deletes nothing -/

section Footprints

variable {P : Op → Prop} {p : OsPath}

/-- An operation that deletes no library and no package. -/
def Spares (o : Op) : Prop := ¬Deletes o

theorem only_fallible {α : Type} {c : String} {x : Proc (Except String α)} (h : x.Only P) :
    (fallible c x).run.Only P :=
  only_attempt h

theorem only_ignored {α : Type} {x : Proc α} (h : x.Only P) : (ignored x).run.Only P :=
  only_exceptT_lift (only_bind h fun _ => only_pure)

theorem only_exists (h : Spares (.pathExists p)) : (perform (.pathExists p)).Only Spares :=
  only_perform h

theorem only_existing_bind {α : Type} {l : List String} {k : List String → Fallible α}
    (hexists : ∀ q : OsPath, P (.pathExists q))
    (h : ∀ l', (∀ q ∈ l', q ∈ l) → (k l').run.Only P) : (liftM (existing l) >>= k).run.Only P := by
  have hrun : (liftM (existing l) >>= k).run = existing l >>= fun l' => (k l').run :=
    ExceptT.run_bind_lift _ _
  rw [hrun]
  clear hrun
  induction l generalizing k with
  | nil => exact h [] fun _ hq => hq
  | cons q l ih =>
      rw [existing, bind_assoc]
      refine only_bind (only_perform (hexists q)) fun here => ?_
      rw [bind_assoc]
      refine ih fun l' hl' => ?_
      refine h _ ?_
      cases here with
      | true =>
          intro q' hq'
          rcases List.mem_cons.1 hq' with rfl | hq'
          · exact List.mem_cons_self
          · exact List.mem_cons_of_mem _ (hl' q' hq')
      | false => exact fun q' hq' => List.mem_cons_of_mem _ (hl' q' hq')

theorem only_eachFile {f : OsPath → Fallible Change} {l : List String}
    (h : ∀ q ∈ l, (f (q : OsPath)).run.Only P) : (eachFile f l).run.Only P := by
  induction l with
  | nil => exact only_exceptT_pure
  | cons q l ih =>
      refine only_exceptT_bind (h q List.mem_cons_self) fun _ => ?_
      exact only_exceptT_bind (ih fun q' hq' => h q' (List.mem_cons_of_mem _ hq')) fun _ =>
        only_exceptT_pure

theorem only_eachExisting {f : OsPath → Fallible Change} {l : List String}
    (hexists : ∀ q : OsPath, P (.pathExists q)) (h : ∀ q ∈ l, (f (q : OsPath)).run.Only P) :
    (eachExisting f l).run.Only P := by
  induction l with
  | nil => exact only_exceptT_pure
  | cons q l ih =>
      have hrest := ih fun q' hq' => h q' (List.mem_cons_of_mem _ hq')
      refine only_exceptT_bind (only_exceptT_lift (only_perform (hexists q))) fun here => ?_
      cases here with
      | true =>
          refine only_exceptT_bind (h q List.mem_cons_self) fun _ => ?_
          exact only_exceptT_bind hrest fun _ => only_exceptT_pure
      | false => exact hrest

/-- The service files that `disable` may unwire. -/
def TARGETS : List String := GREETERS ++ [SUDO, PLASMALOGIN_ETC, KDE_FP_LOCKSCREEN, KDE_LOCKSCREEN]

theorem spares_target {q : String} (hq : q ∈ TARGETS) :
    Spares (.removeFile (q : OsPath)) ∧ Spares (.removeFile (tmpPath (q : OsPath))) := by
  have hfile : ∀ q ∈ TARGETS, ∀ lib ∈ under PAM_DIRS PAM_LIBS, (q : OsPath) ≠ (lib : OsPath) := by
    decide +kernel
  have htmp : ∀ q ∈ TARGETS, ∀ lib ∈ under PAM_DIRS PAM_LIBS,
      tmpPath (q : OsPath) ≠ (lib : OsPath) := by
    decide +kernel
  constructor
  · rintro ⟨lib, hlib, hsame⟩
    exact hfile q hq lib hlib hsame
  · rintro ⟨lib, hlib, hsame⟩
    exact htmp q hq lib hlib hsame

theorem spares_pathExists (p : OsPath) : Spares (.pathExists p) := id

theorem only_removing {c : String} (h : P (.removeFile p)) : (removing c p).run.Only P :=
  only_attempt (only_perform h)

theorem only_backup : (backup p).run.Only Spares := by
  refine only_exceptT_bind (only_exceptT_lift (only_exists id)) fun here => ?_
  cases here with
  | true => exact only_exceptT_pure
  | false => exact only_fallible (only_perform id)

private theorem only_writeAtomic {contents : String} (h : Spares (.removeFile (tmpPath p))) :
    (writeAtomic p contents).run.Only Spares := by
  refine only_exceptT_bind (only_fallible (only_perform id)) fun _ => ?_
  refine only_exceptT_bind (only_exceptT_lift (only_perform id)) fun _ => ?_
  refine only_exceptT_bind (only_caught (only_fallible (only_perform id))) fun renamed => ?_
  cases renamed with
  | ok => exact only_exceptT_pure
  | error e =>
      exact only_exceptT_bind (only_ignored (only_perform h)) fun _ => only_exceptT_throw

theorem only_removeIn {q : String} (hq : q ∈ TARGETS) :
    (removeIn (q : OsPath) false).run.Only Spares := by
  obtain ⟨hfile, htmp⟩ := spares_target hq
  refine only_exceptT_bind (only_exceptT_lift (only_exists id)) fun here => ?_
  cases here with
  | false => exact only_exceptT_pure
  | true =>
      refine only_exceptT_bind (only_fallible (only_perform id)) fun content => ?_
      dsimp only
      split
      · exact only_exceptT_bind (only_removing hfile) fun _ => only_exceptT_pure
      · split
        · exact only_exceptT_pure
        · refine only_exceptT_bind only_backup fun _ => ?_
          exact only_exceptT_bind (only_writeAtomic htmp) fun _ => only_exceptT_pure

theorem only_debianDisable : (debianDisable false).run.Only Spares := by
  have hprofile : Spares (.removeFile (DEBIAN_PROFILE_PATH : OsPath)) := by
    rintro ⟨lib, hlib, hsame⟩
    have hne :
        ∀ lib ∈ under PAM_DIRS PAM_LIBS, (DEBIAN_PROFILE_PATH : OsPath) ≠ (lib : OsPath) := by
      decide +kernel
    exact hne lib hlib hsame
  have hupdate : ∀ cs, (do
      fallible "" (perform (.run "pam-auth-update" ["--package"]))
      pure cs : Fallible (List Change)).run.Only Spares :=
    fun cs => only_exceptT_bind (only_fallible (only_perform id)) fun _ => only_exceptT_pure
  refine only_exceptT_bind (only_exceptT_lift (only_exists id)) fun here => ?_
  cases here with
  | true => exact only_exceptT_bind (only_removing hprofile) fun _ => hupdate _
  | false => exact hupdate _

theorem only_fedoraDisable : (Authselect.fedoraDisable false).run.Only Spares := by
  have hmarker : Spares (.removeFile (Authselect.FEDORA_BASE_MARKER : OsPath)) := by
    rintro ⟨lib, hlib, hsame⟩
    have hne : ∀ lib ∈ under PAM_DIRS PAM_LIBS,
        (Authselect.FEDORA_BASE_MARKER : OsPath) ≠ (lib : OsPath) := by
      decide +kernel
    exact hne lib hlib hsame
  refine only_exceptT_bind (only_exceptT_lift (only_perform id)) fun current => ?_
  refine only_exceptT_bind ?_ fun _ => ?_
  · rw [Authselect.switchBack]
    split
    · refine only_exceptT_bind (only_exceptT_lift (only_bind (only_perform id) fun _ => only_pure))
        fun _ => ?_
      exact only_exceptT_bind (only_fallible (only_perform id)) fun _ => only_exceptT_pure
    · exact only_exceptT_pure
  · refine only_exceptT_bind ?_ fun _ => ?_
    · refine only_exceptT_bind (only_exceptT_lift (only_exists id)) fun here => ?_
      cases here with
      | true => exact only_exceptT_bind (only_fallible (only_perform id)) fun _ => only_exceptT_pure
      | false => exact only_exceptT_pure
    · exact only_exceptT_bind (only_ignored (only_perform hmarker)) fun _ => only_exceptT_pure

theorem only_archDisable : (archDisable false).run.Only Spares := by
  have htargets : ∀ q ∈ GREETERS ++ [SUDO], q ∈ TARGETS := by decide
  have hplasma : ∀ q ∈ [PLASMALOGIN_ETC], q ∈ TARGETS := by decide
  refine only_existing_bind spares_pathExists fun targets ht => ?_
  refine only_existing_bind spares_pathExists fun plasma hp => ?_
  refine only_eachFile fun q hq => only_removeIn ?_
  rcases List.mem_append.1 hq with hq | hq
  · exact htargets q (ht q hq)
  · exact hplasma q (hp q hq)

theorem only_disable : (disable false).run.Only Spares := by
  have hlockscreen : ∀ q ∈ [KDE_FP_LOCKSCREEN, KDE_LOCKSCREEN], q ∈ TARGETS := by decide
  refine only_exceptT_bind (only_exceptT_lift (only_perform id)) fun family => ?_
  refine only_exceptT_bind ?_ fun _ => ?_
  · cases family with
    | debian => exact only_debianDisable
    | fedora => exact only_fedoraDisable
    | arch => exact only_archDisable
    | other => exact only_archDisable
  · refine only_exceptT_bind (only_eachExisting spares_pathExists fun q hq => ?_) fun _ =>
      only_exceptT_pure
    exact only_removeIn (hlockscreen q hq)

private theorem spares_service (name : OsPath) : Spares (.removeFile (service name)) := by
  rintro ⟨lib, hlib, hsame⟩
  have hsecond : ∀ lib ∈ under PAM_DIRS PAM_LIBS, lib.toList.take 2 = ['/', 'u'] := by
    decide +kernel
  have hservice : (service name).display.toList.take 2 = ['/', 'e'] := by
    rw [service, OsPath.join, String.toList_append, String.toList_append]
    rfl
  rw [hsame, hsecond lib hlib] at hservice
  exact absurd hservice (by decide)

private theorem only_scrubOne (name : OsPath) : (scrubOne name).Only Spares := by
  have hremove : ∀ message, (removeLogged (service name) message).Only Spares := by
    intro message
    refine only_bind (only_perform (spares_service name)) fun answer => ?_
    cases answer with
    | ok => exact only_pure
    | error e => exact only_pure
  refine only_bind (only_perform id) fun isFile => ?_
  split
  · exact only_pure
  · split
    · exact only_pure
    · refine only_bind (only_perform id) fun answer => ?_
      cases answer with
      | error e => exact only_pure
      | ok content =>
          dsimp only
          rw [scrubContent]
          split
          · exact only_pure
          · split
            · exact hremove _
            · split
              · exact hremove _
              · refine only_bind (only_bind (only_exists id) fun here => ?_) fun _ => ?_
                · cases here with
                  | true => exact only_pure
                  | false => exact only_bind (only_perform id) fun _ => only_pure
                · refine only_bind (only_perform id) fun answer => ?_
                  cases answer with
                  | ok => exact only_pure
                  | error e => exact only_pure

theorem only_scrubPamReferences : scrubPamReferences.Only Spares := by
  refine only_bind (only_perform id) fun answer => ?_
  cases answer with
  | none => exact only_pure
  | some l =>
      dsimp only
      induction l with
      | nil => exact only_pure
      | cons entry l ih =>
          cases entry with
          | none => exact ih
          | some name =>
              exact only_bind (only_scrubOne name) fun _ => only_bind ih fun _ => only_pure

def Shrinking : Op → Prop
  | .status _ _ | .output _ _ | .removeFile _ | .isDir _ | .readDir _ | .removeDirAll _
  | .removeDir _ => True
  | _ => False

theorem shrinks_of_shrinking {o : Op} {d d' : Disk} {r : o.Ans} (ho : Shrinking o)
    (h : Disk.allows d o r d') : d.Shrinks d' := by
  have hrefl : ∀ {v}, v = d → d.Shrinks v := by
    rintro v rfl q
    exact .inl rfl
  match o, r, ho, h with
  | .status _ _, _, _, h => exact hrefl h
  | .output _ _, _, _, h => exact h
  | .isDir _, _, _, h => exact hrefl h
  | .readDir _, _, _, h => exact hrefl h.1
  | .removeDirAll _, _, _, h => exact h
  | .removeDir _, _, _, h => exact h
  | .removeFile p, .ok _, _, h =>
      have hput : d' = d.put p none := h
      rw [hput]
      exact d.shrinks_put_none p
  | .removeFile p, .error _, _, h => exact hrefl h

theorem only_removeEach (l : List String) : (removeEach l).Only Shrinking := by
  induction l with
  | nil => exact only_pure
  | cons q l ih =>
      refine only_bind (only_bind (only_perform trivial) fun answer => ?_) fun _ =>
        only_bind ih fun _ => only_pure
      cases answer with
      | ok => exact only_pure
      | error e =>
          cases e with
          | notFound => exact only_pure
          | other e => exact only_pure

theorem only_removeOwned : removeOwned.Only Shrinking := by
  have hdpkg : dpkgInstalled.Only Shrinking := by
    refine only_bind (only_perform trivial) fun answer => ?_
    cases answer with
    | ok o => exact only_pure
    | error e => exact only_pure
  have howner : owningPackageManager.Only Shrinking := by
    refine only_bind (only_perform trivial) fun rpm => ?_
    split
    · exact only_pure
    · refine only_bind (only_perform trivial) fun pacman => ?_
      split
      · exact only_pure
      · refine only_bind hdpkg fun apt => ?_
        split
        · exact only_pure
        · exact only_pure
  refine only_bind howner fun owner => ?_
  cases owner with
  | none => exact only_pure
  | some pm =>
      refine only_bind (only_perform trivial) fun answer => ?_
      cases answer with
      | error e => exact only_pure
      | ok o =>
          dsimp only
          split
          · exact only_pure
          · exact only_pure

private theorem only_removeConfigEntries (removeModels : Bool) (l : List (Option OsPath)) :
    (removeConfigEntries removeModels l).Only Shrinking := by
  induction l with
  | nil => exact only_pure
  | cons entry l ih =>
      cases entry with
      | none => exact ih
      | some name =>
          rw [removeConfigEntries]
          split
          · exact only_bind ih fun _ => only_pure
          · refine only_bind ?_ fun _ => only_bind ih fun _ => only_pure
            refine only_bind (only_perform trivial) fun isDir => ?_
            cases isDir with
            | true => exact only_perform trivial
            | false => exact only_bind (only_perform trivial) fun _ => only_pure

private theorem only_removeConfigData (removeModels : Bool) :
    (removeConfigData removeModels).Only Shrinking := by
  refine only_bind (only_perform trivial) fun answer => ?_
  cases answer with
  | none => exact only_pure
  | some l =>
      refine only_bind (only_removeConfigEntries removeModels l) fun _ =>
        only_bind ?_ fun _ => only_pure
      refine only_bind (only_perform trivial) fun answer => ?_
      match answer with
      | none => exact only_pure
      | some [] => exact only_bind (only_perform trivial) fun _ => only_pure
      | some (_ :: _) => exact only_pure

theorem only_removeAll (removeModels : Bool) : (removeAll removeModels).Only Shrinking := by
  refine only_bind ?_ fun _ => ?_
  · refine only_bind (only_perform trivial) fun stopped => ?_
    split
    · exact only_pure
    · exact only_pure
  · refine only_bind only_removeOwned fun _ => only_bind (only_removeEach _) fun _ => ?_
    refine only_bind (only_perform trivial) fun _ => ?_
    exact only_bind (only_removeConfigData removeModels) fun _ => only_pure

end Footprints

/-! ## The uninstall -/

/-- A run of `uninstall` with its moments. -/
def RunOf (removeModels : Bool) (d : Disk) (r : Except String (List String)) (d' : Disk)
    (ms : List (Moment machine Disk)) : Prop :=
  MomentsOf Disk.allows (uninstall removeModels).run d r d' ms

/-- The scrub begins with the listing, so every moment of it is to go well. -/
theorem scrub_goes_well {loads : Set OsPath} {d d' : Disk} {log : List String}
    {first l rest : List (Moment machine Disk)}
    (h : MomentsOf Disk.allows scrubPamReferences d log d' l)
    (hwell : ScrubGoesWell loads (first ++ (l ++ rest))) :
    ∀ m ∈ l, GoesWell loads m.world m.event.1 m.event.2 := by
  obtain ⟨r, v, later, -, rfl, -⟩ := h.of_call
  intro m hm
  obtain ⟨a, b, hsplit⟩ := List.append_of_mem hm
  have hall :
      first ++ (⟨d, .readDir PAM_D, r⟩ :: later ++ rest) = (first ++ a) ++ m :: (b ++ rest) := by
    rw [hsplit, List.append_assoc, List.append_assoc]
    rfl
  refine hwell (first ++ a) m (b ++ rest) hall ⟨⟨d, .readDir PAM_D, r⟩, ?_, rfl⟩
  have hhead : (⟨d, .readDir PAM_D, r⟩ : Moment machine Disk) ∈ a ++ [m] := by
    cases a with
    | nil =>
        rw [(List.cons.inj hsplit).1]
        exact List.mem_cons_self
    | cons x a =>
        rw [(List.cons.inj hsplit).1]
        exact List.mem_cons_self
  rw [List.append_assoc]
  exact List.mem_append_right _ hhead

private theorem clean_of_shrinks {loads : Set OsPath} {d d' : Disk} (h : d.Shrinks d')
    (hclean : Clean loads d) :
    Clean loads d' :=
  fun name hname hrefers => hclean name hname (refers_of_shrinks h hrefers)

/-- A run that goes well from the listing of the service files on deletes nothing while a
stack that can be loaded refers to the module. One that returns an error deletes nothing. -/
theorem clean_when_deleting (loads : Set OsPath) {removeModels : Bool} {d d' : Disk}
    {r : Except String (List String)} {ms : List (Moment machine Disk)}
    (h : RunOf removeModels d r d' ms) (hwell : ScrubGoesWell loads ms) :
    (∀ m ∈ ms, Deletes m.event.1 → Clean loads m.world) ∧
      ∀ e, r = .error e → ∀ m ∈ ms, ¬Deletes m.event.1 := by
  have hspares : ∀ {α : Type} {p : Proc α} {a : α} {v v' : Disk} {l : List (Moment machine Disk)},
      p.Only Spares → MomentsOf Disk.allows p v a v' l → ∀ m ∈ l, ¬Deletes m.event.1 :=
    fun hp hl => hl.ops hp
  rw [RunOf, uninstall] at h
  rcases h.of_exceptT_bind with ⟨unwired, v, first, rest, rfl, hdisable, hrest⟩ | ⟨e, rfl, hdisable⟩
  · have hfirst := hspares (only_caught only_disable) hdisable
    cases unwired with
    | error e =>
        obtain ⟨rfl, rfl, rfl⟩ := hrest.of_ret
        rw [List.append_nil]
        exact ⟨fun m hm hdeletes => absurd hdeletes (hfirst m hm), fun _ _ => hfirst⟩
    | ok changes =>
        rcases hrest.of_exceptT_bind with ⟨log, u, l, later, rfl, hscrub, hrest⟩ | ⟨e, -, hscrub⟩
        · obtain ⟨log', -, hscrub⟩ := hscrub.of_map
          have hclean := clean_of_scrub (hscrub.exec_restrict (scrub_goes_well hscrub hwell))
          have hquiet := hspares only_scrubPamReferences hscrub
          rcases hrest.of_exceptT_bind with
            ⟨files, u', l', last, rfl, hremove, hrest⟩ | ⟨e, -, hremove⟩
          · obtain ⟨files', -, hremove⟩ := hremove.of_map
            obtain ⟨rfl, rfl, rfl⟩ := hrest.of_ret
            have hafter := hremove.invariant (I := Clean loads) (only_removeAll removeModels)
              (fun ho hstep => clean_of_shrinks (shrinks_of_shrinking ho hstep)) hclean
            refine ⟨?_, nofun⟩
            intro m hm hdeletes
            rw [List.append_nil, List.mem_append, List.mem_append] at hm
            rcases hm with hm | hm | hm
            · exact absurd hdeletes (hfirst m hm)
            · exact absurd hdeletes (hquiet m hm)
            · exact hafter m hm
          · obtain ⟨files', hfiles, -⟩ := hremove.of_map
            exact nomatch hfiles
        · obtain ⟨log', hlog, -⟩ := hscrub.of_map
          exact nomatch hlog
  · have hnone := hspares (only_caught only_disable) hdisable
    exact ⟨fun m hm hdeletes => absurd hdeletes (hnone m hm), fun _ _ => hnone⟩

/-! ### One host -/

def login : OsPath := "login"

/-- A host with one service, `login`, on which nothing fails but what cannot succeed. -/
def calm (d : Disk) : (o : Op) → o.Ans × Disk
  | .distroFamily => (.other, d)
  | .pathExists p => ((d.content p).isSome, d)
  | .isFile p => ((d.content p).isSome, d)
  | .isDir _ => (false, d)
  | .readDir dir =>
      (if dir = PAM_D ∧ (d.node (service login)).isSome then some [some login] else none, d)
  | .readToString p =>
      match d.content p with
      | some (.text s) => (.ok s, d)
      | _ => (.error "stream did not contain valid UTF-8", d)
  | .write p s =>
      match d.resolve p with
      | some q => (.ok (), d.put q (some (.file (.text s))))
      | none => (.error "Too many levels of symbolic links (os error 40)", d)
  | .removeFile p => if (d.node p).isSome then (.ok (), d.put p none) else (.error .notFound, d)
  | .copy _ _ | .rename _ _ | .removeDir _ | .removeDirAll _ => (.error "Permission denied", d)
  | .createDirAll _ | .run _ _ => (.ok (), d)
  | .copyPermissions _ _ => ((), d)
  | .runCapture _ _ => (none, d)
  | .status _ _ => (false, d)
  | .output _ _ => (.error "No such file or directory", d)

theorem allows_calm (d : Disk) (o : Op) : Disk.allows d o (calm d o).1 (calm d o).2 := by
  cases o with
  | distroFamily => rfl
  | pathExists p =>
      refine ⟨rfl, fun h => ?_⟩
      obtain ⟨c, hc⟩ := Option.isSome_iff_exists.1 h
      obtain ⟨q, hq, hcontent⟩ := Option.bind_eq_some_iff.1 hc
      refine ⟨q, hq, ?_⟩
      rw [Disk.contentAt] at hcontent
      cases hnode : d.node q with
      | none =>
          rw [hnode] at hcontent
          cases hcontent
      | some n => rfl
  | isFile p => exact ⟨rfl, id⟩
  | isDir p => rfl
  | readDir dir =>
      refine ⟨rfl, ?_⟩
      intro l name hl hmem
      change (if dir = PAM_D ∧ (d.node (service login)).isSome then some [some login] else none) =
        some l at hl
      split at hl
      · next h =>
          rw [← Option.some.inj hl, List.mem_singleton] at hmem
          rw [Option.some.inj hmem, h.1]
          exact h.2
      · cases hl
  | readToString p =>
      simp only [calm]
      split
      · next s hs => exact ⟨rfl, fun t ht => (Except.ok.inj ht) ▸ hs⟩
      · refine ⟨rfl, ?_⟩
        intro t ht
        cases ht
  | write p s =>
      simp only [calm]
      split
      · next q hq => exact ⟨q, .text s, hq, rfl, rfl⟩
      · exact .inl rfl
  | copy a b => exact .inl rfl
  | rename a b => rfl
  | copyPermissions a b => rfl
  | removeFile p =>
      simp only [calm]
      split
      · rfl
      · rfl
  | removeDir p => exact fun q => .inl rfl
  | removeDirAll p => exact fun q => .inl rfl
  | createDirAll p => exact fun q => .inl rfl
  | run cmd args => exact trivial
  | runCapture cmd args => rfl
  | status cmd args => rfl
  | output cmd args => exact fun q => .inl rfl

def watchedCalm (x : Disk × List (Moment machine Disk)) (o : Op) :
    o.Ans × (Disk × List (Moment machine Disk)) :=
  ((calm x.1 o).1, ((calm x.1 o).2, x.2 ++ [⟨x.1, o, (calm x.1 o).1⟩]))

def calmRun (d : Disk) : Except String (List String) × (Disk × List (Moment machine Disk)) :=
  eval watchedCalm (uninstall true).run (d, [])

theorem runOf_calmRun (d : Disk) : RunOf true d (calmRun d).1 (calmRun d).2.1 (calmRun d).2.2 :=
  ⟨exec_of_eval (fun x o => ⟨allows_calm x.1 o, rfl⟩) _ _⟩

def LIB : String := "/usr/lib/security/pam_linhello.so"

/-- The service holds `c`, there is an old backup of it, and the library is installed. -/
def hostWith (c : Content) : Disk where
  node p :=
    if p = service login then some (.file c)
    else if p = (service login).suffixed UNINSTALL_SUFFIX then some (.file (.text ""))
    else if p = (LIB : OsPath) then some (.file (.bytes []))
    else none

def asciiBytes (s : String) : List UInt8 := s.toList.map fun c => c.toNat.toUInt8

/-- A comment with one letter in Latin-1, and an active line. -/
def latin1 : Content :=
  .bytes ([35, 32, 233, 10] ++ asciiBytes "auth sufficient pam_linhello.so\n")

/-- The service is not UTF-8: the library is deleted while it refers to it. -/
theorem stranded_by_latin1 :
    ¬∀ loads removeModels d r d' ms, RunOf removeModels d r d' ms →
      (∀ m ∈ ms, Deletes m.event.1 → Clean loads m.world) ∧
        ∀ e, r = .error e → ∀ m ∈ ms, ¬Deletes m.event.1 := by
  intro h
  have hmoment : (calmRun (hostWith latin1)).2.2[21]? =
      some ⟨hostWith latin1, .removeFile (LIB : OsPath), .ok ()⟩ := by
    rfl
  have hdeletes : Deletes (.removeFile (LIB : OsPath)) := by
    exact ⟨LIB, by decide, rfl⟩
  have hrefers : Refers (hostWith latin1) login := ⟨latin1, rfl, by decide +kernel⟩
  have hclean := (h {login} true _ _ _ _ (runOf_calmRun (hostWith latin1))).1 _
    (List.mem_of_getElem? hmoment) hdeletes
  exact hclean login rfl hrefers

/-- What makes an operation on the host go well for `login`. -/
def fine : (o : Op) → o.Ans → Bool
  | .readDir dir, r => dir ≠ PAM_D || r = some [some login]
  | .isFile p, r => p ≠ service login || r
  | .readToString p, r => p ≠ service login || r.isOk
  | .write p _, r => p ≠ service login || r.isOk
  | .removeFile p, r => p ≠ service login || r.isOk
  | .copy _ _, _ => false
  | _, _ => true

private theorem goesWell_of_fine {d : Disk} {o : Op} {r : o.Ans} (h : fine o r = true) :
    GoesWell {login} d o r := by
  have hok : ∀ {p : OsPath} {b : Bool}, (decide (p ≠ service login) || b) = true →
      ∀ name ∈ ({login} : Set OsPath), p = service name → b = true := by
    rintro p b hb name rfl rfl
    exact (Bool.or_eq_true _ _ ▸ hb).resolve_left (fun hne => of_decide_eq_true hne rfl)
  match o, r with
  | .readDir dir, r =>
      rintro rfl name rfl -
      have hor : (decide (PAM_D ≠ PAM_D) || decide (r = some [some login])) = true := h
      rw [decide_eq_false (fun hne => hne rfl), Bool.false_or] at hor
      have hr := of_decide_eq_true hor
      exact ⟨by decide, _, hr, List.mem_cons_self⟩
  | .isFile p, r => exact fun name hname hp _ => hok h name hname hp
  | .readToString p, .ok s => exact fun _ _ _ _ => ⟨s, rfl⟩
  | .readToString p, .error e => exact fun name hname hp _ => nomatch hok h name hname hp
  | .write p _, .ok _ => exact fun _ _ _ _ => rfl
  | .write p _, .error e => exact fun name hname hp _ => nomatch hok h name hname hp
  | .removeFile p, .ok _ => exact fun _ _ _ _ => rfl
  | .removeFile p, .error e => exact fun name hname hp _ => nomatch hok h name hname hp
  | .copy _ _, r => exact Bool.noConfusion h
  | .distroFamily, _ | .pathExists _, _ | .isDir _, _ | .rename _ _, _ | .copyPermissions _ _, _
  | .removeDir _, _ | .removeDirAll _, _ | .createDirAll _, _ | .run _ _, _ | .runCapture _ _, _
  | .status _ _, _ | .output _ _, _ => exact trivial

/-- The same service in UTF-8 is cleaned before anything is deleted. -/
theorem clean_on_utf8 :
    (calmRun (hostWith
      (.text "auth sufficient pam_linhello.so\nauth required pam_unix.so\n"))).2.2.all
        (fun m => fine m.event.1 m.event.2) = true ∧
      ∀ m ∈ (calmRun (hostWith
        (.text "auth sufficient pam_linhello.so\nauth required pam_unix.so\n"))).2.2,
      Deletes m.event.1 → Clean {login} m.world := by
  have hall : (calmRun (hostWith
      (.text "auth sufficient pam_linhello.so\nauth required pam_unix.so\n"))).2.2.all
      (fun m => fine m.event.1 m.event.2) = true := by
    rfl
  refine ⟨hall, (clean_when_deleting {login} (runOf_calmRun _) ?_).1⟩
  intro pre m post hms _
  have hfine : fine m.event.1 m.event.2 = true := by
    refine List.all_eq_true.1 hall m ?_
    rw [hms]
    exact List.mem_append_right _ List.mem_cons_self
  exact goesWell_of_fine hfine

end Linhello.Cli.Uninstall
