import Linhello.Daemon.Deletion
import Linhello.Host.Faultless
/-!
# Erasing a profile

Without an I/O failure `DeleteProfile` leaves nothing of a user who has a template,
and touches nothing else (`delete_erases`). Without a template the profile does not
count as enrolled, and the request is refused whatever else the directory holds.
-/

namespace Linhello.Daemon

open Common Linhello.Core Effect Host Host.World

variable {sealed : SealedEnvelope → Option Bytes} {flt : Faults} {w w' : World} {pr : Process}
  {user : String} {resp : Response}

/-! ## The enrolled profiles -/

/-- Whether a directory holds a face template, encrypted or legacy. -/
def hasTemplate (user : String) (w : World) : Bool :=
  (w.file (.user user .embeddingEnc)).isSome || (w.file (.user user .embeddingBin)).isSome

theorem mem_keys_of_hasTemplate (h : hasTemplate user w = true) : user ∈ w.users.keys := by
  have hdir : w.hasDir (some user) = true := by
    simp only [hasTemplate, Bool.or_eq_true] at h
    rcases h with henc | hbin
    · exact hasDir_of_file henc
    · exact hasDir_of_file hbin
  exact AList.lookup_isSome.1 hdir

theorem faultless_enrolledProfiles {profiles : List String}
    (h : Exec (Step sealed .none) enrolledProfiles w profiles w') :
    (∀ u, u ∈ profiles ↔ hasTemplate u w = true) ∧ w' = w := by
  obtain ⟨listed, v, hlisted, hrest⟩ := exec_bind.1 h
  obtain ⟨hallows, rfl⟩ := exec_perform.1 hlisted
  cases listed with
  | error e => cases e <;> simp [allows, ioAnswer, Faults.none] at hallows
  | ok names =>
      have hperm : names.Perm v.users.keys := by
        simpa [allows, ioAnswer, List.isPerm_iff] using hallows
      obtain ⟨enrolled, u, henrolled, rfl, rfl⟩ := exec_bind.1 hrest
      have htest : ∀ name b u, Exec (Step sealed .none) (do
            if ← perform (.pathExists (.user name .embeddingEnc)) then pure true
            else perform (.pathExists (.user name .embeddingBin))) v b u →
          b = hasTemplate name v ∧ u = v := by
        intro name b u hb
        obtain ⟨present, t, hpresent, hb'⟩ := exec_bind.1 hb
        obtain ⟨rfl, rfl⟩ := faultless_pathExists (exec_perform.1 hpresent)
        unfold hasTemplate
        cases henc : (t.file (.user name .embeddingEnc)).isSome with
        | true =>
            rw [henc] at hb'
            obtain ⟨rfl, rfl⟩ := hb'
            exact ⟨rfl, rfl⟩
        | false =>
            rw [henc] at hb'
            obtain ⟨rfl, rfl⟩ := faultless_pathExists (exec_perform.1 hb')
            exact ⟨rfl, rfl⟩
      obtain ⟨rfl, rfl⟩ := exec_filterM htest henrolled
      refine ⟨fun name => ?_, rfl⟩
      rw [List.mem_insertionSort, List.mem_filter]
      constructor
      · exact fun hname => hname.2
      · exact fun hname => ⟨hperm.mem_iff.2 (mem_keys_of_hasTemplate hname), hname⟩

/-! ## Removing the directory -/

private theorem keys_dir_eq_nil (h : ∀ f, w.file (.user user f) = none) :
    (w.dir user).keys = [] := by
  rw [List.eq_nil_iff_forall_not_mem]
  intro f hf
  have hlookup : ((w.dir user).lookup f).isSome = true := AList.lookup_isSome.2 hf
  rw [← file_user, h f] at hlookup
  cases hlookup

/-- Once the directory is empty it is removed; every file in it is unlinked first. -/
theorem faultless_removeEntries {entries : List UserFile} {r : Except IoError Unit}
    (hdir : w.hasDir (some user) = true)
    (hlisted : ∀ f, (w.file (.user user f)).isSome = true → f ∈ entries)
    (h : Exec (Step sealed .none) (removeEntries user entries).run w r w') :
    r = .ok () ∧ w'.hasDir (some user) = false := by
  induction entries generalizing w with
  | nil =>
      have hnone : ∀ f, w.file (.user user f) = none := by
        intro f
        by_contra hne
        exact absurd (hlisted f (Option.isSome_iff_ne_none.2 hne)) List.not_mem_nil
      obtain ⟨hallows, rfl⟩ := exec_perform.1 h
      have hlookup : (w.users.lookup user).isSome = true := hdir
      cases r with
      | ok _ => exact ⟨rfl, by simp [next, rmdir, hasDir]⟩
      | error e =>
          cases e <;>
            simp [allows, ioAnswer, hlookup, keys_dir_eq_nil hnone, Faults.none] at hallows
  | cons f rest ih =>
      have hunlink : ∀ x t, Exec (Step sealed .none)
          (ignoreMissing <$> perform (.removeFile (.user user f))) w x t →
          x = .ok () ∧ t.hasDir (some user) = true ∧
            ∀ g, (t.file (.user user g)).isSome = true → g ∈ rest := by
        intro x t hx
        obtain ⟨a, hstep, rfl⟩ := exec_map.1 hx
        obtain ⟨hallows, rfl⟩ := exec_perform.1 hstep
        have hrest : ∀ g, g ≠ f → (w.file (.user user g)).isSome = true → g ∈ rest :=
          fun g hg hfile => (List.mem_cons.1 (hlisted g hfile)).resolve_left hg
        cases hfile : w.file (.user user f) with
        | none =>
            cases a with
            | ok u => simp [allows, ioAnswer, hfile] at hallows
            | error e =>
                cases e with
                | other text => simp [allows, ioAnswer, Faults.none] at hallows
                | notFound =>
                    refine ⟨rfl, hdir, fun g hg => ?_⟩
                    have hgfile : (w.file (.user user g)).isSome = true := hg
                    by_cases hgf : g = f
                    · rw [hgf, hfile] at hgfile
                      cases hgfile
                    · exact hrest g hgf hgfile
        | some d =>
            cases a with
            | error e => cases e <;> simp [allows, ioAnswer, hfile, Faults.none] at hallows
            | ok u =>
                refine ⟨rfl, hasDir_erase.2 (.inr hdir), fun g hg => ?_⟩
                by_cases hgf : g = f
                · have hgone : (w.erase (.user user g)).file (.user user g) = none :=
                    file_erase_self w _
                  subst hgf
                  have hfound : ((w.erase (.user user g)).file (.user user g)).isSome = true := hg
                  rw [hgone] at hfound
                  cases hfound
                · have hkept : (w.erase (.user user f)).file (.user user g) =
                      w.file (.user user g) := file_erase_of_ne w (by simpa using hgf)
                  exact hrest g hgf (by rw [← hkept]; exact hg)
      rcases exec_exceptT_bind.1 h with ⟨_, t, hfirst, hrest⟩ | ⟨e, hfirst, -⟩
      · obtain ⟨-, hdir', hlisted'⟩ := hunlink _ _ hfirst
        exact ih hdir' hlisted' hrest
      · cases (hunlink _ _ hfirst).1

theorem faultless_removeDirAll {r : Except IoError Unit} (hdir : w.hasDir (some user) = true)
    (h : Exec (Step sealed .none) (removeDirAll user).run w r w') :
    r = .ok () ∧ w'.hasDir (some user) = false := by
  have hlookup : (w.users.lookup user).isSome = true := hdir
  have hlist : ∀ x t, Exec (Step sealed .none) (perform (.readUserDir user)) w x t →
      ∃ entries, x = .ok entries ∧ entries.Perm (w.dir user).keys ∧ t = w := by
    intro x t hx
    obtain ⟨hallows, rfl⟩ := exec_perform.1 hx
    cases x with
    | error e => cases e <;> simp [allows, ioAnswer, hlookup, Faults.none] at hallows
    | ok entries =>
        refine ⟨entries, rfl, ?_, rfl⟩
        simpa [allows, ioAnswer, hlookup, List.isPerm_iff] using hallows
  rcases exec_exceptT_bind.1 h with ⟨entries, t, hentries, hrest⟩ | ⟨e, hentries, -⟩
  · obtain ⟨_, heq, hperm, rfl⟩ := hlist _ _ hentries
    obtain rfl := Except.ok.inj heq
    refine faultless_removeEntries hdir (fun f hf => hperm.mem_iff.2 ?_) hrest
    rw [file_user] at hf
    exact AList.lookup_isSome.1 hf
  · obtain ⟨_, heq, -, -⟩ := hlist _ _ hentries
    cases heq

/-! ## The request -/

theorem dispatch_deleteProfile (huser : validateUser user = .ok ()) :
    dispatch pr (.deleteProfile user) (some 0) = doDeleteProfile user := by
  have hroot : isRoot (some 0) = true := rfl
  simp only
    [dispatch, rootOnly, hroot, Bool.not_true, Bool.false_eq_true, if_false, withUser, huser]

/-- Without a template the request is refused and changes nothing. -/
theorem delete_refused (huser : validateUser user = .ok ()) (htemplate : hasTemplate user w = false)
    (h : Exec (Step sealed .none) (dispatch pr (.deleteProfile user) (some 0)) w resp w') :
    resp = noProfile user ∧ w' = w := by
  rw [dispatch_deleteProfile huser] at h
  obtain ⟨profiles, v, hprofiles, hrest⟩ := exec_bind.1 h
  obtain ⟨hmem, rfl⟩ := faultless_enrolledProfiles hprofiles
  have hcontains : profiles.contains user = false := by
    rw [List.contains_eq_mem, decide_eq_false_iff_not, hmem, htemplate]
    simp
  rw [if_pos (by simp only [hcontains, Bool.not_false])] at hrest
  exact hrest

/-- The files of everyone else stay, whatever a deletion does. -/
theorem file_of_delete {p : Path} (hp : p.parent ≠ some user)
    (h : Exec (Step sealed flt) (doDeleteProfile user) w resp w') : w'.file p = w.file p := by
  refine file_of_spares (delete_doDeleteProfile.imp fun o ho => ?_) h
  cases o with
  | write q d => exact ho.elim
  | removeFile q => exact fun hq => hp (by rw [← hq]; exact ho)
  | removeDir u => exact fun hu => hp (hu.trans (congrArg some ho))
  | _ => trivial

private theorem cache_of_delete {v : String} (hv : v ≠ user)
    (h : Exec (Step sealed flt) (doDeleteProfile user) w resp w') :
    w'.cache.lookup v = w.cache.lookup v := by
  have htrans : ∀ {s t u : World}, t.cache.lookup v = s.cache.lookup v →
      u.cache.lookup v = t.cache.lookup v → u.cache.lookup v = s.cache.lookup v :=
    fun hst htu => htu.trans hst
  refine delete_doDeleteProfile.exec (R := fun w w' => w'.cache.lookup v = w.cache.lookup v)
    (fun _ => rfl) htrans ?_ h
  rintro w o r u ho ⟨-, rfl⟩
  cases o with
  | write q d => exact ho.elim
  | createDirAll u => exact ho.elim
  | cacheInsert u k => exact ho.elim
  | removeFile q => cases r <;> simp [next]
  | removeDir u => cases r <;> rfl
  | cacheRemove u =>
      obtain rfl : u = user := ho
      exact AList.lookup_erase_ne hv
  | _ => rfl

/-- A user with a template is erased: nothing is left in the directory or the cache,
and nothing outside the directory changes. -/
theorem delete_erases (huser : validateUser user = .ok ()) (htemplate : hasTemplate user w = true)
    (h : Exec (Step sealed .none) (dispatch pr (.deleteProfile user) (some 0)) w resp w') :
    (∃ samples, resp = .profileDeleted user samples) ∧
      w'.hasDir (some user) = false ∧ (∀ f, w'.file (.user user f) = none) ∧
      w'.cache.lookup user = none ∧
      (∀ p, p.parent ≠ some user → w'.file p = w.file p) ∧
      ∀ v, v ≠ user → w'.cache.lookup v = w.cache.lookup v := by
  rw [dispatch_deleteProfile huser] at h
  have hothers := fun (p : Path) (hp : p.parent ≠ some user) => file_of_delete hp h
  have hcaches := fun v (hv : v ≠ user) => cache_of_delete hv h
  obtain ⟨profiles, v, hprofiles, h₁⟩ := exec_bind.1 h
  obtain ⟨hmem, rfl⟩ := faultless_enrolledProfiles hprofiles
  have hcontains : profiles.contains user = true := by
    rw [List.contains_eq_mem, decide_eq_true_eq, hmem, htemplate]
  rw [if_neg (by simp only [hcontains, Bool.not_true, Bool.false_eq_true, not_false_eq_true])] at h₁
  obtain ⟨samples, u, hcount, h₂⟩ := exec_bind.1 h₁
  obtain rfl : u = v := exec_quiet (survey_profileSampleCount.imp fun o ho => by
    cases o <;> first | rfl | exact ho.elim) hcount
  obtain ⟨removed, t, hremoved, h₃⟩ := exec_bind.1 h₂
  have hdir : u.hasDir (some user) = true :=
    AList.lookup_isSome.2 (mem_keys_of_hasTemplate htemplate)
  obtain ⟨rfl, hgone⟩ := faultless_removeDirAll hdir hremoved
  obtain ⟨_, t', hevict, rfl, rfl⟩ := exec_bind.1 h₃
  have hcache : w' = { t with cache := t.cache.erase user } := (exec_perform.1 hevict).2
  have hempty : w'.hasDir (some user) = false := by
    rw [hcache]
    exact hgone
  refine ⟨⟨samples, rfl⟩, hempty, file_of_not_hasDir hempty, ?_, hothers, hcaches⟩
  rw [hcache]
  exact AList.lookup_erase _ _

/-- The simulated user has a template, a password and a cached key. -/
theorem delete_erases_simulated :
    ∃ resp w', Exec (Step simulatedUnseal .none)
        (dispatch simulatedProcess (.deleteProfile "alice") (some 0))
          (enrolledWorld "alice") resp w' ∧
      (∀ f, w'.file (.user "alice" f) = none) ∧ w'.cache.lookup "alice" = none := by
  obtain ⟨resp, w', hexec⟩ :=
    answers_faultless simulatedUnseal_seals
    (dispatch simulatedProcess (.deleteProfile "alice") (some 0))
    (enrolledWorld "alice")
  have htemplate : hasTemplate "alice" (enrolledWorld "alice") = true := by
    simp [hasTemplate, enrolledWorld]
  obtain ⟨-, -, hfiles, hcache, -⟩ := delete_erases rfl htemplate hexec
  exact ⟨resp, w', hexec, hfiles, hcache⟩

/-- A password sealed before anything was enrolled is not erased. -/
theorem sealed_password_kept :
    ¬ ∀ (moves : List Move) (v w' : World) (resp : Response),
      Run simulatedUnseal .none emptyWorld moves v →
      (v.file (.user "alice" .passwordEnvelope)).isSome = true →
      Exec (Step simulatedUnseal .none)
        (dispatch simulatedProcess (.deleteProfile "alice") (some 0)) v resp w' →
      w'.file (.user "alice" .passwordEnvelope) = none := by
  intro hall
  have hsealed : ((simulatedScript.run simulatedUnseal .none 8
      (dispatch simulatedProcess (.sealPassword "alice" simulatedSecret) (some 0))
      emptyWorld).map fun x =>
        ((x.2.file (.user "alice" .passwordEnvelope)).isSome, hasTemplate "alice" x.2)) =
      some (true, false) := by decide +kernel
  obtain ⟨⟨resp, v⟩, hrun, heq⟩ := Option.map_eq_some_iff.1 hsealed
  obtain ⟨hpassword, htemplate⟩ := Prod.mk.inj heq
  obtain ⟨events, hexec⟩ := exec_recorded (exec_of_execute (fun _ _ _ _ _ => step_sound) hrun) []
  obtain ⟨resp', w', hdelete⟩ :=
    answers_faultless simulatedUnseal_seals
    (dispatch simulatedProcess (.deleteProfile "alice") (some 0)) v
  have hgone := hall _ v w' resp' (.snoc .nil
    (m := .request simulatedProcess (some 0) (.sealPassword "alice" simulatedSecret) resp events)
    hexec) hpassword hdelete
  obtain ⟨-, rfl⟩ := delete_refused rfl htemplate hdelete
  rw [hgone] at hpassword
  cases hpassword

end Linhello.Daemon
