import Linhello.Daemon.Deletion
import Linhello.Daemon.Release
import Linhello.Daemon.UserFootprint
import Linhello.Effect.Interleaving
/-!
# Which passwords are sealed

Whatever holds of every password a client hands over to be sealed holds of every
password an envelope opens to and of every password the daemon releases, however its
requests interleave (`released_of_pool`).
-/

namespace Linhello.Daemon

open Common Linhello.Core Effect Host Host.World Liveness Biometrics

variable {pr : Process} {user : String} {peerUid : Option Nat}
  {sealed : SealedEnvelope → Option Bytes} {flt : Faults} {w v : World} {G : String → Bytes → Prop}

/-- A user's password envelope opens to passwords with `G` for this user. -/
def PasswordsAre (sealed : SealedEnvelope → Option Bytes) (G : String → Bytes → Prop) (w : World) :
    Prop :=
  ∀ user env secret, w.file (.user user .passwordEnvelope) = some (.value env) →
    sealed env = some secret → G user secret

/-- What a program may rely on: passwords read are good, and the TPM is honest. -/
structure Vouched (sealed : SealedEnvelope → Option Bytes) (G : String → Bytes → Prop)
    (e : Event host) : Prop where
  stored : ∀ u env secret, e = ⟨.read (.user u .passwordEnvelope), .ok (.value env)⟩ →
    sealed env = some secret → G u secret
  seals : ∀ secret env, e = ⟨.tpmSeal secret, .ok env⟩ → sealed env = some secret
  unseals : ∀ env secret, e = ⟨.tpmUnseal env, .ok secret⟩ → sealed env = some secret

/-- What it promises in return: a password envelope written is good. -/
def storesGood (sealed : SealedEnvelope → Option Bytes) (G : String → Bytes → Prop) (o : Op) :
    Prop :=
  ∀ u env secret, o = .write (.user u .passwordEnvelope) (.value env) →
    sealed env = some secret → G u secret

/-- A step that is as promised keeps the invariant, and its answer is as relied on. -/
theorem vouched_step {o : Op} {r : o.Ans} (hinv : PasswordsAre sealed G w)
    (ho : storesGood sealed G o) (hstep : Step sealed flt w o r v) :
    Vouched sealed G ⟨o, r⟩ ∧ PasswordsAre sealed G v := by
  constructor
  · refine ⟨?_, ?_, ?_⟩
    · intro u env secret heq hsealed
      cases heq
      exact hinv u env secret (step_read_ok hstep).1 hsealed
    · intro secret env heq
      cases heq
      have hallows := hstep.1
      rwa [allows, decide_eq_true_eq] at hallows
    · intro env secret heq
      cases heq
      exact (step_unseal_ok hstep).1
  · intro user env secret hfile hsealed
    by_cases htouch : touches (.user user .passwordEnvelope) ⟨o, r⟩
    · obtain ⟨-, rfl⟩ := hstep
      cases o with
      | write p d =>
          obtain ⟨rfl, hr⟩ := htouch
          subst hr
          rw [World.next, file_set_self] at hfile
          obtain rfl : d = .value env := Option.some.inj hfile
          exact ho user env secret rfl hsealed
      | removeFile p =>
          obtain ⟨rfl, hr⟩ := htouch
          subst hr
          rw [World.next, file_erase_self] at hfile
          cases hfile
      | removeDir u =>
          obtain ⟨hp, hr⟩ := htouch
          subst hr
          obtain rfl : user = u := Option.some.inj hp
          rw [World.next, file_rmdir_self] at hfile
          cases hfile
      | _ => exact htouch.elim
    · rw [hstep.2, file_next_of_not_touches htouch] at hfile
      exact hinv user env secret hfile hsealed

/-! ## The requests -/

def noPassword (o : Op) : Prop := ∀ u d, o ≠ .write (.user u .passwordEnvelope) d

theorem storesGood_of_noPassword {o : Op} (h : noPassword o) : storesGood sealed G o :=
  fun u _ _ heq => absurd heq (h u _)

/-- The files of a user that are not the password envelope. -/
def otherFile (f : UserFile) : Prop := f ≠ .passwordEnvelope

instance : DecidablePred otherFile := fun f => inferInstanceAs (Decidable (f ≠ _))

theorem noPassword_of_userOp {o : Op} (h : userOp user otherFile o) : noPassword o := by
  rintro u d rfl
  obtain ⟨f, hp, hf⟩ := h
  cases hp
  exact hf rfl

theorem noPassword_of_systemOp {o : Op} (h : systemOp o) : noPassword o := by
  rintro u d rfl
  exact h.elim

theorem noPassword_of_surveyOp {o : Op} (h : surveyOp o) : noPassword o := by
  rintro u d rfl
  exact h.elim

theorem noPassword_of_deleteOp {o : Op} (h : deleteOp user o) : noPassword o := by
  rintro u d rfl
  exact h.elim

theorem noPassword_of_looks {P : Path → Prop} {o : Op} (h : looks P o) : noPassword o := by
  rintro u d rfl
  exact h.elim

theorem noPassword_readProfileName : (readProfileName user).Only noPassword := by
  refine only_bind (only_perform fun u d h => by cases h) fun r => ?_
  split <;> exact .ret _

theorem noPassword_peerMayActAs : (peerMayActAs peerUid user).Only noPassword :=
  (looks_peerMayActAs (F := fun _ => False) peerUid user).imp fun _ => noPassword_of_looks

theorem noPassword_enrolledProfiles : enrolledProfiles.Only noPassword :=
  survey_enrolledProfiles.imp fun _ => noPassword_of_surveyOp

theorem noPassword_doReseal : doReseal.Only noPassword := by
  refine only_bind ?_ fun _ => .ret _
  refine only_exceptT_bind (only_exceptT_lift (only_perform fun u d h => by cases h)) fun buf => ?_
  refine only_exceptT_bind (only_fallible (only_perform fun u d h => by cases h)) fun env => ?_
  refine only_exceptT_bind ?_ fun _ => .ret _
  refine only_exceptT_bind (only_io (only_perform fun u d h => by cases h)) fun _ => ?_
  exact only_io (only_perform fun u d h => by cases h)

theorem noPassword_doListProfiles : (doListProfiles peerUid).Only noPassword := by
  refine only_bind noPassword_enrolledProfiles fun users => ?_
  refine only_bind (only_mapM (fun user => ?_) users) fun _ => .ret _
  refine only_bind noPassword_peerMayActAs fun mayAct => ?_
  have hrest : ∀ hasPassword : Bool, Program.Only noPassword (do
      let name ← readProfileName user
      let samples ← profileSampleCount user
      pure ({ user := user, name := name, samples := samples, hasPassword := hasPassword } :
        ProfileInfo)) := fun hasPassword =>
    only_bind noPassword_readProfileName fun _ =>
      only_bind (survey_profileSampleCount.imp fun _ => noPassword_of_surveyOp) fun _ => .ret _
  simp only
  split
  · exact only_bind (only_perform fun u d h => by cases h) hrest
  · exact only_bind only_pure hrest

theorem noPassword_doIdentify : (doIdentify pr).Only noPassword := by
  refine only_bind noPassword_enrolledProfiles fun profiles => ?_
  split
  · exact .ret _
  · have hcapture : (captureAndEmbed pr).run.Only noPassword :=
      only_exceptT_bind ((looks_captureAndEmbedSignals (F := fun _ => False) pr).imp
        fun _ => noPassword_of_looks) fun _ => .ret _
    refine only_bind hcapture fun live => ?_
    cases live with
    | error e => exact .ret _
    | ok live =>
        refine only_bind (only_mapM (fun user => ?_) profiles) fun scored => ?_
        · have hsamples : (loadUserSamples pr user).run.Only (userOp user otherFile) :=
            userOp_loadUserSamples (by decide) (by decide) (by decide)
          refine only_bind (hsamples.imp fun _ => noPassword_of_userOp) fun samples => ?_
          cases samples with
          | error e => exact .ret _
          | ok samples => exact only_bind noPassword_readProfileName fun _ => .ret _
        · simp only
          split <;> exact .ret _

theorem noPassword_doSetProfileName (name : String) :
    (doSetProfileName user name).Only noPassword := by
  refine only_bind noPassword_enrolledProfiles fun profiles => ?_
  split
  · exact .ret _
  · refine only_bind ?_ fun r => ?_
    · unfold writeProfileName
      simp only
      split
      · refine only_bind (only_perform fun u d h => by cases h) fun r => ?_
        split <;> exact .ret _
      · refine only_bind (only_perform fun u d h => by cases h) fun r => ?_
        cases r with
        | ok _ => exact only_perform fun u d h => by cases h
        | error e => exact .ret _
    · cases r <;> exact .ret _

/-! ### The two that seal a password -/

theorem guided_sealPassword {password : Bytes} (hgood : password ≠ [] → G user password) :
    (sealPassword user password).run.Guided (Vouched sealed G) (storesGood sealed G)
      fun _ => True := by
  have hquiet : ∀ {o : Op}, noPassword o → storesGood sealed G o := storesGood_of_noPassword
  unfold sealPassword
  split
  · exact .ret trivial
  · next hne =>
      refine guided_exceptT_bind (Q := fun _ => True) ?_ (fun _ _ => ?_) fun _ => trivial
      · exact .ret fun _ _ => trivial
      refine guided_exceptT_bind (Q := fun env => sealed env = some password) ?_
        (fun env henv => ?_)
        fun _ => trivial
      · refine .call (hquiet fun u d h => by cases h) fun r hr => .ret fun env heq => ?_
        subst heq
        exact hr.seals password env rfl
      have hwrite : storesGood sealed G (.write (.user user .passwordEnvelope) (.value env)) := by
        intro u env' secret heq hsecret
        cases heq
        obtain rfl : password = secret := Option.some.inj (henv.symm.trans hsecret)
        exact hgood hne
      refine guided_exceptT_bind (Q := fun _ => True) ?_ (fun _ _ => ?_) fun _ => trivial
      · refine guided_exceptT_bind (Q := fun _ => True) ?_ (fun _ _ => ?_) fun _ _ _ => trivial
        · exact .call (hquiet fun u d h => by cases h) fun r _ => .ret fun _ _ => trivial
        · exact .call hwrite fun r _ => .ret fun _ _ => trivial
      · exact .call (hquiet fun u d h => by cases h) fun r _ => .ret trivial

private theorem guided_unsealPassword :
    (unsealPassword user).run.Guided (Vouched sealed G) (storesGood sealed G)
      fun r => ∀ secret, r = .ok secret → G user secret := by
  have hquiet : ∀ {o : Op}, noPassword o → storesGood sealed G o := storesGood_of_noPassword
  refine guided_exceptT_bind (Q := fun _ => True) (.ret fun _ _ => trivial) (fun _ _ => ?_)
    fun _ _ h => by cases h
  refine guided_exceptT_bind
    (Q := fun env => ∀ secret, sealed env = some secret → G user secret) ?_ (fun env henv => ?_)
    fun _ _ h => by cases h
  · refine .call (hquiet fun u d h => by cases h) fun r hr => ?_
    cases r with
    | error e => exact .ret fun env h => by cases h
    | ok d =>
        cases d with
        | invalidUtf8 | malformed msg => exact .ret fun env h => by cases h
        | value env =>
            refine .ret fun env' heq secret hsecret => ?_
            cases heq
            exact hr.stored user env secret rfl hsecret
  · refine .call (hquiet fun u d h => by cases h) fun r hr => .ret fun secret heq => ?_
    subst heq
    exact henv secret (hr.unseals env secret rfl)

theorem guided_doResealUserEnvelopes :
    (doResealUserEnvelopes user).Guided (Vouched sealed G) (storesGood sealed G)
      fun _ => True := by
  have hkey : (resealTemplateKey user).Only noPassword := by
    have honly : (resealTemplateKey user).Only (userOp user otherFile) :=
      userOp_resealTemplateKey (by decide)
    exact honly.imp fun _ => noPassword_of_userOp
  refine guided_bind (Q := fun _ => True) ?_ fun pwOk _ => ?_
  · refine guided_bind guided_unsealPassword fun plaintext hplain => ?_
    cases plaintext with
    | error e => exact .ret trivial
    | ok plaintext =>
        refine guided_bind (guided_sealPassword fun _ => hplain plaintext rfl) fun r _ => ?_
        cases r <;> exact .ret trivial
  · exact guided_bind (hkey.imp fun _ => storesGood_of_noPassword).guided fun tkOk _ => .ret trivial

theorem noPassword_dispatch {req : Request} (hseal : ∀ u password, req ≠ .sealPassword u password)
    (hreseal : ∀ u, req ≠ .resealUserEnvelopes u) : (dispatch pr req peerUid).Only noPassword := by
  have hother : ∀ {user : String} {p : Proc Response}, p.Only (userOp user otherFile) →
      p.Only noPassword := fun honly => honly.imp fun _ => noPassword_of_userOp
  have hsystem : ∀ {p : Proc Response}, p.Only systemOp → p.Only noPassword :=
    fun honly => honly.imp fun _ => noPassword_of_systemOp
  have hpeer : ∀ {user : String}, (peerMayActAs peerUid user).Only noPassword :=
    noPassword_peerMayActAs
  have hkey : otherFile .templateKeyEnvelope := by decide
  have henc : otherFile .embeddingEnc := by decide
  have hbin : otherFile .embeddingBin := by decide
  cases req with
  | status => exact hsystem system_doStatus
  | enroll user reset =>
      exact only_rootOnly
        (hother (userOp_doEnroll hkey henc hbin (by decide) (by decide) reset))
  | verify user =>
      refine only_withUser (only_bind hpeer fun mayAct => ?_)
      split
      · exact .ret _
      · exact hother (userOp_doVerify hkey henc hbin)
  | «unseal» user =>
      exact only_rootOnly
        (hother (userOp_releaseIfMatched hkey henc hbin userOp_unsealKeyringSecret))
  | reseal =>
      simp only [dispatch]
      split
      · exact .ret _
      · exact noPassword_doReseal
  | sealPassword user password => exact absurd rfl (hseal user password)
  | unsealPassword user =>
      exact only_rootOnly (hother (userOp_releaseIfMatched hkey henc hbin userOp_unsealPassword))
  | authenticate user service =>
      exact only_ownAccount hpeer (hother (userOp_doAuthenticate hkey henc hbin service _))
  | authIntent user service =>
      exact only_ownAccount hpeer (hother (userOp_doAuthIntent service _))
  | policyStatus user => exact only_ownAccount hpeer (hother userOp_doPolicyStatus)
  | diagnose => exact hsystem system_doDiagnose
  | livenessTest => exact hsystem system_doLivenessTest
  | resealUserEnvelopes user => exact absurd rfl (hreseal user)
  | probe => exact hsystem (only_bind (only_perform trivial) fun _ => .ret _)
  | positionSample => exact hsystem (only_bind (only_perform trivial) fun _ => .ret _)
  | listProfiles => exact noPassword_doListProfiles
  | identify =>
      simp only [dispatch]
      split
      · exact .ret _
      · exact noPassword_doIdentify
  | setProfileName user name => exact only_rootOnly (noPassword_doSetProfileName name)
  | deleteProfile user =>
      exact only_rootOnly (delete_doDeleteProfile.imp fun _ => noPassword_of_deleteOp)
  | saveRecovery user passphrase =>
      exact only_rootOnly (hother (userOp_doSaveRecovery (by decide) passphrase))
  | restoreFromRecovery user passphrase =>
      exact only_rootOnly (hother (userOp_doRestoreFromRecovery hkey passphrase))

/-- Whatever is asked, a password envelope that is written is good, if a password to be
sealed is. -/
theorem guided_passwords {req : Request}
    (hreq : ∀ u password, req = .sealPassword u password → password ≠ [] → G u password) :
    (dispatch pr req peerUid).Guided (Vouched sealed G) (storesGood sealed G) fun _ => True := by
  by_cases hseal : ∃ u password, req = .sealPassword u password
  · obtain ⟨u, password, rfl⟩ := hseal
    refine guided_rootOnly fun _ => ?_
    exact guided_bind (guided_sealPassword (hreq u password rfl)) fun r _ => .ret trivial
  · by_cases hreseal : ∃ u, req = .resealUserEnvelopes u
    · obtain ⟨u, rfl⟩ := hreseal
      exact guided_rootOnly fun _ => guided_doResealUserEnvelopes
    · have honly : (dispatch pr req peerUid).Only noPassword :=
        noPassword_dispatch (fun u password heq => hseal ⟨u, password, heq⟩)
          fun u heq => hreseal ⟨u, heq⟩
      exact (honly.imp fun _ => storesGood_of_noPassword).guided

/-! ## States the daemon reaches -/

section Reachable

variable {G : Bytes → Prop}

/-- The passwords clients hand over to be sealed have `G`, unless they are empty. -/
def Handed (G : Bytes → Prop) (req : Request) : Prop :=
  ∀ u password, req = .sealPassword u password → password ≠ [] → G password

/-- States reached from one without a sealed password, by serving requests in any order of
their operations, finished or not, and by restarts. -/
inductive Reachable (sealed : SealedEnvelope → Option Bytes) (flt : Faults) (G : Bytes → Prop) :
    World → Prop
  | fresh {w : World} (h : ∀ u, w.file (.user u .passwordEnvelope) = none) :
  Reachable sealed flt G w
  | served {w v : World} {ι : Type} [DecidableEq ι] {prs : ι → Process} {reqs : ι → Request}
      {peers : ι → Option Nat} {qs : ι → Proc Response} {log : Log host ι}
      (before : Reachable sealed flt G w) (handed : ∀ i, Handed G (reqs i))
      (run : Interleaved (Step sealed flt) (fun i => dispatch (prs i) (reqs i) (peers i)) w log qs
        v) : Reachable sealed flt G v
  | restart {w : World} (before : Reachable sealed flt G w) :
      Reachable sealed flt G { w with cache := ∅ }

theorem Reachable.passwords (h : Reachable sealed flt G w) :
    PasswordsAre sealed (fun _ => G) w := by
  induction h with
  | fresh h =>
      intro user env secret hfile
      rw [h] at hfile
      cases hfile
  | served _ handed run ih =>
      exact (run.guided vouched_step (fun i => guided_passwords (handed i)) ih).1
  | restart _ ih =>
      intro user env secret hfile
      rw [file_withCache] at hfile
      exact ih user env secret hfile

/-- The daemon gives this answer to the request, in some state it reaches and next to
whatever else it serves. -/
def Answered (sealed : SealedEnvelope → Option Bytes) (flt : Faults) (G : Bytes → Prop)
    (req : Request) (resp : Response) : Prop :=
  ∃ (ι : Type) (_ : DecidableEq ι) (prs : ι → Process) (reqs : ι → Request)
    (peers : ι → Option Nat) (qs : ι → Proc Response) (w v : World) (log : Log host ι) (i : ι),
    Reachable sealed flt G w ∧ (∀ i, Handed G (reqs i)) ∧
      Interleaved (Step sealed flt) (fun i => dispatch (prs i) (reqs i) (peers i)) w log qs v ∧
      reqs i = req ∧ qs i = .ret resp

/-- The unsealed password is one that a vouched envelope opens to. -/
theorem good_of_unsealPassword {G : String → Bytes → Prop} {secret : Bytes} {u : Unit}
    (h : Exec (fun (_ : Unit) o r _ => Vouched sealed G ⟨o, r⟩) (unsealPassword user).run u
      (.ok secret) ()) : G user secret := by
  unfold unsealPassword at h
  simp only [exec_exceptT_bind_ok, exec_fallible, exec_perform] at h
  obtain ⟨_, _, -, env, _, hload, hunseal⟩ := h
  obtain ⟨d, hread, hparse⟩ := exec_readJson_ok.1 hload
  obtain rfl : d = .value env := parse_eq_ok.1 hparse
  exact hread.stored user env secret rfl (hunseal.unseals env secret rfl)

theorem released_of_pool {req : Request} {secret : Bytes}
    (h : Answered sealed flt G req (.passwordUnsealed secret)) : G secret := by
  obtain ⟨ι, _, prs, reqs, peers, qs, w, v, log, i, hreach, handed, hrun, -, hend⟩ := h
  obtain ⟨-, hlog, -⟩ :=
    hrun.guided vouched_step (fun i => guided_passwords (handed i)) hreach.passwords
  have hexec := hrun.exec_thread hlog hend
  obtain ⟨-, user, release, u, -, -, hroute, -, hreleased⟩ := exec_dispatch_secret hexec rfl
  have hrelease : release = unsealPassword user := by
    generalize reqs i = req at hroute
    cases hroute <;> rfl
  subst hrelease
  obtain ⟨_, _, _, _, _, _, _, _, _, _, _, _, _, _, hgated⟩ := hreleased
  exact good_of_unsealPassword hgated.unsealOk

end Reachable

end Linhello.Daemon
