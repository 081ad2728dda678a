import Linhello.Daemon.Deletion
import Linhello.Daemon.UserFootprint
/-!
# Which files a request changes

`changedBy req` are the files that serving `req` may write or remove. Nothing else
below the config root is changed, whoever asks and whatever the operations answer.
-/

namespace Linhello.Daemon

open Common Linhello.Core Effect Host Host.World Liveness Biometrics

variable {pr : Process} {user : String} {peerUid : Option Nat} {F : UserFile → Prop}
  {P P' : Path → Prop} {α : Type} {p : Proc α}

/-- The operations that change no file outside `P`; a directory is created for the sake
of a file in it, and removed with all of them. -/
def changes (P : Path → Prop) : Op → Prop
  | .write p _ | .setPermissions p | .removeFile p => P p
  | .createDirAll dir => ∃ p, P p ∧ p.parent = dir
  | .removeDir user => ∀ f, P (.user user f)
  | _ => True

theorem changes_of_userOp (hF : ∀ f, F f → P (.user user f)) {o : Op} (h : userOp user F o) :
    changes P o := by
  have hfile : ∀ {p : Path}, (∃ f, p = .user user f ∧ F f) → P p := by
    intro p hp
    obtain ⟨f, rfl, hf⟩ := hp
    exact hF f hf
  cases o with
  | write p d => exact hfile h
  | setPermissions p => exact hfile h
  | removeFile p => exact hfile h
  | createDirAll dir =>
      obtain ⟨rfl, f, hf⟩ := h
      exact ⟨.user user f, hF f hf, rfl⟩
  | removeDir u => exact h.elim
  | _ => trivial

theorem changes_of_systemOp {o : Op} (h : systemOp o) : changes P o := by
  cases o <;> first | exact h.elim | trivial

theorem changes_of_looks {F : Path → Prop} {o : Op} (h : looks F o) : changes P o := by
  cases o <;> first | exact h.elim | trivial

theorem changes_of_surveyOp {o : Op} (h : surveyOp o) : changes P o := by
  cases o <;> first | exact h.elim | trivial

theorem changes_of_deleteOp (hP : ∀ p : Path, p.parent = some user → P p) {o : Op}
    (h : deleteOp user o) : changes P o := by
  cases o with
  | removeFile p => exact hP p h
  | removeDir u =>
      obtain rfl : u = user := h
      exact fun f => hP _ rfl
  | write p d => exact h.elim
  | setPermissions p => exact h.elim
  | createDirAll dir => exact h.elim
  | _ => trivial

/-! ## The files of each request -/

/-- The files that loading the samples of a user may change. -/
def loadedFile (f : UserFile) : Prop :=
  f = .templateKeyEnvelope ∨ f = .embeddingEnc ∨ f = .embeddingBin

/-- The files that serving a request may change. -/
def changedBy : Request → Path → Prop
  | .enroll user _, p =>
      ∃ f, p = .user user f ∧ (loadedFile f ∨ f = .cameraBinding ∨ f = .irCalibration)
  | .verify user, p | .«unseal» user, p | .unsealPassword user, p | .authenticate user _, p =>
      ∃ f, p = .user user f ∧ loadedFile f
  | .identify, p => ∃ user f, p = .user user f ∧ loadedFile f
  | .reseal, p => p = .root .tpmEnvelope
  | .sealPassword user _, p => p = .user user .passwordEnvelope
  | .resealUserEnvelopes user, p =>
      p = .user user .passwordEnvelope ∨ p = .user user .templateKeyEnvelope
  | .setProfileName user _, p => p = .user user .displayName
  | .deleteProfile user, p => p.parent = some user
  | .saveRecovery user _, p => p = .user user .recoveryEnvelope
  | .restoreFromRecovery user _, p => p = .user user .templateKeyEnvelope
  | _, _ => False

theorem changes_peerMayActAs : (peerMayActAs peerUid user).Only (changes P) :=
  (looks_peerMayActAs (F := fun _ => False) peerUid user).imp fun _ => changes_of_looks

theorem changes_enrolledProfiles : enrolledProfiles.Only (changes P) :=
  survey_enrolledProfiles.imp fun _ => changes_of_surveyOp

theorem changes_readProfileName : (readProfileName user).Only (changes P) := by
  refine only_bind (only_perform trivial) fun r => ?_
  split <;> exact .ret _

theorem changes_doReseal (h : P (.root .tpmEnvelope)) : doReseal.Only (changes P) := by
  refine only_bind ?_ fun _ => .ret _
  refine only_exceptT_bind (only_exceptT_lift (only_perform trivial)) fun buf => ?_
  refine only_exceptT_bind (only_fallible (only_perform trivial)) fun env => ?_
  refine only_exceptT_bind ?_ fun _ => .ret _
  refine only_exceptT_bind (only_io (only_perform ⟨_, h, rfl⟩)) fun _ => ?_
  exact only_io (only_perform h)

theorem changes_doListProfiles : (doListProfiles peerUid).Only (changes P) := by
  refine only_bind changes_enrolledProfiles fun users => ?_
  refine only_bind (only_mapM (fun user => ?_) users) fun _ => .ret _
  refine only_bind changes_peerMayActAs fun mayAct => ?_
  have hrest : ∀ hasPassword : Bool, Program.Only (changes P) (do
      let name ← readProfileName user
      let samples ← profileSampleCount user
      pure ({ user := user, name := name, samples := samples, hasPassword := hasPassword } :
        ProfileInfo)) := fun hasPassword =>
    only_bind changes_readProfileName fun _ =>
      only_bind (survey_profileSampleCount.imp fun _ => changes_of_surveyOp) fun _ => .ret _
  simp only
  split
  · exact only_bind (only_perform trivial) hrest
  · exact only_bind only_pure hrest

theorem changes_doIdentify (h : ∀ user f, loadedFile f → P (.user user f)) :
    (doIdentify pr).Only (changes P) := by
  refine only_bind changes_enrolledProfiles fun profiles => ?_
  split
  · exact .ret _
  · have hcapture : (captureAndEmbed pr).run.Only (changes P) :=
      only_exceptT_bind ((looks_captureAndEmbedSignals (F := fun _ => False) pr).imp
        fun _ => changes_of_looks) fun _ => .ret _
    refine only_bind hcapture fun live => ?_
    cases live with
    | error e => exact .ret _
    | ok live =>
        refine only_bind (only_mapM (fun user => ?_) profiles) fun scored => ?_
        · have hsamples : (loadUserSamples pr user).run.Only (userOp user loadedFile) :=
            userOp_loadUserSamples (.inl rfl) (.inr (.inl rfl)) (.inr (.inr rfl))
          refine only_bind (hsamples.imp fun _ => changes_of_userOp (h user)) fun samples => ?_
          cases samples with
          | error e => exact .ret _
          | ok samples => exact only_bind changes_readProfileName fun _ => .ret _
        · simp only
          split <;> exact .ret _

private theorem changes_doSetProfileName (h : P (.user user .displayName)) (name : String) :
    (doSetProfileName user name).Only (changes P) := by
  refine only_bind changes_enrolledProfiles fun profiles => ?_
  split
  · exact .ret _
  · refine only_bind ?_ fun r => ?_
    · unfold writeProfileName
      simp only
      split
      · refine only_bind (only_perform h) fun r => ?_
        split <;> exact .ret _
      · refine only_bind (only_perform h) fun r => ?_
        cases r with
        | ok _ => exact only_perform h
        | error e => exact .ret _
    · cases r <;> exact .ret _

/-- Serving a request changes the files it is said to change, and no other. -/
theorem changes_dispatch (req : Request) :
    (dispatch pr req peerUid).Only (changes (changedBy req)) := by
  have hsystem : ∀ {P : Path → Prop} {p : Proc Response}, p.Only systemOp → p.Only (changes P) :=
    fun honly => honly.imp fun _ => changes_of_systemOp
  have huser : ∀ {u : String} {F : UserFile → Prop} {P : Path → Prop} {p : Proc Response},
      (∀ f, F f → P (.user u f)) → p.Only (userOp u F) → p.Only (changes P) :=
    fun hF honly => honly.imp fun _ => changes_of_userOp hF
  have hkey : loadedFile .templateKeyEnvelope := .inl rfl
  have henc : loadedFile .embeddingEnc := .inr (.inl rfl)
  have hbin : loadedFile .embeddingBin := .inr (.inr rfl)
  cases req with
  | status => exact hsystem system_doStatus
  | enroll user reset =>
      refine only_rootOnly (huser (fun f hf => ⟨f, rfl, hf⟩) ?_)
      exact userOp_doEnroll (.inl hkey) (.inl henc) (.inl hbin) (.inr (.inl rfl)) (.inr (.inr rfl))
        reset
  | verify user =>
      refine only_withUser (only_bind changes_peerMayActAs fun mayAct => ?_)
      split
      · exact .ret _
      · exact huser (fun f hf => ⟨f, rfl, hf⟩) (userOp_doVerify hkey henc hbin)
  | «unseal» user =>
      refine only_rootOnly (huser (fun f hf => ⟨f, rfl, hf⟩) ?_)
      exact userOp_releaseIfMatched hkey henc hbin userOp_unsealKeyringSecret
  | reseal =>
      simp only [dispatch]
      split
      · exact .ret _
      · exact changes_doReseal rfl
  | sealPassword user password =>
      refine only_rootOnly (huser (u := user) (F := fun f => f = .passwordEnvelope) ?_ ?_)
      · rintro f rfl
        rfl
      · exact userOp_doSealPassword (by rfl) password
  | unsealPassword user =>
      refine only_rootOnly (huser (fun f hf => ⟨f, rfl, hf⟩) ?_)
      exact userOp_releaseIfMatched hkey henc hbin userOp_unsealPassword
  | authenticate user service =>
      refine only_ownAccount changes_peerMayActAs (huser (fun f hf => ⟨f, rfl, hf⟩) ?_)
      exact userOp_doAuthenticate hkey henc hbin service _
  | authIntent user service =>
      refine only_ownAccount changes_peerMayActAs
        (huser (u := user) (F := fun _ => False) (fun _ hf => hf.elim) ?_)
      exact userOp_doAuthIntent service _
  | policyStatus user =>
      exact only_ownAccount changes_peerMayActAs
        (huser (u := user) (F := fun _ => False) (fun _ hf => hf.elim) userOp_doPolicyStatus)
  | diagnose => exact hsystem system_doDiagnose
  | livenessTest => exact hsystem system_doLivenessTest
  | resealUserEnvelopes user =>
      refine only_rootOnly
        (huser (u := user) (F := fun f => f = .passwordEnvelope ∨ f = .templateKeyEnvelope) ?_ ?_)
      · rintro f (rfl | rfl)
        · exact .inl rfl
        · exact .inr rfl
      · exact userOp_doResealUserEnvelopes (.inl rfl) (.inr rfl)
  | probe => exact hsystem (only_bind (only_perform trivial) fun _ => .ret _)
  | positionSample => exact hsystem (only_bind (only_perform trivial) fun _ => .ret _)
  | listProfiles => exact changes_doListProfiles
  | identify =>
      simp only [dispatch]
      split
      · exact .ret _
      · exact changes_doIdentify fun user f hf => ⟨user, f, rfl, hf⟩
  | setProfileName user name =>
      have hname : changedBy (.setProfileName user name) (.user user .displayName) := rfl
      exact only_rootOnly (changes_doSetProfileName hname name)
  | deleteProfile user =>
      exact only_rootOnly (delete_doDeleteProfile.imp fun _ => changes_of_deleteOp fun _ hp => hp)
  | saveRecovery user passphrase =>
      refine only_rootOnly (huser (u := user) (F := fun f => f = .recoveryEnvelope) ?_ ?_)
      · rintro f rfl
        rfl
      · exact userOp_doSaveRecovery (by rfl) passphrase
  | restoreFromRecovery user passphrase =>
      refine only_rootOnly (huser (u := user) (F := fun f => f = .templateKeyEnvelope) ?_ ?_)
      · rintro f rfl
        rfl
      · exact userOp_doRestoreFromRecovery (by rfl) passphrase

end Linhello.Daemon
