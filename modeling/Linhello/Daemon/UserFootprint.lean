import Linhello.Daemon.Append
/-!
# What a request for one user works on

Every handler that serves one user keeps to that user's directory and cached key,
apart from the files of the daemon itself and the devices; and it changes only some
files of that directory.
-/

namespace Linhello.Daemon

open Common Linhello.Core Effect Host Host.World Liveness Biometrics

variable {pr : Process} {user : String} {F F' : UserFile → Prop}

/-- The operations of a handler for one user that changes the user's files in `F` only. -/
def userOp (user : String) (F : UserFile → Prop) : Op → Prop
  | .pathExists p | .read p => p.parent = none ∨ p.parent = some user
  | .write p _ | .setPermissions p | .removeFile p => ∃ f, p = .user user f ∧ F f
  | .createDirAll u => u = some user ∧ ∃ f, F f
  | .templateLen u _ | .cacheGet u | .cacheInsert u _ | .cacheRemove u => u = user
  | .readRoot | .readUserDir _ | .removeDir _ => False
  | _ => True

def isCacheOp : Op → Bool
  | .cacheGet _ | .cacheInsert _ _ | .cacheRemove _ => true
  | _ => false

def storeOp (user : String) (F : UserFile → Prop) (o : Op) : Prop :=
  userOp user F o ∧ isCacheOp o = false

theorem cache_next {w : World} {o : Op} {r : o.Ans} (h : isCacheOp o = false) :
    (w.next o r).cache = w.cache := by
  cases o with
  | write p d => cases r <;> [rfl; exact cache_set w p d]
  | removeFile p => cases r <;> [rfl; exact cache_erase w p]
  | createDirAll u => cases r <;> [rfl; exact cache_mkdir w u]
  | removeDir u => cases r <;> rfl
  | cacheGet u => cases h
  | cacheInsert u k => cases h
  | cacheRemove u => cases h
  | _ => rfl

def anyFile : UserFile → Prop := fun _ => True

/-- Operations on the daemon's own files, on the devices and on the TPM that store nothing. -/
def systemOp : Op → Prop
  | .pathExists p | .read p => p.parent = none
  | .write _ _ | .setPermissions _ | .removeFile _ | .createDirAll _ | .readRoot | .readUserDir _
  | .removeDir _ | .templateLen _ _ | .cacheGet _ | .cacheInsert _ _ | .cacheRemove _ => False
  | _ => True

theorem systemOp_of_looks {o : Op} (h : looks (fun _ => False) o) : systemOp o := by
  cases o <;> first | exact h.elim | trivial

theorem userOp_of_looks {P : Path → Prop} (hP : ∀ p, P p → p.parent = none ∨ p.parent = some user)
    {o : Op} (h : looks P o) : userOp user F o := by
  cases o with
  | pathExists p => exact hP p h
  | read p => exact hP p h
  | _ => trivial

theorem userOp_of_keyOp (hkey : F .templateKeyEnvelope) {o : Op} (h : keyOp user o) :
    userOp user F o := by
  cases o with
  | pathExists p => exact .inr (by rw [show p = _ from h]; rfl)
  | read p => exact .inr (by rw [show p = _ from h]; rfl)
  | write p d => exact ⟨.templateKeyEnvelope, h, hkey⟩
  | setPermissions p => exact ⟨.templateKeyEnvelope, h, hkey⟩
  | createDirAll u => exact ⟨h, _, hkey⟩
  | _ => trivial

theorem userOp_of_recordOp (hbinding : F .cameraBinding) (hcal : F .irCalibration) {o : Op}
    (h : recordOp user o) : userOp user F o := by
  have hwrite : ∀ {p : Path}, p = .user user .cameraBinding ∨ p = .user user .irCalibration →
      ∃ f, p = .user user f ∧ F f := by
    rintro p (rfl | rfl)
    · exact ⟨_, rfl, hbinding⟩
    · exact ⟨_, rfl, hcal⟩
  cases o with
  | write p d => exact hwrite h
  | setPermissions p => exact hwrite h
  | pathExists p => exact .inr (by rw [show p = _ from h]; rfl)
  | read p => exact .inr (by rw [show p = _ from h]; rfl)
  | _ => trivial

theorem spares_of_userOp {f : UserFile} (hf : ¬ F f) {o : Op} (h : userOp user F o) :
    spares (.user user f) o := by
  have hother : ∀ {p : Path}, (∃ f', p = .user user f' ∧ F f') → p ≠ .user user f := by
    rintro p ⟨f', rfl, hf'⟩ heq
    cases heq
    exact hf hf'
  cases o with
  | write p d => exact hother h
  | removeFile p => exact hother h
  | removeDir u => exact h.elim
  | _ => trivial

/-! ## The store -/

theorem userOp_save {env : SealedEnvelope} {f : UserFile} {as : Json SealedEnvelope → f.Data}
    (hf : F f) : (env.save (.user user f) as).run.Only (userOp user F) :=
  only_exceptT_bind (only_io (only_perform ⟨rfl, f, hf⟩)) fun _ =>
    only_io (only_perform ⟨f, rfl, hf⟩)

theorem userOp_loadEnvelope {f : UserFile} {as : f.Data → Json SealedEnvelope} :
    (do
      orFail (validateUser user)
      let env ← SealedEnvelope.load (.user user f) as
      fallible (perform (.tpmUnseal env)) : Fallible Bytes).run.Only (userOp user F) := by
  refine only_exceptT_bind only_orFail fun _ => ?_
  refine only_exceptT_bind (only_readJson (.inr rfl)) fun env => ?_
  exact only_fallible (only_perform trivial)

theorem userOp_unsealTemplateKey : (unsealTemplateKey user).run.Only (userOp user F) :=
  userOp_loadEnvelope

theorem userOp_cachedTemplateKey (hkey : F .templateKeyEnvelope) :
    (cachedTemplateKey user).run.Only (userOp user F) :=
  only_cachedTemplateKey.imp fun _ => userOp_of_keyOp hkey

theorem userOp_sealTemplateKey (hkey : F .templateKeyEnvelope) (key : Bytes) :
    (sealTemplateKey user key).run.Only (userOp user F) := by
  unfold sealTemplateKey
  split
  · exact .ret _
  · refine only_exceptT_bind only_orFail fun _ => ?_
    refine only_exceptT_bind (only_fallible (only_perform trivial)) fun env => ?_
    exact only_exceptT_bind (userOp_save hkey) fun _ =>
      only_io (only_perform ⟨_, rfl, hkey⟩)

theorem userOp_sealPassword (hpassword : F .passwordEnvelope) (password : Bytes) :
    (sealPassword user password).run.Only (userOp user F) := by
  unfold sealPassword
  split
  · exact .ret _
  · refine only_exceptT_bind only_orFail fun _ => ?_
    refine only_exceptT_bind (only_fallible (only_perform trivial)) fun env => ?_
    exact only_exceptT_bind (userOp_save hpassword) fun _ =>
      only_io (only_perform ⟨_, rfl, hpassword⟩)

theorem userOp_unsealPassword : (unsealPassword user).run.Only (userOp user F) :=
  userOp_loadEnvelope

theorem userOp_unsealKeyringSecret : unsealKeyringSecret.run.Only (userOp user F) :=
  only_exceptT_bind (only_readJson (.inl rfl)) fun _ => only_fallible (only_perform trivial)

theorem storeOp_encrypt (cl : CryptoLib) (key plaintext : Bytes) :
    (encrypt cl key plaintext).run.Only (storeOp user F) := by
  unfold encrypt
  split
  · exact .ret _
  · exact only_exceptT_bind (only_exceptT_lift (only_perform ⟨trivial, rfl⟩)) fun _ => only_orFail

private theorem userOp_encrypt (cl : CryptoLib) (key plaintext : Bytes) :
    (encrypt cl key plaintext).run.Only (userOp user F) :=
  (storeOp_encrypt cl key plaintext).imp fun _ h => h.1

private theorem userOp_wrap (cl : CryptoLib) (passphrase key : Bytes) :
    (wrap cl passphrase key).run.Only (userOp user F) := by
  unfold wrap
  split
  · exact .ret _
  · refine only_exceptT_bind (only_exceptT_lift (only_perform trivial)) fun salt => ?_
    refine only_exceptT_bind only_orFail fun dk => ?_
    exact only_exceptT_bind (userOp_encrypt cl dk key) fun _ => .ret _

theorem userOp_saveRecovery (hrecovery : F .recoveryEnvelope) (cl : CryptoLib)
    (passphrase : Bytes) :
    (saveRecovery cl user passphrase).run.Only (userOp user F) := by
  refine only_exceptT_bind userOp_unsealTemplateKey fun key => ?_
  refine only_exceptT_bind (userOp_wrap cl passphrase key) fun env => ?_
  refine only_exceptT_bind only_orFail fun _ => ?_
  refine only_exceptT_bind (only_io (only_perform ⟨rfl, _, hrecovery⟩)) fun _ => ?_
  exact only_exceptT_bind (only_io (only_perform ⟨_, rfl, hrecovery⟩)) fun _ =>
    only_io (only_perform ⟨_, rfl, hrecovery⟩)

theorem userOp_restoreFromRecovery (hkey : F .templateKeyEnvelope) (cl : CryptoLib)
    (passphrase : Bytes) :
    (restoreFromRecovery cl user passphrase).run.Only (userOp user F) := by
  refine only_exceptT_bind only_orFail fun _ => ?_
  refine only_exceptT_bind (only_exceptT_lift (only_perform (.inr rfl))) fun content => ?_
  split
  · exact .ret _
  · exact .ret _
  · refine only_exceptT_bind only_orFail fun env => ?_
    exact only_exceptT_bind only_orFail fun key => userOp_sealTemplateKey hkey key

theorem storeOp_saveEncryptedEmbedding (henc : F .embeddingEnc) (hbin : F .embeddingBin)
    (cl : CryptoLib) (raw key : Bytes) :
    (saveEncryptedEmbedding cl user raw key).run.Only (storeOp user F) := by
  refine only_exceptT_bind only_orFail fun _ => ?_
  refine only_exceptT_bind (only_io (only_perform ⟨⟨rfl, _, henc⟩, rfl⟩)) fun _ => ?_
  refine only_exceptT_bind (storeOp_encrypt cl key raw) fun blob => ?_
  refine only_exceptT_bind (only_io (only_perform ⟨⟨_, rfl, henc⟩, rfl⟩)) fun _ => ?_
  refine only_exceptT_bind (only_io (only_perform ⟨⟨_, rfl, henc⟩, rfl⟩)) fun _ => ?_
  exact only_exceptT_bind (only_exceptT_lift (only_perform ⟨⟨_, rfl, hbin⟩, rfl⟩)) fun _ => .ret _

theorem userOp_saveEncryptedEmbedding (henc : F .embeddingEnc) (hbin : F .embeddingBin)
    (cl : CryptoLib) (raw key : Bytes) :
    (saveEncryptedEmbedding cl user raw key).run.Only (userOp user F) :=
  (storeOp_saveEncryptedEmbedding henc hbin cl raw key).imp fun _ h => h.1

theorem storeOp_loadEncryptedEmbedding (henc : F .embeddingEnc) (hbin : F .embeddingBin)
    (key : Bytes) : (loadEncryptedEmbedding pr user key).run.Only (storeOp user F) := by
  have hlook : ∀ {p : Path}, p.parent = some user →
      (liftM (perform (.pathExists p)) : Fallible Bool).run.Only (storeOp user F) :=
    fun hp => only_exceptT_lift (only_perform ⟨.inr hp, rfl⟩)
  refine only_exceptT_bind only_orFail fun _ => ?_
  refine only_exceptT_bind (hlook rfl) fun present => ?_
  cases present with
  | true => exact only_exceptT_bind (only_io (only_perform ⟨.inr rfl, rfl⟩)) fun _ => only_orFail
  | false =>
      refine only_exceptT_bind (hlook rfl) fun legacy => ?_
      cases legacy with
      | false => exact .ret _
      | true =>
          rw [if_pos rfl]
          split
          · exact .ret _
          · refine only_exceptT_bind (only_io (only_perform ⟨.inr rfl, rfl⟩)) fun raw => ?_
            refine only_exceptT_bind (storeOp_saveEncryptedEmbedding henc hbin pr.cl raw key)
              fun _ => ?_
            exact only_exceptT_bind (only_exceptT_lift (only_perform ⟨⟨_, rfl, hbin⟩, rfl⟩))
              fun _ => .ret _

theorem userOp_loadEncryptedEmbedding (henc : F .embeddingEnc) (hbin : F .embeddingBin)
    (key : Bytes) : (loadEncryptedEmbedding pr user key).run.Only (userOp user F) :=
  (storeOp_loadEncryptedEmbedding henc hbin key).imp fun _ h => h.1

theorem storeOp_existingTemplate (henc : F .embeddingEnc) (hbin : F .embeddingBin) (reset : Bool)
    (key : Bytes) : (existingTemplate pr user reset key).Only (storeOp user F) := by
  unfold existingTemplate
  split
  · exact .ret _
  · refine only_bind (storeOp_loadEncryptedEmbedding henc hbin key) fun loaded => ?_
    cases loaded <;> exact .ret _

/-! ## The handlers -/

theorem userOp_loadUserSamples (hkey : F .templateKeyEnvelope) (henc : F .embeddingEnc)
    (hbin : F .embeddingBin) : (loadUserSamples pr user).run.Only (userOp user F) := by
  have hbinding : ∀ p : Path, p = .user user .cameraBinding →
      p.parent = none ∨ p.parent = some user := by
    rintro p rfl
    exact .inr rfl
  refine only_exceptT_bind ?_ fun _ => ?_
  · exact (looks_checkCameraBinding (F := fun p => p = .user user .cameraBinding) rfl).imp
      fun _ => userOp_of_looks hbinding
  · refine only_exceptT_bind (only_map (userOp_cachedTemplateKey hkey)) fun key => ?_
    exact only_exceptT_bind (only_map (userOp_loadEncryptedEmbedding henc hbin key)) fun _ => .ret _

theorem userOp_captureEmbedGated : (captureEmbedGated pr user).run.Only (userOp user F) := by
  have hcal : ∀ p : Path, p = .user user .irCalibration →
      p.parent = none ∨ p.parent = some user := by
    rintro p rfl
    exact .inr rfl
  exact (looks_captureEmbedGated pr (F := fun p => p = .user user .irCalibration) rfl).imp
    fun _ => userOp_of_looks hcal

theorem userOp_doEnroll (hkey : F .templateKeyEnvelope) (henc : F .embeddingEnc)
    (hbin : F .embeddingBin) (hbinding : F .cameraBinding) (hcal : F .irCalibration)
    (reset : Bool) : (doEnroll pr user reset).Only (userOp user F) := by
  refine only_bind ?_ fun capture => ?_
  · exact (looks_captureAndEmbedSignals (F := fun _ => False) pr).imp
      fun _ => userOp_of_looks fun _ h => h.elim
  cases capture with
  | error e => exact .ret _
  | ok x =>
      refine only_bind (userOp_cachedTemplateKey hkey) fun key => ?_
      cases key with
      | error e => exact .ret _
      | ok key =>
          have hexisting : (existingTemplate pr user reset key).Only (storeOp user F) :=
            storeOp_existingTemplate henc hbin reset key
          refine only_bind (hexisting.imp fun _ h => h.1) fun existing => ?_
          refine only_bind (userOp_saveEncryptedEmbedding henc hbin ..) fun saved => ?_
          cases saved with
          | error e => exact .ret _
          | ok _ =>
              exact only_bind
                ((only_recordCapture reset _).imp fun _ => userOp_of_recordOp hbinding hcal)
                fun _ => .ret _

theorem userOp_doVerify (hkey : F .templateKeyEnvelope) (henc : F .embeddingEnc)
    (hbin : F .embeddingBin) : (doVerify pr user).Only (userOp user F) := by
  refine only_bind (userOp_loadUserSamples hkey henc hbin) fun samples => ?_
  cases samples with
  | error e => exact .ret _
  | ok samples =>
      refine only_bind userOp_captureEmbedGated fun live => ?_
      cases live <;> exact .ret _

theorem userOp_releaseIfMatched {release : Fallible Bytes} {answer : Bytes → Response}
    (hkey : F .templateKeyEnvelope) (henc : F .embeddingEnc) (hbin : F .embeddingBin)
    (hrelease : release.run.Only (userOp user F)) :
    (releaseIfMatched pr user release answer).Only (userOp user F) := by
  refine only_bind (userOp_loadUserSamples hkey henc hbin) fun samples => ?_
  cases samples with
  | error e => exact .ret _
  | ok samples =>
      refine only_bind userOp_captureEmbedGated fun live => ?_
      cases live with
      | error e => exact .ret _
      | ok live =>
          simp only
          split
          · exact .ret _
          · exact only_bind hrelease fun _ => .ret _

theorem userOp_planAction (service : String) (peerIsRoot : Bool) :
    (planAction user service peerIsRoot).Only (userOp user F) := by
  have hpath : ∀ p : Path, p = .root .policyConf ∨ p = .user user .cameraBinding →
      p.parent = none ∨ p.parent = some user := by
    rintro p (rfl | rfl)
    · exact .inl rfl
    · exact .inr rfl
  exact (glances_planAction (F := fun p => p = .root .policyConf ∨ p = .user user .cameraBinding)
    (.inl rfl) (.inr rfl) service peerIsRoot).imp fun _ h => userOp_of_looks hpath h.1

theorem userOp_doAuthenticate (hkey : F .templateKeyEnvelope) (henc : F .embeddingEnc)
    (hbin : F .embeddingBin) (service : String) (peerIsRoot : Bool) :
    (doAuthenticate pr user service peerIsRoot).Only (userOp user F) := by
  refine only_bind (userOp_planAction service peerIsRoot) fun plan => ?_
  split
  · exact .ret _
  · exact userOp_doVerify hkey henc hbin
  · exact userOp_releaseIfMatched hkey henc hbin userOp_unsealPassword

private theorem glances_cameraBlockNotice : cameraBlockNotice.Only (glances fun _ => False) := by
  have hcanon : ∀ path, Program.Only (glances fun _ => False) (do
      let c ← perform (.canonicalize path)
      pure (c.getD path)) := fun path =>
    only_bind (only_perform ⟨trivial, rfl⟩) fun _ => .ret _
  refine only_bind (only_perform ⟨trivial, rfl⟩) fun cams => ?_
  refine only_bind (only_perform ⟨trivial, rfl⟩) fun rgb => ?_
  refine only_bind (hcanon rgb) fun node => ?_
  refine only_bind (only_findM? (fun c => ?_) cams) fun found => ?_
  · exact only_bind (hcanon c.path) fun _ => .ret _
  · cases found with
    | none => exact .ret _
    | some c =>
        simp only
        split <;> exact .ret _

theorem glances_doAuthIntent {P : Path → Prop} (hconf : P (.root .policyConf))
    (hbinding : P (.user user .cameraBinding)) (service : String) (peerIsRoot : Bool) :
    (doAuthIntent user service peerIsRoot).Only (glances P) := by
  refine only_bind (glances_planAction hconf hbinding service peerIsRoot) fun plan => ?_
  have hnotice : cameraBlockNotice.Only (glances P) :=
    glances_cameraBlockNotice.imp fun _ h => ⟨looks_mono (fun _ => False.elim) h.1, h.2⟩
  simp only
  split
  · exact .ret _
  · exact only_bind hnotice fun _ => .ret _

theorem glances_doPolicyStatus {P : Path → Prop} (hconf : P (.root .policyConf))
    (hbinding : P (.user user .cameraBinding)) : (doPolicyStatus user).Only (glances P) := by
  refine only_bind (glances_enrolledBinding hbinding) fun binding => ?_
  refine only_bind ?_ fun hardware => ?_
  · refine only_bind (glances_enrolledBinding hbinding) fun b => ?_
    cases b <;> exact .ret _
  refine only_bind (glances_effectiveTier hconf hbinding) fun tier => ?_
  refine only_bind (glances_currentPolicy hconf) fun policy => ?_
  refine only_bind ?_ fun _ => .ret _
  cases binding with
  | none => exact .ret _
  | some b =>
      unfold hardwareReadiness
      simp only
      split
      · refine only_bind glances_snapshotCameraBinding fun current => ?_
        split
        · exact .ret _
        · split <;> exact .ret _
      · exact .ret _

theorem userOp_doAuthIntent (service : String) (peerIsRoot : Bool) :
    (doAuthIntent user service peerIsRoot).Only (userOp user F) :=
  (glances_doAuthIntent (P := fun p => p.parent = none ∨ p.parent = some user) (.inl rfl) (.inr rfl)
    service peerIsRoot).imp fun _ h => userOp_of_looks (fun _ hp => hp) h.1

theorem userOp_doPolicyStatus : (doPolicyStatus user).Only (userOp user F) :=
  (glances_doPolicyStatus (P := fun p => p.parent = none ∨ p.parent = some user) (.inl rfl)
    (.inr rfl)).imp fun _ h => userOp_of_looks (fun _ hp => hp) h.1

/-! ### Requests that name no user -/

theorem system_doStatus : doStatus.Only systemOp :=
  only_bind (only_perform trivial) fun _ => only_bind (only_perform trivial) fun _ =>
    only_bind (only_perform trivial) fun _ => only_bind (only_perform trivial) fun _ => .ret _

theorem system_doDiagnose : doDiagnose.Only systemOp := by
  refine only_bind (only_perform rfl) fun present => ?_
  refine only_bind (only_perform trivial) fun level => ?_
  split
  · exact .ret _
  · refine only_bind (only_readJson rfl) fun env => ?_
    cases env with
    | error e => exact .ret _
    | ok env =>
        refine only_bind (only_perform trivial) fun changed => ?_
        cases changed <;> exact .ret _

theorem system_doLivenessTest : (doLivenessTest pr).Only systemOp :=
  only_bind ((looks_runLivenessTest pr).imp fun _ => systemOp_of_looks) fun _ => .ret _

/-! ### Requests for root -/

theorem userOp_resealTemplateKey (hkey : F .templateKeyEnvelope) :
    (resealTemplateKey user).Only (userOp user F) := by
  refine only_bind userOp_unsealTemplateKey fun key => ?_
  cases key with
  | error e => exact .ret _
  | ok key =>
      refine only_bind (only_perform trivial) fun env => ?_
      cases env with
      | error e => exact .ret _
      | ok env =>
          simp only
          split
          · exact .ret _
          · refine only_bind (userOp_save hkey) fun saved => ?_
            cases saved with
            | error e => exact .ret _
            | ok _ => exact only_bind (only_perform rfl) fun _ => .ret _

theorem userOp_doResealUserEnvelopes (hpassword : F .passwordEnvelope)
    (hkey : F .templateKeyEnvelope) : (doResealUserEnvelopes user).Only (userOp user F) := by
  refine only_bind ?_ fun pwOk => only_bind (userOp_resealTemplateKey hkey) fun tkOk => .ret _
  refine only_bind userOp_unsealPassword fun plaintext => ?_
  cases plaintext with
  | error e => exact .ret _
  | ok plaintext =>
      refine only_bind (userOp_sealPassword hpassword plaintext) fun r => ?_
      cases r <;> exact .ret _

theorem userOp_doSealPassword (hpassword : F .passwordEnvelope) (password : Bytes) :
    (doSealPassword user password).Only (userOp user F) :=
  only_bind (userOp_sealPassword hpassword password) fun _ => .ret _

theorem userOp_doSaveRecovery (hrecovery : F .recoveryEnvelope) (passphrase : Bytes) :
    (doSaveRecovery pr user passphrase).Only (userOp user F) :=
  only_bind (userOp_saveRecovery hrecovery pr.cl passphrase) fun _ => .ret _

theorem userOp_doRestoreFromRecovery (hkey : F .templateKeyEnvelope) (passphrase : Bytes) :
    (doRestoreFromRecovery pr user passphrase).Only (userOp user F) := by
  refine only_bind (userOp_restoreFromRecovery hkey pr.cl passphrase) fun r => ?_
  cases r with
  | error e => exact .ret _
  | ok _ => exact only_bind (only_perform rfl) fun _ => .ret _

/-! ## The checks in front of a handler -/

section Checks

variable {A : Event host → Prop} {P : Op → Prop} {peerUid : Option Nat} {op : String}
  {handler : Proc Response}

theorem guided_withUser (h : validateUser user = .ok () → handler.Guided A P fun _ => True) :
    (withUser user handler).Guided A P fun _ => True := by
  unfold withUser
  cases hvalid : validateUser user with
  | error e => exact .ret trivial
  | ok u => exact h hvalid

theorem guided_rootOnly (h : validateUser user = .ok () → handler.Guided A P fun _ => True) :
    (rootOnly peerUid op user handler).Guided A P fun _ => True := by
  unfold rootOnly
  split
  · exact .ret trivial
  · exact guided_withUser h

theorem guided_ownAccount (hpeer : (peerMayActAs peerUid user).Only P)
    (h : validateUser user = .ok () → handler.Guided A P fun _ => True) :
    (ownAccount peerUid op user handler).Guided A P fun _ => True := by
  refine guided_bind hpeer.guided fun mayAct _ => ?_
  split
  · exact .ret trivial
  · exact guided_withUser h

theorem only_withUser (h : handler.Only P) : (withUser user handler).Only P := by
  unfold withUser
  split
  · exact .ret _
  · exact h

theorem only_rootOnly (h : handler.Only P) : (rootOnly peerUid op user handler).Only P := by
  unfold rootOnly
  split
  · exact .ret _
  · exact only_withUser h

theorem only_ownAccount (hpeer : (peerMayActAs peerUid user).Only P) (h : handler.Only P) :
    (ownAccount peerUid op user handler).Only P := by
  refine only_bind hpeer fun mayAct => ?_
  split
  · exact .ret _
  · exact only_withUser h

end Checks

end Linhello.Daemon
