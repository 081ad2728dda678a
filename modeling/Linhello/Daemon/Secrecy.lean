import Linhello.Daemon.Passwords
/-!
# What the replies tell about sealed secrets

Only `Unseal`, `UnsealPassword` and `Authenticate` answer with what a blob holds. Every
other request gives the same replies whatever the password and keyring envelopes hold:
`Known` is what such a request learns by other means, and a TPM under `disguise` holds
other secrets in the same blobs.
-/

namespace Linhello.Daemon

open Common Linhello.Core Effect Host Host.World Liveness Biometrics

variable {pr : Process} {user : String} {peerUid : Option Nat} {req : Request}
  {sealed : SealedEnvelope → Option Bytes} {flt : Faults} {swap : Bytes → Bytes} {w w' : World}

def disguise (swap : Bytes → Bytes) (sealed : SealedEnvelope → Option Bytes) :
    SealedEnvelope → Option Bytes :=
  fun env => (sealed env).map swap

/-- The requests that answer with an unsealed secret. -/
def releasesSecret : Request → Bool
  | .unseal _ | .unsealPassword _ | .authenticate _ _ => true
  | _ => false

/-- What a request learns other than by opening a password or keyring envelope: the
template keys, what it draws, and the password it was handed. -/
inductive Known (cl : CryptoLib) (sealed : SealedEnvelope → Option Bytes) (req : Request)
    (events : List (Event host)) : Bytes → Prop
  | stored {u : String} {env : SealedEnvelope} {key : Bytes}
      (looked : (⟨.read (.user u .templateKeyEnvelope), .ok (.value env)⟩ : Event host) ∈ events)
      (opens : sealed env = some key) : Known cl sealed req events key
  | recovered {u : String} {passphrase key : Bytes} {env : RecoveryEnvelope}
      (asked : req = .restoreFromRecovery u passphrase)
      (looked : (⟨.read (.user u .recoveryEnvelope), .ok (.value env)⟩ : Event host) ∈ events)
      (opens : unwrap cl passphrase env = .ok key) : Known cl sealed req events key
  | drawn {n : Nat} {bytes : Bytes}
      (looked : (⟨.randomBytes n, bytes⟩ : Event host) ∈ events) : Known cl sealed req events bytes
  | handed {u : String} {password : Bytes} (asked : req = .sealPassword u password) :
      Known cl sealed req events password

/-! ## The promise -/

/-- What a program may rely on when the known byte strings are the same in disguise. -/
structure Unmasking (cl : CryptoLib) (sealed : SealedEnvelope → Option Bytes) (swap : Bytes → Bytes)
    (req : Request) (e : Event host) : Prop where
  stored : ∀ u env key, e = ⟨.read (.user u .templateKeyEnvelope), .ok (.value env)⟩ →
    sealed env = some key → swap key = key
  recovered : ∀ u passphrase env key, req = .restoreFromRecovery u passphrase →
    e = ⟨.read (.user u .recoveryEnvelope), .ok (.value env)⟩ →
    unwrap cl passphrase env = .ok key → swap key = key
  drawn : ∀ n bytes, e = ⟨.randomBytes n, bytes⟩ → swap bytes = bytes
  unseals : ∀ env secret, e = ⟨.tpmUnseal env, .ok secret⟩ → sealed env = some secret

/-- What it promises in return: it seals and unseals what the disguise leaves alone. -/
def undisguised (sealed : SealedEnvelope → Option Bytes) (swap : Bytes → Bytes) : Op → Prop
  | .tpmSeal secret => swap secret = secret
  | .tpmUnseal env => ∀ secret, sealed env = some secret → swap secret = secret
  | _ => True

def noTpm : Op → Prop
  | .tpmSeal _ | .tpmUnseal _ => False
  | _ => True

theorem undisguised_of_noTpm {o : Op} (h : noTpm o) : undisguised sealed swap o := by
  cases o <;> first | exact h.elim | trivial

theorem guided_of_noTpm {α : Type} {A : Event host → Prop} {p : Proc α} (h : p.Only noTpm) :
    p.Guided A (undisguised sealed swap) fun _ => True :=
  (h.imp fun _ => undisguised_of_noTpm).guided

theorem step_disguised {o : Op} {r : o.Ans} (ho : undisguised sealed swap o)
    (h : Step sealed flt w o r w') : Step (disguise swap sealed) flt w o r w' := by
  obtain ⟨hallows, hnext⟩ := h
  refine ⟨?_, hnext⟩
  cases o with
  | tpmSeal secret =>
      cases r with
      | error e => exact hallows
      | ok env =>
          simp only [allows, decide_eq_true_eq] at hallows ⊢
          rw [disguise, hallows, Option.map_some, ho]
  | tpmUnseal env =>
      cases r with
      | ok secret =>
          simp only [allows, decide_eq_true_eq] at hallows ⊢
          rw [disguise, hallows, Option.map_some, ho secret hallows]
      | error e =>
          simp only [allows, disguise, Option.isNone_map] at hallows ⊢
          exact hallows
  | _ => exact hallows

theorem exec_disguised {α : Type} {p : Proc α} {Q : α → Prop}
    (hp : p.Guided (Unmasking pr.cl sealed swap req) (undisguised sealed swap) Q)
    {x y : World × List (Event host)} {a : α} (h : Exec (recorded (Step sealed flt)) p x a y)
    (hA : ∀ e ∈ y.2, Unmasking pr.cl sealed swap req e) :
    Exec (Step (disguise swap sealed) flt) p x.1 a y.1 := by
  have hsim : ∃ v, Exec (recorded (Step (disguise swap sealed) flt)) p (x.1, x.2) a (v, y.2) ∧
      v = y.1 :=
    hp.simulates (R := fun w v => v = w)
      (fun ho heq hS => ⟨_, heq ▸ step_disguised ho hS, rfl⟩) h hA rfl
  obtain ⟨v, hexec, rfl⟩ := hsim
  exact exec_of_recorded hexec

/-- The TPM opens a blob to what it holds, in every event of a run. -/
theorem unseals_of_exec {α : Type} {p : Proc α} {x y : World × List (Event host)} {a : α}
    (h : Exec (recorded (Step sealed flt)) p x a y)
    (hx : ∀ env secret, (⟨.tpmUnseal env, .ok secret⟩ : Event host) ∈ x.2 →
      sealed env = some secret) :
    ∀ env secret, (⟨.tpmUnseal env, .ok secret⟩ : Event host) ∈ y.2 → sealed env = some secret := by
  induction p generalizing x with
  | ret b =>
      obtain ⟨-, rfl⟩ := h
      exact hx
  | call o k ih =>
      obtain ⟨r, z, ⟨hS, hz⟩, hrest⟩ := h
      refine ih r hrest fun env secret hmem => ?_
      rw [hz, List.mem_append, List.mem_singleton] at hmem
      rcases hmem with hmem | heq
      · exact hx env secret hmem
      · cases heq
        exact (step_unseal_ok hS).1

theorem relied_of_known {x y : World × List (Event host)} {α : Type} {p : Proc α} {a : α}
    (h : Exec (recorded (Step sealed flt)) p x a y) (hx : x.2 = [])
    (hknown : ∀ s, Known pr.cl sealed req y.2 s → swap s = s) :
    ∀ e ∈ y.2, Unmasking pr.cl sealed swap req e := by
  have hunseals :=
    unseals_of_exec h (by rw [hx]; exact fun _ _ hmem => absurd hmem List.not_mem_nil)
  intro e he
  refine ⟨?_, ?_, ?_, ?_⟩
  · rintro u env key rfl hopens
    exact hknown key (.stored he hopens)
  · rintro u passphrase env key hasked rfl hopens
    exact hknown key (.recovered hasked he hopens)
  · rintro n bytes rfl
    exact hknown bytes (.drawn he)
  · rintro env secret rfl
    exact hunseals env secret he

/-! ## Handlers that leave the TPM alone -/

theorem noTpm_of_looks {F : Path → Prop} {o : Op} (h : looks F o) : noTpm o := by
  cases o <;> trivial

theorem noTpm_of_surveyOp {o : Op} (h : surveyOp o) : noTpm o := by
  cases o <;> trivial

theorem noTpm_of_deleteOp {o : Op} (h : deleteOp user o) : noTpm o := by
  cases o <;> trivial

theorem noTpm_of_recordOp {o : Op} (h : recordOp user o) : noTpm o := by
  cases o <;> trivial

theorem noTpm_encrypt (cl : CryptoLib) (key plaintext : Bytes) :
    (encrypt cl key plaintext).run.Only noTpm := by
  unfold encrypt
  split
  · exact .ret _
  · exact only_exceptT_bind (only_exceptT_lift (only_perform trivial)) fun _ => only_orFail

theorem noTpm_saveEncryptedEmbedding (cl : CryptoLib) (raw key : Bytes) :
    (saveEncryptedEmbedding cl user raw key).run.Only noTpm := by
  refine only_exceptT_bind only_orFail fun _ => ?_
  refine only_exceptT_bind (only_io (only_perform trivial)) fun _ => ?_
  refine only_exceptT_bind (noTpm_encrypt cl key raw) fun blob => ?_
  refine only_exceptT_bind (only_io (only_perform trivial)) fun _ => ?_
  refine only_exceptT_bind (only_io (only_perform trivial)) fun _ => ?_
  exact only_exceptT_bind (only_exceptT_lift (only_perform trivial)) fun _ => .ret _

theorem noTpm_loadEncryptedEmbedding (key : Bytes) :
    (loadEncryptedEmbedding pr user key).run.Only noTpm := by
  have hlook : ∀ p : Path, (liftM (perform (.pathExists p)) : Fallible Bool).run.Only noTpm :=
    fun _ => only_exceptT_lift (only_perform trivial)
  refine only_exceptT_bind only_orFail fun _ => ?_
  refine only_exceptT_bind (hlook _) fun present => ?_
  cases present with
  | true => exact only_exceptT_bind (only_io (only_perform trivial)) fun _ => only_orFail
  | false =>
      refine only_exceptT_bind (hlook _) fun legacy => ?_
      cases legacy with
      | false => exact .ret _
      | true =>
          rw [if_pos rfl]
          split
          · exact .ret _
          · refine only_exceptT_bind (only_io (only_perform trivial)) fun raw => ?_
            refine only_exceptT_bind (noTpm_saveEncryptedEmbedding pr.cl raw key) fun _ => ?_
            exact only_exceptT_bind (only_exceptT_lift (only_perform trivial)) fun _ => .ret _

theorem noTpm_wrap (cl : CryptoLib) (passphrase key : Bytes) :
    (wrap cl passphrase key).run.Only noTpm := by
  unfold wrap
  split
  · exact .ret _
  · refine only_exceptT_bind (only_exceptT_lift (only_perform trivial)) fun salt => ?_
    refine only_exceptT_bind only_orFail fun dk => ?_
    exact only_exceptT_bind (noTpm_encrypt cl dk key) fun _ => .ret _

theorem noTpm_save {env : SealedEnvelope} {p : Path} {as : Json SealedEnvelope → p.Data} :
    (env.save p as).run.Only noTpm :=
  only_exceptT_bind (only_io (only_perform trivial)) fun _ => only_io (only_perform trivial)

theorem noTpm_peerMayActAs : (peerMayActAs peerUid user).Only noTpm :=
  (looks_peerMayActAs (F := fun _ => False) peerUid user).imp fun _ => noTpm_of_looks

theorem noTpm_enrolledProfiles : enrolledProfiles.Only noTpm :=
  survey_enrolledProfiles.imp fun _ => noTpm_of_surveyOp

theorem noTpm_readProfileName : (readProfileName user).Only noTpm := by
  refine only_bind (only_perform trivial) fun r => ?_
  split <;> exact .ret _

theorem noTpm_doStatus : doStatus.Only noTpm :=
  only_bind (only_perform trivial) fun _ => only_bind (only_perform trivial) fun _ =>
    only_bind (only_perform trivial) fun _ => only_bind (only_perform trivial) fun _ => .ret _

theorem noTpm_doDiagnose : doDiagnose.Only noTpm := by
  refine only_bind (only_perform trivial) fun present => ?_
  refine only_bind (only_perform trivial) fun level => ?_
  split
  · exact .ret _
  · refine only_bind (only_readJson trivial) fun env => ?_
    cases env with
    | error e => exact .ret _
    | ok env =>
        refine only_bind (only_perform trivial) fun changed => ?_
        cases changed <;> exact .ret _

theorem noTpm_doListProfiles : (doListProfiles peerUid).Only noTpm := by
  refine only_bind noTpm_enrolledProfiles fun users => ?_
  refine only_bind (only_mapM (fun user => ?_) users) fun _ => .ret _
  refine only_bind noTpm_peerMayActAs fun mayAct => ?_
  have hrest : ∀ hasPassword : Bool, Program.Only noTpm (do
      let name ← readProfileName user
      let samples ← profileSampleCount user
      pure ({ user := user, name := name, samples := samples, hasPassword := hasPassword } :
        ProfileInfo)) := fun hasPassword =>
    only_bind noTpm_readProfileName fun _ =>
      only_bind (survey_profileSampleCount.imp fun _ => noTpm_of_surveyOp) fun _ => .ret _
  simp only
  split
  · exact only_bind (only_perform trivial) hrest
  · exact only_bind only_pure hrest

theorem noTpm_doSetProfileName (name : String) : (doSetProfileName user name).Only noTpm := by
  refine only_bind noTpm_enrolledProfiles fun profiles => ?_
  split
  · exact .ret _
  · refine only_bind ?_ fun r => ?_
    · unfold writeProfileName
      simp only
      split
      · refine only_bind (only_perform trivial) fun r => ?_
        split <;> exact .ret _
      · refine only_bind (only_perform trivial) fun r => ?_
        cases r with
        | ok _ => exact only_perform trivial
        | error e => exact .ret _
    · cases r <;> exact .ret _

/-! ## Handlers that open or make template keys -/

section Guided

variable {u : String}

theorem guided_unsealTemplateKey_disguised :
    (unsealTemplateKey u).run.Guided (Unmasking pr.cl sealed swap req) (undisguised sealed swap)
      fun r => ∀ key, r = .ok key → swap key = key := by
  refine guided_exceptT_bind (Q := fun _ => True) (.ret fun _ _ => trivial) (fun _ _ => ?_)
    fun _ _ h => by cases h
  refine guided_exceptT_bind
    (Q := fun env => ∀ key, sealed env = some key → swap key = key) ?_ (fun env henv => ?_)
    fun _ _ h => by cases h
  · refine .call trivial fun r hr => ?_
    cases r with
    | error e => exact .ret fun env h => by cases h
    | ok d =>
        cases d with
        | invalidUtf8 | malformed msg => exact .ret fun env h => by cases h
        | value env =>
            refine .ret fun env' heq => ?_
            cases heq
            exact fun key => hr.stored u env key rfl
  · refine .call henv fun r hr => .ret fun key heq => ?_
    subst heq
    exact henv key (hr.unseals env key rfl)

private theorem guided_ensureTemplateKey_disguised :
    (ensureTemplateKey u).run.Guided (Unmasking pr.cl sealed swap req) (undisguised sealed swap)
      fun _ => True := by
  refine guided_exceptT_bind (Q := fun _ => True) (.ret fun _ _ => trivial) (fun _ _ => ?_)
    fun _ => trivial
  refine guided_exceptT_bind (Q := fun _ => True) (.call trivial fun _ _ => .ret fun _ _ => trivial)
    (fun present _ => ?_) fun _ => trivial
  split
  · exact guided_unsealTemplateKey_disguised.imp (fun _ h => h) fun _ _ => trivial
  · refine guided_exceptT_bind (Q := fun key => swap key = key) ?_ (fun key hkey => ?_)
      fun _ => trivial
    · refine .call trivial fun key hr => .ret fun key' heq => ?_
      obtain rfl := Except.ok.inj heq
      exact hr.drawn KEY_LEN key rfl
    refine guided_exceptT_bind (Q := fun _ => True) (.call hkey fun _ _ => .ret fun _ _ => trivial)
      (fun env _ => ?_) fun _ => trivial
    exact guided_of_noTpm (only_exceptT_bind noTpm_save fun _ =>
      only_exceptT_bind (only_io (only_perform trivial)) fun _ => .ret _)

theorem guided_cachedTemplateKey_disguised :
    (cachedTemplateKey u).run.Guided (Unmasking pr.cl sealed swap req) (undisguised sealed swap)
      fun _ => True := by
  refine guided_exceptT_bind (Q := fun _ => True) (.call trivial fun _ _ => .ret fun _ _ => trivial)
    (fun cached _ => ?_) fun _ => trivial
  cases cached with
  | some key => exact .ret trivial
  | none =>
      refine guided_exceptT_bind (Q := fun _ => True)
        (guided_map guided_ensureTemplateKey_disguised fun _ _ _ _ => trivial) (fun key _ => ?_)
        fun _ => trivial
      exact guided_of_noTpm (only_exceptT_bind (only_exceptT_lift (only_perform trivial))
        fun _ => .ret _)

theorem guided_sealTemplateKey_disguised {key : Bytes} (hkey : swap key = key) :
    (sealTemplateKey u key).run.Guided (Unmasking pr.cl sealed swap req) (undisguised sealed swap)
      fun _ => True := by
  unfold sealTemplateKey
  split
  · exact .ret trivial
  · refine guided_exceptT_bind (Q := fun _ => True) (.ret fun _ _ => trivial) (fun _ _ => ?_)
      fun _ => trivial
    refine guided_exceptT_bind (Q := fun _ => True) (.call hkey fun _ _ => .ret fun _ _ => trivial)
      (fun env _ => ?_) fun _ => trivial
    exact guided_of_noTpm (only_exceptT_bind noTpm_save fun _ => only_io (only_perform trivial))

theorem guided_loadUserSamples_disguised :
    (loadUserSamples pr u).run.Guided (Unmasking pr.cl sealed swap req) (undisguised sealed swap)
      fun _ => True := by
  have hbinding : (checkCameraBinding u).run.Only noTpm :=
    (looks_checkCameraBinding (F := fun _ => True) trivial).imp fun _ => noTpm_of_looks
  refine guided_exceptT_bind (Q := fun _ => True) ?_ (fun _ _ => ?_) fun _ => trivial
  · exact (guided_of_noTpm hbinding).imp (fun _ h => h) fun _ _ _ _ => trivial
  refine guided_exceptT_bind (Q := fun _ => True) ?_ (fun key _ => ?_) fun _ => trivial
  · exact guided_map guided_cachedTemplateKey_disguised fun _ _ _ _ => trivial
  exact guided_of_noTpm (only_exceptT_bind (only_map (noTpm_loadEncryptedEmbedding key)) fun _ =>
    .ret _)

theorem guided_doVerify_disguised :
    (doVerify pr u).Guided (Unmasking pr.cl sealed swap req) (undisguised sealed swap)
      fun _ => True := by
  refine guided_bind guided_loadUserSamples_disguised fun samples _ => ?_
  cases samples with
  | error e => exact .ret trivial
  | ok samples =>
      have hcapture : (captureEmbedGated pr u).run.Only noTpm :=
        (looks_captureEmbedGated pr (F := fun _ => True) trivial).imp fun _ => noTpm_of_looks
      refine guided_bind (guided_of_noTpm hcapture) fun live _ => ?_
      cases live <;> exact .ret trivial

theorem guided_doEnroll_disguised (reset : Bool) :
    (doEnroll pr u reset).Guided (Unmasking pr.cl sealed swap req) (undisguised sealed swap)
      fun _ => True := by
  have hcapture : (captureAndEmbedSignals pr).run.Only noTpm :=
    (looks_captureAndEmbedSignals (F := fun _ => False) pr).imp fun _ => noTpm_of_looks
  refine guided_bind (guided_of_noTpm hcapture) fun capture _ => ?_
  cases capture with
  | error e => exact .ret trivial
  | ok x =>
      refine guided_bind guided_cachedTemplateKey_disguised fun key _ => ?_
      cases key with
      | error e => exact .ret trivial
      | ok key =>
          have hexisting : (existingTemplate pr u reset key).Only noTpm := by
            unfold existingTemplate
            split
            · exact .ret _
            · refine only_bind (noTpm_loadEncryptedEmbedding key) fun loaded => ?_
              cases loaded <;> exact .ret _
          refine guided_of_noTpm (only_bind hexisting fun existing => ?_)
          refine only_bind (noTpm_saveEncryptedEmbedding ..) fun saved => ?_
          cases saved with
          | error e => exact .ret _
          | ok _ =>
              exact only_bind ((only_recordCapture reset _).imp fun _ => noTpm_of_recordOp)
                fun _ => .ret _

theorem guided_doIdentify_disguised :
    (doIdentify pr).Guided (Unmasking pr.cl sealed swap req) (undisguised sealed swap)
      fun _ => True := by
  refine guided_bind (guided_of_noTpm noTpm_enrolledProfiles) fun profiles _ => ?_
  split
  · exact .ret trivial
  · have hcapture : (captureAndEmbed pr).run.Only noTpm :=
      only_exceptT_bind ((looks_captureAndEmbedSignals (F := fun _ => False) pr).imp
        fun _ => noTpm_of_looks) fun _ => .ret _
    refine guided_bind (guided_of_noTpm hcapture) fun live _ => ?_
    cases live with
    | error e => exact .ret trivial
    | ok live =>
        refine guided_bind (guided_mapM fun u _ => ?_) fun scored _ => ?_
        · refine guided_bind guided_loadUserSamples_disguised fun samples _ => ?_
          cases samples with
          | error e => exact .ret trivial
          | ok samples =>
              exact guided_of_noTpm (only_bind noTpm_readProfileName fun _ => .ret _)
        · simp only
          split <;> exact .ret trivial

theorem guided_resealTemplateKey_disguised :
    (resealTemplateKey u).Guided (Unmasking pr.cl sealed swap req) (undisguised sealed swap)
      fun _ => True := by
  refine guided_bind guided_unsealTemplateKey_disguised fun key hkey => ?_
  cases key with
  | error e => exact .ret trivial
  | ok key =>
      refine guided_perform_bind (hkey key rfl) fun env _ => ?_
      cases env with
      | error e => exact .ret trivial
      | ok env =>
          simp only
          split
          · exact .ret trivial
          · refine guided_of_noTpm (only_bind noTpm_save fun saved => ?_)
            cases saved with
            | error e => exact .ret _
            | ok _ => exact only_bind (only_perform trivial) fun _ => .ret _

theorem guided_doSaveRecovery_disguised (passphrase : Bytes) :
    (doSaveRecovery pr u passphrase).Guided (Unmasking pr.cl sealed swap req)
      (undisguised sealed swap)
      fun _ => True := by
  refine guided_bind (Q := fun _ => True) ?_ fun _ _ => .ret trivial
  refine guided_exceptT_bind (Q := fun _ => True)
    (guided_unsealTemplateKey_disguised.imp (fun _ h => h) fun _ _ _ _ => trivial) (fun key _ => ?_)
    fun _ => trivial
  refine guided_of_noTpm (only_exceptT_bind (noTpm_wrap pr.cl passphrase key) fun env => ?_)
  refine only_exceptT_bind only_orFail fun _ => ?_
  refine only_exceptT_bind (only_io (only_perform trivial)) fun _ => ?_
  exact only_exceptT_bind (only_io (only_perform trivial)) fun _ => only_io (only_perform trivial)

theorem guided_doRestoreFromRecovery_disguised {passphrase : Bytes}
    (hreq : req = .restoreFromRecovery u passphrase) :
    (doRestoreFromRecovery pr u passphrase).Guided (Unmasking pr.cl sealed swap req)
      (undisguised sealed swap) fun _ => True := by
  refine guided_bind (Q := fun _ => True) ?_ fun r _ => ?_
  · refine guided_exceptT_bind (Q := fun _ => True) (.ret fun _ _ => trivial) (fun _ _ => ?_)
      fun _ => trivial
    refine .call trivial fun r hr => ?_
    cases r with
    | error e => exact .ret trivial
    | ok json =>
        cases json with
        | invalidUtf8 | malformed msg => exact .ret trivial
        | value env =>
            refine guided_exceptT_bind (Q := fun key => swap key = key) (.ret fun key heq => ?_)
              (fun key hkey => guided_sealTemplateKey_disguised hkey) fun _ => trivial
            exact hr.recovered u passphrase env key hreq rfl heq
  · cases r with
    | error e => exact .ret trivial
    | ok _ => exact guided_of_noTpm (only_bind (only_perform trivial) fun _ => .ret _)

theorem guided_doReseal_disguised :
    doReseal.Guided (Unmasking pr.cl sealed swap req) (undisguised sealed swap) fun _ => True := by
  refine guided_bind (Q := fun _ => True) ?_ fun _ _ => .ret trivial
  refine guided_exceptT_bind (Q := fun buf => swap buf = buf) ?_
    (fun buf hbuf => ?_) fun _ => trivial
  · refine .call trivial fun buf hr => .ret fun buf' heq => ?_
    obtain rfl := Except.ok.inj heq
    exact hr.drawn 32 buf rfl
  refine guided_exceptT_bind (Q := fun _ => True) (.call hbuf fun _ _ => .ret fun _ _ => trivial)
    (fun env _ => ?_) fun _ => trivial
  exact guided_of_noTpm (only_exceptT_bind noTpm_save fun _ => .ret _)

private theorem guided_doSealPassword_disguised {password : Bytes}
    (hpassword : swap password = password) :
    (doSealPassword u password).Guided (Unmasking pr.cl sealed swap req) (undisguised sealed swap)
      fun _ => True := by
  refine guided_bind (Q := fun _ => True) ?_ fun _ _ => .ret trivial
  unfold sealPassword
  split
  · exact .ret trivial
  · refine guided_exceptT_bind (Q := fun _ => True) (.ret fun _ _ => trivial) (fun _ _ => ?_)
      fun _ => trivial
    refine guided_exceptT_bind (Q := fun _ => True)
      (.call hpassword fun _ _ => .ret fun _ _ => trivial) (fun env _ => ?_) fun _ => trivial
    exact guided_of_noTpm (only_exceptT_bind noTpm_save fun _ => only_io (only_perform trivial))

end Guided

/-- Apart from the three that release a secret and the one that seals passwords again, no
request handles a secret that it does not know otherwise. -/
theorem guided_disguised (hreleases : releasesSecret req = false)
    (hreseal : ∀ u, req ≠ .resealUserEnvelopes u)
    (hhanded : ∀ u password, req = .sealPassword u password → swap password = password) :
    (dispatch pr req peerUid).Guided (Unmasking pr.cl sealed swap req) (undisguised sealed swap)
      fun _ => True := by
  have hlooks : ∀ {p : Proc Response} {F : Path → Prop}, p.Only (looks F) →
      p.Guided (Unmasking pr.cl sealed swap req) (undisguised sealed swap) fun _ => True :=
    fun h => guided_of_noTpm (h.imp fun _ => noTpm_of_looks)
  have hpeer : ∀ {user : String}, (peerMayActAs peerUid user).Only (undisguised sealed swap) :=
    noTpm_peerMayActAs.imp fun _ => undisguised_of_noTpm
  cases req with
  | status => exact guided_of_noTpm noTpm_doStatus
  | enroll user reset => exact guided_rootOnly fun _ => guided_doEnroll_disguised reset
  | verify user =>
      refine guided_withUser fun _ => guided_bind hpeer.guided fun mayAct _ => ?_
      split
      · exact .ret trivial
      · exact guided_doVerify_disguised
  | «unseal» user => cases hreleases
  | reseal =>
      simp only [dispatch]
      split
      · exact .ret trivial
      · exact guided_doReseal_disguised
  | sealPassword user password =>
      exact guided_rootOnly fun _ => guided_doSealPassword_disguised (hhanded user password rfl)
  | unsealPassword user => cases hreleases
  | authenticate user service => cases hreleases
  | authIntent user service =>
      exact guided_ownAccount hpeer fun _ => hlooks ((glances_doAuthIntent
        (P := fun _ => True) trivial trivial service _).imp fun _ => looks_of_glances)
  | policyStatus user =>
      exact guided_ownAccount hpeer fun _ => hlooks ((glances_doPolicyStatus
        (P := fun _ => True) trivial trivial).imp fun _ => looks_of_glances)
  | diagnose => exact guided_of_noTpm noTpm_doDiagnose
  | probe => exact guided_of_noTpm (only_bind (only_perform trivial) fun _ => .ret _)
  | livenessTest =>
      exact hlooks (only_bind (looks_runLivenessTest (F := fun _ => False) pr) fun _ => .ret _)
  | positionSample => exact guided_of_noTpm (only_bind (only_perform trivial) fun _ => .ret _)
  | resealUserEnvelopes user => exact absurd rfl (hreseal user)
  | listProfiles => exact guided_of_noTpm noTpm_doListProfiles
  | identify =>
      simp only [dispatch]
      split
      · exact .ret trivial
      · exact guided_doIdentify_disguised
  | setProfileName user name =>
      exact guided_rootOnly fun _ => guided_of_noTpm (noTpm_doSetProfileName name)
  | deleteProfile user =>
      exact guided_rootOnly fun _ =>
        guided_of_noTpm (delete_doDeleteProfile.imp fun _ => noTpm_of_deleteOp)
  | saveRecovery user passphrase =>
      exact guided_rootOnly fun _ => guided_doSaveRecovery_disguised passphrase
  | restoreFromRecovery user passphrase =>
      exact guided_rootOnly fun _ => guided_doRestoreFromRecovery_disguised rfl

/-! ## Sealing a password again -/

theorem exec_noTpm {α : Type} {p : Proc α} {a : α} (hp : p.Only noTpm)
    (h : Exec (Step sealed flt) p w a w') : Exec (Step (disguise swap sealed) flt) p w a w' := by
  induction hp generalizing w with
  | ret b => exact h
  | call here _ ih =>
      obtain ⟨r, v, hS, hrest⟩ := h
      exact ⟨r, v, step_disguised (undisguised_of_noTpm here) hS, ih r hrest⟩

theorem exec_unsealPassword_disguised {r : Except LinuxHelloError Bytes}
    (h : Exec (Step sealed flt) (unsealPassword user).run w r w') :
    Exec (Step (disguise swap sealed) flt) (unsealPassword user).run w (r.map swap) w' := by
  rcases exec_exceptT_bind.1 h with ⟨_, v, hvalid, hload⟩ | ⟨e, hvalid, rfl⟩
  · refine exec_exceptT_bind.2 (.inl ⟨_, v, exec_noTpm only_orFail hvalid, ?_⟩)
    rcases exec_exceptT_bind.1 hload with ⟨env, u, henv, hunseal⟩ | ⟨e, henv, rfl⟩
    · refine exec_exceptT_bind.2 (.inl ⟨env, u, exec_noTpm (only_readJson trivial) henv, ?_⟩)
      obtain ⟨answer, t, ⟨hallows, hnext⟩, hr, rfl⟩ := hunseal
      subst hr
      refine ⟨Except.map swap r, w', ⟨?_, ?_⟩, rfl, rfl⟩
      · cases r with
        | error e =>
            simp only [allows, disguise, Option.isNone_map, Except.map] at hallows ⊢
            exact hallows
        | ok secret =>
            simp only [allows, decide_eq_true_eq, Except.map] at hallows ⊢
            rw [disguise, hallows, Option.map_some]
      · rw [hnext]
        cases r <;> rfl
    · exact exec_exceptT_bind.2 (.inr ⟨e, exec_noTpm (only_readJson trivial) henv, rfl⟩)
  · exact exec_exceptT_bind.2 (.inr ⟨e, exec_noTpm only_orFail hvalid, rfl⟩)

private theorem exec_sealPassword_disguised {password : Bytes} {r : Except LinuxHelloError Unit}
    (hswap : swap password = [] ↔ password = [])
    (h : Exec (Step sealed flt) (sealPassword user password).run w r w') :
    Exec (Step (disguise swap sealed) flt) (sealPassword user (swap password)).run w r w' := by
  unfold sealPassword at h ⊢
  by_cases hempty : password = []
  · rw [if_pos hempty] at h
    rw [if_pos (hswap.2 hempty)]
    exact h
  rw [if_neg hempty] at h
  rw [if_neg (fun heq => hempty (hswap.1 heq))]
  rcases exec_exceptT_bind.1 h with ⟨_, v, hvalid, hseal⟩ | ⟨e, hvalid, rfl⟩
  · refine exec_exceptT_bind.2 (.inl ⟨_, v, exec_noTpm only_orFail hvalid, ?_⟩)
    have hstep : ∀ {answer : Except LinuxHelloError SealedEnvelope} {u : World},
        Step sealed flt v (.tpmSeal password) answer u →
        Step (disguise swap sealed) flt v (.tpmSeal (swap password)) answer u := by
      rintro answer u ⟨hallows, rfl⟩
      cases answer with
      | error e => exact ⟨hallows, rfl⟩
      | ok env =>
          refine ⟨?_, rfl⟩
          simp only [allows, decide_eq_true_eq] at hallows ⊢
          rw [disguise, hallows, Option.map_some]
    rcases exec_exceptT_bind.1 hseal with ⟨env, u, henv, hsave⟩ | ⟨e, henv, rfl⟩
    · obtain ⟨answer, t, hS, hr, rfl⟩ := henv
      refine exec_exceptT_bind.2 (.inl ⟨env, u, ⟨answer, u, hstep hS, hr, rfl⟩, ?_⟩)
      exact exec_noTpm (only_exceptT_bind noTpm_save fun _ => only_io (only_perform trivial)) hsave
    · obtain ⟨answer, t, hS, hr, rfl⟩ := henv
      exact exec_exceptT_bind.2 (.inr ⟨e, ⟨answer, w', hstep hS, hr, rfl⟩, rfl⟩)
  · exact exec_exceptT_bind.2 (.inr ⟨e, exec_noTpm only_orFail hvalid, rfl⟩)

private theorem exec_resealPassword_disguised {ok : Bool} (hswap : ∀ s, swap s = [] ↔ s = [])
    (h : Exec (Step sealed flt) (resealPassword user) w ok w') :
    Exec (Step (disguise swap sealed) flt) (resealPassword user) w ok w' := by
  obtain ⟨plaintext, v, hunseal, hrest⟩ := exec_bind.1 h
  refine exec_bind.2 ⟨plaintext.map swap, v, exec_unsealPassword_disguised hunseal, ?_⟩
  cases plaintext with
  | error e => exact hrest
  | ok plaintext =>
      obtain ⟨r, u, hseal, hflag⟩ := exec_bind.1 hrest
      refine exec_bind.2 ⟨r, u, exec_sealPassword_disguised (hswap plaintext) hseal, ?_⟩
      cases r <;> exact hflag

private theorem exec_doResealUserEnvelopes_disguised (hswap : ∀ s, swap s = [] ↔ s = [])
    {x y : World × List (Event host)} {resp : Response}
    (h : Exec (recorded (Step sealed flt)) (doResealUserEnvelopes user) x resp y)
    (hA : ∀ e ∈ y.2, Unmasking pr.cl sealed swap req e) :
    Exec (Step (disguise swap sealed) flt) (doResealUserEnvelopes user) x.1 resp y.1 := by
  obtain ⟨pwOk, v, hpassword, hrest⟩ := exec_bind.1 h
  obtain ⟨tkOk, u, hkey, hflags⟩ := exec_bind.1 hrest
  obtain ⟨hresp, rfl⟩ := hflags
  refine exec_bind.2 ⟨pwOk, v.1, exec_resealPassword_disguised hswap (exec_of_recorded hpassword),
    exec_bind.2 ⟨tkOk, y.1, ?_, hresp, rfl⟩⟩
  exact exec_disguised guided_resealTemplateKey_disguised hkey hA

/-- A request that releases nothing gives the same reply, and leaves the same files, over
blobs that hold other secrets. -/
theorem reply_disguised (hreleases : releasesSecret req = false)
    (hswap : ∀ s, swap s = [] ↔ s = []) {events : List (Event host)} {resp : Response}
    (h : Exec (recorded (Step sealed flt)) (dispatch pr req peerUid) (w, []) resp (w', events))
    (hknown : ∀ s, Known pr.cl sealed req events s → swap s = s) :
    Exec (Step (disguise swap sealed) flt) (dispatch pr req peerUid) w resp w' := by
  have hA := relied_of_known h rfl hknown
  by_cases hreseal : ∃ u, req = .resealUserEnvelopes u
  · obtain ⟨u, rfl⟩ := hreseal
    simp only [dispatch, rootOnly, withUser] at h ⊢
    split at h
    · rename_i hpeer
      rw [if_pos hpeer]
      exact exec_of_recorded h
    · rename_i hpeer
      rw [if_neg hpeer]
      split at h
      · exact exec_of_recorded h
      · exact exec_doResealUserEnvelopes_disguised hswap h hA
  · exact exec_disguised (guided_disguised hreleases (fun u heq => hreseal ⟨u, heq⟩)
      fun u password heq => hknown password (.handed heq)) h hA

/-! ## The law -/

/-- A reply with a secret comes from behind the gates of its own request; the replies of
every other request say nothing about what the password and keyring envelopes hold. -/
theorem secret_released_behind_gates {events : List (Event host)} {resp : Response}
    (h : Exec (recorded (Step sealed flt)) (dispatch pr req peerUid) (w, []) resp (w', events)) :
    (∀ secret, resp.secret? = some secret →
      peerUid = some 0 ∧ ∃ user release, req.user? = some user ∧ validateUser user = .ok () ∧
        Route user secret req resp release ∧
        ∃ x₀ x₁ x₂ x₃ x₄ x₅ key raw samples sample emb ev b ir report blob env,
          Reached (recorded (Step sealed flt)) peerUid user req (w, []) x₀ ∧
          GatedRelease (recorded (Step sealed flt)) pr user release secret x₀ x₁ x₂ x₃ x₄ x₅
            (w', events) key raw samples sample emb ev b ir report ∧
          x₃.1.file (.user user .embeddingEnc) = some blob ∧ decrypt pr.cl key blob = .ok raw ∧
          releasedEnvelope user resp x₅.1 = some (.value env) ∧ sealed env = some secret) ∧
    (releasesSecret req = false → resp.secret? = none ∧
      ∀ swap : Bytes → Bytes, (∀ s, swap s = [] ↔ s = []) →
        (∀ s, Known pr.cl sealed req events s → swap s = s) →
        Exec (Step (disguise swap sealed) flt) (dispatch pr req peerUid) w resp w') := by
  refine ⟨fun secret hs => exec_secret_gated h hs, fun hreleases => ⟨?_, fun swap hswap hknown =>
    reply_disguised hreleases hswap h hknown⟩⟩
  rw [Option.eq_none_iff_forall_ne_some]
  intro secret hs
  obtain ⟨-, user, release, -, -, hroute, -⟩ := exec_secret_gated h hs
  cases hroute <;> cases hreleases

/-- The event does not show the simulated password. -/
def hidesPassword (e : Event host) : Bool :=
  match e with
  | ⟨.randomBytes _, bytes⟩ => bytes ≠ simulatedSecret
  | ⟨.read (.user _ .templateKeyEnvelope), r⟩ =>
      match (r : Except IoError (Json SealedEnvelope)) with
      | .ok (.value env) => simulatedUnseal env ≠ some simulatedSecret
      | _ => true
  | _ => true

/-- A longer password in the place of the simulated one. -/
def otherPassword (s : Bytes) : Bytes := if s = simulatedSecret then simulatedSecret ++ [0] else s

theorem secret_released_behind_gates_simulated :
    (∃ release x₀ x, Released (recorded (Step simulatedUnseal .none)) simulatedProcess "alice"
      release simulatedSecret x₀ x) ∧
    ∃ w', Exec (Step (disguise otherPassword simulatedUnseal) .none)
      (dispatch simulatedProcess (.resealUserEnvelopes "alice") (some 0)) (enrolledWorld "alice")
      (.userEnvelopesResealed true true) w' := by
  constructor
  · obtain ⟨w', hexec⟩ := exec_simulated_unsealPassword
    obtain ⟨events, hrecorded⟩ := exec_recorded hexec []
    obtain ⟨-, user, release, huser, -, -, x₀, x₁, x₂, x₃, x₄, x₅, key, raw, samples, sample, emb,
      ev, b, ir, report, -, -, -, hrel, -⟩ := (secret_released_behind_gates hrecorded).1 _ rfl
    obtain rfl := Option.some.inj huser
    exact ⟨release, x₀, _, x₁, x₂, x₃, x₄, x₅, key, raw, samples, sample, emb, ev, b, ir, report,
      hrel⟩
  · have hrun : ((tracedRun .none (simulatedScript.answer simulatedUnseal) 20
        (dispatch simulatedProcess (.resealUserEnvelopes "alice") (some 0))
        (enrolledWorld "alice")).map fun x => (x.1, x.2.2.all hidesPassword)) =
        some (.userEnvelopesResealed true true, true) := by
      decide +kernel
    obtain ⟨⟨resp, w', events⟩, htraced, heq⟩ := Option.map_eq_some_iff.1 hrun
    obtain ⟨rfl, hhides⟩ := Prod.mk.inj heq
    refine ⟨w', ((secret_released_behind_gates (exec_of_tracedRun htraced)).2 rfl).2 otherPassword
      (fun s => ?_) fun s hs => ?_⟩
    · unfold otherPassword
      split
      · rename_i hs
        rw [hs]
        exact iff_of_false (by simp) (by decide)
      · exact Iff.rfl
    · refine if_neg ?_
      have hevent := List.all_eq_true.1 hhides
      cases hs with
      | stored looked opens =>
          rintro rfl
          exact of_decide_eq_true (hevent _ looked) opens
      | recovered asked => cases asked
      | drawn looked => exact of_decide_eq_true (hevent _ looked)
      | handed asked => cases asked

end Linhello.Daemon
