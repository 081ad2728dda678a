import Linhello.Biometrics.Template
import Linhello.Daemon.Changes
import Linhello.Daemon.KeyInvariant
import Linhello.Daemon.Passwords
/-!
# What a stored template decrypts to

Whatever the daemon is asked, a template it stores is an encryption of whole samples, each
of them captured or part of the template that was there before. `good` stands for what is
known of a captured sample; a legacy template is migrated as it stands, so the samples in
it have to be good from the start.
-/

namespace Linhello.Daemon

open Common Linhello.Core Effect Host Host.World Liveness Biometrics

variable {pr : Process} {user u : String} {peerUid : Option Nat} {cl : CryptoLib}
  {good : List F32 → Prop} {sealed : SealedEnvelope → Option Bytes} {flt : Faults} {w v : World}
  {raw key blob : Bytes}

/-! ## Good samples -/

/-- Whole samples one after the other, all of them good. -/
structure GoodSamples (good : List F32 → Prop) (raw : Bytes) : Prop where
  size : raw.length % STRIDE_BYTES = 0
  samples : ∀ v ∈ storedSamples raw, good v

theorem goodSamples_nil : GoodSamples good [] where
  size := rfl
  samples := nofun

theorem GoodSamples.append {emb : List F32} (h : GoodSamples good raw)
    (hlen : emb.length = EMBEDDING_DIM)
    (hemb : good emb) : GoodSamples good (raw ++ embeddingToBytes emb) := by
  constructor
  · rw [List.length_append, length_embeddingToBytes, hlen, ← STRIDE_BYTES, Nat.add_mod_right,
      h.size]
  · rw [storedSamples_append h.size hlen]
    intro v hv
    cases List.mem_append.1 hv with
    | inl hold => exact h.samples v hold
    | inr hnew => rwa [List.mem_singleton.1 hnew]

/-- What the embedder of a process can return. -/
def Captured (pr : Process) (emb : List F32) : Prop :=
  ∃ infer aligned out, pr.embedder = .ok infer ∧ infer aligned = .ok out ∧
    checkEmbedding out = .ok emb

theorem Captured.length {emb : List F32} (h : Captured pr emb) : emb.length = EMBEDDING_DIM := by
  obtain ⟨infer, aligned, out, -, -, hcheck⟩ := h
  exact length_of_checkEmbedding hcheck

/-! ## The invariant -/

def SoundBlob (cl : CryptoLib) (good : List F32 → Prop) (blob : Bytes) : Prop :=
  ∃ key raw, Encrypts cl key raw blob ∧ GoodSamples good raw

/-- The user's template is an encryption of good samples, and a legacy template holds such
samples in the clear. -/
structure TemplateSound (cl : CryptoLib) (good : List F32 → Prop) (user : String)
    (w : World) : Prop where
  stored : ∀ blob, w.file (.user user .embeddingEnc) = some blob → SoundBlob cl good blob
  legacy : ∀ raw, w.file (.user user .embeddingBin) = some raw → GoodSamples good raw

/-- What a program may rely on. -/
structure Informed (cl : CryptoLib) (good : List F32 → Prop) (user : String)
    (e : Event host) : Prop where
  stored : ∀ blob, e = ⟨.read (.user user .embeddingEnc), .ok blob⟩ → SoundBlob cl good blob
  legacy : ∀ raw, e = ⟨.read (.user user .embeddingBin), .ok raw⟩ → GoodSamples good raw
  random : ∀ n bytes, e = ⟨.randomBytes n, bytes⟩ → bytes.length = n

/-- What it promises in return. -/
structure StoresSound (cl : CryptoLib) (good : List F32 → Prop) (user : String)
    (o : Op) : Prop where
  stored : ∀ blob, o = .write (.user user .embeddingEnc) blob → SoundBlob cl good blob
  legacy : ∀ raw, o ≠ .write (.user user .embeddingBin) raw

/-- A step that is as promised keeps the invariant, and its answer is as relied on. -/
theorem informed_step {o : Op} {r : o.Ans} (hinv : TemplateSound cl good user w)
    (ho : StoresSound cl good user o) (hstep : Step sealed flt w o r v) :
    Informed cl good user ⟨o, r⟩ ∧ TemplateSound cl good user v := by
  have hkept : ∀ {f : UserFile} {d : f.Data}, v.file (.user user f) = some d →
      (∀ d', o ≠ .write (.user user f) d') → w.file (.user user f) = some d := by
    intro f d hfile hwrite
    by_cases htouch : touches (.user user f) ⟨o, r⟩
    · obtain ⟨-, rfl⟩ := hstep
      cases o with
      | write p d' =>
          obtain ⟨rfl, -⟩ := htouch
          exact absurd rfl (hwrite d')
      | removeFile p =>
          obtain ⟨rfl, hr⟩ := htouch
          subst hr
          rw [World.next, file_erase_self] at hfile
          cases hfile
      | removeDir u =>
          obtain ⟨hp, hr⟩ := htouch
          subst hr
          obtain rfl : user = u := Option.some.inj hp
          rw [World.next, file_rmdir_self] at hfile
          cases hfile
      | _ => exact htouch.elim
    · rwa [hstep.2, file_next_of_not_touches htouch] at hfile
  constructor
  · refine ⟨?_, ?_, ?_⟩
    · intro blob heq
      cases heq
      exact hinv.stored blob (step_read_ok hstep).1
    · intro raw heq
      cases heq
      exact hinv.legacy raw (step_read_ok hstep).1
    · intro n bytes heq
      cases heq
      simpa [allows] using hstep.1
  · constructor
    · intro blob hblob
      by_cases hwrite : ∃ d, o = .write (.user user .embeddingEnc) d
      · obtain ⟨d, rfl⟩ := hwrite
        cases r with
        | error e =>
            rw [hstep.2] at hblob
            exact hinv.stored blob hblob
        | ok _ =>
            rw [step_write_ok hstep, file_set_self] at hblob
            obtain rfl := Option.some.inj hblob
            exact ho.stored d rfl
      · exact hinv.stored blob (hkept hblob fun d heq => hwrite ⟨d, heq⟩)
    · intro raw hraw
      exact hinv.legacy raw (hkept hraw ho.legacy)

/-! ## What the requests promise -/

variable {P : Path → Prop} {A : Event host → Prop}

theorem storesSound_of_changes (henc : ¬ P (.user user .embeddingEnc))
    (hbin : ¬ P (.user user .embeddingBin)) {o : Op} (h : changes P o) :
    StoresSound cl good user o := by
  constructor
  · rintro blob rfl
    exact absurd h henc
  · rintro raw rfl
    exact hbin h

theorem storesSound_of_looks {F : Path → Prop} {o : Op} (h : looks F o) :
    StoresSound cl good user o :=
  storesSound_of_changes (P := fun _ => False) id id (changes_of_looks h)

theorem storesSound_of_removeFile (p : Path) : StoresSound cl good user (.removeFile p) := by
  constructor
  · intro blob heq
    cases heq
  · intro raw heq
    cases heq

/-- Work on another user's files stores no template of this one. -/
theorem storesSound_of_other (hne : u ≠ user) {F : UserFile → Prop} {o : Op} (h : userOp u F o) :
    StoresSound cl good user o := by
  have hchanges : changes (fun p => p.parent = some u) o := changes_of_userOp (fun _ _ => rfl) h
  have hout : ∀ f, ¬ (Path.user user f).parent = some u :=
    fun _ heq => hne (Option.some.inj heq).symm
  exact storesSound_of_changes (hout _) (hout _) hchanges

theorem storesSound_of_beside {F : UserFile → Prop} (henc : ¬ F .embeddingEnc)
    (hbin : ¬ F .embeddingBin) {o : Op} (h : userOp u F o) : StoresSound cl good user o := by
  have hchanges : changes (fun p => ∃ f, p = .user u f ∧ F f) o :=
    changes_of_userOp (fun f hf => ⟨f, rfl, hf⟩) h
  refine storesSound_of_changes ?_ ?_ hchanges
  · rintro ⟨f, heq, hf⟩
    cases heq
    exact henc hf
  · rintro ⟨f, heq, hf⟩
    cases heq
    exact hbin hf

theorem guided_orFail {α : Type} {x : Except LinuxHelloError α} {Pr : Op → Prop} {Q : α → Prop}
    (h : ∀ a, x = .ok a → Q a) :
    (orFail x).run.Guided A Pr fun r => ∀ a, r = .ok a → Q a :=
  .ret h

theorem guided_captureAndEmbedSignals :
    (captureAndEmbedSignals pr).run.Guided A (StoresSound cl good user)
      fun r => ∀ emb signals, r = .ok (emb, signals) → Captured pr emb := by
  have herr : ∀ (e : LinuxHelloError) (emb : List F32) (signals : LivenessSignals),
      (.error e : Except LinuxHelloError (List F32 × LivenessSignals)) = .ok (emb, signals) →
      Captured pr emb := fun e emb signals h => by cases h
  have hlive : (captureDetectLive pr).run.Only (looks fun _ => False) := looks_captureDetectLive pr
  refine guided_exceptT_bind (Q := fun _ => True) ?_ (fun x _ => ?_) herr
  · exact ((hlive.imp fun _ => storesSound_of_looks).guided).imp (fun _ h => h) fun _ _ _ _ =>
      trivial
  obtain ⟨frame, face, signals⟩ := x
  refine guided_exceptT_bind (guided_orFail fun _ _ => trivial) (fun aligned (_ : True) => ?_) herr
  refine guided_exceptT_bind (guided_orFail fun _ h => mapError_eq_ok.1 h)
    (fun infer hinfer => ?_) herr
  refine guided_exceptT_bind (guided_orFail fun _ h => h) (fun out hout => ?_) herr
  refine guided_exceptT_bind (guided_orFail fun _ h => h) (fun emb hcheck => .ret ?_) herr
  intro emb' signals' heq
  obtain ⟨rfl, -⟩ := Prod.mk.inj (Except.ok.inj heq)
  exact ⟨infer, aligned, out, hinfer, hout, hcheck⟩

private theorem guided_encrypt :
    (encrypt cl key raw).run.Guided (Informed cl good user) (StoresSound cl good user)
      fun r => ∀ blob, r = .ok blob → Encrypts cl key raw blob := by
  unfold encrypt
  by_cases hkey : key.length = KEY_LEN
  · rw [if_neg (not_not.2 hkey)]
    refine .call (storesSound_of_changes (P := fun _ => False) id id trivial) fun nonce hnonce => ?_
    refine .ret fun blob hblob => ?_
    exact ⟨hkey, nonce, hnonce.random NONCE_LEN nonce rfl, hblob⟩
  · rw [if_pos hkey]
    exact .ret fun blob h => by cases h

theorem guided_saveEncryptedEmbedding (hraw : u = user → GoodSamples good raw) :
    (saveEncryptedEmbedding cl u raw key).run.Guided (Informed cl good user)
      (StoresSound cl good user)
      fun _ => True := by
  by_cases hu : u = user
  · have hsound := hraw hu
    subst hu
    have hother : ∀ {o : Op}, changes (fun p => p = .user u .cameraBinding) o →
        StoresSound cl good u o := fun h => storesSound_of_changes (by simp) (by simp) h
    refine guided_exceptT_bind (guided_orFail fun _ _ => trivial) (fun _ (_ : True) => ?_)
      fun _ => trivial
    refine guided_exceptT_bind (Q := fun _ => True) ?_ (fun _ _ => ?_) fun _ => trivial
    · exact .call (hother ⟨_, rfl, rfl⟩) fun r _ => .ret fun _ _ => trivial
    refine guided_exceptT_bind guided_encrypt (fun blob hblob => ?_) fun _ => trivial
    have hwrite : StoresSound cl good u (.write (.user u .embeddingEnc) blob) := by
      constructor
      · intro blob' heq
        cases heq
        exact ⟨key, raw, hblob, hsound⟩
      · intro raw' heq
        cases heq
    have hremove : StoresSound cl good u (.removeFile (.user u .embeddingBin)) :=
      storesSound_of_removeFile _
    have hchmod : StoresSound cl good u (.setPermissions (.user u .embeddingEnc)) :=
      ⟨fun _ heq => (by cases heq), fun _ heq => by cases heq⟩
    refine guided_exceptT_bind (Q := fun _ => True) ?_ (fun _ _ => ?_) fun _ => trivial
    · exact .call hwrite fun r _ => .ret fun _ _ => trivial
    refine guided_exceptT_bind (Q := fun _ => True) ?_ (fun _ _ => ?_) fun _ => trivial
    · exact .call hchmod fun r _ => .ret fun _ _ => trivial
    exact .call hremove fun r _ => .ret trivial
  · have honly : (saveEncryptedEmbedding cl u raw key).run.Only (userOp u anyFile) :=
      userOp_saveEncryptedEmbedding trivial trivial cl raw key
    exact (honly.imp fun _ => storesSound_of_other hu).guided

theorem guided_loadEncryptedEmbedding (hauth : Authentic pr.cl) :
    (loadEncryptedEmbedding pr u key).run.Guided (Informed pr.cl good user)
      (StoresSound pr.cl good user) fun r => u = user → ∀ raw, r = .ok raw →
        GoodSamples good raw := by
  have herr : ∀ e : LinuxHelloError, u = user → ∀ raw : Bytes,
      (.error e : Except LinuxHelloError Bytes) = .ok raw → GoodSamples good raw :=
    fun e _ raw h => by cases h
  by_cases hu : u = user
  · subst hu
    have hquiet : ∀ {o : Op}, changes (fun _ => False) o → StoresSound pr.cl good u o :=
      fun h => storesSound_of_changes id id h
    refine guided_exceptT_bind (guided_orFail fun _ _ => trivial) (fun _ (_ : True) => ?_) herr
    refine .call (hquiet trivial) fun present hpresent => ?_
    cases present with
    | true =>
        refine guided_exceptT_bind (Q := SoundBlob pr.cl good) ?_ (fun blob hblob => ?_) herr
        · refine .call (hquiet trivial) fun r hr => .ret fun blob hok => ?_
          cases r with
          | error e => cases hok
          | ok d =>
              obtain rfl := Except.ok.inj hok
              exact hr.stored d rfl
        · refine .ret fun _ raw hraw => ?_
          obtain ⟨k, m, hencrypts, hsound⟩ := hblob
          rwa [hencrypts.authentic hauth hraw]
    | false =>
        refine guided_exceptT_bind (Q := fun _ => True) ?_ (fun legacy _ => ?_) herr
        · exact .call (hquiet trivial) fun r _ => .ret fun _ _ => trivial
        cases legacy with
        | false => exact .ret (herr _)
        | true =>
            rw [if_pos rfl]
            split
            · exact .ret (herr _)
            · refine guided_exceptT_bind (Q := GoodSamples good) ?_ (fun raw hraw => ?_) herr
              · refine .call (hquiet trivial) fun r hr => .ret fun raw hok => ?_
                cases r with
                | error e => cases hok
                | ok d =>
                    obtain rfl := Except.ok.inj hok
                    exact hr.legacy d rfl
              · refine guided_exceptT_bind (Q := fun _ => True) ?_ (fun _ _ => ?_) herr
                · exact (guided_saveEncryptedEmbedding fun _ => hraw).imp (fun _ h => h)
                    fun _ _ _ _ => trivial
                · refine .call (storesSound_of_removeFile _) fun _ _ => .ret fun _ raw' hok => ?_
                  obtain rfl := Except.ok.inj hok
                  exact hraw
  · have honly : (loadEncryptedEmbedding pr u key).run.Only (userOp u anyFile) :=
      userOp_loadEncryptedEmbedding trivial trivial key
    exact (honly.imp fun _ => storesSound_of_other hu).guided.imp (fun _ h => h)
      fun _ _ heq => absurd heq hu

theorem guided_cachedTemplateKey :
    (cachedTemplateKey u).run.Guided A (StoresSound cl good user) fun _ => True := by
  have honly : (cachedTemplateKey u).run.Only (userOp u fun f => f = .templateKeyEnvelope) :=
    userOp_cachedTemplateKey rfl
  exact (honly.imp fun _ => storesSound_of_beside (by simp) (by simp)).guided

theorem guided_loadUserSamples (hauth : Authentic pr.cl) :
    (loadUserSamples pr u).run.Guided (Informed pr.cl good user) (StoresSound pr.cl good user)
      fun _ => True := by
  have hbinding : (checkCameraBinding u).run.Only (looks fun _ => True) :=
    looks_checkCameraBinding trivial
  refine guided_exceptT_bind (Q := fun _ => True) ?_ (fun _ _ => ?_) fun _ => trivial
  · exact (hbinding.imp fun _ => storesSound_of_looks).guided.imp (fun _ h => h) fun _ _ _ _ =>
      trivial
  refine guided_exceptT_bind (Q := fun _ => True) ?_ (fun key _ => ?_) fun _ => trivial
  · exact guided_map guided_cachedTemplateKey fun _ _ _ _ => trivial
  refine guided_exceptT_bind (Q := fun _ => True) ?_ (fun _ _ => .ret trivial) fun _ => trivial
  exact guided_map (guided_loadEncryptedEmbedding hauth) fun _ _ _ _ => trivial

theorem guided_captureEmbedGated :
    (captureEmbedGated pr u).run.Guided A (StoresSound cl good user) fun _ => True := by
  have hlooks : (captureEmbedGated pr u).run.Only (looks fun _ => True) :=
    looks_captureEmbedGated pr trivial
  exact (hlooks.imp fun _ => storesSound_of_looks).guided

theorem guided_doVerify (hauth : Authentic pr.cl) :
    (doVerify pr u).Guided (Informed pr.cl good user)
      (StoresSound pr.cl good user) fun _ => True := by
  refine guided_bind (guided_loadUserSamples hauth) fun samples _ => ?_
  cases samples with
  | error e => exact .ret trivial
  | ok samples =>
      refine guided_bind guided_captureEmbedGated fun live _ => ?_
      cases live <;> exact .ret trivial

theorem guided_releaseIfMatched (hauth : Authentic pr.cl) {release : Fallible Bytes}
    {answer : Bytes → Response} (hrelease : release.run.Only (userOp u fun _ => False)) :
    (releaseIfMatched pr u release answer).Guided (Informed pr.cl good user)
      (StoresSound pr.cl good user) fun _ => True := by
  refine guided_bind (guided_loadUserSamples hauth) fun samples _ => ?_
  cases samples with
  | error e => exact .ret trivial
  | ok samples =>
      refine guided_bind guided_captureEmbedGated fun live _ => ?_
      cases live with
      | error e => exact .ret trivial
      | ok live =>
          simp only
          split
          · exact .ret trivial
          · exact guided_bind (hrelease.imp fun _ => storesSound_of_beside id id).guided
              fun _ _ => .ret trivial

theorem guided_doAuthenticate (hauth : Authentic pr.cl) {service : String} {peerIsRoot : Bool} :
    (doAuthenticate pr u service peerIsRoot).Guided (Informed pr.cl good user)
      (StoresSound pr.cl good user) fun _ => True := by
  have hplan : (planAction u service peerIsRoot).Only (userOp u fun _ => False) :=
    userOp_planAction service peerIsRoot
  refine guided_bind (hplan.imp fun _ => storesSound_of_beside id id).guided fun plan _ => ?_
  split
  · exact .ret trivial
  · exact guided_doVerify hauth
  · exact guided_releaseIfMatched hauth userOp_unsealPassword

theorem guided_existingTemplate (hauth : Authentic pr.cl) (reset : Bool) :
    (existingTemplate pr u reset key).Guided (Informed pr.cl good user)
      (StoresSound pr.cl good user)
      fun raw => u = user → GoodSamples good raw := by
  unfold existingTemplate
  cases reset with
  | true => exact .ret fun _ => goodSamples_nil
  | false =>
      refine guided_bind (guided_loadEncryptedEmbedding hauth) fun loaded hloaded => ?_
      cases loaded with
      | error e => exact .ret fun _ => goodSamples_nil
      | ok raw => exact .ret fun hu => hloaded hu raw rfl

/-- An enrollment appends what it captured to what it could load. -/
theorem guided_doEnroll_template (hauth : Authentic pr.cl)
    (hgood : ∀ emb, Captured pr emb → good emb)
    (reset : Bool) :
    (doEnroll pr u reset).Guided (Informed pr.cl good user) (StoresSound pr.cl good user)
      fun _ => True := by
  refine guided_bind guided_captureAndEmbedSignals fun capture hcapture => ?_
  cases capture with
  | error e => exact .ret trivial
  | ok x =>
      obtain ⟨emb, signals⟩ := x
      have hemb := hcapture emb signals rfl
      refine guided_bind guided_cachedTemplateKey fun key? _ => ?_
      cases key? with
      | error e => exact .ret trivial
      | ok key =>
          refine guided_bind (guided_existingTemplate hauth reset) fun existing hexisting => ?_
          have hall : u = user → GoodSamples good (existing ++ embeddingToBytes emb) :=
            fun hu => (hexisting hu).append hemb.length (hgood emb hemb)
          refine guided_bind (guided_saveEncryptedEmbedding hall) fun saved _ => ?_
          cases saved with
          | error e => exact .ret trivial
          | ok _ =>
              have hrecord : (recordCapture u reset signals).Only
                  (userOp u fun f => f = .cameraBinding ∨ f = .irCalibration) :=
                (only_recordCapture reset signals).imp fun _ =>
                  userOp_of_recordOp (.inl rfl) (.inr rfl)
              refine guided_bind (hrecord.imp fun _ => ?_).guided fun _ _ => .ret trivial
              exact storesSound_of_beside (by simp) (by simp)

private theorem guided_doIdentify_template (hauth : Authentic pr.cl) :
    (doIdentify pr).Guided (Informed pr.cl good user)
      (StoresSound pr.cl good user) fun _ => True := by
  have hquiet : ∀ {α : Type} {p : Proc α}, p.Only (changes fun _ => False) →
      p.Guided (Informed pr.cl good user) (StoresSound pr.cl good user) fun _ => True :=
    fun honly => (honly.imp fun _ => storesSound_of_changes id id).guided
  refine guided_bind (hquiet changes_enrolledProfiles) fun profiles _ => ?_
  split
  · exact .ret trivial
  · have hcapture : (captureAndEmbed pr).run.Only (changes fun _ => False) :=
      only_exceptT_bind ((looks_captureAndEmbedSignals (F := fun _ => False) pr).imp
        fun _ => changes_of_looks) fun _ => .ret _
    refine guided_bind (hquiet hcapture) fun live _ => ?_
    cases live with
    | error e => exact .ret trivial
    | ok live =>
        refine guided_bind (guided_mapM fun u _ => ?_) fun scored _ => ?_
        · refine guided_bind (guided_loadUserSamples hauth) fun samples _ => ?_
          cases samples with
          | error e => exact .ret trivial
          | ok samples => exact guided_bind (hquiet changes_readProfileName) fun _ _ => .ret trivial
        · simp only
          split <;> exact .ret trivial

theorem guided_templates (hauth : Authentic pr.cl) (hgood : ∀ emb, Captured pr emb → good emb)
    (req : Request) :
    (dispatch pr req peerUid).Guided (Informed pr.cl good user) (StoresSound pr.cl good user)
      fun _ => True := by
  have hpeer : ∀ {u : String}, (peerMayActAs peerUid u).Only (StoresSound pr.cl good user) :=
    fun {u} => (looks_peerMayActAs (F := fun _ => False) peerUid u).imp fun _ =>
      storesSound_of_looks
  have hother : ¬ changedBy req (.user user .embeddingEnc) →
      ¬ changedBy req (.user user .embeddingBin) →
      (dispatch pr req peerUid).Guided (Informed pr.cl good user) (StoresSound pr.cl good user)
        fun _ => True := fun henc hbin =>
    ((changes_dispatch req).imp fun _ => storesSound_of_changes henc hbin).guided
  cases req with
  | enroll u reset => exact guided_rootOnly fun _ => guided_doEnroll_template hauth hgood reset
  | verify u =>
      refine guided_withUser fun _ => guided_bind hpeer.guided fun mayAct _ => ?_
      split
      · exact .ret trivial
      · exact guided_doVerify hauth
  | «unseal» u =>
      exact guided_rootOnly fun _ => guided_releaseIfMatched hauth userOp_unsealKeyringSecret
  | unsealPassword u =>
      exact guided_rootOnly fun _ => guided_releaseIfMatched hauth userOp_unsealPassword
  | authenticate u service => exact guided_ownAccount hpeer fun _ => guided_doAuthenticate hauth
  | identify =>
      simp only [dispatch]
      split
      · exact .ret trivial
      · exact guided_doIdentify_template hauth
  | deleteProfile u =>
      -- a deletion removes templates, but it writes none
      refine guided_rootOnly fun _ => (delete_doDeleteProfile.imp fun o ho => ?_).guided
      constructor
      · rintro blob rfl
        exact ho.elim
      · rintro raw rfl
        exact ho.elim
  | _ => exact hother (by simp [changedBy]) (by simp [changedBy])

/-! ## States the daemon reaches -/

theorem TemplateSound.restart (h : TemplateSound cl good user w) :
    TemplateSound cl good user { w with cache := ∅ } := by
  constructor
  · intro blob hblob
    rw [file_withCache] at hblob
    exact h.stored blob hblob
  · intro raw hraw
    rw [file_withCache] at hraw
    exact h.legacy raw hraw


/-- States reached from one without a stored template, and with whole good samples in a
legacy template if there is one, by serving requests in any order of their operations,
finished or not, and by restarts. File operations and the TPM may fail. -/
inductive History (sealed : SealedEnvelope → Option Bytes) (flt : Faults) (cl : CryptoLib)
    (good : List F32 → Prop) (user : String) : World → Prop
  | fresh {w : World} (henc : w.file (.user user .embeddingEnc) = none)
      (hbin : ∀ raw, w.file (.user user .embeddingBin) = some raw → GoodSamples good raw) :
      History sealed flt cl good user w
  | served {w v : World} {ι : Type} [DecidableEq ι] {prs : ι → Process} {reqs : ι → Request}
      {peers : ι → Option Nat} {qs : ι → Proc Response} {log : Log host ι}
      (before : History sealed flt cl good user w) (crypto : ∀ i, (prs i).cl = cl)
      (captured : ∀ i emb, Captured (prs i) emb → good emb)
      (run : Interleaved (Step sealed flt) (fun i => dispatch (prs i) (reqs i) (peers i)) w log qs
        v) : History sealed flt cl good user v
  | restart {w : World} (before : History sealed flt cl good user w) :
      History sealed flt cl good user { w with cache := ∅ }

theorem History.sound (hauth : Authentic cl) (h : History sealed flt cl good user w) :
    TemplateSound cl good user w := by
  induction h with
  | fresh henc hbin =>
      constructor
      · intro blob hblob
        rw [henc] at hblob
        cases hblob
      · exact hbin
  | @served w v ι _ prs reqs peers qs log before crypto captured run ih =>
      have hserve : ∀ i, (dispatch (prs i) (reqs i) (peers i)).Guided
          (Informed cl good user) (StoresSound cl good user) fun _ => True := by
        intro i
        have hguided : (dispatch (prs i) (reqs i) (peers i)).Guided (Informed (prs i).cl good user)
            (StoresSound (prs i).cl good user) fun _ => True :=
          guided_templates (crypto i ▸ hauth) (captured i) (reqs i)
        rwa [crypto i] at hguided
      exact (run.guided informed_step hserve ih).1
  | restart before ih => exact ih.restart

end Linhello.Daemon
