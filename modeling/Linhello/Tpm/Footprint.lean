import Linhello.Tpm.Seal
/-!
# What the TPM functions may do

Most of them are quiet: they write no file, and every operation has one answer. The
exceptions are the key generator, the signer and the creation of an object.
-/

namespace Linhello.Tpm

open Common Effect Host
open Linhello.Core (SealedEnvelope)

variable {P : Platform} {α : Type}

theorem quiet_lift {o : Op} (h : o.Quiet) :
    (liftM (perform o) : Fallible o.Ans).run.Only Op.Quiet :=
  only_exceptT_lift (only_perform h)

/-- An operation that creates no transient object or session, flushes none and persists
none. -/
def Op.plain : Op → Bool
  | .createPrimary _ | .load _ _ _ | .loadExternalPublic _ | .startAuthSession _
  | .flushContext _ | .evictControl _ _ => false
  | _ => true

/-- Leaves the persistent handles as they are. -/
def Op.Stays : Op → Prop
  | .evictControl _ _ => False
  | _ => True

def Op.Idle (o : Op) : Prop := o.Quiet ∧ o.plain = true

theorem quiet_of_idle {p : Proc α} (hp : p.Only Op.Idle) : p.Only Op.Quiet :=
  hp.imp fun _ ho => ho.1

theorem idle_lift {o : Op} (h : o.Idle) : (liftM (perform o) : Fallible o.Ans).run.Only Op.Idle :=
  only_exceptT_lift (only_perform h)

/-! ## Files and signatures -/

theorem idle_readText {f : Artifact} {as : f.Data → Option String} :
    (readText f as).run.Only Op.Idle := by
  refine only_exceptT_bind (only_attempt (only_perform ⟨⟨fun _ => rfl, rfl⟩, rfl⟩)) fun d => ?_
  cases as d with
  | none => exact only_exceptT_throw
  | some text => exact only_exceptT_pure

theorem quiet_readText {f : Artifact} {as : f.Data → Option String} :
    (readText f as).run.Only Op.Quiet :=
  quiet_of_idle idle_readText

theorem idle_readJson {f : Artifact} {as : f.Data → Json α} : (readJson f as).run.Only Op.Idle :=
  only_exceptT_bind (only_attempt (only_perform ⟨⟨fun _ => rfl, rfl⟩, rfl⟩)) fun _ => only_settle

theorem quiet_readJson {f : Artifact} {as : f.Data → Json α} : (readJson f as).run.Only Op.Quiet :=
  quiet_of_idle idle_readJson

theorem discover_only {override : Option String} {file : String} {as : String → Artifact} :
    (discover override file as).Only fun o : Op => ∃ a, o = .pathExists a := by
  unfold discover
  cases override with
  | some p => exact only_bind (only_perform ⟨_, rfl⟩) fun _ => only_pure
  | none => exact only_findM? (fun p => only_perform ⟨_, rfl⟩) _

theorem idle_discover {override : Option String} {file : String} {as : String → Artifact} :
    (discover override file as).Only Op.Idle :=
  discover_only.imp (by
    rintro o ⟨a, rfl⟩
    exact ⟨⟨fun _ => rfl, rfl⟩, rfl⟩)

theorem quiet_discover {override : Option String} {file : String} {as : String → Artifact} :
    (discover override file as).Only Op.Quiet :=
  quiet_of_idle idle_discover

theorem idle_classifySigner {pubkeyPem : String} :
    (classifySigner P pubkeyPem).run.Only Op.Idle := by
  refine only_exceptT_bind only_settle fun fp => ?_
  split
  · exact only_exceptT_pure
  · refine only_exceptT_bind (only_caught idle_readText) fun read => ?_
    cases read with
    | error e => exact only_exceptT_throw
    | ok hostPem =>
        refine only_exceptT_bind only_settle fun hostFp => ?_
        split
        · exact only_exceptT_pure
        · exact only_exceptT_throw

theorem quiet_classifySigner {pubkeyPem : String} :
    (classifySigner P pubkeyPem).run.Only Op.Quiet :=
  quiet_of_idle idle_classifySigner

theorem idle_signaturesFor {signer : SignerKind} : (signaturesFor P signer).run.Only Op.Idle := by
  cases signer with
  | systemd =>
      refine only_exceptT_bind (only_exceptT_lift idle_discover) fun found => ?_
      cases found with
      | none => exact only_exceptT_throw
      | some path => exact only_exceptT_bind idle_readJson fun _ => only_settle
  | linhelloHost =>
      refine only_exceptT_bind (idle_lift ⟨⟨fun _ => rfl, rfl⟩, rfl⟩) fun present => ?_
      split
      · exact only_exceptT_bind idle_readJson fun _ => only_settle
      · exact only_exceptT_pure

theorem quiet_signaturesFor {signer : SignerKind} : (signaturesFor P signer).run.Only Op.Quiet :=
  quiet_of_idle idle_signaturesFor

theorem idle_hostPrivateKey : (hostPrivateKey P).run.Only Op.Idle :=
  only_exceptT_bind idle_readText fun _ => only_settle

theorem quiet_hostPrivateKey : (hostPrivateKey P).run.Only Op.Quiet :=
  quiet_of_idle idle_hostPrivateKey

theorem idle_signAhash {ahash : Bytes} : (signAhash P ahash).run.Only Op.Idle := by
  refine only_exceptT_bind ?_ fun sk => only_settle
  exact only_exceptT_bind idle_readText fun pem => only_settle

theorem quiet_signAhash {ahash : Bytes} : (signAhash P ahash).run.Only Op.Quiet :=
  quiet_of_idle idle_signAhash

/-! ## Firmware -/

theorem idle_isSecureBootEnabled : isSecureBootEnabled.Only Op.Idle := by
  refine only_bind (only_perform ⟨⟨fun _ => rfl, rfl⟩, rfl⟩) fun secure => ?_
  cases efivarU8 secure with
  | none => exact only_pure
  | some b => exact only_bind (only_perform ⟨⟨fun _ => rfl, rfl⟩, rfl⟩) fun _ => only_pure

theorem quiet_isSecureBootEnabled : isSecureBootEnabled.Only Op.Quiet :=
  quiet_of_idle idle_isSecureBootEnabled

theorem detectBootMode_only {Q : Op → Prop} (hpath : ∀ path, Q (.firmwarePath path)) :
    detectBootMode.Only Q := by
  have hperform : ∀ path : String, (perform (.firmwarePath path)).Only Q :=
    fun path => only_perform (hpath path)
  refine only_bind (hperform _) fun efi => ?_
  split
  · exact only_pure
  · refine only_bind (hperform _) fun stub => ?_
    split
    · exact only_pure
    · refine only_bind (hperform _) fun loader => ?_
      split
      · exact only_pure
      · refine only_bind (only_bind (only_findM? hperform _) fun _ => only_pure) fun grub => ?_
        split
        · exact only_pure
        · exact only_pure

theorem quiet_detectBootMode : detectBootMode.Only Op.Quiet :=
  detectBootMode_only fun _ => ⟨fun _ => rfl, rfl⟩

/-! ## Plans -/

theorem quiet_signedPolicyAvailable : (signedPolicyAvailable P).Only Op.Quiet := by
  refine only_bind quiet_discover fun signatures => ?_
  split
  · exact only_bind quiet_discover fun _ => only_pure
  · exact only_pure

theorem quiet_loadPubkeyPem : (loadPubkeyPem P).run.Only Op.Quiet := by
  refine only_exceptT_bind (only_exceptT_lift quiet_discover) fun found => ?_
  cases found with
  | none => exact only_exceptT_throw
  | some path =>
      refine only_exceptT_bind quiet_readText fun pem => ?_
      exact only_exceptT_bind only_settle fun _ => only_exceptT_pure

theorem ensureHostSigningKey_only {Q : Op → Prop} (hQ : ∀ o : Op, o.Idle → Q o)
    (hgenerate : Q .generateKey) (hkey : ∀ d, Q (.writeFile .signingKey d))
    (hpub : ∀ d, Q (.writeFile .signingPub d)) : (ensureHostSigningKey P).run.Only Q := by
  have hidle : ∀ {o : Op}, o.Idle → (perform o).Only Q := fun ho => only_perform (hQ _ ho)
  refine only_exceptT_bind (only_exceptT_lift (hidle ⟨⟨fun _ => rfl, rfl⟩, rfl⟩)) fun present => ?_
  split
  · refine only_exceptT_bind (idle_readText.imp hQ) fun pem => ?_
    exact only_exceptT_bind (idle_hostPrivateKey.imp hQ) fun _ => only_exceptT_pure
  · refine only_exceptT_bind (only_attempt (only_perform hgenerate)) fun sk => ?_
    refine only_exceptT_bind only_settle fun privPem => ?_
    refine only_exceptT_bind only_settle fun pubPem => ?_
    refine only_exceptT_bind (only_attempt (hidle ⟨⟨fun _ => rfl, rfl⟩, rfl⟩)) fun _ => ?_
    refine only_exceptT_bind (only_attempt (only_perform (hkey _))) fun _ => ?_
    refine only_exceptT_bind (only_attempt (hidle ⟨⟨fun _ => rfl, rfl⟩, rfl⟩)) fun _ => ?_
    refine only_exceptT_bind (only_attempt (only_perform (hpub _))) fun _ => ?_
    exact only_exceptT_bind (only_attempt (hidle ⟨⟨fun _ => rfl, rfl⟩, rfl⟩)) fun _ =>
      only_exceptT_pure

/-- A plan may make the host's key pair, and writes nothing else. -/
theorem plan_only {Q : Op → Prop} (hQ : ∀ o : Op, o.Quiet → Q o) (hgenerate : Q .generateKey)
    (hkey : ∀ d, Q (.writeFile .signingKey d)) (hpub : ∀ d, Q (.writeFile .signingPub d)) :
    (plan P).Only Q := by
  have hquiet : ∀ {o : Op}, o.Quiet → (perform o).Only Q := fun ho => only_perform (hQ _ ho)
  have hensure : (ensureHostSigningKey P).run.Only Q :=
    ensureHostSigningKey_only (fun o ho => hQ o ho.1) hgenerate hkey hpub
  refine only_bind (quiet_isSecureBootEnabled.imp hQ) fun sb => ?_
  refine only_bind (quiet_detectBootMode.imp hQ) fun boot => ?_
  refine only_bind (quiet_signedPolicyAvailable.imp hQ) fun available => ?_
  unfold decide
  split
  · exact only_pure
  · refine only_bind ?_ fun systemd => ?_
    · split
      · exact only_map (quiet_loadPubkeyPem.imp hQ)
      · exact only_pure
    · cases systemd with
      | some pubkeyPem => exact only_pure
      | none =>
          refine only_bind (only_map hensure) fun host => ?_
          cases host with
          | some pubkeyPem => exact only_pure
          | none => exact only_pure

/-! ## TPM -/

theorem idle_openContext : (openContext P).run.Only Op.Idle :=
  only_attempt (only_perform ⟨⟨fun _ => rfl, rfl⟩, rfl⟩)

theorem quiet_openContext : (openContext P).run.Only Op.Quiet :=
  quiet_of_idle idle_openContext

theorem readPcrValues_only {pcrs : List Nat} :
    (readPcrValues pcrs).run.Only fun o : Op => ∃ l, o = .pcrRead l := by
  induction pcrs with
  | nil => exact only_pure
  | cons p ps ih =>
      refine only_exceptT_bind only_settle fun sel => ?_
      refine only_exceptT_bind (only_attempt (only_perform ⟨_, rfl⟩)) fun digests => ?_
      exact only_exceptT_bind ih fun rest => only_exceptT_pure

theorem idle_readPcrValues {pcrs : List Nat} : (readPcrValues pcrs).run.Only Op.Idle :=
  readPcrValues_only.imp (by
    rintro o ⟨l, rfl⟩
    exact ⟨⟨fun _ => rfl, rfl⟩, rfl⟩)

theorem quiet_readPcrValues {pcrs : List Nat} : (readPcrValues pcrs).run.Only Op.Quiet :=
  quiet_of_idle idle_readPcrValues

theorem idle_diagnosePcrs {env : SealedEnvelope} : (diagnosePcrs P env).run.Only Op.Idle := by
  unfold diagnosePcrs
  split
  · exact only_exceptT_pure
  · refine only_exceptT_bind idle_openContext fun _ => ?_
    exact only_exceptT_bind idle_readPcrValues fun _ => only_exceptT_pure

theorem idle_policyAwareErr {e : String} {env : SealedEnvelope} :
    (policyAwareErr P e env).run.Only Op.Idle := by
  refine only_exceptT_bind (only_caught idle_diagnosePcrs) fun changed => ?_
  cases changed with
  | error e => exact only_exceptT_pure
  | ok changed =>
      dsimp only
      split
      · exact only_exceptT_pure
      · exact only_exceptT_pure

theorem quiet_policyAwareErr {e : String} {env : SealedEnvelope} :
    (policyAwareErr P e env).run.Only Op.Quiet :=
  quiet_of_idle idle_policyAwareErr

theorem only_withSession {Q : Op → Prop} (hQ : ∀ o : Op, o.Quiet → o.Stays → Q o) {trial : Bool}
    {body : Nat → Fallible α} (hbody : ∀ h, (body h).run.Only Q) :
    (withSession trial body).run.Only Q := by
  have hquiet : ∀ {o : Op}, o.Quiet → o.Stays → (liftM (perform o) : Fallible o.Ans).run.Only Q :=
    fun ho hs => only_exceptT_lift (only_perform (hQ _ ho hs))
  refine only_exceptT_bind (only_attempt (only_perform (hQ _ ⟨fun _ => rfl, rfl⟩ trivial)))
    fun started => ?_
  cases started with
  | none => exact only_exceptT_throw
  | some session =>
      refine only_exceptT_bind (hquiet ⟨fun _ => rfl, rfl⟩ trivial) fun attributes => ?_
      cases attributes with
      | error e =>
          exact only_exceptT_bind (hquiet ⟨fun _ => rfl, rfl⟩ trivial) fun _ => only_exceptT_throw
      | ok x =>
          refine only_exceptT_bind (only_caught (hbody session)) fun result => ?_
          exact only_exceptT_bind (hquiet ⟨fun _ => rfl, rfl⟩ trivial) fun _ => only_settle

theorem only_withHandle {Q : Op → Prop} (hQ : ∀ o : Op, o.Quiet → o.Stays → Q o)
    {spawn : Fallible Nat} {body : Nat → Fallible α} (hspawn : spawn.run.Only Q)
    (hbody : ∀ h, (body h).run.Only Q) : (withHandle spawn body).run.Only Q := by
  refine only_exceptT_bind hspawn fun handle => ?_
  refine only_exceptT_bind (only_caught (hbody handle)) fun result => ?_
  exact only_exceptT_bind (only_exceptT_lift (only_perform (hQ _ ⟨fun _ => rfl, rfl⟩ trivial)))
    fun _ => only_settle

theorem quiet_computePolicyDigest {sel : Option (List Nat)} :
    (computePolicyDigest sel).run.Only Op.Quiet := by
  refine only_withSession (fun _ h _ => h) fun session => ?_
  cases sel with
  | none => exact only_attempt (only_perform ⟨fun _ => rfl, rfl⟩)
  | some l =>
      refine only_exceptT_bind (only_attempt (only_perform ⟨fun _ => rfl, rfl⟩)) fun _ => ?_
      exact only_attempt (only_perform ⟨fun _ => rfl, rfl⟩)

theorem quiet_createSrk : createSrk.run.Only Op.Quiet :=
  only_attempt (only_perform ⟨fun _ => rfl, rfl⟩)

theorem quiet_openSrk {object : Nat} {isOurs : Bool} :
    (openSrk object isOurs).run.Only Op.Quiet := by
  cases isOurs with
  | true =>
      exact only_exceptT_bind (only_attempt (only_perform ⟨fun _ => rfl, rfl⟩)) fun _ =>
        only_exceptT_pure
  | false => exact only_exceptT_bind quiet_createSrk fun _ => only_exceptT_pure

theorem quiet_loadOrCreateSrk : (loadOrCreateSrk P).run.Only Op.Quiet := by
  refine only_exceptT_bind only_settle fun persistent => ?_
  refine only_exceptT_bind (only_exceptT_lift (only_perform ⟨fun _ => rfl, rfl⟩)) fun found => ?_
  cases found with
  | error e =>
      refine only_exceptT_bind quiet_createSrk fun transient => ?_
      refine only_exceptT_bind (only_attempt (only_perform ⟨fun _ => rfl, rfl⟩)) fun persisted => ?_
      refine only_exceptT_bind (only_exceptT_lift (only_perform ⟨fun _ => rfl, rfl⟩)) fun _ => ?_
      exact only_exceptT_bind (only_attempt (only_perform ⟨fun _ => rfl, rfl⟩)) fun _ =>
        only_exceptT_pure
  | ok object =>
      refine only_exceptT_bind (only_exceptT_lift (only_perform ⟨fun _ => rfl, rfl⟩)) fun area => ?_
      cases area with
      | error e => exact quiet_openSrk
      | ok area => exact quiet_openSrk

theorem only_withSrk {Q : Op → Prop} (hQ : ∀ o : Op, o.Quiet → Q o) {body : Nat → Fallible α}
    (hbody : ∀ h, (body h).run.Only Q) : (withSrk P body).run.Only Q := by
  refine only_exceptT_bind (quiet_loadOrCreateSrk.imp hQ) fun x => ?_
  obtain ⟨srk, persistent⟩ := x
  refine only_exceptT_bind (only_caught (hbody srk)) fun result => ?_
  cases persistent with
  | false =>
      exact only_exceptT_bind (only_exceptT_lift (only_perform (hQ _ ⟨fun _ => rfl, rfl⟩))) fun _ =>
        only_settle
  | true => exact only_settle

theorem quiet_loadExternalPubkey {pubkeyPem : String} :
    (loadExternalPubkey P pubkeyPem).run.Only Op.Quiet :=
  only_exceptT_bind only_settle fun _ => only_attempt (only_perform ⟨fun _ => rfl, rfl⟩)

theorem quiet_loadSealed {srk : Nat} {env : SealedEnvelope} :
    (loadSealed P srk env).run.Only Op.Quiet := by
  refine only_exceptT_bind only_settle fun area => ?_
  exact only_exceptT_bind only_settle fun priv => only_attempt (only_perform ⟨fun _ => rfl, rfl⟩)

theorem quiet_unsealLoaded {handle session : Nat} {env : SealedEnvelope} :
    (unsealLoaded P handle session env).run.Only Op.Quiet := by
  refine only_exceptT_bind (quiet_lift ⟨fun _ => rfl, rfl⟩) fun answer => ?_
  cases answer with
  | ok data => exact only_exceptT_pure
  | error e => exact only_exceptT_bind quiet_policyAwareErr fun err => only_exceptT_throw

theorem quiet_unsealLiteral {env : SealedEnvelope} : (unsealLiteral P env).run.Only Op.Quiet := by
  refine only_exceptT_bind quiet_openContext fun _ => ?_
  refine only_withSrk (fun _ h => h) fun srk => ?_
  refine only_withHandle (fun _ h _ => h) quiet_loadSealed fun sealed => ?_
  refine only_withSession (fun _ h _ => h) fun session => ?_
  split
  · refine only_exceptT_bind only_settle fun sel => ?_
    exact only_exceptT_bind (only_attempt (only_perform ⟨fun _ => rfl, rfl⟩)) fun _ =>
      quiet_unsealLoaded
  · exact quiet_unsealLoaded

private theorem quiet_authorizeSession {session : Nat} {pubkeyPem : String}
    {approved policyRef sig : Bytes}
    {body : Fallible α} (hbody : body.run.Only Op.Quiet) :
    (authorizeSession P session pubkeyPem approved policyRef sig body).run.Only Op.Quiet := by
  refine only_withHandle (fun _ h _ => h) quiet_loadExternalPubkey fun keyHandle => ?_
  refine only_exceptT_bind (only_attempt (only_perform ⟨fun _ => rfl, rfl⟩)) fun keyName => ?_
  refine only_exceptT_bind only_settle fun signature => ?_
  refine only_exceptT_bind (only_attempt (only_perform ⟨fun _ => rfl, rfl⟩)) fun ticket => ?_
  refine only_exceptT_bind only_settle fun refNonce => ?_
  exact only_exceptT_bind (only_attempt (only_perform ⟨fun _ => rfl, rfl⟩)) fun _ => hbody

theorem quiet_unsealSigned {env : SealedEnvelope} {pubkeyPem : String} {policyRef : Bytes}
    {signer : SignerKind} : (unsealSigned P env pubkeyPem policyRef signer).run.Only Op.Quiet := by
  refine only_withSrk (fun _ h => h) fun srk => ?_
  refine only_withHandle (fun _ h _ => h) quiet_loadSealed fun sealed => ?_
  refine only_withSession (fun _ h _ => h) fun session => ?_
  refine only_exceptT_bind only_settle fun sel => ?_
  refine only_exceptT_bind (only_attempt (only_perform ⟨fun _ => rfl, rfl⟩)) fun _ => ?_
  refine only_exceptT_bind (only_attempt (only_perform ⟨fun _ => rfl, rfl⟩)) fun approved => ?_
  refine only_exceptT_bind quiet_signaturesFor fun sigs => ?_
  cases findForPolicy sigs env.pcrs approved with
  | none => exact only_exceptT_throw
  | some s => exact quiet_authorizeSession quiet_unsealLoaded

end Linhello.Tpm
