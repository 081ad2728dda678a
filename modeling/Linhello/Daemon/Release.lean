import Linhello.Biometrics.Burst
import Linhello.Core.Outcomes
import Linhello.Daemon.Footprint
/-!
# What stands behind a released secret

Only two kinds of response carry an unsealed secret. `exec_dispatch_secret` says
which requests can be answered with one and what happened inside the request
before it was.
-/

namespace Linhello.Daemon

open Common Linhello.Core Effect Host Host.World Liveness Biometrics

/-! ## Handlers that release nothing -/

def Secretless (p : Proc Response) : Prop := p.Returns fun resp => resp.secret? = none

theorem secret?_respond {α : Type} (r : Except LinuxHelloError α) {ok : α → Response}
    (h : ∀ a, (ok a).secret? = none) : (respond r ok).secret? = none := by
  cases r with
  | ok a => exact h a
  | error e => rfl

theorem secretless_respond {α : Type} (p : Proc (Except LinuxHelloError α)) {ok : α → Response}
    (h : ∀ a, (ok a).secret? = none) :
    Secretless (do let r ← p; pure (respond r ok)) :=
  returns_bind fun r => .ret (secret?_respond r h)

theorem secretless_doStatus : Secretless doStatus :=
  returns_bind fun _ => returns_bind fun _ => returns_bind fun _ => returns_bind fun _ => .ret rfl

theorem secretless_doEnroll (pr : Process) (user : String) (reset : Bool) :
    Secretless (doEnroll pr user reset) := by
  refine returns_bind fun capture => ?_
  cases capture with
  | error e => exact .ret rfl
  | ok x =>
      refine returns_bind fun key => ?_
      cases key with
      | error e => exact .ret rfl
      | ok key =>
          refine returns_bind fun existing => returns_bind fun saved => ?_
          cases saved with
          | error e => exact .ret rfl
          | ok _ => exact returns_bind fun _ => .ret rfl

theorem secretless_doVerify (pr : Process) (user : String) : Secretless (doVerify pr user) := by
  refine returns_bind fun samples => ?_
  cases samples with
  | error e => exact .ret rfl
  | ok samples =>
      refine returns_bind fun live => ?_
      cases live <;> exact .ret rfl

theorem secretless_doAuthIntent (user service : String) (peerIsRoot : Bool) :
    Secretless (doAuthIntent user service peerIsRoot) := by
  refine returns_bind fun plan => ?_
  simp only
  split
  · exact .ret rfl
  · exact returns_bind fun _ => .ret rfl

theorem secretless_doPolicyStatus (user : String) : Secretless (doPolicyStatus user) :=
  returns_bind fun _ => returns_bind fun _ => returns_bind fun _ => returns_bind fun _ =>
    returns_bind fun _ => .ret rfl

theorem secretless_doListProfiles (peerUid : Option Nat) :
    Secretless (doListProfiles peerUid) := by
  unfold doListProfiles
  refine returns_bind fun users => ?_
  refine returns_bind fun profiles => ?_
  exact .ret rfl

theorem secretless_doSetProfileName (user name : String) :
    Secretless (doSetProfileName user name) := by
  refine returns_bind fun profiles => ?_
  split
  · exact .ret rfl
  · refine returns_bind fun result => ?_
    cases result <;> exact .ret rfl

theorem secretless_doDeleteProfile (user : String) : Secretless (doDeleteProfile user) := by
  refine returns_bind fun profiles => ?_
  split
  · exact .ret rfl
  · refine returns_bind fun samples => returns_bind fun removed => ?_
    cases removed with
    | error e => exact .ret rfl
    | ok _ => exact returns_bind fun _ => .ret rfl

theorem secretless_doIdentify (pr : Process) : Secretless (doIdentify pr) := by
  refine returns_bind fun profiles => ?_
  split
  · exact .ret rfl
  · refine returns_bind fun live => ?_
    cases live with
    | error e => exact .ret rfl
    | ok live =>
        refine returns_bind fun scored => ?_
        simp only
        split <;> exact .ret rfl

theorem secretless_doResealUserEnvelopes (user : String) :
    Secretless (doResealUserEnvelopes user) :=
  returns_bind fun _ => returns_bind fun _ => .ret rfl

theorem secretless_doRestoreFromRecovery (pr : Process) (user : String) (passphrase : Bytes) :
    Secretless (doRestoreFromRecovery pr user passphrase) := by
  refine returns_bind fun restored => ?_
  cases restored with
  | error e => exact .ret rfl
  | ok _ => exact returns_bind fun _ => .ret rfl

theorem secretless_doDiagnose : Secretless doDiagnose := by
  refine returns_bind fun present => returns_bind fun level => ?_
  split
  · exact .ret rfl
  · refine returns_bind fun env => ?_
    cases env with
    | error e => exact .ret rfl
    | ok env =>
        refine returns_bind fun changed => ?_
        cases changed <;> exact .ret rfl

/-! ## The gates of a release -/

section Gates

variable {W : Type} {S : Semantics host W} {pr : Process} {user service : String}
  {peerUid : Option Nat} {resp : Response} {secret : Bytes} {w w' : W}

/-- The release of `secret` between `w` and `w'`: the camera binding was checked,
the user's template was loaded, a live capture was embedded and passed the IR
gate, one of the samples matched, and `release` unsealed the secret. -/
structure GatedRelease (S : Semantics host W) (pr : Process) (user : String)
    (release : Fallible Bytes) (secret : Bytes) (w w₁ w₂ w₃ w₄ w₅ w' : W) (key raw : Bytes)
    (samples : List (List ℚ)) (sample : List ℚ) (emb : List F32) (ev : LivenessEvaluator)
    (b : BurstCapture) (ir : Option GrayImage) (report : LivenessReport) : Prop where
  bindingOk : Exec S (checkCameraBinding user).run w (.ok ()) w₁
  keyOk : Exec S (cachedTemplateKey user).run w₁ (.ok key) w₂
  templateOk : Exec S (loadEncryptedEmbedding pr user key).run w₂ (.ok raw) w₃
  samplesOk : parseRawEmbeddings pr.fl raw = .ok samples
  live : CapturedLive S pr w₃ ev b ir report w₄
  embedded : EmbeddedFrom pr b.frame b.face emb
  irGateOk : Exec S (irGateCheck pr user report.signals).run w₄ (.ok ()) w₅
  mem : sample ∈ samples
  score : matchThreshold pr ≤ cosine (emb.map F32.value) sample
  unsealOk : Exec S release.run w₅ (.ok secret) w'

def Released (S : Semantics host W) (pr : Process) (user : String) (release : Fallible Bytes)
    (secret : Bytes) (w w' : W) : Prop :=
  ∃ w₁ w₂ w₃ w₄ w₅ key raw samples sample emb ev b ir report,
    GatedRelease S pr user release secret w w₁ w₂ w₃ w₄ w₅ w' key raw samples sample emb ev b ir
      report

@[simp] theorem exec_displayed_ok {α : Type} {f : LinuxHelloError → String} {p : Fallible α}
    {a : α} : Exec S (displayed f p).run w (.ok a) w' ↔ Exec S p.run w (.ok a) w' := by
  have hrun : (displayed f p).run = Except.mapError f <$> p.run := rfl
  rw [hrun, exec_map]
  constructor
  · rintro ⟨x, hp, hx⟩
    rw [mapError_eq_ok.1 hx.symm] at hp
    exact hp
  · intro hp
    exact ⟨.ok a, hp, rfl⟩

theorem exec_loadUserSamples_ok {samples : List (List ℚ)}
    (h : Exec S (loadUserSamples pr user).run w (.ok samples) w') :
    ∃ w₁ w₂ key raw, Exec S (checkCameraBinding user).run w (.ok ()) w₁ ∧
      Exec S (cachedTemplateKey user).run w₁ (.ok key) w₂ ∧
      Exec S (loadEncryptedEmbedding pr user key).run w₂ (.ok raw) w' ∧
      parseRawEmbeddings pr.fl raw = .ok samples := by
  unfold loadUserSamples at h
  obtain ⟨_, w₁, hbinding, hrest⟩ := exec_exceptT_bind_ok.1 h
  obtain ⟨key, w₂, hmapped, hread⟩ := exec_exceptT_bind_ok.1 hrest
  obtain ⟨raw, w₃, hload, hparse⟩ := exec_exceptT_bind_ok.1 hread
  obtain ⟨x, hkey, hx⟩ := exec_map.1 hmapped
  rw [mapError_eq_ok.1 hx.symm] at hkey
  obtain ⟨hparse, rfl⟩ := hparse
  exact ⟨w₁, w₂, key, raw, hbinding, hkey, exec_displayed_ok.1 hload,
    mapError_eq_ok.1 hparse.symm⟩

private theorem exec_captureEmbedGated_ok {emb : List F32}
    (h : Exec S (captureEmbedGated pr user).run w (.ok emb) w') :
    ∃ v ev b ir report, CapturedLive S pr w ev b ir report v ∧
      EmbeddedFrom pr b.frame b.face emb ∧
      Exec S (irGateCheck pr user report.signals).run v (.ok ()) w' := by
  unfold captureEmbedGated at h
  obtain ⟨⟨live, signals⟩, v, hcapture, hrest⟩ := exec_exceptT_bind_ok.1 h
  rw [exec_displayed_ok] at hcapture
  obtain ⟨_, u, hgate, hret⟩ := exec_exceptT_bind_ok.1 hrest
  obtain ⟨hlive, rfl⟩ := exec_exceptT_pure.1 hret
  obtain rfl := Except.ok.inj hlive
  obtain ⟨frame, face, hdetected, hemb⟩ := exec_captureAndEmbedSignals hcapture
  obtain ⟨ev, b, ir, report, hcaptured, rfl, rfl, rfl⟩ := exec_captureDetectLive hdetected
  exact ⟨v, ev, b, ir, report, hcaptured, hemb, hgate⟩

/-- A secret comes out of a releasing handler only behind all its gates. -/
theorem exec_releaseIfMatched_secret {release : Fallible Bytes} {answer : Bytes → Response}
    (hanswer : ∀ s, (answer s).secret? = some s)
    (h : Exec S (releaseIfMatched pr user release answer) w resp w')
    (hs : resp.secret? = some secret) :
    resp = answer secret ∧ Released S pr user release secret w w' := by
  unfold releaseIfMatched at h
  obtain ⟨samples?, v, hsamples, hrest⟩ := exec_bind.1 h
  cases samples? with
  | error e =>
      obtain ⟨rfl, -⟩ := hrest
      cases hs
  | ok samples =>
      obtain ⟨live?, u, hlive, hmatch⟩ := exec_bind.1 hrest
      cases live? with
      | error e =>
          obtain ⟨rfl, -⟩ := hmatch
          cases hs
      | ok live =>
          obtain ⟨w₄, ev, b, ir, report, hcaptured, hemb, hgate⟩ := exec_captureEmbedGated_ok hlive
          obtain ⟨w₁, w₂, key, raw, hbinding, hkey, hload, hparse⟩ :=
            exec_loadUserSamples_ok hsamples
          simp only at hmatch
          split at hmatch
          · obtain ⟨rfl, -⟩ := hmatch
            cases hs
          · rename_i hmatched
            rw [Bool.not_eq_true', Bool.not_eq_false] at hmatched
            obtain ⟨sample, hmem, hscore⟩ := exists_sample_of_matched hmatched
            obtain ⟨secret?, t, hunseal, hret⟩ := exec_bind.1 hmatch
            obtain ⟨rfl, rfl⟩ := hret
            cases secret? with
            | error e => cases hs
            | ok s =>
                obtain rfl : s = secret := Option.some.inj ((hanswer s).symm.trans hs)
                exact ⟨rfl, w₁, w₂, v, w₄, u, key, raw, samples, sample, live, ev, b, ir, report,
                  hbinding, hkey, hload, hparse, hcaptured, hemb, hgate, hmem, hscore, hunseal⟩

end Gates

/-! ## The arms of `dispatch` -/

theorem exec_withUser_secret {W : Type} {S : Semantics host W} {user : String}
    {handler : Proc Response} {w w' : W} {resp : Response} {secret : Bytes}
    (h : Exec S (withUser user handler) w resp w') (hs : resp.secret? = some secret) :
    validateUser user = .ok () ∧ Exec S handler w resp w' := by
  unfold withUser at h
  split at h
  · obtain ⟨rfl, -⟩ := h
    cases hs
  · rename_i hok
    exact ⟨hok, h⟩

theorem isRoot_iff {uid : Option Nat} : isRoot uid = true ↔ uid = some 0 := by
  simp [isRoot]

theorem exec_rootOnly_secret {W : Type} {S : Semantics host W} {peerUid : Option Nat}
    {op user : String} {handler : Proc Response} {w w' : W} {resp : Response} {secret : Bytes}
    (h : Exec S (rootOnly peerUid op user handler) w resp w') (hs : resp.secret? = some secret) :
    peerUid = some 0 ∧ validateUser user = .ok () ∧ Exec S handler w resp w' := by
  unfold rootOnly at h
  split at h
  · obtain ⟨rfl, -⟩ := h
    cases hs
  · rename_i hroot
    rw [Bool.not_eq_true', Bool.not_eq_false, isRoot_iff] at hroot
    exact ⟨hroot, exec_withUser_secret h hs⟩

theorem secretless_withUser {user : String} {handler : Proc Response} (h : Secretless handler) :
    Secretless (withUser user handler) := by
  unfold withUser
  split
  · exact .ret rfl
  · exact h

theorem secretless_rootOnly {peerUid : Option Nat} {op user : String} {handler : Proc Response}
    (h : Secretless handler) : Secretless (rootOnly peerUid op user handler) := by
  unfold rootOnly
  split
  · exact .ret rfl
  · exact secretless_withUser h

theorem secretless_ownAccount {peerUid : Option Nat} {op user : String} {handler : Proc Response}
    (h : Secretless handler) : Secretless (ownAccount peerUid op user handler) := by
  refine returns_bind fun mayAct => ?_
  split
  · exact .ret rfl
  · exact secretless_withUser h

section Dispatch

variable {W : Type} {S : Semantics host W} {pr : Process} {user service : String}
  {peerUid : Option Nat} {resp : Response} {secret : Bytes} {w w' : W}

/-- An `Authenticate` that answers with a secret planned an unseal for root. -/
theorem exec_doAuthenticate_secret {peerIsRoot : Bool}
    (h : Exec S (doAuthenticate pr user service peerIsRoot) w resp w')
    (hs : resp.secret? = some secret) :
    ∃ plan v, Exec S (planAction user service peerIsRoot) w plan v ∧ plan.action = .unseal ∧
      resp = .passwordUnsealed secret ∧
      Released S pr user (unsealPassword user) secret v w' := by
  unfold doAuthenticate at h
  obtain ⟨plan, v, hplan, hact⟩ := exec_bind.1 h
  cases haction : plan.action with
  | deny =>
      rw [haction] at hact
      obtain ⟨rfl, -⟩ := hact
      cases hs
  | verify =>
      rw [haction] at hact
      have hnone := (secretless_doVerify pr user).exec hact
      rw [hnone] at hs
      cases hs
  | «unseal» =>
      rw [haction] at hact
      exact ⟨plan, v, hplan, haction, exec_releaseIfMatched_secret (fun s => rfl) hact hs⟩

/-- A plan to unseal is made for root only, and on the secure tier only. -/
theorem exec_planAction_unseal {peerIsRoot : Bool} {plan : Plan}
    (h : Exec S (planAction user service peerIsRoot) w plan w') (hplan : plan.action = .unseal) :
    peerIsRoot = true ∧ plan.tier = .secure ∧ ∃ warm v u, Exec S (sessionWarm user) w warm v ∧
      Exec S (effectiveTier user) v .secure u := by
  unfold planAction at h
  obtain ⟨warm, v₁, hwarm, h₁⟩ := exec_bind.1 h
  obtain ⟨tier, v₂, htier, h₂⟩ := exec_bind.1 h₁
  obtain ⟨policy, v₃, -, h₃⟩ := exec_bind.1 h₂
  obtain ⟨faceActive, v₄, -, h₄⟩ := exec_bind.1 h₃
  obtain ⟨rfl, -⟩ := h₄
  obtain ⟨hunseal, -, hroot⟩ := eq_unseal_of_capAction hplan
  have hsecure := tier_of_decide_eq_unseal hunseal
  rw [hsecure] at htier
  exact ⟨hroot, hsecure, warm, v₁, v₂, hwarm, htier⟩

/-- The three requests that can be answered with a secret, and the unseal each
of them ends in. -/
inductive Route (user : String) (secret : Bytes) : Request → Response → Fallible Bytes → Prop
  | keyring : Route user secret (.unseal user) (.unsealed secret) unsealKeyringSecret
  | password : Route user secret (.unsealPassword user) (.passwordUnsealed secret)
      (unsealPassword user)
  | authenticate (service : String) :
      Route user secret (.authenticate user service) (.passwordUnsealed secret)
        (unsealPassword user)

/-- What a request performs before the gates of a release: nothing, or the
decision of `Authenticate` to unseal. -/
def Reached (S : Semantics host W) (peerUid : Option Nat) (user : String) (req : Request)
    (w v : W) : Prop :=
  match req with
  | .authenticate _ service => ∃ u plan, Exec S (peerMayActAs peerUid user) w true u ∧
      Exec S (planAction user service true) u plan v ∧ plan.action = .unseal
  | _ => v = w

/-- Which requests can be answered with a secret, and how it came about. -/
theorem exec_dispatch_secret {req : Request} (h : Exec S (dispatch pr req peerUid) w resp w')
    (hs : resp.secret? = some secret) :
    peerUid = some 0 ∧ ∃ user release v, req.user? = some user ∧ validateUser user = .ok () ∧
      Route user secret req resp release ∧ Reached S peerUid user req w v ∧
      Released S pr user release secret v w' := by
  have hsecretless : ∀ {p : Proc Response}, Secretless p → ¬ Exec S p w resp w' := by
    intro p hp hexec
    have hnone := hp.exec hexec
    rw [hnone] at hs
    cases hs
  cases req with
  | «unseal» user =>
      obtain ⟨hpeer, hvalid, hexec⟩ := exec_rootOnly_secret h hs
      obtain ⟨rfl, hrel⟩ := exec_releaseIfMatched_secret (fun s => rfl) hexec hs
      exact ⟨hpeer, user, _, w, rfl, hvalid, .keyring, rfl, hrel⟩
  | unsealPassword user =>
      obtain ⟨hpeer, hvalid, hexec⟩ := exec_rootOnly_secret h hs
      obtain ⟨rfl, hrel⟩ := exec_releaseIfMatched_secret (fun s => rfl) hexec hs
      exact ⟨hpeer, user, _, w, rfl, hvalid, .password, rfl, hrel⟩
  | authenticate user service =>
      obtain ⟨mayAct, u, hmay, hrest⟩ := exec_bind.1 h
      split at hrest
      · obtain ⟨rfl, -⟩ := hrest
        cases hs
      · rename_i hmayAct
        rw [Bool.not_eq_true', Bool.not_eq_false] at hmayAct
        subst hmayAct
        obtain ⟨hvalid, hauth⟩ := exec_withUser_secret hrest hs
        obtain ⟨plan, v, hplan, haction, rfl, hrel⟩ := exec_doAuthenticate_secret hauth hs
        obtain ⟨hroot, -⟩ := exec_planAction_unseal hplan haction
        rw [hroot] at hplan
        exact ⟨isRoot_iff.1 hroot, user, _, v, rfl, hvalid, .authenticate service,
          ⟨u, plan, hmay, hplan, haction⟩, hrel⟩
  | status => exact absurd h (hsecretless secretless_doStatus)
  | enroll user reset =>
      exact absurd h (hsecretless (secretless_rootOnly (secretless_doEnroll pr user reset)))
  | verify user =>
      refine absurd h (hsecretless (secretless_withUser (returns_bind fun mayAct => ?_)))
      split
      · exact .ret rfl
      · exact secretless_doVerify pr user
  | reseal =>
      refine absurd h (hsecretless ?_)
      simp only [dispatch]
      split
      · exact .ret rfl
      · exact secretless_respond _ fun _ => rfl
  | sealPassword user password =>
      exact absurd h (hsecretless (secretless_rootOnly (secretless_respond _ fun _ => rfl)))
  | authIntent user service =>
      exact absurd h (hsecretless (secretless_ownAccount (secretless_doAuthIntent user service _)))
  | policyStatus user =>
      exact absurd h (hsecretless (secretless_ownAccount (secretless_doPolicyStatus user)))
  | diagnose => exact absurd h (hsecretless secretless_doDiagnose)
  | probe => exact absurd h (hsecretless (returns_bind fun _ => .ret rfl))
  | livenessTest => exact absurd h (hsecretless (secretless_respond _ fun _ => rfl))
  | positionSample => exact absurd h (hsecretless (secretless_respond _ fun _ => rfl))
  | resealUserEnvelopes user =>
      exact absurd h (hsecretless (secretless_rootOnly (secretless_doResealUserEnvelopes user)))
  | listProfiles => exact absurd h (hsecretless (secretless_doListProfiles peerUid))
  | identify =>
      refine absurd h (hsecretless ?_)
      simp only [dispatch]
      split
      · exact .ret rfl
      · exact secretless_doIdentify pr
  | setProfileName user name =>
      exact absurd h (hsecretless (secretless_rootOnly (secretless_doSetProfileName user name)))
  | deleteProfile user =>
      exact absurd h (hsecretless (secretless_rootOnly (secretless_doDeleteProfile user)))
  | saveRecovery user passphrase =>
      exact absurd h (hsecretless (secretless_rootOnly (secretless_respond _ fun _ => rfl)))
  | restoreFromRecovery user passphrase =>
      exact absurd h (hsecretless (secretless_rootOnly
        (secretless_doRestoreFromRecovery pr user passphrase)))

/-- The envelope file a response's secret came from. -/
def releasedEnvelope (user : String) (resp : Response) (w : World) :
    Option (Json SealedEnvelope) :=
  match resp with
  | .unsealed _ => w.file (.root .tpmEnvelope)
  | _ => w.file (.user user .passwordEnvelope)

/-- No secret leaves the daemon but to root, for a valid account, behind the
camera binding, a live capture, the IR gate, a matching sample of that account's
own template and the unseal of the envelope that was asked for. The states carry
the operations performed so far, so each of these happened in this request. -/
theorem exec_secret_gated {sealed : SealedEnvelope → Option Bytes} {flt : Faults}
    {req : Request} {w w' : World} {events : List (Event host)}
    (h : Exec (recorded (Step sealed flt)) (dispatch pr req peerUid) (w, []) resp (w', events))
    (hs : resp.secret? = some secret) :
    peerUid = some 0 ∧ ∃ user release, req.user? = some user ∧ validateUser user = .ok () ∧
      Route user secret req resp release ∧
      ∃ x₀ x₁ x₂ x₃ x₄ x₅ key raw samples sample emb ev b ir report blob env,
        Reached (recorded (Step sealed flt)) peerUid user req (w, []) x₀ ∧
        GatedRelease (recorded (Step sealed flt)) pr user release secret x₀ x₁ x₂ x₃ x₄ x₅
          (w', events) key raw samples sample emb ev b ir report ∧
        x₃.1.file (.user user .embeddingEnc) = some blob ∧ decrypt pr.cl key blob = .ok raw ∧
        releasedEnvelope user resp x₅.1 = some (.value env) ∧ sealed env = some secret := by
  obtain ⟨hpeer, user, release, x₀, huser, hvalid, hroute, hreached, x₁, x₂, x₃, x₄, x₅, key, raw,
    samples, sample, emb, ev, b, ir, report, hrel⟩ := exec_dispatch_secret h hs
  obtain ⟨blob, hfile, hdec⟩ := exec_loadEncryptedEmbedding_ok (exec_of_recorded hrel.templateOk)
  have hunsealed := exec_of_recorded hrel.unsealOk
  have henv : ∃ env, releasedEnvelope user resp x₅.1 = some (.value env) ∧
      sealed env = some secret := by
    cases hroute with
    | keyring =>
        obtain ⟨env, henv, hsealed, -⟩ := exec_unsealKeyringSecret_ok hunsealed
        exact ⟨env, henv, hsealed⟩
    | password =>
        obtain ⟨env, henv, hsealed, -⟩ := exec_unsealPassword_ok hunsealed
        exact ⟨env, henv, hsealed⟩
    | authenticate service =>
        obtain ⟨env, henv, hsealed, -⟩ := exec_unsealPassword_ok hunsealed
        exact ⟨env, henv, hsealed⟩
  obtain ⟨env, henv, hsealed⟩ := henv
  exact ⟨hpeer, user, release, huser, hvalid, hroute, x₀, x₁, x₂, x₃, x₄, x₅, key, raw, samples,
    sample, emb, ev, b, ir, report, blob, env, hreached, hrel, hfile, hdec, henv, hsealed⟩

theorem exec_simulated_unsealPassword :
    ∃ w', Exec (Step simulatedUnseal .none)
      (dispatch simulatedProcess (.unsealPassword "alice") (some 0)) (enrolledWorld "alice")
      (.passwordUnsealed simulatedSecret) w' :=
  simulatedScript.exec_of_run 40 (by decide +kernel)

end Dispatch

end Linhello.Daemon
