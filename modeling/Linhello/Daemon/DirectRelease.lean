import Linhello.Daemon.Tiers
/-!
# Releases that do not ask for the tier

`Unseal` and `UnsealPassword` go to the gates without looking at the tier.
`released_only_on_secure_iff` says exactly when a secret can leave the daemon for
an account on the convenience tier; the failing direction is a run on the
simulated host.
-/

namespace Linhello.Daemon

open Common Linhello.Core Effect Host Host.World Liveness Biometrics

variable {sealed : SealedEnvelope → Option Bytes} {flt : Faults} {w w' : World} {pr : Process}
  {user service : String} {peerUid : Option Nat} {resp : Response} {secret : Bytes}

/-! ## The camera binding -/

private theorem checkDevice_self (label : String) (d : DeviceIdentity) :
    checkDevice label d d = .ok () := by
  simp [checkDevice, pure, Except.pure]

theorem verify_self (b : CameraBinding) : b.verify b = .ok () := by
  obtain ⟨rgb, ir⟩ := b
  cases ir <;> simp [CameraBinding.verify, checkDevice_self, bind, Except.bind, pure, Except.pure]

/-- A camera binding the check can be passed with. -/
def Readable (binding : Option (Json CameraBinding)) : Prop :=
  binding = none ∨ ∃ b, binding = some (.value b)

theorem step_pathExists {p : Path} {b : Bool} (hflt : flt.stat = false)
    (h : Step sealed flt w (.pathExists p) b w') : b = (w.file p).isSome ∧ w' = w := by
  obtain ⟨hallows, rfl⟩ := h
  simp only [allows, hflt, Bool.false_and, Bool.or_false, beq_iff_eq] at hallows
  exact ⟨hallows, rfl⟩

theorem readable_of_checkCameraBinding (hstat : flt.stat = false) (haccess : flt.access = false)
    (h : Exec (Step sealed flt) (checkCameraBinding user).run w (.ok ()) w') :
    Readable (w.file (.user user .cameraBinding)) := by
  unfold checkCameraBinding at h
  obtain ⟨present, v, hexists, hrest⟩ := exec_exceptT_bind_ok.1 h
  rw [exec_exceptT_lift_ok, exec_perform] at hexists
  obtain ⟨rfl, rfl⟩ := step_pathExists hstat hexists
  cases hfile : v.file (.user user .cameraBinding) with
  | none => exact .inl rfl
  | some d =>
      rw [hfile] at hrest
      simp only [Option.isSome_some, Bool.not_true, Bool.false_eq_true, if_false] at hrest
      obtain ⟨r, u, hread, hparsed⟩ := exec_exceptT_bind_ok.1 hrest
      rw [exec_exceptT_lift_ok, exec_perform] at hread
      obtain ⟨rfl, ⟨d', hd', rfl⟩ | ⟨hnone, rfl⟩⟩ := step_read haccess hread
      · obtain rfl := Option.some.inj (hfile.symm.trans hd')
        cases d with
        | value b => exact .inr ⟨b, rfl⟩
        | invalidUtf8 => cases hparsed.1
        | malformed msg => cases hparsed.1
      · cases hparsed.1

/-! ## The law -/

/-- No response to the request carries a secret unless the account it names is on
the secure tier, whatever the rest of the host is like. -/
def ReleasedOnlyOnSecure (peerUid : Option Nat) (req : Request)
    (policyConf : Option (Option String)) (binding : String → Option (Json CameraBinding)) : Prop :=
  ∀ (sealed : SealedEnvelope → Option Bytes) (flt : Faults) (pr : Process) (w w' : World)
    (resp : Response) (secret : Bytes), flt.stat = false → flt.access = false →
    w.file (.root .policyConf) = policyConf →
    (∀ user, req.user? = some user → w.file (.user user .cameraBinding) = binding user) →
    Exec (Step sealed flt) (dispatch pr req peerUid) w resp w' → resp.secret? = some secret →
    ∃ user, req.user? = some user ∧ tierOf policyConf (binding user) = .secure

/-- The requests that release without asking for the tier. -/
def SkipsTier (req : Request) (user : String) : Prop :=
  req = .unseal user ∨ req = .unsealPassword user

/-! ## A release on the simulated host -/

/-- The simulated host, as it is when a user with the given configuration and
camera is in front of it. -/
def grantWorld (user : String) (policyConf : Option (Option String))
    (binding : Option (Json CameraBinding)) : World :=
  let w := match policyConf with
    | some text => (enrolledWorld user).set (.root .policyConf) text
    | none => enrolledWorld user
  match binding with
  | some json => w.set (.user user .cameraBinding) json
  | none => w

section Grant

variable {policyConf : Option (Option String)} {binding : Option (Json CameraBinding)}

theorem file_grantWorld {p : Path} (hconf : p ≠ .root .policyConf)
    (hbinding : p ≠ .user user .cameraBinding) :
    (grantWorld user policyConf binding).file p = (enrolledWorld user).file p := by
  cases policyConf <;> cases binding <;> simp [grantWorld, file_set_of_ne, hconf, hbinding]

theorem file_policyConf_grantWorld :
    (grantWorld user policyConf binding).file (.root .policyConf) = policyConf := by
  cases policyConf <;> cases binding <;>
    simp [grantWorld, file_set_of_ne, enrolledWorld, file_withCache]

/-- What the gates of a release need of the files. -/
structure Ready (w : World) (user : String) : Prop where
  binding : Readable (w.file (.user user .cameraBinding))
  template : w.file (.user user .embeddingEnc) = some simulatedTemplate
  calibration : w.file (.user user .irCalibration) = none
  cached : w.cache.lookup user = some simulatedKey

private theorem exec_snapshotCameraBinding (b : CameraBinding) :
    Exec (Step sealed flt) snapshotCameraBinding w b w := by
  have hprobe : ∀ (path : String) (d : DeviceIdentity),
      Exec (Step sealed flt) (fromDevice path PROBE_ATTEMPTS) w (some d) w := fun path d =>
    exec_bind.2 ⟨some d, w, exec_perform.2 ⟨rfl, rfl⟩, rfl, rfl⟩
  obtain ⟨rgb, ir⟩ := b
  refine exec_bind.2 ⟨"", w, exec_perform.2 ⟨rfl, rfl⟩, ?_⟩
  refine exec_bind.2 ⟨ir.map fun _ => "", w, exec_perform.2 ⟨rfl, rfl⟩, ?_⟩
  refine exec_bind.2 ⟨some rgb, w, hprobe _ _, ?_⟩
  cases ir with
  | none => exact ⟨rfl, rfl⟩
  | some d => exact exec_bind.2 ⟨some d, w, hprobe _ _, rfl, rfl⟩

theorem exec_checkCameraBinding (h : Readable (w.file (.user user .cameraBinding))) :
    Exec (Step sealed flt) (checkCameraBinding user).run w (.ok ()) w := by
  have hexists : Step sealed flt w (.pathExists (.user user .cameraBinding))
      (w.file (.user user .cameraBinding)).isSome w := by
    simp [Step, allows, next]
  refine exec_exceptT_bind_ok.2 ⟨_, w, exec_exceptT_lift_ok.2 (exec_perform.2 hexists), ?_⟩
  rcases h with hnone | ⟨b, hb⟩
  · rw [hnone]
    exact ⟨rfl, rfl⟩
  · have hread : Step sealed flt w (.read (.user user .cameraBinding)) (.ok (.value b)) w := by
      simp [Step, allows, next, ioAnswer, hb]
    rw [hb]
    refine exec_exceptT_bind_ok.2 ⟨_, w, exec_exceptT_lift_ok.2 (exec_perform.2 hread), ?_⟩
    refine exec_exceptT_bind_ok.2 ⟨b, w, exec_exceptT_lift_ok.2 (exec_snapshotCameraBinding b), ?_⟩
    exact ⟨(verify_self b).symm, rfl⟩

theorem exec_simulated_capture :
    ∃ signals, Exec (Step sealed flt) (captureAndEmbedSignals simulatedProcess).run w
      (.ok (unitVector 0, signals)) w := by
  obtain ⟨w', hexec⟩ : ∃ w', Exec (Step simulatedUnseal .none)
      (captureAndEmbed simulatedProcess).run emptyWorld (.ok (unitVector 0)) w' :=
    simulatedScript.exec_of_run 5 (by decide +kernel)
  obtain ⟨⟨emb, signals⟩, v, hsignals, hret⟩ := exec_exceptT_bind_ok.1 hexec
  obtain ⟨hemb, rfl⟩ := exec_exceptT_pure.1 hret
  rw [Except.ok.inj hemb]
  exact ⟨signals, exec_of_looks_nowhere (looks_captureAndEmbedSignals _) hsignals w⟩

theorem exec_loadUserSamples_ready (h : Ready w user) (hvalid : validateUser user = .ok ()) :
    Exec (Step sealed flt) (loadUserSamples simulatedProcess user).run w
      (.ok [(unitVector 0).map F32.value]) w := by
  have hcached : Step sealed flt w (.cacheGet user) (some simulatedKey) w := by
    simp [Step, allows, next, h.cached]
  have hexists : Step sealed flt w (.pathExists (.user user .embeddingEnc)) true w := by
    simp [Step, allows, next, h.template]
  have hread : Step sealed flt w (.read (.user user .embeddingEnc)) (.ok simulatedTemplate) w := by
    simp [Step, allows, next, ioAnswer, h.template]
  have hdecrypt : decrypt simulatedProcess.cl simulatedKey simulatedTemplate =
      .ok (embeddingToBytes (unitVector 0)) := by decide +kernel
  have hparse : parseRawEmbeddings simulatedProcess.fl (embeddingToBytes (unitVector 0)) =
      .ok [(unitVector 0).map F32.value] := by decide +kernel
  refine exec_exceptT_bind_ok.2 ⟨(), w, exec_checkCameraBinding h.binding, ?_⟩
  refine exec_exceptT_bind_ok.2 ⟨simulatedKey, w, exec_map.2 ⟨.ok simulatedKey, ?_, rfl⟩, ?_⟩
  · exact exec_exceptT_bind_ok.2 ⟨some simulatedKey, w,
      exec_exceptT_lift_ok.2 (exec_perform.2 hcached), rfl, rfl⟩
  refine exec_exceptT_bind_ok.2 ⟨embeddingToBytes (unitVector 0), w, exec_displayed_ok.2 ?_, ?_⟩
  · refine exec_exceptT_bind_ok.2 ⟨(), w, ⟨hvalid.symm, rfl⟩, ?_⟩
    refine exec_exceptT_bind_ok.2 ⟨true, w, exec_exceptT_lift_ok.2 (exec_perform.2 hexists), ?_⟩
    refine exec_exceptT_bind_ok.2 ⟨simulatedTemplate, w, exec_io_ok.2 (exec_perform.2 hread), ?_⟩
    exact ⟨hdecrypt.symm, rfl⟩
  · exact ⟨by rw [hparse]; rfl, rfl⟩

private theorem exec_irGateCheck_ready (h : Ready w user) (signals : LivenessSignals) :
    Exec (Step sealed flt) (irGateCheck simulatedProcess user signals).run w (.ok ()) w := by
  have hread : Step sealed flt w (.read (.user user .irCalibration)) (.error .notFound) w := by
    simp [Step, allows, next, ioAnswer, h.calibration]
  have hload : Exec (Step sealed flt) (loadIrCalibration user) w .default w :=
    exec_bind.2 ⟨_, w, exec_perform.2 hread, rfl, rfl⟩
  exact exec_exceptT_bind_ok.2 ⟨.default, w, exec_exceptT_lift_ok.2 hload, rfl, rfl⟩

theorem exec_releaseIfMatched_ready {release : Fallible Bytes} {answer : Bytes → Response}
    (h : Ready w user) (hvalid : validateUser user = .ok ())
    (hrelease : Exec (Step sealed flt) release.run w (.ok secret) w) :
    Exec (Step sealed flt) (releaseIfMatched simulatedProcess user release answer) w
      (answer secret) w := by
  obtain ⟨signals, hcapture⟩ := @exec_simulated_capture sealed flt w
  refine exec_bind.2 ⟨_, w, exec_loadUserSamples_ready h hvalid, ?_⟩
  refine exec_bind.2 ⟨.ok (unitVector 0), w, ?_, ?_⟩
  · refine exec_exceptT_bind_ok.2 ⟨(unitVector 0, signals), w, exec_displayed_ok.2 hcapture, ?_⟩
    exact exec_exceptT_bind_ok.2 ⟨(), w, exec_irGateCheck_ready h signals, rfl, rfl⟩
  · have hmatched : (matchAgainst (matchThreshold simulatedProcess) (unitVector 0)
        [(unitVector 0).map F32.value]).matched = true := by decide +kernel
    simp only [hmatched, Bool.not_true, Bool.false_eq_true, if_false]
    exact exec_bind.2 ⟨.ok secret, w, hrelease, rfl, rfl⟩

theorem file_binding_grantWorld :
    (grantWorld user policyConf binding).file (.user user .cameraBinding) = binding := by
  cases policyConf <;> cases binding <;> simp [grantWorld, file_set_of_ne, enrolledWorld]

theorem ready_grantWorld (hbinding : Readable binding) :
    Ready (grantWorld user policyConf binding) user where
  binding := by rwa [file_binding_grantWorld]
  template := by
    rw [file_grantWorld (by simp) (by simp)]
    simp [enrolledWorld]
  calibration := by
    rw [file_grantWorld (by simp) (by simp)]
    simp [enrolledWorld, file_set_of_ne]
  cached := by
    cases policyConf <;> cases binding <;> simp [grantWorld, enrolledWorld]

/-- In front of the simulated host, an unseal of an envelope file gives what was
sealed in it. -/
theorem exec_unseal_simulated {p : Path} {as : p.Data → Json SealedEnvelope} {d : p.Data}
    (hfile : w.file p = some d) (has : as d = .value (simulatedSeal secret)) :
    Exec (Step simulatedUnseal flt) (do
      let env ← SealedEnvelope.load p as
      fallible (perform (.tpmUnseal env)) : Fallible Bytes).run w (.ok secret) w := by
  have hread : Step simulatedUnseal flt w (.read p) (.ok d) w := by
    simp [Step, allows, next, ioAnswer, hfile]
  have hunseal : Step simulatedUnseal flt w (.tpmUnseal (simulatedSeal secret)) (.ok secret) w := by
    simp [Step, allows, next, simulatedUnseal, simulatedSeal]
  refine exec_exceptT_bind_ok.2 ⟨simulatedSeal secret, w, ?_, exec_perform.2 hunseal⟩
  exact exec_readJson_ok.2 ⟨d, hread, by rw [has]; rfl⟩

private theorem exec_dispatch_grantWorld (policyConf : Option (Option String)) {req : Request}
    (hreq : SkipsTier req user) (hvalid : validateUser user = .ok ())
    (hbinding : Readable binding) :
    ∃ resp, resp.secret? = some simulatedSecret ∧
      Exec (Step simulatedUnseal .none) (dispatch simulatedProcess req (some 0))
        (grantWorld user policyConf binding) resp (grantWorld user policyConf binding) := by
  have hready : Ready (grantWorld user policyConf binding) user := ready_grantWorld hbinding
  have hroot : ∀ (op : String) (handler : Proc Response),
      rootOnly (some 0) op user handler = handler := by
    intro op handler
    simp [rootOnly, isRoot, withUser, hvalid]
  rcases hreq with rfl | rfl
  · refine ⟨.unsealed simulatedSecret, rfl, ?_⟩
    rw [dispatch, hroot]
    refine exec_releaseIfMatched_ready hready hvalid (exec_unseal_simulated ?_ rfl)
    rw [file_grantWorld (by simp) (by simp)]
    simp [enrolledWorld, file_set_of_ne]
  · refine ⟨.passwordUnsealed simulatedSecret, rfl, ?_⟩
    rw [dispatch, hroot]
    refine exec_releaseIfMatched_ready hready hvalid ?_
    refine exec_exceptT_bind_ok.2 ⟨(), _, ⟨hvalid.symm, rfl⟩, exec_unseal_simulated ?_ rfl⟩
    rw [file_grantWorld (by simp) (by simp)]
    simp [enrolledWorld, file_set_of_ne]

end Grant

/-! ## When the law holds -/

/-- The tier stands in front of every release, but for `Unseal` and
`UnsealPassword` from root. -/
theorem released_only_on_secure_iff {req : Request} {policyConf : Option (Option String)}
    {binding : String → Option (Json CameraBinding)} :
    ReleasedOnlyOnSecure peerUid req policyConf binding ↔
      ¬ ∃ user, peerUid = some 0 ∧ SkipsTier req user ∧ validateUser user = .ok () ∧
        tierOf policyConf (binding user) = .convenience ∧ Readable (binding user) := by
  constructor
  · rintro hlaw ⟨user, rfl, hreq, hvalid, htier, hreadable⟩
    obtain ⟨resp, hs, hexec⟩ := exec_dispatch_grantWorld policyConf hreq hvalid hreadable
    have huser : req.user? = some user := by
      rcases hreq with rfl | rfl <;> rfl
    obtain ⟨user', huser', hsecure⟩ := hlaw _ _ _ _ _ _ _ rfl rfl file_policyConf_grantWorld
      (fun v hv => by
        obtain rfl : user = v := Option.some.inj (huser.symm.trans hv)
        exact file_binding_grantWorld) hexec hs
    obtain rfl : user = user' := Option.some.inj (huser.symm.trans huser')
    rw [htier] at hsecure
    cases hsecure
  · intro hnot sealed flt pr w w' resp secret hstat haccess hconf hfiles hexec hs
    obtain ⟨hpeer, user, release, v, huser, hvalid, hroute, hreached, hrel⟩ :=
      exec_dispatch_secret hexec hs
    have hfile := hfiles user huser
    refine ⟨user, huser, ?_⟩
    -- the two routes past the tier differ in the envelope only
    have hskips : SkipsTier req user → v = w → tierOf policyConf (binding user) = .secure := by
      rintro hreq rfl
      cases htier : tierOf policyConf (binding user) with
      | secure => rfl
      | convenience =>
          obtain ⟨w₁, w₂, w₃, w₄, w₅, key, raw, samples, sample, emb, ev, b, ir, report, hrel⟩ :=
            hrel
          have hreadable := readable_of_checkCameraBinding hstat haccess hrel.bindingOk
          rw [hfile] at hreadable
          exact (hnot ⟨user, hpeer, hreq, hvalid, htier, hreadable⟩).elim
    cases hroute with
    | keyring => exact hskips (.inl rfl) hreached
    | password => exact hskips (.inr rfl) hreached
    | authenticate service =>
        obtain ⟨u, plan, hmay, hplan, haction⟩ := hreached
        obtain ⟨-, -, warm, t, t', hwarm, htier⟩ := exec_planAction_unseal hplan haction
        obtain rfl := exec_quiet ((looks_peerMayActAs (F := fun _ => True) peerUid user).imp
          fun _ => quiet_of_looks) hmay
        obtain rfl := exec_quiet ((looks_sessionWarm (F := fun _ => True) user).imp
          fun _ => quiet_of_looks) hwarm
        have hsecure := exec_effectiveTier haccess htier
        rw [hconf, hfile] at hsecure
        exact hsecure.symm

theorem not_released_only_on_secure :
    ¬ ReleasedOnlyOnSecure (some 0) (.unsealPassword "alice") none fun _ => none := by
  intro hlaw
  obtain ⟨w', hexec⟩ := exec_simulated_unsealPassword
  have hconf : (enrolledWorld "alice").file (.root .policyConf) = none := by decide
  have hbinding : ∀ user, (Request.unsealPassword "alice").user? = some user →
      (enrolledWorld "alice").file (.user user .cameraBinding) = none := by
    intro user huser
    obtain rfl := Option.some.inj huser
    decide
  obtain ⟨user, -, htier⟩ := hlaw _ _ _ _ _ _ _ rfl rfl hconf hbinding hexec rfl
  cases htier

end Linhello.Daemon
