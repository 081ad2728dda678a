import Linhello.Daemon.Release
import Linhello.Daemon.Runs
/-!
# Tiers and the release of secrets

The tier a user has by the contents of `policy.conf` and of the camera binding,
and what a password released by `Authenticate` says about the tier and about the
IR gate (`authenticate_release_ir`).
-/

namespace Linhello.Daemon

open Common Linhello.Core Effect Host Host.World Liveness Biometrics

variable {sealed : SealedEnvelope → Option Bytes} {flt : Faults} {w w' : World} {pr : Process}
  {user service : String} {peerUid : Option Nat} {resp : Response} {secret : Bytes}

/-! ## The tier of a state -/

def enrolledTier (binding : Option (Json CameraBinding)) : Tier :=
  match binding with
  | some (.value b) => if b.ir.isSome then .secure else .convenience
  | _ => .convenience

/-- The tier by the text of `policy.conf` and the user's camera binding. -/
def tierOf (policyConf : Option (Option String)) (binding : Option (Json CameraBinding)) : Tier :=
  let override := policyConf.join.bind (kvLookup "tier")
  if override = some "convenience" then .convenience
  else if override = some "secure" then .secure
  else enrolledTier binding

/-- A read answers what the file holds unless it fails without a reason. -/
theorem step_read {p : Path} {r : Except IoError p.Data} (hflt : flt.access = false)
    (h : Step sealed flt w (.read p) r w') :
    w' = w ∧ ((∃ d, w.file p = some d ∧ r = .ok d) ∨ (w.file p = none ∧ r = .error .notFound)) := by
  obtain ⟨hallows, rfl⟩ := h
  refine ⟨rfl, ?_⟩
  cases r with
  | ok d =>
      simp only [allows, ioAnswer, Bool.and_eq_true, decide_eq_true_eq] at hallows
      exact .inl ⟨d, hallows.2, rfl⟩
  | error e =>
      cases e with
      | notFound =>
          simp only [allows, ioAnswer, Bool.not_eq_true', Option.isSome_eq_false_iff,
            Option.isNone_iff_eq_none] at hallows
          exact .inr ⟨hallows, rfl⟩
      | other text =>
          simp only [allows, ioAnswer, hflt, Bool.false_eq_true] at hallows

theorem exec_readKv {key : String} {v : Option String} (hflt : flt.access = false)
    (h : Exec (Step sealed flt) (readKv key) w v w') :
    v = (w.file (.root .policyConf)).join.bind (kvLookup key) ∧ w' = w := by
  unfold readKv at h
  obtain ⟨r, u, hread, hret⟩ := exec_bind.1 h
  rw [exec_perform] at hread
  obtain ⟨rfl, ⟨d, hfile, rfl⟩ | ⟨hfile, rfl⟩⟩ := step_read hflt hread
  · rw [hfile]
    cases d with
    | none => exact hret
    | some text => exact hret
  · rw [hfile]
    exact hret

theorem exec_userTier {t : Tier} (hflt : flt.access = false)
    (h : Exec (Step sealed flt) (userTier user) w t w') :
    t = enrolledTier (w.file (.user user .cameraBinding)) := by
  unfold userTier at h
  obtain ⟨b, u, hb, hret⟩ := exec_bind.1 h
  unfold enrolledBinding at hb
  obtain ⟨r, v, hread, hb⟩ := exec_bind.1 hb
  rw [exec_perform] at hread
  obtain ⟨rfl, ⟨d, hfile, rfl⟩ | ⟨hfile, rfl⟩⟩ := step_read hflt hread
  · rw [hfile]
    cases d with
    | value c =>
        obtain ⟨rfl, -⟩ := hb
        exact hret.1
    | invalidUtf8 =>
        obtain ⟨rfl, -⟩ := hb
        exact hret.1
    | malformed msg =>
        obtain ⟨rfl, -⟩ := hb
        exact hret.1
  · obtain ⟨rfl, -⟩ := hb
    rw [hfile]
    exact hret.1

theorem exec_loadIrCalibration {cal : IrCalibration} {c : IrCalibration}
    (hflt : flt.access = false) (hfile : w.file (.user user .irCalibration) = some (.value c))
    (h : Exec (Step sealed flt) (loadIrCalibration user) w cal w') : cal = c := by
  unfold loadIrCalibration at h
  obtain ⟨r, u, hread, hret⟩ := exec_bind.1 h
  rw [exec_perform] at hread
  obtain ⟨rfl, ⟨d, hd, rfl⟩ | ⟨hnone, rfl⟩⟩ := step_read hflt hread
  · obtain rfl := Option.some.inj (hfile.symm.trans hd)
    exact hret.1
  · rw [hnone] at hfile
    cases hfile

/-- `effective_tier` computes the tier of the state. -/
theorem exec_effectiveTier {t : Tier} (hflt : flt.access = false)
    (h : Exec (Step sealed flt) (effectiveTier user) w t w') :
    t = tierOf (w.file (.root .policyConf)) (w.file (.user user .cameraBinding)) := by
  unfold effectiveTier at h
  obtain ⟨v, u, hkv, hret⟩ := exec_bind.1 h
  obtain ⟨rfl, rfl⟩ := exec_readKv hflt hkv
  unfold tierOf
  generalize (u.file (.root .policyConf)).join.bind (kvLookup "tier") = override at hret ⊢
  simp only
  split at hret
  · rw [if_pos rfl]
    exact hret.1
  · rw [if_neg (by decide), if_pos rfl]
    exact hret.1
  · rename_i hconv hsec
    rw [if_neg hconv, if_neg hsec]
    exact exec_userTier hflt hret

/-! ## The IR gate of `Authenticate` -/

theorem exec_irGateCheck_ok {W : Type} {S : Semantics host W} {signals : LivenessSignals}
    {w w' : W} (hgate : irGateDisabled pr = false)
    (h : Exec S (irGateCheck pr user signals).run w (.ok ()) w') :
    ∃ cal, Exec S (loadIrCalibration user) w cal w' ∧ irGateVerdict pr cal signals = .ok () := by
  unfold irGateCheck at h
  rw [if_neg (by simp [hgate])] at h
  obtain ⟨cal, v, hcal, hverdict⟩ := exec_exceptT_bind_ok.1 h
  obtain ⟨hverdict, rfl⟩ := hverdict
  exact ⟨cal, exec_exceptT_lift_ok.1 hcal, hverdict.symm⟩

/-- The gate lets signals pass without an IR observation only while the
calibration is not ready. -/
theorem irGateVerdict_ok {cal : IrCalibration} {signals : LivenessSignals}
    (h : irGateVerdict pr cal signals = .ok ()) :
    cal.observations.length < MIN_CALIBRATION_OBSERVATIONS ∨
      ∃ obs, IrObservation.fromSignals signals = some obs ∧ cal.gate pr.fl pr.env obs = .pass := by
  unfold irGateVerdict at h
  split at h
  · rename_i hready
    simp only [IrCalibration.isReady, Bool.not_eq_true', decide_eq_false_iff_not, not_le] at hready
    exact .inl hready
  · split at h
    · rename_i obs hobs
      split at h
      · rename_i hpass
        exact .inr ⟨obs, hobs, hpass⟩
      · cases h
      · rename_i hnot
        exact .inl (IrCalibration.gate_eq_notCalibrated_iff.1 hnot)
    · cases h

/-- A password released by `Authenticate`: the tier was evaluated to be secure,
and the IR frame of the matched capture passed the user's calibrated gate, unless
the calibration that was loaded is not ready. -/
theorem authenticate_release_ir {events : List (Event host)} (hgate : irGateDisabled pr = false)
    (h : Exec (recorded (Step sealed flt)) (dispatch pr (.authenticate user service) peerUid)
      (w, []) (.passwordUnsealed secret) (w', events)) :
    ∃ u plan x₀ x₁ x₂ x₃ x₄ x₅ key raw samples sample emb ev b ir report cal,
      Exec (recorded (Step sealed flt)) (peerMayActAs peerUid user) (w, []) true u ∧
      Exec (recorded (Step sealed flt)) (planAction user service true) u plan x₀ ∧
      plan.action = .unseal ∧ plan.tier = .secure ∧
      GatedRelease (recorded (Step sealed flt)) pr user (unsealPassword user) secret x₀ x₁ x₂ x₃
        x₄ x₅ (w', events) key raw samples sample emb ev b ir report ∧
      Exec (recorded (Step sealed flt)) (loadIrCalibration user) x₄ cal x₅ ∧
      (cal.observations.length < MIN_CALIBRATION_OBSERVATIONS ∨
        ∃ frame obs, ir = some frame ∧ IrObservation.fromSignals report.signals = some obs ∧
          cal.gate pr.fl pr.env obs = .pass) := by
  obtain ⟨-, user', release, x₀, huser, -, hroute, hreached, x₁, x₂, x₃, x₄, x₅, key, raw, samples,
    sample, emb, ev, b, ir, report, hrel⟩ := exec_dispatch_secret h rfl
  obtain rfl : user = user' := Option.some.inj huser
  cases hroute
  obtain ⟨u, plan, hmay, hplan, haction⟩ := hreached
  obtain ⟨-, htier, -⟩ := exec_planAction_unseal hplan haction
  obtain ⟨cal, hcal, hverdict⟩ := exec_irGateCheck_ok hgate hrel.irGateOk
  refine ⟨u, plan, x₀, x₁, x₂, x₃, x₄, x₅, key, raw, samples, sample, emb, ev, b, ir, report, cal,
    hmay, hplan, haction, htier, hrel, hcal, ?_⟩
  refine (irGateVerdict_ok hverdict).imp id ?_
  rintro ⟨obs, hobs, hpass⟩
  obtain ⟨_, _, -, -, -, heval, hreal⟩ := hrel.live
  have hframe := (exec_evaluate_real heval hreal).2
  rw [hobs, Option.isSome_some] at hframe
  obtain ⟨frame, hir⟩ := Option.isSome_iff_exists.1 hframe.symm
  exact ⟨frame, obs, hir, hobs, hpass⟩

/-- The calibration a release leaves on disk is the one its gate has loaded. -/
theorem calibration_of_released {c cal : IrCalibration}
    {x₀ x₁ x₂ x₃ x₄ x₅ x : World × List (Event host)} {key raw : Bytes} {samples : List (List ℚ)}
    {sample : List ℚ} {emb : List F32} {ev : LivenessEvaluator} {b : BurstCapture}
    {ir : Option GrayImage}
    {report : LivenessReport} (hflt : flt.access = false)
    (hfile : x.1.file (.user user .irCalibration) = some (.value c))
    (hrel : GatedRelease (recorded (Step sealed flt)) pr user (unsealPassword user) secret x₀ x₁ x₂
      x₃ x₄ x₅ x key raw samples sample emb ev b ir report)
    (hcal : Exec (recorded (Step sealed flt)) (loadIrCalibration user) x₄ cal x₅) : cal = c := by
  obtain ⟨-, -, -, hx₅⟩ := exec_unsealPassword_ok (exec_of_recorded hrel.unsealOk)
  have hx₄ := exec_quiet ((looks_irGateCheck (F := fun _ => True) pr trivial _).imp
    fun _ => quiet_of_looks) (exec_of_recorded hrel.irGateOk)
  have hfile₄ : x₄.1.file (.user user .irCalibration) = some (.value c) := by
    rw [← hx₄, ← hx₅, hfile]
  exact exec_loadIrCalibration hflt hfile₄ (exec_of_recorded hcal)

/-! Hosts whose administrator has set `tier=secure`: `sudo` is answered with the password. -/

def secureOverrideWorld : World := emptyWorld.set (.root .policyConf) (some "tier=secure\n")

/-- No IR camera: one enrollment, and a password. -/
def rgbOnlyRequests : List (Option Nat × Request) :=
  [(some 0, .enroll "alice" false), (some 0, .sealPassword "alice" simulatedSecret)]

def infraredScript : Script :=
  { simulatedScript with ir := some "/dev/video2", irFrame := .ok ⟨2, 2, [90, 90, 90, 90], rfl⟩ }

/-- An IR camera, and a user whose calibration has three observations. -/
def calibratedWorld : World :=
  (enrolledWorld "alice" |>.set (.root .policyConf) (some "tier=secure\n")).set
    (.user "alice" .irCalibration) (.value ⟨List.replicate 3 ⟨1, 0, 1, 1, 1⟩⟩)

/-- How `sudo` is answered, and the number of observations on disk. -/
def sudoIn (sc : Script) (w : World) : Option (Response × Option Nat) :=
  (sc.run simulatedUnseal .none 60
    (dispatch simulatedProcess (.authenticate "alice" "sudo") (some 0)) w).map fun y =>
      (y.1, match (y.2.file (.user "alice" .irCalibration) : Option (Json IrCalibration)) with
        | some (.value c) => some c.observations.length
        | _ => none)

theorem released_of_sudoIn {sc : Script} {n : Nat}
    (h : sudoIn sc w = some (.passwordUnsealed simulatedSecret, some n)) :
    ∃ w' events c, Exec (recorded (Step simulatedUnseal .none))
        (dispatch simulatedProcess (.authenticate "alice" "sudo") (some 0)) (w, [])
        (.passwordUnsealed simulatedSecret) (w', events) ∧
      w'.file (.user "alice" .irCalibration) = some (.value c) ∧ c.observations.length = n := by
  obtain ⟨⟨resp, w'⟩, hrun, heq⟩ := Option.map_eq_some_iff.1 h
  obtain ⟨rfl, hlength⟩ := Prod.mk.inj heq
  obtain ⟨events, hexec⟩ :=
    exec_recorded (exec_of_execute (fun _ _ _ _ _ => step_sound) hrun) []
  split at hlength
  · next c hfile => exact ⟨w', events, c, hexec, hfile, Option.some.inj hlength⟩
  · cases hlength

theorem serve_rgbOnly : ∃ resps w,
    serve simulatedScript simulatedUnseal .none 60 simulatedProcess rgbOnlyRequests
      secureOverrideWorld = some (resps, w) ∧
    sudoIn simulatedScript w = some (.passwordUnsealed simulatedSecret, some 0) := by
  have hserved : ((serve simulatedScript simulatedUnseal .none 60 simulatedProcess rgbOnlyRequests
      secureOverrideWorld).bind fun x => sudoIn simulatedScript x.2) =
      some (.passwordUnsealed simulatedSecret, some 0) := by
    decide +kernel
  obtain ⟨⟨resps, w⟩, hserve, hsudo⟩ := Option.bind_eq_some_iff.1 hserved
  exact ⟨resps, w, hserve, hsudo⟩

private theorem sudoIn_calibrated : sudoIn infraredScript calibratedWorld =
    some (.passwordUnsealed simulatedSecret, some 3) := by
  decide +kernel

/-- Without an IR camera the calibration that is loaded is not ready; with one the IR frame of
the matched capture passes the gate of three observations. -/
theorem authenticate_release_ir_rgbOnly :
    (∃ x₀ x₁ x₂ x₃ x₄ x₅ x key raw samples sample emb ev b ir report,
      GatedRelease (recorded (Step simulatedUnseal .none)) simulatedProcess "alice"
        (unsealPassword "alice") simulatedSecret x₀ x₁ x₂ x₃ x₄ x₅ x key raw samples sample emb ev b
        ir report) ∧
    ∃ x₀ x₁ x₂ x₃ x₄ x₅ x key raw samples sample emb ev b frame report cal obs,
      GatedRelease (recorded (Step simulatedUnseal .none)) simulatedProcess "alice"
        (unsealPassword "alice") simulatedSecret x₀ x₁ x₂ x₃ x₄ x₅ x key raw samples sample emb ev b
        (some frame) report ∧
      Exec (recorded (Step simulatedUnseal .none)) (loadIrCalibration "alice") x₄ cal x₅ ∧
      cal.observations.length = 3 ∧ IrObservation.fromSignals report.signals = some obs ∧
      cal.gate simulatedProcess.fl simulatedProcess.env obs = .pass := by
  constructor
  · obtain ⟨resps, w, -, hsudo⟩ := serve_rgbOnly
    obtain ⟨w', events, c, hexec, -⟩ := released_of_sudoIn hsudo
    obtain ⟨u, plan, x₀, x₁, x₂, x₃, x₄, x₅, key, raw, samples, sample, emb, ev, b, ir, report, cal,
      -, -, -, -, hrel, -⟩ := authenticate_release_ir rfl hexec
    exact ⟨x₀, x₁, x₂, x₃, x₄, x₅, _, key, raw, samples, sample, emb, ev, b, ir, report, hrel⟩
  · obtain ⟨w', events, c, hexec, hfile, hlength⟩ := released_of_sudoIn sudoIn_calibrated
    obtain ⟨u, plan, x₀, x₁, x₂, x₃, x₄, x₅, key, raw, samples, sample, emb, ev, b, ir, report, cal,
      -, -, -, -, hrel, hcal, hgate⟩ := authenticate_release_ir rfl hexec
    obtain rfl := calibration_of_released rfl hfile hrel hcal
    rcases hgate with hfew | ⟨frame, obs, rfl, hobs, hpass⟩
    · rw [hlength] at hfew
      exact absurd hfew (by decide)
    · exact ⟨x₀, x₁, x₂, x₃, x₄, x₅, _, key, raw, samples, sample, emb, ev, b, frame, report, cal,
        obs, hrel, hcal, hlength, hobs, hpass⟩

/-- A reachable state in which a password is released without IR evidence. -/
theorem not_authenticate_release_ir_evidence :
    ¬ ∀ (sealed : SealedEnvelope → Option Bytes) (flt : Faults) (w₀ w w' : World)
      (moves : List Move) (pr : Process) (user service : String) (peerUid : Option Nat)
      (secret : Bytes) (events : List (Event host)),
      w₀.users = ∅ → w₀.cache = ∅ → Run sealed flt w₀ moves w → irGateDisabled pr = false →
      Exec (recorded (Step sealed flt)) (dispatch pr (.authenticate user service) peerUid) (w, [])
        (.passwordUnsealed secret) (w', events) →
      ∃ x₀ x₁ x₂ x₃ x₄ x₅ key raw samples sample emb ev b ir report cal frame obs,
        GatedRelease (recorded (Step sealed flt)) pr user (unsealPassword user) secret x₀ x₁ x₂ x₃
          x₄ x₅ (w', events) key raw samples sample emb ev b ir report ∧
        Exec (recorded (Step sealed flt)) (loadIrCalibration user) x₄ cal x₅ ∧
        ir = some frame ∧ IrObservation.fromSignals report.signals = some obs ∧
        cal.gate pr.fl pr.env obs = .pass := by
  intro hall
  obtain ⟨resps, w, hserve, hsudo⟩ := serve_rgbOnly
  obtain ⟨w', events, c, hexec, hfile, hlength⟩ := released_of_sudoIn hsudo
  have hnil : Run simulatedUnseal .none secureOverrideWorld [] secureOverrideWorld := .nil
  obtain ⟨moves, hmoves⟩ := run_of_serve hnil hserve
  obtain ⟨x₀, x₁, x₂, x₃, x₄, x₅, key, raw, samples, sample, emb, ev, b, ir,
    report, cal, frame, obs,
    hrel, hcal, -, -, hpass⟩ := hall _ _ _ _ _ _ _ _ _ _ _ _ rfl rfl hmoves rfl hexec
  -- the calibration the gate loads is the one left on disk, and that one is empty
  obtain rfl := calibration_of_released rfl hfile hrel hcal
  have hnot : IrCalibration.gate simulatedProcess.fl simulatedProcess.env cal obs =
      .notCalibrated := IrCalibration.gate_eq_notCalibrated_iff.2 (by rw [hlength]; decide)
  rw [hnot] at hpass
  cases hpass

end Linhello.Daemon
