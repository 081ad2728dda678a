import Linhello.Daemon.Handlers
import Linhello.Host.World
/-!
# Functions that only look

The capture, the gates and the policy decision change nothing. For each of them
this file says which files it looks at.
-/

namespace Linhello.Daemon

open Common Linhello.Core Effect Host Host.World Liveness Biometrics

variable {F : Path → Prop}

/-! ## The capture -/

theorem looks_captureBurstDetect (pr : Process) : (captureBurstDetect pr).run.Only (looks F) := by
  refine only_exceptT_bind (only_exceptT_lift (only_perform trivial)) fun path => ?_
  refine only_exceptT_bind (only_perform trivial) fun frames => ?_
  refine only_exceptT_bind only_orFail fun detect => ?_
  simp only
  split
  · exact .ret _
  · exact only_exceptT_bind only_orFail fun ev => only_exceptT_bind only_orFail fun p => .ret _

theorem looks_captureIrFrame : captureIrFrame.Only (looks F) := by
  refine only_bind (only_perform trivial) fun path => ?_
  cases path with
  | none => exact .ret _
  | some path =>
      refine only_bind (only_perform trivial) fun ir => ?_
      cases ir <;> exact .ret _

private theorem looks_validateCameraDevice (path : String) :
    (validateCameraDevice path).Only (looks F) := by
  unfold validateCameraDevice
  split
  · exact .ret _
  · exact only_bind (only_perform trivial) fun name =>
      only_bind (only_perform trivial) fun driver => .ret _

theorem looks_evaluate (pr : Process) (ev : LivenessEvaluator) (frame : Frame) (bbox : BBox)
    (landmarks : Landmarks) (path : String) (ir : Option GrayImage) (p t : Option ℚ) :
    (ev.evaluate pr frame bbox landmarks path ir p t).Only (looks F) := by
  unfold LivenessEvaluator.evaluate
  generalize estimatePose landmarks = pose
  obtain ⟨yaw, pitch⟩ := pose
  simp only
  split
  · exact .ret _
  · refine only_bind (looks_validateCameraDevice path) fun dev => ?_
    split
    · exact .ret _
    · cases ir with
      | none =>
          simp only
          split <;> exact .ret _
      | some irFrame =>
          simp only
          split <;> exact .ret _

theorem looks_captureDetectLive (pr : Process) : (captureDetectLive pr).run.Only (looks F) := by
  refine only_exceptT_bind (looks_captureBurstDetect pr) fun b => ?_
  refine only_exceptT_bind (only_exceptT_lift looks_captureIrFrame) fun ir => ?_
  refine only_exceptT_bind only_orFail fun ev => ?_
  refine only_exceptT_bind (only_exceptT_lift (looks_evaluate ..)) fun report => ?_
  split <;> exact .ret _

theorem looks_captureAndEmbedSignals (pr : Process) :
    (captureAndEmbedSignals pr).run.Only (looks F) := by
  refine only_exceptT_bind (looks_captureDetectLive pr) fun x => ?_
  exact only_exceptT_bind only_orFail fun aligned => only_exceptT_bind only_orFail fun infer =>
    only_exceptT_bind only_orFail fun out => only_exceptT_bind only_orFail fun emb => .ret _

theorem looks_runLivenessTest (pr : Process) : (runLivenessTest pr).run.Only (looks F) := by
  refine only_exceptT_bind (looks_captureBurstDetect pr) fun b => ?_
  refine only_exceptT_bind (only_exceptT_lift looks_captureIrFrame) fun ir => ?_
  refine only_exceptT_bind only_orFail fun ev => ?_
  exact only_exceptT_lift (looks_evaluate ..)

/-! ## The gates -/

theorem glances_fromDevice (path : String) (n : Nat) : (fromDevice path n).Only (glances F) := by
  induction n with
  | zero => exact .ret _
  | succ n ih =>
      refine only_bind (only_perform ⟨trivial, rfl⟩) fun id => ?_
      cases id with
      | none => exact ih
      | some id => exact .ret _

theorem glances_snapshotCameraBinding : snapshotCameraBinding.Only (glances F) := by
  refine only_bind (only_perform ⟨trivial, rfl⟩) fun rgbPath => ?_
  refine only_bind (only_perform ⟨trivial, rfl⟩) fun irPath => ?_
  refine only_bind (glances_fromDevice rgbPath _) fun rgb => ?_
  cases irPath with
  | none => exact .ret _
  | some path => exact only_bind (glances_fromDevice path _) fun ir => .ret _

theorem looks_snapshotCameraBinding : snapshotCameraBinding.Only (looks F) :=
  glances_snapshotCameraBinding.imp fun _ => looks_of_glances

theorem glances_checkCameraBinding {user : String} (hF : F (.user user .cameraBinding)) :
    (checkCameraBinding user).run.Only (glances F) := by
  refine only_exceptT_bind (only_exceptT_lift (only_perform ⟨hF, rfl⟩)) fun present => ?_
  cases present with
  | false => exact .ret _
  | true =>
      refine only_exceptT_bind (only_exceptT_lift (only_perform ⟨hF, rfl⟩)) fun r => ?_
      split
      · exact .ret _
      · exact .ret _
      · exact .ret _
      · exact only_exceptT_bind (only_exceptT_lift glances_snapshotCameraBinding) fun c => .ret _

theorem looks_checkCameraBinding {user : String} (hF : F (.user user .cameraBinding)) :
    (checkCameraBinding user).run.Only (looks F) :=
  (glances_checkCameraBinding hF).imp fun _ => looks_of_glances

theorem looks_loadIrCalibration {user : String} (hF : F (.user user .irCalibration)) :
    (loadIrCalibration user).Only (looks F) := by
  refine only_bind (only_perform hF) fun r => ?_
  split <;> exact .ret _

theorem looks_irGateCheck (pr : Process) {user : String} (hF : F (.user user .irCalibration))
    (signals : LivenessSignals) : (irGateCheck pr user signals).run.Only (looks F) := by
  unfold irGateCheck
  split
  · exact .ret _
  · exact only_exceptT_bind (only_exceptT_lift (looks_loadIrCalibration hF)) fun cal => .ret _

theorem looks_captureEmbedGated (pr : Process) {user : String}
    (hF : F (.user user .irCalibration)) : (captureEmbedGated pr user).run.Only (looks F) :=
  only_exceptT_bind (only_map (looks_captureAndEmbedSignals pr)) fun x =>
    only_exceptT_bind (looks_irGateCheck pr hF x.2) fun _ => .ret _

/-! ## The policy -/

theorem glances_readKv (hF : F (.root .policyConf)) (key : String) :
    (readKv key).Only (glances F) := by
  refine only_bind (only_perform ⟨hF, rfl⟩) fun r => ?_
  split <;> exact .ret _

theorem glances_enrolledBinding {user : String} (hF : F (.user user .cameraBinding)) :
    (enrolledBinding user).Only (glances F) := by
  refine only_bind (only_perform ⟨hF, rfl⟩) fun r => ?_
  split <;> exact .ret _

theorem looks_enrolledBinding {user : String} (hF : F (.user user .cameraBinding)) :
    (enrolledBinding user).Only (looks F) :=
  (glances_enrolledBinding hF).imp fun _ => looks_of_glances

theorem glances_effectiveTier {user : String} (hconf : F (.root .policyConf))
    (hbinding : F (.user user .cameraBinding)) : (effectiveTier user).Only (glances F) := by
  refine only_bind (glances_readKv hconf _) fun v => ?_
  split
  · exact .ret _
  · exact .ret _
  · refine only_bind (glances_enrolledBinding hbinding) fun b => ?_
    split <;> exact .ret _

theorem glances_sessionWarm (user : String) : (sessionWarm user).Only (glances F) := by
  refine only_bind (only_perform ⟨trivial, rfl⟩) fun uid => ?_
  cases uid with
  | none => exact .ret _
  | some uid =>
      refine only_bind (only_perform ⟨trivial, rfl⟩) fun text => ?_
      cases text <;> exact .ret _

theorem looks_sessionWarm (user : String) : (sessionWarm user).Only (looks F) :=
  (glances_sessionWarm user).imp fun _ => looks_of_glances

theorem glances_currentPolicy (hF : F (.root .policyConf)) : currentPolicy.Only (glances F) := by
  have hkey : ∀ key, (policyKey key).Only (glances F) := fun key =>
    only_bind (glances_readKv hF key) fun _ => .ret _
  exact only_bind (hkey _) fun _ => only_bind (hkey _) fun _ => only_bind (hkey _) fun _ =>
    only_bind (hkey _) fun _ => .ret _

private theorem glances_faceIsActiveMethod (hF : F (.root .policyConf)) :
    faceIsActiveMethod.Only (glances F) :=
  only_bind (glances_readKv hF _) fun _ => .ret _

theorem glances_planAction {user : String} (hconf : F (.root .policyConf))
    (hbinding : F (.user user .cameraBinding)) (service : String) (peerIsRoot : Bool) :
    (planAction user service peerIsRoot).Only (glances F) :=
  only_bind (glances_sessionWarm user) fun _ =>
    only_bind (glances_effectiveTier hconf hbinding) fun _ =>
      only_bind (glances_currentPolicy hconf) fun _ =>
        only_bind (glances_faceIsActiveMethod hconf) fun _ => .ret _

theorem glances_peerMayActAs (peerUid : Option Nat) (user : String) :
    (peerMayActAs peerUid user).Only (glances F) := by
  unfold peerMayActAs
  split
  · exact .ret _
  · exact only_bind (only_perform ⟨trivial, rfl⟩) fun owner => .ret _
  · exact .ret _

theorem looks_peerMayActAs (peerUid : Option Nat) (user : String) :
    (peerMayActAs peerUid user).Only (looks F) :=
  (glances_peerMayActAs peerUid user).imp fun _ => looks_of_glances

end Linhello.Daemon
