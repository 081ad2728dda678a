import Linhello.Host.Operations
import Linhello.Liveness.Landmarks
/-!
# The liveness gate

Configuration from the environment, construction of the evaluator, and
`LivenessEvaluator::evaluate`, a hard gate over independent signals.
-/

namespace Linhello.Liveness

open Common (LinuxHelloError)
open Effect Host

def DEFAULT_ANTISPOOF_MODEL : String := "/etc/linhello/antispoof.onnx"

def DEFAULT_ANTISPOOF_MODEL_4 : String := "/etc/linhello/antispoof_4.onnx"

def DEFAULT_SPOOF_THRESHOLD : ℚ := 1 / 2

def DEFAULT_TEMPORAL_MIN : ℚ := 8

def temporalGateEnabled (pr : Process) : Bool := pr.envOn "LINHELLO_TEMPORAL_GATE"

def temporalMin (pr : Process) : ℚ :=
  (((pr.env "LINHELLO_TEMPORAL_MIN").bind fun s => pr.fl.parseFinite (Common.trim s)).filter
    fun v => 0 ≤ v).getD DEFAULT_TEMPORAL_MIN

structure LivenessConfig where
  antispoofModel : Option String
  antispoofModel4 : Option String
  spoofThreshold : ℚ
  requireAntispoof : Bool
  requireIr : Bool

def LivenessConfig.fromEnv (pr : Process) : LivenessConfig where
  antispoofModel := some ((pr.env "LINHELLO_ANTISPOOF_MODEL").getD DEFAULT_ANTISPOOF_MODEL)
  antispoofModel4 := some ((pr.env "LINHELLO_ANTISPOOF_MODEL_4").getD DEFAULT_ANTISPOOF_MODEL_4)
  spoofThreshold :=
    (((pr.env "LINHELLO_SPOOF_THRESHOLD").bind pr.fl.parseFinite).map (clamp 0 1)).getD
      DEFAULT_SPOOF_THRESHOLD
  requireAntispoof :=
    ((pr.env "LINHELLO_REQUIRE_ANTISPOOF").map
      fun v => !(["0", "false", "no", "off", ""].contains v)).getD true
  requireIr := pr.envOn "LINHELLO_REQUIRE_IR"

inductive LivenessDecision
  | real
  | spoof
  | uncertain
  deriving DecidableEq

structure LivenessSignals where
  spoofProb : Option ℚ
  mlScore : Option ℚ
  deviceScore : ℚ
  deviceName : Option String
  deviceDriver : Option String
  irScore : Option ℚ
  irMean : Option ℚ
  irStd : Option ℚ
  irHighlightFrac : Option ℚ
  irFaceBgRatio : Option ℚ
  irEyeGlint : Option ℚ
  faceFrac : Option ℚ
  yawDeg : Option ℚ
  pitchDeg : Option ℚ
  motionScore : Option ℚ
  blinkScore : Option ℚ
  consistencyScore : Option ℚ
  depthScore : Option ℚ

def LivenessSignals.empty : LivenessSignals where
  spoofProb := none
  mlScore := none
  deviceScore := 1 / 2
  deviceName := none
  deviceDriver := none
  irScore := none
  irMean := none
  irStd := none
  irHighlightFrac := none
  irFaceBgRatio := none
  irEyeGlint := none
  faceFrac := none
  yawDeg := none
  pitchDeg := none
  motionScore := none
  blinkScore := none
  consistencyScore := none
  depthScore := none

/-- The observation a finished capture contributes, if an IR frame did. -/
def IrObservation.fromSignals (s : LivenessSignals) : Option IrObservation := do
  let faceBgRatio ← s.irFaceBgRatio
  let eyeGlint ← s.irEyeGlint
  let irScore ← s.irScore
  let faceFrac ← s.faceFrac
  pure { faceBgRatio := faceBgRatio, eyeGlint := eyeGlint, irScore := irScore,
         depthRatio := s.depthScore.getD 1, faceFrac := faceFrac }

structure LivenessReport where
  decision : LivenessDecision
  signals : LivenessSignals
  reason : Option String

structure LivenessEvaluator where
  config : LivenessConfig
  antispoof : Option AntiSpoofModel

namespace LivenessEvaluator

def loadMember (pr : Process) (item : String × ℚ × String) : Except LinuxHelloError Member :=
  let (path, scale, label) := item
  if !pr.modelExists path then
    .error (.biometrics ("anti-spoof model (" ++ label ++ ") not found at " ++ path))
  else
    match pr.loadSession path with
    | .error e => .error (.biometrics ("load anti-spoof (" ++ label ++ "): " ++ e))
    | .ok session => .ok { scale := scale, label := label, run := session scale }

/-- Build the ensemble. The primary model is mandatory when the configuration
requires anti-spoof; the secondary one is always optional. -/
def new (pr : Process) (config : LivenessConfig) : Except LinuxHelloError LivenessEvaluator := do
  let primary ← match config.antispoofModel with
    | some path =>
        if pr.modelExists path then pure [(path, (27 / 10 : ℚ), "2.7_V2")]
        else if config.requireAntispoof then
          throw (.biometrics ("anti-spoof model required but not found at " ++ path))
        else pure []
    | none =>
        if config.requireAntispoof then
          throw (.biometrics "anti-spoof required but no primary model configured")
        else pure []
  let secondary := match config.antispoofModel4 with
    | some p4 => if pr.modelExists p4 then [(p4, (4 : ℚ), "4.0_V1SE")] else []
    | none => []
  let items := primary ++ secondary
  if items.isEmpty then pure { config := config, antispoof := none }
  else do
    let members ← items.mapM (loadMember pr)
    pure { config := config, antispoof := some { members := members } }

/-- `LivenessEvaluator::cached`: built once, a failure is remembered as text. -/
def cached (pr : Process) : Except LinuxHelloError LivenessEvaluator :=
  match new pr (LivenessConfig.fromEnv pr) with
  | .ok e => .ok e
  | .error e => .error (.biometrics e.display)

def antispoofMedian (ev : LivenessEvaluator) (fl : FloatLib) (frames : List (Frame × BBox)) :
    Except LinuxHelloError (Option ℚ) :=
  match ev.antispoof with
  | some m => if frames.isEmpty then .ok none else some <$> m.predictMedian fl frames
  | none => .ok none

end LivenessEvaluator

/-- `device::validate_camera_device`: read sysfs and score the node. -/
def validateCameraDevice (devicePath : String) : Proc DeviceTrust := do
  match fileName devicePath with
  | none => pure { score := 1 / 2, name := none, driver := none }
  | some node =>
      let sysBase := "/sys/class/video4linux/" ++ node
      let name ← perform (.readText (sysBase ++ "/name"))
      let driver ← perform (.readLink (sysBase ++ "/device/driver"))
      pure (deviceTrust (name.map Common.trim) driver)

/-- The IR signals of a capture, as `evaluate` records them. -/
def LivenessSignals.withIr (s : LivenessSignals) (ir : IrSignals) : LivenessSignals :=
  { s with
    irScore := some ir.irScore
    irMean := some ir.meanFace
    irStd := some ir.stdFace
    irHighlightFrac := some ir.highlightFrac
    irFaceBgRatio := some ir.faceBgRatio
    irEyeGlint := some ir.eyeGlint
    depthScore := some ir.depthRatio }

/-- The last gates of `evaluate`, once orientation, device and IR have passed:
the median spoof probability and the opt-in temporal gate. -/
def decideFromScores (pr : Process) (config : LivenessConfig) (signals : LivenessSignals)
    (spoofProb temporalScore : Option ℚ) : LivenessReport :=
  let signals := match spoofProb with
    | some p => { signals with spoofProb := some p, mlScore := some (1 - p) }
    | none => signals
  let spoofed := match spoofProb with
    | some p => if config.spoofThreshold ≤ p then some p else none
    | none => none
  match spoofed with
  | some p =>
      { decision := .spoof
        signals := signals
        reason := some ("anti-spoof rejected (median spoof_prob=" ++ pr.fl.fixed 3 p ++ " ≥ " ++
          pr.fl.fixed 3 config.spoofThreshold ++ ")") }
  | none =>
      let still := match temporalScore with
        | some score =>
            if temporalGateEnabled pr && decide (score < temporalMin pr) then some score else none
        | none => none
      match still with
      | some score =>
          { decision := .uncertain
            signals := signals
            reason := some ("no eye movement detected (motion " ++ pr.fl.fixed 1 score ++ " < " ++
              pr.fl.fixed 1 (temporalMin pr) ++
              ") — look at the camera and blink; a still photo or screen reads like this") }
      | none =>
          -- no ML model and an unknown device: liveness cannot be vouched for
          { decision :=
              if signals.mlScore.isNone && decide (signals.deviceScore < 1) then .uncertain
              else .real
            signals := signals
            reason := none }

/-- `LivenessEvaluator::evaluate`. -/
def LivenessEvaluator.evaluate (pr : Process) (ev : LivenessEvaluator) (frame : Frame)
    (bbox : BBox) (landmarks : Landmarks) (cameraPath : String) (ir : Option GrayImage)
    (spoofProb temporalScore : Option ℚ) : Proc LivenessReport := do
  let (yaw, pitch) := estimatePose landmarks
  let signals := { LivenessSignals.empty with
    motionScore := temporalScore, yawDeg := some yaw, pitchDeg := some pitch }
  if !isFrontal yaw pitch MAX_ANGLE_DEG then
    return { decision := .uncertain
             signals := signals
             reason := some ("face not facing camera (yaw " ++ pr.fl.fixed 0 yaw ++ "°, pitch " ++
               pr.fl.fixed 0 pitch ++ "°; need within ±" ++ pr.fl.fixed 0 MAX_ANGLE_DEG ++ "°)") }
  let dev ← validateCameraDevice cameraPath
  let signals := { signals with
    deviceScore := dev.score, deviceName := dev.name, deviceDriver := dev.driver }
  if dev.score = 0 then
    return { decision := .spoof
             signals := signals
             reason := some ("virtual camera detected (driver=" ++ (match dev.driver with
               | some d => "Some(\"" ++ d ++ "\")"
               | none => "None") ++ ")") }
  let faceFrac := max (bbox.x2 - bbox.x1) 0 / (max frame.width 1 : Nat)
  let signals := { signals with faceFrac := some faceFrac }
  match ir with
  | none =>
      if ev.config.requireIr then
        return { decision := .uncertain
                 signals := signals
                 reason :=
                   some "IR liveness required (LINHELLO_REQUIRE_IR) but no IR frame was available" }
      return decideFromScores pr ev.config signals spoofProb temporalScore
  | some irFrame =>
      let s := irEvaluate pr.fl irFrame bbox (frame.width, frame.height) landmarks
      let signals := signals.withIr s
      match s.classify faceFrac with
      | .tooFar =>
          return { decision := .uncertain
                   signals := signals
                   reason := some ("move closer to the camera — face fills " ++
                     pr.fl.fixed 0 (faceFrac * 100) ++ "% of frame, need ≥" ++
                     pr.fl.fixed 0 (MIN_FACE_FRAC * 100) ++ "% for IR liveness") }
      | .reject reason =>
          return { decision := .spoof
                   signals := signals
                   reason := some ("IR liveness rejected: " ++ reason) }
      | .real => return decideFromScores pr ev.config signals spoofProb temporalScore

end Linhello.Liveness
