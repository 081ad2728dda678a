import Linhello.Liveness.Evaluator
/-!
# The capture pipeline

Capture a burst, detect a face in each frame, gate liveness on the whole burst
and embed the frame with the largest face.
-/

namespace Linhello.Biometrics

open Common (LinuxHelloError)
open Effect Host Liveness

def DEFAULT_MATCH_THRESHOLD : ℚ := 60 / 100

/-- Environment, then `settings.conf`, then the default, clamped to `[0.30, 0.95]`. -/
def matchThreshold (pr : Process) : ℚ :=
  let configured := match (pr.env "LINHELLO_MATCH_THRESHOLD").bind
      fun s => pr.fl.parse (Common.trim s) with
    | some v => some v
    | none => pr.thresholdSetting.bind pr.fl.parse
  (configured.join.map (clamp (30 / 100) (95 / 100))).getD DEFAULT_MATCH_THRESHOLD

theorem matchThreshold_mem (pr : Process) :
    30 / 100 ≤ matchThreshold pr ∧ matchThreshold pr ≤ 95 / 100 := by
  simp only [matchThreshold]
  generalize (Option.join _ : Option ℚ) = configured
  cases configured with
  | none => norm_num [DEFAULT_MATCH_THRESHOLD]
  | some v => exact ⟨le_clamp, clamp_le (by norm_num)⟩

def DEFAULT_ANTISPOOF_FRAMES : Nat := 5

def TEMPORAL_BURST : Nat := 7

def antispoofFrames (pr : Process) : Nat :=
  (((pr.env "LINHELLO_ANTISPOOF_FRAMES").bind fun s => Common.parseUsize (Common.trim s)).filter
    fun n => 1 ≤ n ∧ n ≤ 15).getD DEFAULT_ANTISPOOF_FRAMES

/-- Camera path, best frame and face, median spoof probability, temporal score. -/
structure BurstCapture where
  path : String
  frame : Frame
  face : Face
  spoofProb : Option ℚ
  temporalScore : Option ℚ

/-- The frames in which the detector sees a face, each with its first face. -/
def detectedFaces (detect : Frame → Except LinuxHelloError (List Face)) (frames : List Frame) :
    List (Frame × Face) :=
  frames.filterMap fun f =>
    match detect f with
    | .ok (face :: _) => some (f, face)
    | _ => none

/-- Keep the face with the larger area, the earlier one on a tie. -/
def largerFace (best : Option (Frame × Face)) (x : Frame × Face) : Option (Frame × Face) :=
  match best with
  | none => some x
  | some b => if b.2.bbox.area < x.2.bbox.area then some x else some b

def bestFace (found : List (Frame × Face)) : Option (Frame × Face) := found.foldl largerFace none

def captureBurstDetect (pr : Process) : Fallible BurstCapture := do
  let path ← perform .rgbDevice
  let n := max (max (antispoofFrames pr) (if temporalGateEnabled pr then TEMPORAL_BURST else 0)) 1
  let frames ← fallible (perform (.captureBurst path n))
  let detect ← orFail (pr.detector.mapError .biometrics)
  let found := detectedFaces detect frames
  match bestFace found with
  | none => throw (.biometrics "no face detected")
  | some (frame, face) =>
      let eyeSeq := found.map fun (f, face) => eyeFrame pr.fl f face.landmarks
      let evaluator ← orFail (LivenessEvaluator.cached pr)
      let spoofProb ← orFail (evaluator.antispoofMedian pr.fl
        (found.map fun (f, face) => (f, face.bbox)))
      pure { path := path, frame := frame, face := face, spoofProb := spoofProb,
             temporalScore := motionScore eyeSeq }

/-- `capture_ir_frame().ok().flatten()`. -/
def captureIrFrame : Proc (Option GrayImage) := do
  match ← perform .irDevice with
  | none => pure none
  | some path =>
      match ← perform (.captureIrFrom path) with
      | .ok ir => pure (some ir)
      | .error _ => pure none

def captureDetectLive (pr : Process) : Fallible (Frame × Face × LivenessSignals) := do
  let burst ← captureBurstDetect pr
  let ir ← captureIrFrame
  let evaluator ← orFail (LivenessEvaluator.cached pr)
  let report ← evaluator.evaluate pr burst.frame burst.face.bbox burst.face.landmarks burst.path
    ir burst.spoofProb burst.temporalScore
  match report.decision with
  | .spoof =>
      throw (.biometrics ("liveness check failed: " ++ report.reason.getD "spoof detected"))
  | .uncertain =>
      throw (.biometrics ("liveness uncertain: " ++ report.reason.getD "try again"))
  | .real => pure (burst.frame, burst.face, report.signals)

def captureAndEmbedSignals (pr : Process) : Fallible (List F32 × LivenessSignals) := do
  let (frame, face, signals) ← captureDetectLive pr
  let aligned ← orFail (pr.align frame face)
  let infer ← orFail (pr.embedder.mapError .biometrics)
  let out ← orFail (infer aligned)
  let emb ← orFail (checkEmbedding out)
  pure (emb, signals)

def captureAndEmbed (pr : Process) : Fallible (List F32) := do
  let (v, _) ← captureAndEmbedSignals pr
  pure v

/-- `run_liveness_test`: the report of one capture, whatever the decision. -/
def runLivenessTest (pr : Process) : Fallible LivenessReport := do
  let burst ← captureBurstDetect pr
  let ir ← captureIrFrame
  let evaluator ← orFail (LivenessEvaluator.cached pr)
  evaluator.evaluate pr burst.frame burst.face.bbox burst.face.landmarks burst.path ir
    burst.spoofProb burst.temporalScore

end Linhello.Biometrics
