import Linhello.Biometrics.LiveGate
/-!
# Framing guidance

The positioning guide of the enrollment page (`framing_guidance`): one line of advice
for the user, and the flag that starts an automatic capture. The advice is a priority
chain and the flag a conjunction; both are compared here with each other and with the
gates of `evaluate`.

The box, the pose and the luma values are finite numbers. `estimate_pose` and
`region_stats` guard their divisions, so that only a NaN out of the detector's network
could make them anything else.
-/

namespace Linhello.Biometrics

open Common Effect Host Liveness

/-! ## The guide -/

def MIN_FRAC : ℚ := MIN_FACE_FRAC

def MAX_FRAC : ℚ := 60 / 100

/-- Allowed offset of the box centre, as a fraction of the frame. -/
def CENTER_TOL : ℚ := 18 / 100

def DIM_GATE : ℚ := 40

def BRIGHT_GATE : ℚ := 230

def BACKLIT_DELTA : ℚ := 55

def BACKLIT_FACE_FLOOR : ℚ := 65

def HOLD_STILL : String := "Hold still — ready to capture"

/-- The detected face: box, pose, luma of face and frame, sharpness. -/
structure Primary where
  bbox : BBox
  yaw : ℚ
  pitch : ℚ
  faceLum : ℚ
  frameLum : ℚ
  sharp : ℚ

/-- Inputs of the framing decision. A captured frame has a row and a column. -/
structure FramingInput where
  faceCount : Nat
  frameW : Nat
  frameH : Nat
  primary : Option Primary
  irPresent : Bool
  irSig : Option IrSignals
  lowLight : Bool
  frameW_pos : 0 < frameW
  frameH_pos : 0 < frameH

def lerp01 (v lo hi : ℚ) : ℚ := clamp 0 1 ((v - lo) / (hi - lo))

/-- `as u8`: truncation, saturating. -/
def toU8 (q : ℚ) : Nat := min ⌊q⌋.toNat 255

/-- The geometry and the light of the primary face in its frame. -/
structure Framing where
  faceFrac : ℚ
  offX : ℚ
  offY : ℚ
  backlit : Bool
  centered : Bool
  lit : Bool

def framing (input : FramingInput) (p : Primary) : Framing :=
  let offX := (p.bbox.x1 + p.bbox.x2) / 2 - input.frameW / 2
  let offY := (p.bbox.y1 + p.bbox.y2) / 2 - input.frameH / 2
  let backlit := decide (BACKLIT_DELTA ≤ p.frameLum - p.faceLum) &&
    decide (p.faceLum < BACKLIT_FACE_FLOOR)
  { faceFrac := max (p.bbox.x2 - p.bbox.x1) 0 / input.frameW
    offX := offX
    offY := offY
    backlit := backlit
    centered := decide (|offX| ≤ CENTER_TOL * input.frameW) &&
      decide (|offY| ≤ CENTER_TOL * input.frameH)
    lit := decide (DIM_GATE ≤ p.faceLum ∧ p.faceLum ≤ BRIGHT_GATE) && !backlit }

def guidance (input : FramingInput) (p : Primary) (f : Framing) : String :=
  if input.faceCount > 1 then "Multiple faces — only you should be in frame"
  else if f.faceFrac < MIN_FRAC then "Move closer"
  else if f.faceFrac > MAX_FRAC then "Move back a little"
  else if f.offY < -CENTER_TOL * input.frameH then "Move your head down"
  else if f.offY > CENTER_TOL * input.frameH then "Move your head up"
  else if f.offX > CENTER_TOL * input.frameW then "Move right"
  else if f.offX < -CENTER_TOL * input.frameW then "Move left"
  else if p.yaw > MAX_ANGLE_DEG then "Turn your head slightly left"
  else if p.yaw < -MAX_ANGLE_DEG then "Turn your head slightly right"
  else if p.pitch > MAX_ANGLE_DEG then "Lift your chin a little"
  else if p.pitch < -MAX_ANGLE_DEG then "Lower your chin a little"
  else if f.backlit then "Reduce backlighting — face a light source"
  else if p.faceLum < DIM_GATE then "More light on your face"
  else if p.faceLum > BRIGHT_GATE then "Too bright — reduce glare"
  else HOLD_STILL

/-- The flag that allows an automatic capture. -/
def wellFramed (input : FramingInput) (p : Primary) (f : Framing) : Bool :=
  input.faceCount == 1 && decide (MIN_FRAC ≤ f.faceFrac ∧ f.faceFrac ≤ MAX_FRAC) &&
    decide (|p.yaw| ≤ MAX_ANGLE_DEG) && decide (|p.pitch| ≤ MAX_ANGLE_DEG) && f.centered && f.lit

/-- Composite quality from size, centering, pose, light, sharpness and IR. -/
def quality (input : FramingInput) (p : Primary) (f : Framing) (irFaceBg : Option ℚ) : Nat :=
  let sizeScore :=
    if 22 / 100 ≤ f.faceFrac ∧ f.faceFrac ≤ 45 / 100 then 1
    else if f.faceFrac < 22 / 100 then lerp01 f.faceFrac MIN_FRAC (22 / 100)
    else 1 - lerp01 f.faceFrac (45 / 100) (70 / 100)
  let off := max (|f.offX| / (input.frameW / 2)) (|f.offY| / (input.frameH / 2))
  let centerScore := clamp 0 1 (1 - off)
  let poseScore := 1 - clamp 0 1 (max |p.yaw| |p.pitch| / 30)
  let lightScore :=
    if 90 ≤ p.faceLum ∧ p.faceLum ≤ 190 then 1
    else if p.faceLum < 90 then lerp01 p.faceLum 40 90
    else 1 - lerp01 p.faceLum 190 235
  let sharpScore := clamp 0 1 (p.sharp / 12)
  let irScore := irFaceBg.map fun r => lerp01 r 1 (15 / 10)
  toU8 (clamp 0 100 (roundHalfAway ((25 / 100 * sizeScore + 20 / 100 * centerScore +
    20 / 100 * poseScore + 15 / 100 * lightScore + 10 / 100 * sharpScore +
    10 / 100 * irScore.getD (1 / 2)) * 100)))

/-- `framing_guidance`. -/
def framingGuidance (input : FramingInput) : PositionReport :=
  let irBrightness := input.irSig.map (·.meanFace)
  let irFaceBg := input.irSig.map (·.faceBgRatio)
  match input.primary with
  | none =>
      { faceCount := 0, frameW := input.frameW, frameH := input.frameH, bbox := none,
        faceFrac := none, yawDeg := none, pitchDeg := none, brightness := none,
        sharpness := none, quality := 0, irPresent := input.irPresent,
        irBrightness := irBrightness, irFaceBg := irFaceBg, lowLight := false,
        wellFramed := false,
        guidance := "No face detected — center yourself in front of the camera" }
  | some p =>
      let f := framing input p
      -- the IR camera sees the face, but there is too little light to embed it
      if input.lowLight then
        { faceCount := 1, frameW := input.frameW, frameH := input.frameH,
          bbox := some (p.bbox.x1, p.bbox.y1, p.bbox.x2, p.bbox.y2),
          faceFrac := some f.faceFrac, yawDeg := some p.yaw, pitchDeg := some p.pitch,
          brightness := some p.faceLum, sharpness := some p.sharp,
          quality := (irFaceBg.map fun r => toU8 (lerp01 r 1 (16 / 10) * 60)).getD 30,
          irPresent := input.irPresent, irBrightness := irBrightness, irFaceBg := irFaceBg,
          lowLight := true, wellFramed := false,
          guidance := "Too dark to enroll — add light (IR can see you)" }
      else
        { faceCount := input.faceCount, frameW := input.frameW, frameH := input.frameH,
          bbox := some (p.bbox.x1, p.bbox.y1, p.bbox.x2, p.bbox.y2),
          faceFrac := some f.faceFrac, yawDeg := some p.yaw, pitchDeg := some p.pitch,
          brightness := some p.faceLum, sharpness := some p.sharp,
          quality := quality input p f irFaceBg, irPresent := input.irPresent,
          irBrightness := irBrightness, irFaceBg := irFaceBg, lowLight := false,
          wellFramed := wellFramed input p f, guidance := guidance input p f }

/-! ## The advice and the flag -/

/-- One link of a priority chain: another text comes out only if the condition fails. -/
theorem ite_eq_iff_of_ne {c : Prop} [Decidable c] {text rest goal : String} (h : text ≠ goal) :
    (if c then text else rest) = goal ↔ ¬ c ∧ rest = goal := by
  by_cases hc : c
  · simp [hc, h]
  · simp [hc]

private theorem guidance_eq_holdStill_iff {input : FramingInput} {p : Primary} {f : Framing} :
    guidance input p f = HOLD_STILL ↔
      input.faceCount ≤ 1 ∧ (MIN_FRAC ≤ f.faceFrac ∧ f.faceFrac ≤ MAX_FRAC) ∧
        |f.offY| ≤ CENTER_TOL * input.frameH ∧ |f.offX| ≤ CENTER_TOL * input.frameW ∧
        |p.yaw| ≤ MAX_ANGLE_DEG ∧ |p.pitch| ≤ MAX_ANGLE_DEG ∧ f.backlit = false ∧
        DIM_GATE ≤ p.faceLum ∧ p.faceLum ≤ BRIGHT_GATE := by
  unfold guidance
  iterate 14 rw [ite_eq_iff_of_ne (by decide)]
  simp only [abs_le, gt_iff_lt, not_lt, neg_mul, Bool.not_eq_true]
  tauto

/-- The advice is to hold still exactly when the flag is set. -/
theorem guidance_eq_holdStill_iff_wellFramed {input : FramingInput} {p : Primary}
    (hcount : 1 ≤ input.faceCount) :
    guidance input p (framing input p) = HOLD_STILL ↔
      wellFramed input p (framing input p) = true := by
  have hone : input.faceCount = 1 ↔ input.faceCount ≤ 1 := by omega
  rw [guidance_eq_holdStill_iff]
  dsimp only [wellFramed, framing]
  simp only [Bool.and_eq_true, beq_iff_eq, decide_eq_true_eq, hone, Bool.not_eq_true']
  tauto

/-! ## The gates of the evaluation -/

/-- What `evaluate` still does with a face that is frontal and near enough. -/
def evaluateFramed (pr : Process) (ev : LivenessEvaluator) (frame : Frame) (bbox : BBox)
    (lm : Landmarks) (cameraPath : String) (ir : Option GrayImage)
    (spoofProb temporalScore : Option ℚ) : Proc LivenessReport := do
  let dev ← validateCameraDevice cameraPath
  let signals := { LivenessSignals.empty with
    motionScore := temporalScore
    yawDeg := some (estimatePose lm).1
    pitchDeg := some (estimatePose lm).2
    deviceScore := dev.score
    deviceName := dev.name
    deviceDriver := dev.driver }
  if dev.score = 0 then
    return { decision := .spoof
             signals := signals
             reason := some ("virtual camera detected (driver=" ++ (match dev.driver with
               | some d => "Some(\"" ++ d ++ "\")"
               | none => "None") ++ ")") }
  let signals := { signals with faceFrac := some (faceFrac frame bbox) }
  match ir with
  | none =>
      if ev.config.requireIr then
        return { decision := .uncertain
                 signals := signals
                 reason :=
                   some "IR liveness required (LINHELLO_REQUIRE_IR) but no IR frame was available" }
      return decideFromScores pr ev.config signals spoofProb temporalScore
  | some irFrame =>
      let signals := signals.withIr (irEvaluate pr.fl irFrame bbox (frame.width, frame.height) lm)
      return decideFromScores pr ev.config signals spoofProb temporalScore

/-- The orientation exit and the exit for a small face are not taken. -/
theorem evaluate_eq_evaluateFramed {pr : Process} {ev : LivenessEvaluator} {frame : Frame}
    {bbox : BBox} {lm : Landmarks}
    (hfrontal : isFrontal (estimatePose lm).1 (estimatePose lm).2 MAX_ANGLE_DEG = true)
    (hnear : MIN_FACE_FRAC ≤ faceFrac frame bbox) (path : String) (ir : Option GrayImage)
    (spoofProb temporalScore : Option ℚ) :
    ev.evaluate pr frame bbox lm path ir spoofProb temporalScore =
      evaluateFramed pr ev frame bbox lm path ir spoofProb temporalScore := by
  have hsize : ¬ max (bbox.x2 - bbox.x1) 0 / (max frame.width 1 : Nat) < MIN_FACE_FRAC :=
    not_lt.2 hnear
  unfold LivenessEvaluator.evaluate evaluateFramed
  simp only [hfrontal, Bool.not_true, Bool.false_eq_true, if_false]
  congr 1
  funext dev
  by_cases hdev : dev.score = 0
  · exact (if_pos hdev).trans (if_pos hdev).symm
  · rw [if_neg hdev, if_neg hdev]
    cases ir with
    | none => rfl
    | some irFrame =>
        simp only [IrSignals.classify, hsize, if_false]
        rfl

/-- The advice is to hold still exactly when the flag is set, and a flag that is set
means that `evaluate` takes neither its orientation exit nor its exit for a small face
on the same frame, box and landmarks. -/
theorem framingGuidance_wellFramed (input : FramingInput) (p : Primary)
    (hprimary : input.primary = some p) (hcount : 1 ≤ input.faceCount)
    (hlight : input.lowLight = false) :
    ((framingGuidance input).guidance = HOLD_STILL ↔
      (framingGuidance input).wellFramed = true) ∧
    ((framingGuidance input).wellFramed = true →
      ∀ (frame : Frame) (lm : Landmarks), frame.width = input.frameW →
        estimatePose lm = (p.yaw, p.pitch) →
        isFrontal (estimatePose lm).1 (estimatePose lm).2 MAX_ANGLE_DEG = true ∧
        (∀ s : IrSignals, s.classify (faceFrac frame p.bbox) = .real) ∧
        ∀ (pr : Process) (ev : LivenessEvaluator) (path : String) (ir : Option GrayImage)
          (spoofProb temporalScore : Option ℚ),
          ev.evaluate pr frame p.bbox lm path ir spoofProb temporalScore =
            evaluateFramed pr ev frame p.bbox lm path ir spoofProb temporalScore) := by
  have hguidance : (framingGuidance input).guidance = guidance input p (framing input p) := by
    simp only [framingGuidance, hprimary, hlight, Bool.false_eq_true, if_false]
  have hflag : (framingGuidance input).wellFramed = wellFramed input p (framing input p) := by
    simp only [framingGuidance, hprimary, hlight, Bool.false_eq_true, if_false]
  rw [hguidance, hflag]
  refine ⟨guidance_eq_holdStill_iff_wellFramed hcount, ?_⟩
  intro hwell frame lm hwidth hpose
  unfold wellFramed at hwell
  simp only [Bool.and_eq_true, decide_eq_true_eq] at hwell
  obtain ⟨⟨⟨⟨⟨-, hsize⟩, hyaw⟩, hpitch⟩, -⟩, -⟩ := hwell
  have hfrontal : isFrontal (estimatePose lm).1 (estimatePose lm).2 MAX_ANGLE_DEG = true := by
    rw [hpose, isFrontal]
    simp only [hyaw, hpitch, decide_true, Bool.and_self]
  have hnear : MIN_FACE_FRAC ≤ faceFrac frame p.bbox := by
    have hpos := input.frameW_pos
    have hmax : max input.frameW 1 = input.frameW := by omega
    unfold faceFrac
    rw [hwidth, hmax]
    exact hsize.1
  refine ⟨hfrontal, ?_, fun pr ev => evaluate_eq_evaluateFramed hfrontal hnear⟩
  intro s
  exact if_neg (not_lt.2 hnear)

/-- A face of a third of the width, in the middle of a VGA frame. -/
def centeredInput : FramingInput where
  faceCount := 1
  frameW := 640
  frameH := 480
  primary := some ⟨⟨214, 134, 426, 346⟩, 0, 0, 120, 120, 10⟩
  irPresent := false
  irSig := none
  lowLight := false
  frameW_pos := by decide
  frameH_pos := by decide

theorem framingGuidance_wellFramed_centered :
    (framingGuidance centeredInput).guidance = HOLD_STILL ∧
      (framingGuidance centeredInput).wellFramed = true := by
  have hwell : (framingGuidance centeredInput).wellFramed = true := by decide +kernel
  exact ⟨(framingGuidance_wellFramed centeredInput _ rfl (by decide) rfl).1.2 hwell, hwell⟩

end Linhello.Biometrics
