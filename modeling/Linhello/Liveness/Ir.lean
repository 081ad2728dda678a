import Mathlib.Data.List.Sort
import Linhello.Liveness.Image
/-!
# Active-IR liveness

The IR statistics of a frame (`ir::evaluate`), the advisory verdict
(`ir::classify`), and the gate calibrated per user at enrollment
(`IrCalibration::gate`).
-/

namespace Linhello.Liveness

def MIN_FACE_FRAC : ℚ := 15 / 100

def MIN_FACE_BG_RATIO : ℚ := 12 / 10

def MIN_HIGHLIGHT_FRAC : ℚ := 8 / 100

structure IrSignals where
  meanFace : ℚ
  stdFace : ℚ
  highlightFrac : ℚ
  meanBg : ℚ
  faceBgRatio : ℚ
  eyeGlint : ℚ
  irScore : ℚ
  depthRatio : ℚ

/-- What the source returns when the face region holds no pixel. -/
def emptySignals : IrSignals where
  meanFace := 0
  stdFace := 0
  highlightFrac := 0
  meanBg := 0
  faceBgRatio := 0
  eyeGlint := 0
  irScore := 0
  depthRatio := 1

inductive IrVerdict
  | real
  | tooFar
  | reject (reason : String)
  deriving DecidableEq

/-- The verdict looks at the framing only; ratio and glints are advisory. -/
def IrSignals.classify (_s : IrSignals) (faceFrac : ℚ) : IrVerdict :=
  if faceFrac < MIN_FACE_FRAC then .tooFar else .real

/-- A cast to `i32`, and `i32` arithmetic in the release profile: wrapping. -/
def wrapI32 (n : Int) : Int := n.bmod (2 ^ 32)

/-- The pixels `x1..=x2`, `y1..=y2` of a frame. -/
def valuesIn (ir : GrayImage) (x1 y1 x2 y2 : Nat) : List Nat :=
  (box x1 y1 x2 y2).map fun (x, y) => (ir.getPixel x y).toNat

def glintOf (vs : List Nat) : ℚ :=
  if vs.length = 0 then 0
  else max ((vs.foldl max 0 : Nat) - (vs.sum : ℚ) / vs.length) 0

/-- Brightest pixel minus mean in the window of half-width `r` at `(cx, cy)`. -/
def eyeGlintAt (ir : GrayImage) (cx cy r : Int) : ℚ :=
  let w := wrapI32 ir.width
  let h := wrapI32 ir.height
  let x1 := (max (wrapI32 (cx - r)) 0).toNat
  let y1 := (max (wrapI32 (cy - r)) 0).toNat
  -- an empty range when the window ends before the frame starts
  let x2 := min (wrapI32 (cx + r)) (wrapI32 (w - 1))
  let y2 := min (wrapI32 (cy + r)) (wrapI32 (h - 1))
  glintOf (if x2 < 0 ∨ y2 < 0 then [] else valuesIn ir x1 y1 x2.toNat y2.toNat)

/-- The statistics of the values the loops have read: the frame's number of pixels
and their sum, the face box, and the centre of the face box. -/
def irStatistics (fl : FloatLib) (totalPx frameSum : Nat) (face center : List Nat)
    (eyeGlint : ℚ) : IrSignals :=
  let n := face.length
  let sum := face.sum
  let sumSq := (face.map fun v => v * v).sum
  let hi := face.countP fun v => 240 < v
  let mean : ℚ := sum / n
  let var := max ((sumSq : ℚ) / n - mean * mean) 0
  let hiFrac : ℚ := hi / n
  let bgN := totalPx - n
  let bgSum := frameSum - sum
  let meanBg : ℚ := if bgN > 0 then bgSum / bgN else 1
  let faceBgRatio := if meanBg > 1 then mean / meanBg else mean
  let ratioOk := min (faceBgRatio / MIN_FACE_BG_RATIO) 1
  let hiOk := min (hiFrac / MIN_HIGHLIGHT_FRAC) 1
  let irScore := min ratioOk (max hiOk (1 / 2))
  let cN := center.length
  let cSum := center.sum
  let edgeN := n - cN
  let edgeSum := sum - cSum
  let depthRatio : ℚ := if cN > 0 ∧ edgeN > 0 ∧ edgeSum > 0 then
    ((cSum : ℚ) / cN) / ((edgeSum : ℚ) / edgeN) else 1
  { meanFace := mean
    stdFace := fl.sqrt var
    highlightFrac := hiFrac
    meanBg := meanBg
    faceBgRatio := faceBgRatio
    eyeGlint := eyeGlint
    irScore := irScore
    depthRatio := depthRatio }

/-- A rectangle of pixels, both ends included. -/
structure Region where
  x1 : Nat
  y1 : Nat
  x2 : Nat
  y2 : Nat
  deriving DecidableEq

/-- The face region in the IR frame, mapped proportionally from the RGB frame. -/
def faceRegion (ir : GrayImage) (rgbBbox : BBox) (rgbSize : Nat × Nat) : Region :=
  let iw : ℚ := ir.width
  let ih : ℚ := ir.height
  let sx := iw / max (rgbSize.1 : ℚ) 1
  let sy := ih / max (rgbSize.2 : ℚ) 1
  let xa := toU32 (clamp 0 (iw - 1) (rgbBbox.x1 * sx))
  let ya := toU32 (clamp 0 (ih - 1) (rgbBbox.y1 * sy))
  let xb := toU32 (clamp 0 (iw - 1) (rgbBbox.x2 * sx))
  let yb := toU32 (clamp 0 (ih - 1) (rgbBbox.y2 * sy))
  { x1 := min xa xb
    y1 := min ya yb
    x2 := min (max (max xa xb) (xa + 1)) (ir.width - 1)
    y2 := min (max (max ya yb) (ya + 1)) (ir.height - 1) }

/-- The inner half of a region, when it has one. -/
def Region.center (f : Region) : Option Region :=
  let cw := (f.x2 - f.x1) / 4
  let ch := (f.y2 - f.y1) / 4
  if f.x2 - cw > f.x1 + cw ∧ f.y2 - ch > f.y1 + ch then
    some { x1 := f.x1 + cw, y1 := f.y1 + ch, x2 := f.x2 - cw, y2 := f.y2 - ch }
  else none

def Region.values (f : Region) (ir : GrayImage) : List Nat := valuesIn ir f.x1 f.y1 f.x2 f.y2

def Region.centerValues (f : Region) (ir : GrayImage) : List Nat :=
  match f.center with
  | some c => c.values ir
  | none => []

/-- The weaker of the two glints, in windows of an eighth of the face width. -/
def eyeGlintIn (ir : GrayImage) (f : Region) (rgbSize : Nat × Nat) (lm : Landmarks) : ℚ :=
  let sx := (ir.width : ℚ) / max (rgbSize.1 : ℚ) 1
  let sy := (ir.height : ℚ) / max (rgbSize.2 : ℚ) 1
  let glintR : Int := max 8 (min 28 ((wrapI32 (f.x2 - f.x1 : Nat)).tdiv 8))
  let eyePx := fun (p : Point) => (toI32 (p.x * sx), toI32 (p.y * sy))
  let l := eyePx lm.leftEye
  let r := eyePx lm.rightEye
  min (eyeGlintAt ir l.1 l.2 glintR) (eyeGlintAt ir r.1 r.2 glintR)

/-- IR statistics of the face region of a frame. -/
def irEvaluate (fl : FloatLib) (ir : GrayImage) (rgbBbox : BBox) (rgbSize : Nat × Nat)
    (lm : Landmarks) : IrSignals :=
  let f := faceRegion ir rgbBbox rgbSize
  let face := f.values ir
  if face.length = 0 then emptySignals
  else
    irStatistics fl (ir.width * ir.height) (ir.pixels.map UInt8.toNat).sum face
      (f.centerValues ir) (eyeGlintIn ir f rgbSize lm)

/-! ## The calibrated gate -/

/-- The IR cues kept from one capture. -/
structure IrObservation where
  faceBgRatio : ℚ
  eyeGlint : ℚ
  irScore : ℚ
  depthRatio : ℚ
  faceFrac : ℚ
  deriving DecidableEq

/-- A user's IR envelope, accumulated over enrollment captures. -/
structure IrCalibration where
  observations : List IrObservation
  deriving DecidableEq

inductive IrGate
  | pass
  | reject (reason : String)
  | notCalibrated
  deriving DecidableEq

def MIN_CALIBRATION_OBSERVATIONS : Nat := 3

def DEPTH_MIN_REF : ℚ := 11 / 10

/-- A margin from the environment: finite, positive and at most 1, else the default. -/
def envMargin (fl : FloatLib) (env : String → Option String) (var : String) (dflt : ℚ) : ℚ :=
  (((env var).bind fun s => fl.parseFinite (Common.trim s)).filter
    fun v => 0 < v ∧ v ≤ 1).getD dflt

namespace IrCalibration

def default : IrCalibration := ⟨[]⟩

def isReady (c : IrCalibration) : Bool := MIN_CALIBRATION_OBSERVATIONS ≤ c.observations.length

def push (c : IrCalibration) (o : IrObservation) : IrCalibration :=
  ⟨c.observations ++ [o]⟩

/-- About the 20th percentile of a cue. -/
def robustLow (vals : List ℚ) : ℚ :=
  let vals := vals.insertionSort (· ≤ ·)
  if vals = [] then 0
  else
    let idx := min ⌊(vals.length : ℚ) * (2 / 10)⌋.toNat (vals.length - 1)
    vals.getD idx 0

/-- Gate a live observation against the enrolled envelope. -/
def gate (fl : FloatLib) (env : String → Option String) (c : IrCalibration)
    (live : IrObservation) : IrGate :=
  if !c.isReady then .notCalibrated
  else
    let ratioRef := robustLow (c.observations.map (·.faceBgRatio))
    let glintRef := robustLow (c.observations.map (·.eyeGlint))
    let ratioThr := ratioRef * envMargin fl env "LINHELLO_IR_RATIO_MARGIN" (8 / 10)
    let glintThr := glintRef * envMargin fl env "LINHELLO_IR_GLINT_MARGIN" (5 / 10)
    let ratioUsable := decide (0 < ratioRef)
    let glintUsable := decide (0 < glintRef)
    let rgUsable := ratioUsable.toNat + glintUsable.toNat
    let rgAbsent := (ratioUsable && decide (live.faceBgRatio < ratioThr)).toNat +
      (glintUsable && decide (live.eyeGlint < glintThr)).toNat
    let brightnessSpoof := decide (0 < rgUsable) && rgAbsent == rgUsable
    let depthRef := robustLow (c.observations.map (·.depthRatio))
    let depthThr := depthRef * envMargin fl env "LINHELLO_IR_DEPTH_MARGIN" (85 / 100)
    let depthSpoof := decide (DEPTH_MIN_REF < depthRef) && decide (live.depthRatio < depthThr)
    if brightnessSpoof then
      .reject ("active-IR liveness below your enrolled profile (face/bg " ++
        fl.fixed 2 live.faceBgRatio ++ " < " ++ fl.fixed 2 ratioThr ++ ", eye-glint " ++
        fl.fixed 0 live.eyeGlint ++ " < " ++ fl.fixed 0 glintThr ++
        ") — looks like a flat photo, not a live face")
    else if depthSpoof then
      .reject ("no facial depth under the IR emitter (center/edge " ++
        fl.fixed 2 live.depthRatio ++ " < " ++ fl.fixed 2 depthThr ++
        ") — looks like a flat photo or screen, not a 3-D face")
    else .pass

/-- The gate abstains exactly on a calibration that is not ready. -/
theorem gate_eq_notCalibrated_iff {fl : FloatLib} {env : String → Option String}
    {c : IrCalibration} {live : IrObservation} :
    c.gate fl env live = .notCalibrated ↔ c.observations.length < MIN_CALIBRATION_OBSERVATIONS := by
  have hready : c.isReady = false ↔ c.observations.length < MIN_CALIBRATION_OBSERVATIONS := by
    simp [isReady]
  rw [← hready]
  constructor
  · intro h
    by_contra hne
    simp only [gate, Bool.eq_true_of_not_eq_false hne, Bool.not_true, Bool.false_eq_true,
      if_false] at h
    split at h
    · cases h
    · split at h <;> cases h
  · intro h
    simp [gate, h]

end IrCalibration

end Linhello.Liveness
