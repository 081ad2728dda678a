import Linhello.Liveness.Image
/-!
# Signals from the face landmarks

Head orientation (`orientation.rs`) with its frontal gate, and the experimental
eye-motion score over a burst (`temporal.rs`).
-/

namespace Linhello.Liveness

/-! ## Head orientation -/

def MAX_ANGLE_DEG : ℚ := 18

/-- Approximate `(yaw, pitch)` in degrees. -/
def estimatePose (lm : Landmarks) : ℚ × ℚ :=
  let dLeft := |lm.nose.x - lm.leftEye.x|
  let dRight := |lm.rightEye.x - lm.nose.x|
  let denomYaw := dLeft + dRight
  let yawRatio := if denomYaw > 1 then (dRight - dLeft) / denomYaw else 0
  let eyeCy := (lm.leftEye.y + lm.rightEye.y) / 2
  let mouthCy := (lm.leftMouth.y + lm.rightMouth.y) / 2
  let noseToEyes := lm.nose.y - eyeCy
  let noseToMouth := mouthCy - lm.nose.y
  let denomPitch := max (|noseToEyes| + |noseToMouth|) 1
  let pitchRatio := (noseToEyes - noseToMouth) / denomPitch
  (yawRatio * 60, pitchRatio * 60)

def isFrontal (yawDeg pitchDeg maxDeg : ℚ) : Bool :=
  |yawDeg| ≤ maxDeg && |pitchDeg| ≤ maxDeg

/-! ## Eye motion across a burst -/

/-- Side length of the normalized grayscale eye patch. -/
def PATCH : Nat := 16

def EYE_WIN_FRAC : ℚ := 3 / 10

def MIN_WIN_PX : ℚ := 6

/-- Landmark-aligned grayscale patches of both eyes, row by row. -/
structure EyeFrame where
  left : List Nat
  right : List Nat

/-- `f32::round`: half away from zero. -/
def roundHalfAway (q : ℚ) : Int := if 0 ≤ q then ⌊q + 1 / 2⌋ else ⌈q - 1 / 2⌉

/-- Nearest-neighbour sampling of the `2r × 2r` box centred on `c`; samples
outside the frame read 0. -/
def extractPatch (frame : Frame) (c : Point) (r : ℚ) : List Nat :=
  let x0 := roundHalfAway (c.x - r)
  let y0 := roundHalfAway (c.y - r)
  let side := max (2 * r) 1
  (List.range PATCH).flatMap fun py =>
    (List.range PATCH).map fun px =>
      let sx := x0 + toI32 (px * side / PATCH)
      let sy := y0 + toI32 (py * side / PATCH)
      if 0 ≤ sx ∧ 0 ≤ sy ∧ sx < frame.width ∧ sy < frame.height then
        let p := frame.getPixel sx.toNat sy.toNat
        (p.r.toNat * 30 + p.g.toNat * 59 + p.b.toNat * 11) / 100
      else 0

def eyeFrame (fl : FloatLib) (frame : Frame) (lm : Landmarks) : EyeFrame :=
  let dx := lm.rightEye.x - lm.leftEye.x
  let dy := lm.rightEye.y - lm.leftEye.y
  let iod := fl.sqrt (dx * dx + dy * dy)
  let r := max (iod * EYE_WIN_FRAC) MIN_WIN_PX
  { left := extractPatch frame lm.leftEye r, right := extractPatch frame lm.rightEye r }

/-- Mean-subtracted L1 distance between two patches. -/
def patchDiff (a b : List Nat) : ℚ :=
  let n : ℚ := a.length
  let ma := (a.map fun v => (v : ℚ)).sum / n
  let mb := (b.map fun v => (v : ℚ)).sum / n
  (List.zipWith (fun u v => |((u : ℚ) - ma) - ((v : ℚ) - mb)|) a b).sum / n

/-- Mean consecutive-frame patch difference, the larger of the two eyes; `none`
when fewer than two frames had a face. -/
def motionScore (seq : List EyeFrame) : Option ℚ :=
  if seq.length < 2 then none
  else
    let pairs := seq.zip seq.tail
    let left := (pairs.map fun (a, b) => patchDiff a.left b.left).sum
    let right := (pairs.map fun (a, b) => patchDiff a.right b.right).sum
    let n : ℚ := (seq.length - 1 : Nat)
    some (max (left / n) (right / n))

end Linhello.Liveness
