import Mathlib.Data.Int.Log
import Mathlib.Tactic.NormNum
import Linhello.Liveness.Ir
/-!
# IR statistics in single precision

`irEvaluate` with every operation of the source rounded. Exact arithmetic is the case
in which rounding changes nothing; `roundF32` is that of `f32`.
-/

namespace Linhello.Liveness

/-! ## Rounding to nearest, ties to even -/

/-- The nearest integer, and of two the even one. -/
def roundEven (q : ℚ) : ℤ :=
  let k := ⌊q⌋
  if q - k < 1 / 2 then k
  else if 1 / 2 < q - k then k + 1
  else k + k % 2

theorem roundEven_intCast (n : ℤ) : roundEven n = n := by
  simp [roundEven]

/-- Rounding to `p` significant bits, for numbers that neither overflow nor underflow. -/
def roundBits (p : Nat) (q : ℚ) : ℚ :=
  let ulp : ℚ := 2 ^ (Int.log 2 |q| + 1 - p)
  roundEven (q / ulp) * ulp

def roundF32 : ℚ → ℚ := roundBits 24

/-- An integer of at most `p` bits is left alone. -/
theorem roundBits_natCast {p n : Nat} (hp : 0 < p) (h : n < 2 ^ p) : roundBits p n = n := by
  have hlog : Int.log 2 |(n : ℚ)| + 1 ≤ p := by
    rw [Nat.abs_cast, Int.log_natCast]
    rcases Nat.eq_zero_or_pos n with rfl | hn
    · rw [Nat.log_zero_right]
      omega
    · have := Nat.log_lt_of_lt_pow (b := 2) (by omega) h
      omega
  obtain ⟨k, hk⟩ := Int.le.dest hlog
  have hulp : (2 : ℚ) ^ (Int.log 2 |(n : ℚ)| + 1 - p) = ((2 : ℚ) ^ k)⁻¹ := by
    rw [← zpow_natCast, ← zpow_neg]
    congr 1
    omega
  have hscaled : (n : ℚ) / ((2 : ℚ) ^ k)⁻¹ = ((n * 2 ^ k : ℤ) : ℚ) := by
    push_cast
    rw [div_inv_eq_mul]
  have hpow : (2 : ℚ) ^ k ≠ 0 := pow_ne_zero _ two_ne_zero
  simp only [roundBits]
  rw [hulp, hscaled, roundEven_intCast]
  push_cast
  rw [mul_assoc, mul_inv_cancel₀ hpow, mul_one]

example : roundF32 (255 / roundF32 (roundF32 78334980 / roundF32 307196)) = 1 + 1 / 2 ^ 23 := by
  decide +kernel

/-! ## The evaluation -/

variable (rnd : ℚ → ℚ)

/-- `glintOf`, rounded. -/
def glintOfIn (vs : List Nat) : ℚ :=
  if vs.length = 0 then 0
  else max (rnd (rnd (vs.foldl max 0 : Nat) - rnd (rnd vs.sum / rnd vs.length))) 0

/-- `eyeGlintAt`, rounded. -/
def eyeGlintAtIn (ir : GrayImage) (cx cy r : Int) : ℚ :=
  let w := wrapI32 ir.width
  let h := wrapI32 ir.height
  let x1 := (max (wrapI32 (cx - r)) 0).toNat
  let y1 := (max (wrapI32 (cy - r)) 0).toNat
  let x2 := min (wrapI32 (cx + r)) (wrapI32 (w - 1))
  let y2 := min (wrapI32 (cy + r)) (wrapI32 (h - 1))
  glintOfIn rnd (if x2 < 0 ∨ y2 < 0 then [] else valuesIn ir x1 y1 x2.toNat y2.toNat)

/-- `irStatistics`, rounded. -/
def irStatisticsIn (fl : FloatLib) (totalPx frameSum : Nat) (face center : List Nat)
    (eyeGlint : ℚ) : IrSignals :=
  let n := face.length
  let sum := face.sum
  let sumSq := (face.map fun v => v * v).sum
  let hi := face.countP fun v => 240 < v
  let mean : ℚ := rnd (rnd sum / rnd n)
  let var := max (rnd (rnd (rnd sumSq / rnd n) - rnd (mean * mean))) 0
  let hiFrac : ℚ := rnd (rnd hi / rnd n)
  let bgN := totalPx - n
  let bgSum := frameSum - sum
  let meanBg : ℚ := if bgN > 0 then rnd (rnd bgSum / rnd bgN) else 1
  let faceBgRatio := if meanBg > 1 then rnd (mean / meanBg) else mean
  let ratioOk := min (rnd (faceBgRatio / rnd MIN_FACE_BG_RATIO)) 1
  let hiOk := min (rnd (hiFrac / rnd MIN_HIGHLIGHT_FRAC)) 1
  let irScore := min ratioOk (max hiOk (1 / 2))
  let cN := center.length
  let cSum := center.sum
  let edgeN := n - cN
  let edgeSum := sum - cSum
  let depthRatio : ℚ := if cN > 0 ∧ edgeN > 0 ∧ edgeSum > 0 then
    rnd (rnd (rnd cSum / rnd cN) / rnd (rnd edgeSum / rnd edgeN)) else 1
  { meanFace := mean
    stdFace := rnd (fl.sqrt var)
    highlightFrac := hiFrac
    meanBg := meanBg
    faceBgRatio := faceBgRatio
    eyeGlint := eyeGlint
    irScore := irScore
    depthRatio := depthRatio }

/-- `faceRegion`, rounded. -/
def faceRegionIn (ir : GrayImage) (rgbBbox : BBox) (rgbSize : Nat × Nat) : Region :=
  let iw : ℚ := rnd ir.width
  let ih : ℚ := rnd ir.height
  let sx := rnd (iw / max (rnd rgbSize.1) 1)
  let sy := rnd (ih / max (rnd rgbSize.2) 1)
  let xa := toU32 (clamp 0 (rnd (iw - 1)) (rnd (rgbBbox.x1 * sx)))
  let ya := toU32 (clamp 0 (rnd (ih - 1)) (rnd (rgbBbox.y1 * sy)))
  let xb := toU32 (clamp 0 (rnd (iw - 1)) (rnd (rgbBbox.x2 * sx)))
  let yb := toU32 (clamp 0 (rnd (ih - 1)) (rnd (rgbBbox.y2 * sy)))
  { x1 := min xa xb
    y1 := min ya yb
    x2 := min (max (max xa xb) (xa + 1)) (ir.width - 1)
    y2 := min (max (max ya yb) (ya + 1)) (ir.height - 1) }

/-- `eyeGlintIn`, rounded. -/
def eyeGlintInIn (ir : GrayImage) (f : Region) (rgbSize : Nat × Nat) (lm : Landmarks) : ℚ :=
  let sx := rnd (rnd ir.width / max (rnd rgbSize.1) 1)
  let sy := rnd (rnd ir.height / max (rnd rgbSize.2) 1)
  let glintR : Int := max 8 (min 28 ((wrapI32 (f.x2 - f.x1 : Nat)).tdiv 8))
  let eyePx := fun (p : Point) => (toI32 (rnd (p.x * sx)), toI32 (rnd (p.y * sy)))
  let l := eyePx lm.leftEye
  let r := eyePx lm.rightEye
  min (eyeGlintAtIn rnd ir l.1 l.2 glintR) (eyeGlintAtIn rnd ir r.1 r.2 glintR)

/-- IR statistics of the face region of a frame, each operation rounded. -/
def irEvaluateIn (fl : FloatLib) (ir : GrayImage) (rgbBbox : BBox) (rgbSize : Nat × Nat)
    (lm : Landmarks) : IrSignals :=
  let f := faceRegionIn rnd ir rgbBbox rgbSize
  let face := f.values ir
  if face.length = 0 then emptySignals
  else
    irStatisticsIn rnd fl (ir.width * ir.height) (ir.pixels.map UInt8.toNat).sum face
      (f.centerValues ir) (eyeGlintInIn rnd ir f rgbSize lm)

theorem irEvaluateIn_id (fl : FloatLib) (ir : GrayImage) (bbox : BBox) (rgbSize : Nat × Nat)
    (lm : Landmarks) :
    irEvaluateIn id fl ir bbox rgbSize lm = irEvaluate fl ir bbox rgbSize lm := by
  have hregion : faceRegionIn id ir bbox rgbSize = faceRegion ir bbox rgbSize := by
    simp only [faceRegionIn, faceRegion, id]
  have hglintOf : ∀ vs, glintOfIn id vs = glintOf vs := fun vs => by
    simp only [glintOfIn, glintOf, id]
  have hglintAt : ∀ cx cy r, eyeGlintAtIn id ir cx cy r = eyeGlintAt ir cx cy r := fun cx cy r => by
    simp only [eyeGlintAtIn, eyeGlintAt, hglintOf]
  have hglint : ∀ f, eyeGlintInIn id ir f rgbSize lm = eyeGlintIn ir f rgbSize lm := fun f => by
    simp only [eyeGlintInIn, eyeGlintIn, hglintAt, id]
  have hstatistics : ∀ totalPx frameSum face center eyeGlint,
      irStatisticsIn id fl totalPx frameSum face center eyeGlint =
        irStatistics fl totalPx frameSum face center eyeGlint := fun _ _ _ _ _ => by
    simp only [irStatisticsIn, irStatistics, id]
  simp only [irEvaluateIn, irEvaluate, hregion, hglint, hstatistics]

end Linhello.Liveness
