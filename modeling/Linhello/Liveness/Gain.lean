import Mathlib.Algebra.BigOperators.Ring.List
import Linhello.Liveness.Envelope
import Linhello.Liveness.Evaluator
/-!
# Exposure

What an exposure gain does to the cues of the calibrated gate. The two ratios of means
do not move; the glint, a difference of a maximum and a mean, grows with the gain.
-/

namespace Linhello.Liveness

/-! ## A frame with a gain -/

/-- Every pixel multiplied by `k`. -/
def Image.gain (ir : GrayImage) (k : Nat) : GrayImage where
  width := ir.width
  height := ir.height
  pixels := ir.pixels.map fun p => UInt8.ofNat (k * p.toNat)
  size_eq := by rw [List.length_map, ir.size_eq]

def Image.Unsaturated (ir : GrayImage) (k : Nat) : Prop := ∀ p ∈ ir.pixels, k * p.toNat ≤ 255

section Values

variable {ir : GrayImage} {k : Nat} (hk : ir.Unsaturated k)

include hk

private theorem getPixel_gain (x y : Nat) :
    ((ir.gain k).getPixel x y).toNat = k * (ir.getPixel x y).toNat := by
  by_cases hin : x < ir.width ∧ y < ir.height
  · have hin' : x < (ir.gain k).width ∧ y < (ir.gain k).height := hin
    have hrow : (ir.gain k).width = ir.width := rfl
    rw [Image.getPixel, if_pos hin', Image.getPixel, if_pos hin, hrow]
    simp only [Image.gain, List.getD_eq_getElem?_getD, List.getElem?_map]
    cases hp : ir.pixels[y * ir.width + x]? with
    | none => rfl
    | some p =>
        have hle := hk p (List.mem_of_getElem? hp)
        simp only [Option.map_some, Option.getD_some]
        rw [UInt8.toNat_ofNat']
        omega
  · have hin' : ¬ (x < (ir.gain k).width ∧ y < (ir.gain k).height) := hin
    rw [Image.getPixel, if_neg hin', Image.getPixel, if_neg hin]
    rfl

theorem valuesIn_gain (x1 y1 x2 y2 : Nat) :
    valuesIn (ir.gain k) x1 y1 x2 y2 = (valuesIn ir x1 y1 x2 y2).map (k * ·) := by
  unfold valuesIn
  rw [List.map_map]
  apply List.map_congr_left
  intro p _
  exact getPixel_gain hk p.1 p.2

theorem frameSum_gain :
    ((ir.gain k).pixels.map UInt8.toNat).sum = k * (ir.pixels.map UInt8.toNat).sum := by
  have hmap : (ir.gain k).pixels.map UInt8.toNat = (ir.pixels.map UInt8.toNat).map (k * ·) := by
    simp only [Image.gain, List.map_map]
    apply List.map_congr_left
    intro p hp
    have hle := hk p hp
    simp only [Function.comp_apply]
    rw [UInt8.toNat_ofNat']
    omega
  rw [hmap, List.sum_map_mul_left, List.map_id']

end Values

/-! ## The cues -/

theorem sum_map_mul (k : Nat) (vs : List Nat) : (vs.map (k * ·)).sum = k * vs.sum := by
  rw [List.sum_map_mul_left, List.map_id']

private theorem foldl_max_map_mul (k : Nat) (vs : List Nat) (m : Nat) :
    (vs.map (k * ·)).foldl max (k * m) = k * vs.foldl max m := by
  induction vs generalizing m with
  | nil => rfl
  | cons v vs ih =>
      rw [List.map_cons, List.foldl_cons, List.foldl_cons, ← ih, Nat.mul_max_mul_left]

theorem glintOf_gain (k : Nat) (vs : List Nat) : glintOf (vs.map (k * ·)) = k * glintOf vs := by
  have hmax : (vs.map (k * ·)).foldl max 0 = k * vs.foldl max 0 := foldl_max_map_mul k vs 0
  unfold glintOf
  rw [List.length_map, sum_map_mul, hmax]
  by_cases hlen : vs.length = 0
  · rw [if_pos hlen, if_pos hlen, mul_zero]
  · rw [if_neg hlen, if_neg hlen, mul_max_of_nonneg _ _ (Nat.cast_nonneg k), mul_zero]
    push_cast
    ring_nf

theorem glintOf_nonneg (vs : List Nat) : 0 ≤ glintOf vs := by
  unfold glintOf
  split
  · exact le_rfl
  · exact le_max_right _ _

theorem eyeGlintAt_gain {ir : GrayImage} {k : Nat} (hk : ir.Unsaturated k) (cx cy r : Int) :
    eyeGlintAt (ir.gain k) cx cy r = k * eyeGlintAt ir cx cy r := by
  have hwidth : (ir.gain k).width = ir.width := rfl
  have hheight : (ir.gain k).height = ir.height := rfl
  unfold eyeGlintAt
  simp only [valuesIn_gain hk, hwidth, hheight]
  rw [← glintOf_gain, apply_ite (List.map (k * ·)), List.map_nil]

/-- Ratios of means are not moved by a gain, where the background is not dark. -/
theorem irStatistics_gain {fl : FloatLib} {totalPx frameSum k : Nat} {face center : List Nat}
    {eyeGlint : ℚ} (eyeGlint' : ℚ) (hk : 1 ≤ k)
    (hbg : 1 < (irStatistics fl totalPx frameSum face center eyeGlint).meanBg) :
    (irStatistics fl totalPx (k * frameSum) (face.map (k * ·)) (center.map (k * ·))
        eyeGlint').faceBgRatio =
        (irStatistics fl totalPx frameSum face center eyeGlint).faceBgRatio ∧
      (irStatistics fl totalPx (k * frameSum) (face.map (k * ·)) (center.map (k * ·))
        eyeGlint').depthRatio =
        (irStatistics fl totalPx frameSum face center eyeGlint).depthRatio ∧
      (irStatistics fl totalPx (k * frameSum) (face.map (k * ·)) (center.map (k * ·))
        eyeGlint').meanBg =
        k * (irStatistics fl totalPx frameSum face center eyeGlint).meanBg := by
  have hk' : (k : ℚ) ≠ 0 := by
    have : k ≠ 0 := by omega
    exact_mod_cast this
  have hone : (1 : ℚ) ≤ k := by exact_mod_cast hk
  have hmean : ∀ a n : Nat, ((k * a : Nat) : ℚ) / n = k * ((a : ℚ) / n) := by
    intro a n
    rw [Nat.cast_mul, mul_div_assoc]
  simp only [irStatistics] at hbg
  have hbgN : totalPx - face.length > 0 := by
    by_contra hzero
    rw [if_neg hzero] at hbg
    exact lt_irrefl _ hbg
  rw [if_pos hbgN] at hbg
  have hbg' :
      (1 : ℚ) < k * (((frameSum - face.sum : Nat) : ℚ) / (totalPx - face.length : Nat)) := by
    nlinarith
  have hedge : k * (face.sum - center.sum) > 0 ↔ face.sum - center.sum > 0 := by
    constructor
    · intro h
      exact Nat.pos_of_mul_pos_left h
    · intro h
      exact Nat.mul_pos (by omega) h
  simp only [irStatistics, List.length_map, sum_map_mul, ← Nat.mul_sub, if_pos hbgN, hmean,
    gt_iff_lt, if_pos hbg, if_pos hbg', and_true]
  refine ⟨mul_div_mul_left _ _ hk', ?_⟩
  simp only [gt_iff_lt] at hedge
  simp only [hedge, mul_div_mul_left _ _ hk']

theorem eyeGlintIn_gain {ir : GrayImage} {k : Nat} (hk : ir.Unsaturated k) (f : Region)
    (rgbSize : Nat × Nat) (lm : Landmarks) :
    eyeGlintIn (ir.gain k) f rgbSize lm = k * eyeGlintIn ir f rgbSize lm := by
  have hwidth : (ir.gain k).width = ir.width := rfl
  have hheight : (ir.gain k).height = ir.height := rfl
  unfold eyeGlintIn
  simp only [eyeGlintAt_gain hk, hwidth, hheight]
  rw [mul_min_of_nonneg _ _ (Nat.cast_nonneg k)]

private theorem eyeGlintIn_nonneg (ir : GrayImage) (f : Region) (rgbSize : Nat × Nat)
    (lm : Landmarks) :
    0 ≤ eyeGlintIn ir f rgbSize lm :=
  le_min (glintOf_nonneg _) (glintOf_nonneg _)

/-- A gain keeps the two ratios of an evaluation and multiplies its glint. -/
theorem irEvaluate_gain (fl : FloatLib) {ir : GrayImage} {bbox : BBox} {rgbSize : Nat × Nat}
    {lm : Landmarks} {k : Nat} (hk : 1 ≤ k) (hsat : ir.Unsaturated k)
    (hbg : 1 < (irEvaluate fl ir bbox rgbSize lm).meanBg) :
    (irEvaluate fl (ir.gain k) bbox rgbSize lm).faceBgRatio =
        (irEvaluate fl ir bbox rgbSize lm).faceBgRatio ∧
      (irEvaluate fl (ir.gain k) bbox rgbSize lm).depthRatio =
        (irEvaluate fl ir bbox rgbSize lm).depthRatio ∧
      (irEvaluate fl (ir.gain k) bbox rgbSize lm).eyeGlint =
        k * (irEvaluate fl ir bbox rgbSize lm).eyeGlint ∧
      (irEvaluate fl (ir.gain k) bbox rgbSize lm).meanBg =
        k * (irEvaluate fl ir bbox rgbSize lm).meanBg ∧
      0 ≤ (irEvaluate fl ir bbox rgbSize lm).eyeGlint := by
  have hregion : faceRegion (ir.gain k) bbox rgbSize = faceRegion ir bbox rgbSize := rfl
  have harea : (ir.gain k).width * (ir.gain k).height = ir.width * ir.height := rfl
  have hvalues : ∀ r : Region, r.values (ir.gain k) = (r.values ir).map (k * ·) := fun r =>
    valuesIn_gain hsat _ _ _ _
  have hcenter : ∀ r : Region, r.centerValues (ir.gain k) = (r.centerValues ir).map (k * ·) := by
    intro r
    unfold Region.centerValues
    cases r.center with
    | none => rfl
    | some c => exact hvalues c
  by_cases hface : ((faceRegion ir bbox rgbSize).values ir).length = 0
  · -- no pixel was read, and the background mean is 0
    unfold irEvaluate at hbg
    simp only [if_pos hface, emptySignals] at hbg
    norm_num at hbg
  · have hface' : ¬ ((faceRegion ir bbox rgbSize).values (ir.gain k)).length = 0 := by
      rwa [hvalues, List.length_map]
    unfold irEvaluate at hbg ⊢
    simp only [hregion, if_neg hface, if_neg hface', harea, hcenter, frameSum_gain hsat,
      eyeGlintIn_gain hsat] at hbg ⊢
    rw [hvalues]
    obtain ⟨hratio, hdepth, hmeanBg⟩ := irStatistics_gain
      (k * eyeGlintIn ir (faceRegion ir bbox rgbSize) rgbSize lm) hk hbg
    exact ⟨hratio, hdepth, rfl, hmeanBg, eyeGlintIn_nonneg _ _ _ _⟩

/-! ## The verdict -/

def IrSignals.observation (s : IrSignals) (faceFrac : ℚ) : IrObservation where
  faceBgRatio := s.faceBgRatio
  eyeGlint := s.eyeGlint
  irScore := s.irScore
  depthRatio := s.depthRatio
  faceFrac := faceFrac

namespace IrCalibration

/-- What keeps the verdict out of the reach of a gain `k`: the capture is flat, the
glint has no reference, the ratio is enough, or the glint is on the same side of its
threshold before and after. -/
def Steady (fl : FloatLib) (env : String → Option String) (c : IrCalibration)
    (o : IrObservation) (k : Nat) : Prop :=
  c.Flat fl env o ∨ c.reference (·.eyeGlint) ≤ 0 ∨
    (0 < c.reference (·.faceBgRatio) ∧
      c.reference (·.faceBgRatio) * ratioMargin fl env ≤ o.faceBgRatio) ∨
    c.reference (·.eyeGlint) * glintMargin fl env ≤ o.eyeGlint ∨
    k * o.eyeGlint < c.reference (·.eyeGlint) * glintMargin fl env

/-- For observations that agree in the two ratios, and whose glints differ by the gain,
the verdict is the same exactly when the capture is steady. -/
theorem gate_iff_of_glint {fl : FloatLib} {env : String → Option String} {c : IrCalibration}
    {o o' : IrObservation} {k : Nat} (hready : c.isReady = true) (hk : 1 ≤ k)
    (hratio : o'.faceBgRatio = o.faceBgRatio) (hdepth : o'.depthRatio = o.depthRatio)
    (hglint : o'.eyeGlint = k * o.eyeGlint) (hnonneg : 0 ≤ o.eyeGlint) :
    (c.gate fl env o' = .pass ↔ c.gate fl env o = .pass) ↔ c.Steady fl env o k := by
  have hone : (1 : ℚ) ≤ k := by exact_mod_cast hk
  have hgrow : o.eyeGlint ≤ o'.eyeGlint := by
    rw [hglint]
    nlinarith
  have hflat : c.Flat fl env o' ↔ c.Flat fl env o :=
    ⟨fun h => h.of_le hdepth.ge, fun h => h.of_le hdepth.le⟩
  have hdim : c.Dim fl env o' → c.Dim fl env o := fun h => h.of_le hratio.ge hgrow
  rw [gate_eq_pass_iff hready, gate_eq_pass_iff hready, hflat]
  unfold Steady
  by_cases hf : c.Flat fl env o
  · exact iff_of_true (by tauto) (.inl hf)
  · constructor
    · intro hsame
      by_contra hnot
      simp only [not_or, not_and, not_le, not_lt] at hnot
      obtain ⟨-, href, hweak, hlow, hhigh⟩ := hnot
      have hbefore : c.Dim fl env o := ⟨.inr href, hweak, fun _ => hlow⟩
      have hafter : ¬ c.Dim fl env o' := by
        intro h
        have := h.glint href
        rw [hglint] at this
        exact absurd this (not_lt.2 hhigh)
      tauto
    · rintro (hflat | href | ⟨hpos, henough⟩ | henough | hweak)
      · exact absurd hflat hf
      · have : c.Dim fl env o → c.Dim fl env o' := fun h =>
          ⟨h.usable, hratio ▸ h.ratio, fun hpos => absurd hpos (not_lt.2 href)⟩
        tauto
      · have : ¬ c.Dim fl env o := fun h => absurd (h.ratio hpos) (not_lt.2 henough)
        tauto
      · have : c.Dim fl env o → c.Dim fl env o' := fun h =>
          ⟨h.usable, hratio ▸ h.ratio, fun hpos => absurd (h.glint hpos) (not_lt.2 henough)⟩
        tauto
      · have : c.Dim fl env o → c.Dim fl env o' := fun h =>
          ⟨h.usable, hratio ▸ h.ratio, fun _ => hglint ▸ hweak⟩
        tauto

/-- The verdict on a capture and on the same capture with a gain is the same exactly
when the capture is steady under that gain. -/
theorem gate_gain_iff (fl : FloatLib) (env : String → Option String) (c : IrCalibration)
    (hready : c.isReady = true) (ir : GrayImage) (bbox : BBox) (rgbSize : Nat × Nat)
    (lm : Landmarks) (faceFrac : ℚ) (k : Nat) (hk : 1 ≤ k) (hsat : ir.Unsaturated k)
    (hbg : 1 < (irEvaluate fl ir bbox rgbSize lm).meanBg) :
    (c.gate fl env ((irEvaluate fl (ir.gain k) bbox rgbSize lm).observation faceFrac) = .pass ↔
      c.gate fl env ((irEvaluate fl ir bbox rgbSize lm).observation faceFrac) = .pass) ↔
      c.Steady fl env ((irEvaluate fl ir bbox rgbSize lm).observation faceFrac) k := by
  obtain ⟨hratio, hdepth, hglint, -, hnonneg⟩ := irEvaluate_gain fl hk hsat hbg
  generalize irEvaluate fl (ir.gain k) bbox rgbSize lm = s' at *
  generalize irEvaluate fl ir bbox rgbSize lm = s at *
  exact gate_iff_of_glint hready hk hratio hdepth hglint hnonneg

/-! A dim face before a bright background, and glints enrolled in a bright room. -/

def exactFloats : FloatLib := ⟨id, id, fun _ => none, fun _ _ => ""⟩

def brightCal : IrCalibration where
  observations := List.replicate 3 ⟨15 / 10, 100, 8 / 10, 1, 3 / 10⟩

def dimFrame : GrayImage := ⟨4, 1, [20, 40, 100, 100], rfl⟩

def dimBox : BBox := ⟨0, 0, 1, 0⟩

def dimLandmarks : Landmarks := ⟨⟨0, 0⟩, ⟨1, 0⟩, ⟨0, 0⟩, ⟨0, 0⟩, ⟨1, 0⟩⟩

theorem unsaturated_dimFrame : dimFrame.Unsaturated 2 := by
  have hall : dimFrame.pixels.all (fun p => decide (2 * p.toNat ≤ 255)) = true := by decide
  intro p hp
  exact of_decide_eq_true (List.all_eq_true.1 hall p hp)

theorem meanBg_dimFrame :
    1 < (irEvaluate exactFloats dimFrame dimBox (4, 1) dimLandmarks).meanBg := by
  decide +kernel

/-- The capture is rejected, and the same capture at twice the exposure passes. -/
theorem gate_dimFrame :
    brightCal.gate exactFloats (fun _ => none)
        ((irEvaluate exactFloats dimFrame dimBox (4, 1) dimLandmarks).observation 1) ≠ .pass ∧
      brightCal.gate exactFloats (fun _ => none)
        ((irEvaluate exactFloats (dimFrame.gain 2) dimBox (4, 1) dimLandmarks).observation 1) =
        .pass := by
  decide +kernel

theorem gate_gain_iff_dimFrame : brightCal.isReady = true ∧
    ¬ brightCal.Steady exactFloats (fun _ => none)
      ((irEvaluate exactFloats dimFrame dimBox (4, 1) dimLandmarks).observation 1) 2 := by
  refine ⟨rfl, ?_⟩
  rw [← gate_gain_iff exactFloats (fun _ => none) brightCal rfl dimFrame dimBox (4, 1)
    dimLandmarks 1 2 (by decide) unsaturated_dimFrame meanBg_dimFrame]
  intro hsame
  exact gate_dimFrame.1 (hsame.1 gate_dimFrame.2)

/-- The verdict depends on the exposure. -/
theorem not_gate_gain :
    ¬ ∀ (fl : FloatLib) (env : String → Option String) (c : IrCalibration), c.isReady = true →
      ∀ (ir : GrayImage) (bbox : BBox) (rgbSize : Nat × Nat) (lm : Landmarks) (faceFrac : ℚ)
        (k : Nat), 1 ≤ k → ir.Unsaturated k →
        1 < (irEvaluate fl ir bbox rgbSize lm).meanBg →
        1 < (irEvaluate fl (ir.gain k) bbox rgbSize lm).meanBg →
        (c.gate fl env ((irEvaluate fl (ir.gain k) bbox rgbSize lm).observation faceFrac) = .pass ↔
          c.gate fl env ((irEvaluate fl ir bbox rgbSize lm).observation faceFrac) = .pass) := by
  intro hall
  have hgain :
      1 < (irEvaluate exactFloats (dimFrame.gain 2) dimBox (4, 1) dimLandmarks).meanBg := by
    decide +kernel
  have hsame := hall exactFloats (fun _ => none) brightCal rfl dimFrame dimBox (4, 1) dimLandmarks 1
    2 (by decide) unsaturated_dimFrame meanBg_dimFrame hgain
  exact gate_dimFrame.1 (hsame.1 gate_dimFrame.2)

end IrCalibration

end Linhello.Liveness
