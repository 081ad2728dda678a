import Linhello.Biometrics.LiveGate
/-!
# The median gate as a vote

The median of the frames' spoof probabilities is reached by counting: with more than
half of the frames on one side of a threshold it is on that side, whatever the length
and the order of the burst.
-/

namespace Linhello.Biometrics

open Common Effect Host Liveness Stat

/-! ## The median -/

theorem median_perm {v w : List ℚ} (h : v.Perm w) :
    AntiSpoofModel.median v = AntiSpoofModel.median w := by
  by_cases hv : v = []
  · subst hv
    rw [List.nil_perm.1 h]
  · have hpos : 0 < v.length := List.length_pos_iff.2 hv
    have hlen : v.length = w.length := h.length_eq
    rw [median_eq_average hpos, median_eq_average (hlen ▸ hpos), kth_perm h, kth_perm h]
    simp only [hlen]

theorem median_mono {v w : List ℚ} (h : List.Forall₂ (· ≤ ·) v w) :
    AntiSpoofModel.median v ≤ AntiSpoofModel.median w := by
  by_cases hv : v = []
  · subst hv
    rw [List.forall₂_nil_left_iff.1 h]
  · have hpos : 0 < v.length := List.length_pos_iff.2 hv
    have hlen : v.length = w.length := h.length_eq
    have hlow := kth_mono h (i := (v.length - 1) / 2) (by omega)
    have hhigh := kth_mono h (i := v.length / 2) (by omega)
    rw [median_eq_average hpos, median_eq_average (hlen ▸ hpos)]
    simp only [← hlen]
    linarith

/-- Strictly more than half of the votes at or above `t` carry the median there. -/
theorem le_median_of_majority {v : List ℚ} {t : ℚ} (h : v.length < 2 * v.countP (t ≤ ·)) :
    t ≤ AntiSpoofModel.median v := by
  have hpos : 0 < v.length := by
    have := v.countP_le_length (p := (t ≤ ·))
    omega
  have hsplit := countP_lt_add_countP_le v t
  have hlow : t ≤ kth v ((v.length - 1) / 2) (by omega) := by
    rw [le_kth_iff]
    omega
  have hhigh : t ≤ kth v (v.length / 2) (by omega) := by
    rw [le_kth_iff]
    omega
  rw [median_eq_average hpos]
  linarith

theorem median_lt_of_majority {v : List ℚ} {t : ℚ} (h : v.length < 2 * v.countP (· < t)) :
    AntiSpoofModel.median v < t := by
  have hpos : 0 < v.length := by
    have := v.countP_le_length (p := (· < t))
    omega
  have hlow : kth v ((v.length - 1) / 2) (by omega) < t := by
    rw [kth_lt_iff]
    omega
  have hhigh : kth v (v.length / 2) (by omega) < t := by
    rw [kth_lt_iff]
    omega
  rw [median_eq_average hpos]
  linarith

/-! ## The burst and the evaluation -/

/-- A burst whose frames all have a prediction has their median. -/
theorem predictMedian_of_predictions {fl : FloatLib} {model : AntiSpoofModel}
    {frames : List (Frame × BBox)} {probs : List ℚ} (hne : frames ≠ [])
    (h : List.Forall₂ (fun x q => model.predict fl x.1 x.2 = .ok q) frames probs) :
    model.predictMedian fl frames = .ok (AntiSpoofModel.median probs) := by
  have hprobs : (frames.mapM fun x => model.predict fl x.1 x.2) = .ok probs :=
    mapM_eq_ok_of_forall₂ h
  unfold AntiSpoofModel.predictMedian
  rw [if_neg hne]
  change (frames.mapM fun x => model.predict fl x.1 x.2) >>=
    (fun probs => pure (AntiSpoofModel.median probs)) = _
  rw [hprobs]
  rfl

/-- The gates of `evaluate` that come before the anti-spoof one and answer
`uncertain`: orientation, a required IR frame, and the distance. -/
structure Positioned (config : LivenessConfig) (frame : Frame) (bbox : BBox) (lm : Landmarks)
    (ir : Option GrayImage) : Prop where
  frontal : isFrontal (estimatePose lm).1 (estimatePose lm).2 MAX_ANGLE_DEG = true
  irPresent : ir = none → config.requireIr = false
  near : ir.isSome = true → MIN_FACE_FRAC ≤ faceFrac frame bbox

theorem decideFromScores_spoof {pr : Process} {config : LivenessConfig}
    {signals : LivenessSignals} {p : ℚ} {temporalScore : Option ℚ}
    (h : config.spoofThreshold ≤ p) :
    (decideFromScores pr config signals (some p) temporalScore).decision = .spoof := by
  simp only [decideFromScores, h, if_true]

/-- At or above the threshold a capture that reaches the gate is a spoof, and the
device gate before it says the same. -/
theorem returns_evaluate_spoof {pr : Process} {ev : LivenessEvaluator} {frame : Frame}
    {bbox : BBox} {lm : Landmarks} {path : String} {ir : Option GrayImage} {p : ℚ}
    {temporalScore : Option ℚ} (hp : ev.config.spoofThreshold ≤ p)
    (hpos : Positioned ev.config frame bbox lm ir) :
    (ev.evaluate pr frame bbox lm path ir (some p) temporalScore).Returns
      fun report => report.decision = .spoof := by
  unfold LivenessEvaluator.evaluate
  simp only [hpos.frontal, Bool.not_true, Bool.false_eq_true, if_false]
  apply returns_bind
  intro dev
  by_cases hdev : dev.score = 0
  · rw [if_pos hdev]
    exact returns_pure rfl
  · rw [if_neg hdev]
    cases ir with
    | none =>
        simp only [hpos.irPresent rfl, Bool.false_eq_true, if_false]
        exact returns_pure (decideFromScores_spoof hp)
    | some irFrame =>
        have hnear := hpos.near rfl
        unfold faceFrac at hnear
        simp only [IrSignals.classify, not_lt.2 hnear, if_false]
        exact returns_pure (decideFromScores_spoof hp)

/-- The gate is a majority vote. The median of a non-empty burst does not depend on
the order of the frames, does not fall when a probability rises, and follows any
strict majority; at or above the threshold the evaluation answers `spoof`. -/
theorem predictMedian_majority (fl : FloatLib) (model : AntiSpoofModel)
    (frames : List (Frame × BBox)) (probs : List ℚ) (hne : frames ≠ [])
    (hpredict : List.Forall₂ (fun x q => model.predict fl x.1 x.2 = .ok q) frames probs) :
    ∃ m, model.predictMedian fl frames = .ok m ∧
      (∀ frames', frames'.Perm frames → model.predictMedian fl frames' = .ok m) ∧
      (∀ model' frames' probs', List.Forall₂ (· ≤ ·) probs probs' →
        List.Forall₂ (fun (x : Frame × BBox) q => AntiSpoofModel.predict fl model' x.1 x.2 = .ok q)
          frames' probs' →
        ∃ m', model'.predictMedian fl frames' = .ok m' ∧ m ≤ m') ∧
      ∀ t, (probs.length < 2 * probs.countP (· < t) → m < t) ∧
        (probs.length < 2 * probs.countP (t ≤ ·) → t ≤ m ∧
          ∀ (pr : Process) (ev : LivenessEvaluator) (frame : Frame) (bbox : BBox) (lm : Landmarks)
            (path : String) (ir : Option GrayImage) (temporalScore : Option ℚ),
            ev.config.spoofThreshold = t →
            ∀ (W : Type) (S : Semantics host W) (w w' : W) (report : LivenessReport),
              Exec S (ev.evaluate pr frame bbox lm path ir (some m) temporalScore) w report w' →
              report.decision ≠ .real ∧
                (Positioned ev.config frame bbox lm ir → report.decision = .spoof)) := by
  have hlen : frames.length = probs.length := hpredict.length_eq
  refine ⟨_, predictMedian_of_predictions hne hpredict, ?_, ?_, ?_⟩
  · intro frames' hperm
    -- the predictions follow their frames
    have hforall := List.perm_comp_forall₂ hperm hpredict
    obtain ⟨probs', hforall', hperm'⟩ := hforall
    have hne' : frames' ≠ [] := fun h => hne (by simpa [h] using hperm.symm)
    rw [predictMedian_of_predictions hne' hforall', median_perm hperm']
  · intro model' frames' probs' hle hpredict'
    have hne' : frames' ≠ [] := by
      apply List.ne_nil_of_length_pos
      rw [hpredict'.length_eq, ← hle.length_eq, ← hlen]
      exact List.length_pos_iff.2 hne
    exact ⟨_, predictMedian_of_predictions hne' hpredict', median_mono hle⟩
  · intro t
    refine ⟨median_lt_of_majority, fun hmajority => ⟨le_median_of_majority hmajority, ?_⟩⟩
    intro pr ev frame bbox lm path ir temporalScore ht W S w w' report hexec
    subst ht
    have hle := le_median_of_majority hmajority
    constructor
    · intro hreal
      have hlt := (exec_evaluate_real hexec hreal).1 _ rfl
      exact absurd hle (not_le.2 hlt)
    · intro hpos
      exact (returns_evaluate_spoof hle hpos).exec hexec

theorem predictMedian_majority_photos : ∃ m, mixedModel.predictMedian mixedProcess.fl
    [(.fromPixel 20 20 PHOTO_PIXEL, ⟨2, 2, 18, 18⟩),
      (.fromPixel 20 20 PHOTO_PIXEL, ⟨5, 5, 15, 15⟩)] =
      .ok m ∧ 1 ≤ m := by
  obtain ⟨m, hm, -, -, hvote⟩ := predictMedian_majority mixedProcess.fl mixedModel
    [(.fromPixel 20 20 PHOTO_PIXEL, ⟨2, 2, 18, 18⟩), (.fromPixel 20 20 PHOTO_PIXEL, ⟨5, 5, 15, 15⟩)]
    [1, 1] (by simp) (.cons (predict_mixed_photo rfl) (.cons (predict_mixed_photo rfl) .nil))
  exact ⟨m, hm, ((hvote 1).2 (by decide)).1⟩

end Linhello.Biometrics
