import Linhello.Biometrics.Burst
/-!
# No way around anti-spoof

The gate is spread over four places: the configuration, which resolves a model path and
a threshold; the evaluator, which has a model or is not built; the burst, which has a
median wherever it has a face; and `evaluate`, which compares. A capture that is
accepted went through all of them.
-/

namespace Linhello.Biometrics

open Common Effect Host Liveness

variable {W : Type} {S : Semantics host W}

/-! ## Configuration and evaluator -/

theorem spoofThreshold_mem (pr : Process) :
    0 ≤ (LivenessConfig.fromEnv pr).spoofThreshold ∧
      (LivenessConfig.fromEnv pr).spoofThreshold ≤ 1 := by
  simp only [LivenessConfig.fromEnv]
  cases (pr.env "LINHELLO_SPOOF_THRESHOLD").bind pr.fl.parseFinite with
  | none => norm_num [DEFAULT_SPOOF_THRESHOLD]
  | some v => exact ⟨le_clamp, clamp_le (by norm_num)⟩

private theorem new_required {pr : Process} {config : LivenessConfig} {ev : LivenessEvaluator}
    (hreq : config.requireAntispoof = true) (h : LivenessEvaluator.new pr config = .ok ev) :
    ev.config = config ∧ ∃ model, ev.antispoof = some model := by
  have hbuilt : ∀ item items, (do
      let members ← (item :: items).mapM (LivenessEvaluator.loadMember pr)
      pure { config := config, antispoof := some { members := members } } :
      Except LinuxHelloError LivenessEvaluator) = .ok ev →
      ev.config = config ∧ ∃ model, ev.antispoof = some model := by
    intro item items hev
    cases hmembers : (item :: items).mapM (LivenessEvaluator.loadMember pr) with
    | error e =>
        rw [hmembers] at hev
        cases hev
    | ok members =>
        rw [hmembers] at hev
        obtain rfl := Except.ok.inj hev
        exact ⟨rfl, _, rfl⟩
  unfold LivenessEvaluator.new at h
  cases hmodel : config.antispoofModel with
  | none =>
      rw [hmodel] at h
      simp only [hreq, if_true] at h
      cases h
  | some path =>
      rw [hmodel] at h
      by_cases hexists : pr.modelExists path = true
      · simp only [hexists, if_true] at h
        exact hbuilt _ _ h
      · simp only [hexists, hreq, if_true] at h
        cases h

theorem cached_required {pr : Process} {ev : LivenessEvaluator}
    (hreq : (LivenessConfig.fromEnv pr).requireAntispoof = true)
    (h : LivenessEvaluator.cached pr = .ok ev) :
    ev.config = LivenessConfig.fromEnv pr ∧ ∃ model, ev.antispoof = some model := by
  unfold LivenessEvaluator.cached at h
  cases hnew : LivenessEvaluator.new pr (LivenessConfig.fromEnv pr) with
  | error e =>
      rw [hnew] at h
      cases h
  | ok ev' =>
      rw [hnew] at h
      obtain rfl := Except.ok.inj h
      exact new_required hreq hnew

/-! ## The burst -/

/-- A burst that shows a face has a median, if there is a model. -/
theorem exec_captureBurstDetect_scored {pr : Process} {ev : LivenessEvaluator}
    {model : AntiSpoofModel} {w w' : W} {b : BurstCapture}
    (hev : LivenessEvaluator.cached pr = .ok ev) (hmodel : ev.antispoof = some model)
    (h : Exec S (captureBurstDetect pr).run w (.ok b) w') : ∃ p, b.spoofProb = some p := by
  obtain ⟨n, v, frames, detect, ev', -, -, -, hev', hbest, hmedian⟩ := exec_captureBurstDetect h
  obtain rfl := Except.ok.inj (hev'.symm.trans hev)
  obtain ⟨hmem, -⟩ := bestFace_spec hbest
  have hscored := fun hne => antispoofMedian_eq_ok hmodel hne hmedian
  obtain ⟨p, hp, -⟩ := hscored fun hnil => by
    rw [List.map_eq_nil_iff.1 hnil] at hmem
    exact absurd hmem List.not_mem_nil
  exact ⟨p, hp⟩

/-! ## The evaluation -/

/-- The share of the frame's width a box spans. -/
def faceFrac (frame : Frame) (bbox : BBox) : ℚ :=
  max (bbox.x2 - bbox.x1) 0 / (max frame.width 1 : Nat)

/-- What is true of the signals of a capture that is called real. -/
structure Vouched (config : LivenessConfig) (frame : Frame) (face : Face) (ir : Option GrayImage)
    (spoofProb : Option ℚ) (s : LivenessSignals) : Prop where
  frontal : isFrontal (estimatePose face.landmarks).1 (estimatePose face.landmarks).2
    MAX_ANGLE_DEG = true
  yaw : s.yawDeg = some (estimatePose face.landmarks).1
  pitch : s.pitchDeg = some (estimatePose face.landmarks).2
  device : s.deviceScore ≠ 0
  coverage : s.faceFrac = some (faceFrac frame face.bbox)
  near : ir.isSome = true → MIN_FACE_FRAC ≤ faceFrac frame face.bbox
  scored : s.spoofProb = spoofProb
  below : ∀ p, spoofProb = some p → p < config.spoofThreshold

/-- The signals before the last gates. -/
structure Readied (frame : Frame) (face : Face) (s : LivenessSignals) : Prop where
  yaw : s.yawDeg = some (estimatePose face.landmarks).1
  pitch : s.pitchDeg = some (estimatePose face.landmarks).2
  device : s.deviceScore ≠ 0
  coverage : s.faceFrac = some (faceFrac frame face.bbox)
  unscored : s.spoofProb = none

theorem vouched_of_scores {pr : Process} {config : LivenessConfig} {frame : Frame} {face : Face}
    {ir : Option GrayImage} {spoofProb temporalScore : Option ℚ} {signals : LivenessSignals}
    (hready : Readied frame face signals)
    (hfrontal : isFrontal (estimatePose face.landmarks).1 (estimatePose face.landmarks).2
      MAX_ANGLE_DEG = true)
    (hnear : ir.isSome = true → MIN_FACE_FRAC ≤ faceFrac frame face.bbox)
    (hreal : (decideFromScores pr config signals spoofProb temporalScore).decision = .real) :
    Vouched config frame face ir spoofProb
      (decideFromScores pr config signals spoofProb temporalScore).signals := by
  have hbelow := (decideFromScores_real hreal).1
  cases spoofProb with
  | none =>
      have hkept : (decideFromScores pr config signals none temporalScore).signals = signals := by
        simp only [decideFromScores]
        split <;> rfl
      rw [hkept]
      exact ⟨hfrontal, hready.yaw, hready.pitch, hready.device, hready.coverage, hnear,
        hready.unscored, hbelow⟩
  | some p =>
      have hp := not_le.2 (hbelow p rfl)
      have hkept : (decideFromScores pr config signals (some p) temporalScore).signals =
          { signals with spoofProb := some p, mlScore := some (1 - p) } := by
        simp only [decideFromScores, hp, if_false]
        split <;> rfl
      rw [hkept]
      exact ⟨hfrontal, hready.yaw, hready.pitch, hready.device, hready.coverage, hnear, rfl, hbelow⟩

/-- Each early return declines: what is called real passed every gate. -/
theorem exec_evaluate_vouched {pr : Process} {ev : LivenessEvaluator} {frame : Frame} {face : Face}
    {path : String} {ir : Option GrayImage} {spoofProb temporalScore : Option ℚ} {w w' : W}
    {report : LivenessReport}
    (h : Exec S (ev.evaluate pr frame face.bbox face.landmarks path ir spoofProb temporalScore) w
      report w') (hreal : report.decision = .real) :
    Vouched ev.config frame face ir spoofProb report.signals := by
  unfold LivenessEvaluator.evaluate at h
  by_cases hfrontal : isFrontal (estimatePose face.landmarks).1 (estimatePose face.landmarks).2
      MAX_ANGLE_DEG = true
  · simp only [hfrontal, Bool.not_true, Bool.false_eq_true, if_false] at h
    obtain ⟨dev, v, -, h⟩ := exec_bind.1 h
    by_cases hdev : dev.score = 0
    · rw [if_pos hdev] at h
      obtain ⟨rfl, rfl⟩ := h
      cases hreal
    · rw [if_neg hdev] at h
      cases ir with
      | none =>
          dsimp only at h
          split at h
          · obtain ⟨rfl, rfl⟩ := h
            cases hreal
          · obtain ⟨rfl, rfl⟩ := h
            exact vouched_of_scores ⟨rfl, rfl, hdev, rfl, rfl⟩ hfrontal
              (fun hir => by cases hir) hreal
      | some irFrame =>
          dsimp only at h
          simp only [IrSignals.classify] at h
          by_cases hnear : faceFrac frame face.bbox < MIN_FACE_FRAC
          · unfold faceFrac at hnear
            rw [if_pos hnear] at h
            obtain ⟨rfl, rfl⟩ := h
            cases hreal
          · have hfar := hnear
            unfold faceFrac at hfar
            rw [if_neg hfar] at h
            obtain ⟨rfl, rfl⟩ := h
            exact vouched_of_scores ⟨rfl, rfl, hdev, rfl, rfl⟩ hfrontal
              (fun _ => not_lt.1 hnear) hreal
  · simp only [hfrontal, Bool.not_false, if_true] at h
    obtain ⟨rfl, rfl⟩ := h
    cases hreal

/-- A capture is accepted only with a spoof probability, and with it below the
threshold, whatever was captured and however the other knobs are set. -/
theorem antispoof_not_skipped {pr : Process} {w w' : W} {frame : Frame} {face : Face}
    {signals : LivenessSignals} (hreq : (LivenessConfig.fromEnv pr).requireAntispoof = true)
    (h : Exec S (captureDetectLive pr).run w (.ok (frame, face, signals)) w') :
    ∃ ev b ir report p, CapturedLive S pr w ev b ir report w' ∧ b.frame = frame ∧ b.face = face ∧
      report.signals = signals ∧
        Vouched (LivenessConfig.fromEnv pr) frame face ir (some p) signals ∧
      signals.spoofProb = some p ∧ p < (LivenessConfig.fromEnv pr).spoofThreshold ∧
      0 ≤ (LivenessConfig.fromEnv pr).spoofThreshold ∧
      (LivenessConfig.fromEnv pr).spoofThreshold ≤ 1 := by
  obtain ⟨ev, b, ir, report, hlive, rfl, rfl, rfl⟩ := exec_captureDetectLive h
  have hcaptured := hlive
  obtain ⟨v, u, hburst, -, hev, heval, hreal⟩ := hlive
  obtain ⟨hconfig, model, hmodel⟩ := cached_required hreq hev
  obtain ⟨p, hp⟩ := exec_captureBurstDetect_scored hev hmodel hburst
  have hvouched := exec_evaluate_vouched heval hreal
  rw [hconfig, hp] at hvouched
  exact ⟨ev, b, ir, report, p, hcaptured, rfl, rfl, rfl, hvouched, hvouched.scored,
    hvouched.below p rfl, spoofThreshold_mem pr⟩

/-- A live burst is accepted under the default configuration. -/
theorem antispoof_not_skipped_mixed : ∃ signals : LivenessSignals, ∃ p, signals.spoofProb = some p ∧
    p < 1 / 2 := by
  obtain ⟨signals, w', hexec⟩ := exec_mixed_burst
  obtain ⟨frame, face, hlive, -⟩ := exec_captureAndEmbedSignals hexec
  obtain ⟨-, -, -, -, p, -, -, -, -, -, hp, hlt, -⟩ := antispoof_not_skipped rfl hlive
  exact ⟨signals, p, hp, hlt⟩

end Linhello.Biometrics
