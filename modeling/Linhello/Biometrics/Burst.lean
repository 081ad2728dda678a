import Linhello.Host.Simulated
/-!
# What an accepted capture went through

A capture that returns an embedding passed every gate of the pipeline
(`exec_captureAndEmbedSignals`). Two aggregations run over one burst, the median
of the spoof probabilities and the choice of the largest face, and the last
section states what together they say about the frame that is embedded.
-/

namespace Linhello.Biometrics

open Common Effect Host Liveness

variable {W : Type} {S : Semantics host W}

/-! ## The chosen frame -/

private theorem foldl_largerFace_spec (found : List (Frame × Face)) (b x : Frame × Face)
    (h : found.foldl largerFace (some b) = some x) :
    (x = b ∨ x ∈ found) ∧ b.2.bbox.area ≤ x.2.bbox.area ∧
      ∀ y ∈ found, y.2.bbox.area ≤ x.2.bbox.area := by
  induction found generalizing b with
  | nil =>
      obtain rfl := Option.some.inj h
      exact ⟨.inl rfl, le_refl _, fun y hy => absurd hy List.not_mem_nil⟩
  | cons y found ih =>
      rw [List.foldl_cons] at h
      simp only [largerFace] at h
      split at h
      · rename_i hlt
        obtain ⟨hmem, hyx, hall⟩ := ih y h
        refine ⟨.inr ?_, (le_of_lt hlt).trans hyx, ?_⟩
        · rcases hmem with rfl | hmem
          · exact List.mem_cons_self
          · exact List.mem_cons_of_mem _ hmem
        · intro z hz
          rcases List.mem_cons.1 hz with rfl | hz
          · exact hyx
          · exact hall z hz
      · rename_i hle
        obtain ⟨hmem, hbx, hall⟩ := ih b h
        refine ⟨hmem.imp id (List.mem_cons_of_mem _), hbx, ?_⟩
        intro z hz
        rcases List.mem_cons.1 hz with rfl | hz
        · exact (not_lt.1 hle).trans hbx
        · exact hall z hz

/-- The chosen face is one of the detected ones and none of them is larger. -/
theorem bestFace_spec {found : List (Frame × Face)} {x : Frame × Face}
    (h : bestFace found = some x) :
    x ∈ found ∧ ∀ y ∈ found, y.2.bbox.area ≤ x.2.bbox.area := by
  cases found with
  | nil => cases h
  | cons b found =>
      obtain ⟨hmem, hbx, hall⟩ := foldl_largerFace_spec found b x h
      refine ⟨List.mem_cons.2 hmem, ?_⟩
      intro y hy
      rcases List.mem_cons.1 hy with rfl | hy
      · exact hbx
      · exact hall y hy

/-! ## The stages of a capture -/

theorem exec_captureBurstDetect {pr : Process} {w w' : W} {b : BurstCapture}
    (h : Exec S (captureBurstDetect pr).run w (.ok b) w') :
    ∃ n v frames detect ev,
      S w .rgbDevice b.path v ∧ S v (.captureBurst b.path n) (.ok frames) w' ∧
      pr.detector = .ok detect ∧ LivenessEvaluator.cached pr = .ok ev ∧
      bestFace (detectedFaces detect frames) = some (b.frame, b.face) ∧
      ev.antispoofMedian pr.fl ((detectedFaces detect frames).map fun (f, face) => (f, face.bbox)) =
        .ok b.spoofProb := by
  unfold captureBurstDetect at h
  simp only [exec_exceptT_bind_ok, exec_exceptT_lift_ok, exec_fallible, exec_orFail,
    exec_perform] at h
  obtain ⟨path, v, hpath, frames, v1, hburst, detect, v2, ⟨hdetect, rfl⟩, h⟩ := h
  cases hbest : bestFace (detectedFaces detect frames) with
  | none => simp [hbest] at h
  | some best =>
      simp only [hbest, exec_exceptT_bind_ok, exec_orFail, exec_exceptT_pure, Except.ok.injEq] at h
      obtain ⟨ev, _, ⟨hev, rfl⟩, p, _, ⟨hp, rfl⟩, rfl, rfl⟩ := h
      exact ⟨_, v, frames, detect, ev, hpath, hburst, mapError_eq_ok.1 hdetect.symm, hev.symm,
        hbest, hp.symm⟩

/-- The last gates say "real" only below the threshold, and they leave the IR
signals alone. -/
theorem decideFromScores_real {pr : Process} {config : LivenessConfig} {signals : LivenessSignals}
    {spoofProb temporalScore : Option ℚ}
    (h : (decideFromScores pr config signals spoofProb temporalScore).decision = .real) :
    (∀ p, spoofProb = some p → p < config.spoofThreshold) ∧
      IrObservation.fromSignals
        (decideFromScores pr config signals spoofProb temporalScore).signals =
        IrObservation.fromSignals signals := by
  cases spoofProb with
  | none =>
      refine ⟨fun p hp => (Option.some_ne_none p hp.symm).elim, ?_⟩
      simp only [decideFromScores]
      split <;> rfl
  | some p =>
      by_cases hp : config.spoofThreshold ≤ p
      · simp [decideFromScores, hp] at h
      · refine ⟨fun q hq => by rw [← Option.some.inj hq]; exact not_le.1 hp, ?_⟩
        simp only [decideFromScores, hp, if_false]
        split <;> rfl

/-- A capture is called real only with a median below the threshold, and it
carries an IR observation exactly when an IR frame was there. -/
theorem exec_evaluate_real {pr : Process} {ev : LivenessEvaluator} {frame : Frame} {bbox : BBox}
    {landmarks : Landmarks} {path : String} {ir : Option GrayImage}
    {spoofProb temporalScore : Option ℚ} {w w' : W} {report : LivenessReport}
    (h : Exec S (ev.evaluate pr frame bbox landmarks path ir spoofProb temporalScore) w report w')
    (hreal : report.decision = .real) :
    (∀ p, spoofProb = some p → p < ev.config.spoofThreshold) ∧
      ((IrObservation.fromSignals report.signals).isSome = ir.isSome) := by
  unfold LivenessEvaluator.evaluate at h
  generalize estimatePose landmarks = pose at h
  obtain ⟨yaw, pitch⟩ := pose
  simp only at h
  split at h
  · obtain ⟨rfl, rfl⟩ := h
    cases hreal
  · obtain ⟨dev, v, -, h⟩ := exec_bind.1 h
    by_cases hdev : dev.score = 0
    · rw [if_pos hdev] at h
      obtain ⟨rfl, rfl⟩ := h
      cases hreal
    · rw [if_neg hdev] at h
      cases ir with
      | none =>
          simp only at h
          split at h
          · obtain ⟨rfl, rfl⟩ := h
            cases hreal
          · obtain ⟨rfl, rfl⟩ := h
            obtain ⟨hp, hir⟩ := decideFromScores_real hreal
            refine ⟨hp, ?_⟩
            rw [hir]
            rfl
      | some irFrame =>
          simp only [IrSignals.classify] at h
          split at h
          · obtain ⟨rfl, rfl⟩ := h
            cases hreal
          · rename_i reason hclass
            split at hclass <;> cases hclass
          · obtain ⟨rfl, rfl⟩ := h
            obtain ⟨hp, hir⟩ := decideFromScores_real hreal
            refine ⟨hp, ?_⟩
            rw [hir]
            rfl
/-- Between `w` and `w'` the burst `b` and the IR frame `ir` were captured and the
evaluator `ev` called them real. -/
def CapturedLive (S : Semantics host W) (pr : Process) (w : W) (ev : LivenessEvaluator)
    (b : BurstCapture) (ir : Option GrayImage) (report : LivenessReport) (w' : W) : Prop :=
  ∃ v u, Exec S (captureBurstDetect pr).run w (.ok b) v ∧ Exec S captureIrFrame v ir u ∧
    LivenessEvaluator.cached pr = .ok ev ∧
    Exec S (ev.evaluate pr b.frame b.face.bbox b.face.landmarks b.path ir b.spoofProb
      b.temporalScore) u report w' ∧
    report.decision = .real

/-- The embedding is that of the face in the frame. -/
def EmbeddedFrom (pr : Process) (frame : Frame) (face : Face) (emb : List F32) : Prop :=
  ∃ aligned infer out, pr.align frame face = .ok aligned ∧ pr.embedder = .ok infer ∧
    infer aligned = .ok out ∧ checkEmbedding out = .ok emb

theorem exec_captureDetectLive {pr : Process} {w w' : W} {frame : Frame} {face : Face}
    {signals : LivenessSignals}
    (h : Exec S (captureDetectLive pr).run w (.ok (frame, face, signals)) w') :
    ∃ ev b ir report, CapturedLive S pr w ev b ir report w' ∧ b.frame = frame ∧ b.face = face ∧
      report.signals = signals := by
  unfold captureDetectLive at h
  simp only [exec_exceptT_bind_ok, exec_exceptT_lift_ok, exec_orFail] at h
  obtain ⟨b, v, hburst, ir, u, hir, ev, _, ⟨hev, rfl⟩, report, t, heval, h⟩ := h
  cases hdec : report.decision with
  | spoof => simp [hdec] at h
  | uncertain => simp [hdec] at h
  | real =>
      simp only [hdec, exec_exceptT_pure, Except.ok.injEq, Prod.mk.injEq] at h
      obtain ⟨⟨rfl, rfl, rfl⟩, rfl⟩ := h
      exact ⟨ev, b, ir, report, ⟨v, _, hburst, hir, hev.symm, heval, hdec⟩, rfl, rfl, rfl⟩

theorem exec_captureAndEmbedSignals {pr : Process} {w w' : W} {emb : List F32}
    {signals : LivenessSignals}
    (h : Exec S (captureAndEmbedSignals pr).run w (.ok (emb, signals)) w') :
    ∃ frame face, Exec S (captureDetectLive pr).run w (.ok (frame, face, signals)) w' ∧
      EmbeddedFrom pr frame face emb := by
  unfold captureAndEmbedSignals at h
  simp only [exec_exceptT_bind_ok] at h
  obtain ⟨⟨frame, face, signals'⟩, v, hlive, h⟩ := h
  simp only [exec_orFail, exec_exceptT_pure, Except.ok.injEq, Prod.mk.injEq] at h
  obtain ⟨aligned, _, ⟨halign, rfl⟩, infer, _, ⟨hinfer, rfl⟩, out, _, ⟨hout, rfl⟩, _, _,
    ⟨hcheck, rfl⟩, ⟨rfl, rfl⟩, rfl⟩ := h
  exact ⟨frame, face, hlive, aligned, infer, out, halign.symm, mapError_eq_ok.1 hinfer.symm,
    hout.symm, hcheck.symm⟩

/-! ## The embedded frame and the scored burst -/

/-- What the burst `frames` says about its chosen frame and face: the face is the
largest detected one, and the median over all detected frames of the spoof
probabilities `probs` is below the threshold, so at least half of them are. -/
structure BurstVerdict (pr : Process) (threshold : ℚ) (model : AntiSpoofModel)
    (found : List (Frame × Face)) (probs : List ℚ) (frame : Frame) (face : Face) : Prop where
  mem : (frame, face) ∈ found
  largest : ∀ y ∈ found, y.2.bbox.area ≤ face.bbox.area
  scored : List.Forall₂ (fun x p => model.predict pr.fl x.1 x.2.bbox = .ok p) found probs
  median_lt : AntiSpoofModel.median probs < threshold
  majority : probs.length ≤ 2 * probs.countP (· < threshold)

/-- Where a single frame shows a face, its own score is the median. -/
theorem BurstVerdict.own_score {pr : Process} {threshold : ℚ} {model : AntiSpoofModel}
    {found : List (Frame × Face)} {probs : List ℚ} {frame : Frame} {face : Face}
    (h : BurstVerdict pr threshold model found probs frame face) (hone : found.length = 1) :
    ∃ p, model.predict pr.fl frame face.bbox = .ok p ∧ p < threshold := by
  obtain ⟨x, rfl⟩ := List.length_eq_one_iff.1 hone
  obtain rfl := List.mem_singleton.1 h.mem
  cases h.scored with
  | cons hp hnil =>
      cases hnil
      have hlt := h.median_lt
      rw [median_singleton] at hlt
      exact ⟨_, hp, hlt⟩

theorem antispoofMedian_eq_ok {ev : LivenessEvaluator} {model : AntiSpoofModel} {fl : FloatLib}
    {frames : List (Frame × BBox)} {r : Option ℚ} (hmodel : ev.antispoof = some model)
    (hne : frames ≠ []) (h : ev.antispoofMedian fl frames = .ok r) :
    ∃ p, r = some p ∧ model.predictMedian fl frames = .ok p := by
  have hempty : frames.isEmpty = false := List.isEmpty_eq_false_iff.2 hne
  simp only [LivenessEvaluator.antispoofMedian, hmodel, hempty, Bool.false_eq_true,
    if_false] at h
  cases hp : model.predictMedian fl frames with
  | error e =>
      rw [hp] at h
      cases h
  | ok p =>
      rw [hp] at h
      exact ⟨p, (Except.ok.inj h).symm, rfl⟩

/-- An accepted burst: the face that goes on to be embedded is its largest, and
the gate it passed is the median over the burst. -/
theorem CapturedLive.verdict {pr : Process} {ev : LivenessEvaluator} {model : AntiSpoofModel}
    {w w' : W} {b : BurstCapture} {ir : Option GrayImage} {report : LivenessReport}
    (h : CapturedLive S pr w ev b ir report w') (hmodel : ev.antispoof = some model) :
    ∃ path n v u frames detect probs,
      S w .rgbDevice path v ∧ S v (.captureBurst path n) (.ok frames) u ∧
      pr.detector = .ok detect ∧
      BurstVerdict pr ev.config.spoofThreshold model (detectedFaces detect frames) probs b.frame
        b.face := by
  obtain ⟨v₁, u₁, hburst, -, hev, heval, hreal⟩ := h
  obtain ⟨n, v, frames, detect, ev', hpath, hframes, hdetect, hev', hbest, hmedian⟩ :=
    exec_captureBurstDetect hburst
  obtain rfl : ev' = ev := Except.ok.inj (hev'.symm.trans hev)
  obtain ⟨hmem, hlargest⟩ := bestFace_spec hbest
  have hne : (detectedFaces detect frames).map (fun (f, face) => (f, face.bbox)) ≠ [] := by
    intro hnil
    rw [List.map_eq_nil_iff.1 hnil] at hmem
    exact absurd hmem List.not_mem_nil
  obtain ⟨p, hp, hpredict⟩ := antispoofMedian_eq_ok hmodel hne hmedian
  obtain ⟨-, probs, rfl, hscored⟩ := predictMedian_eq_ok hpredict
  have hlt := (exec_evaluate_real heval hreal).1 _ hp
  have hprobs : probs ≠ [] := by
    rintro rfl
    exact hne (List.forall₂_nil_right_iff.1 hscored)
  exact ⟨b.path, n, v, v₁, frames, detect, probs, hpath, hframes, hdetect, hmem, hlargest,
    List.forall₂_map_left_iff.1 hscored, hlt, length_le_two_mul_countP_of_median_lt hlt hprobs⟩

/-- What liveness says about the frame that is embedded: it is the frame with
the largest face of a burst whose median spoof probability is below the
threshold. Its own probability is known only when no other frame shows a face. -/
theorem embedded_frame_passed_median {pr : Process} {ev : LivenessEvaluator}
    {model : AntiSpoofModel} {w w' : W} {emb : List F32} {signals : LivenessSignals}
    (hev : LivenessEvaluator.cached pr = .ok ev) (hmodel : ev.antispoof = some model)
    (h : Exec S (captureAndEmbedSignals pr).run w (.ok (emb, signals)) w') :
    ∃ path n v u frames detect probs frame face,
      S w .rgbDevice path v ∧ S v (.captureBurst path n) (.ok frames) u ∧
      pr.detector = .ok detect ∧
      Exec S (captureDetectLive pr).run w (.ok (frame, face, signals)) w' ∧
      EmbeddedFrom pr frame face emb ∧
      BurstVerdict pr ev.config.spoofThreshold model (detectedFaces detect frames) probs frame
        face ∧
      ((detectedFaces detect frames).length = 1 →
        ∃ p, model.predict pr.fl frame face.bbox = .ok p ∧ p < ev.config.spoofThreshold) := by
  obtain ⟨frame, face, hlive, hemb⟩ := exec_captureAndEmbedSignals h
  obtain ⟨ev', b, ir, report, hcaptured, rfl, rfl, rfl⟩ := exec_captureDetectLive hlive
  obtain rfl : ev' = ev := by
    obtain ⟨-, -, -, -, hev', -⟩ := hcaptured
    exact Except.ok.inj (hev'.symm.trans hev)
  obtain ⟨path, n, v, u, frames, detect, probs, hpath, hframes, hdetect, hverdict⟩ :=
    hcaptured.verdict hmodel
  exact ⟨path, n, v, u, frames, detect, probs, b.frame, b.face, hpath, hframes, hdetect, hlive,
    hemb, hverdict, hverdict.own_score⟩

/-! A burst of five frames, four of a live face and one of a photo held closer
to the camera. -/

def LIVE_PIXEL : Rgb := ⟨200, 150, 130⟩

def PHOTO_PIXEL : Rgb := ⟨90, 90, 90⟩

def isLivePixel (f : Frame) : Bool := f.getPixel 0 0 == LIVE_PIXEL

/-- The simulated process with a detector, an anti-spoof model and an embedder
that tell the two kinds of frames apart. -/
def mixedProcess : Process :=
  { simulatedProcess with
    detector := .ok fun f =>
      .ok [frontalFace (if isLivePixel f then ⟨5, 5, 15, 15⟩ else ⟨2, 2, 18, 18⟩)]
    embedder := .ok fun f => .ok (unitVector (if isLivePixel f then 0 else 1))
    loadSession := fun _ => .ok fun _ f _ =>
      .ok (if isLivePixel f then [-200, 0, -200] else [0, -200, -200]) }

def mixedScript : Script :=
  { simulatedScript with
    burst := [.fromPixel 20 20 LIVE_PIXEL, .fromPixel 20 20 LIVE_PIXEL,
      .fromPixel 20 20 PHOTO_PIXEL, .fromPixel 20 20 LIVE_PIXEL, .fromPixel 20 20 LIVE_PIXEL] }

def mixedModel : AntiSpoofModel where
  members := [⟨27 / 10, "2.7_V2", fun f _ =>
    .ok (if isLivePixel f then [-200, 0, -200] else [0, -200, -200])⟩]

def mixedEvaluator : LivenessEvaluator where
  config := LivenessConfig.fromEnv mixedProcess
  antispoof := some mixedModel

theorem cached_mixedProcess : LivenessEvaluator.cached mixedProcess = .ok mixedEvaluator := rfl

/-- The burst is accepted, and what it returns is the embedding of the photo. -/
theorem exec_mixed_burst :
    ∃ signals w', Exec (World.Step simulatedUnseal .none)
      (captureAndEmbedSignals mixedProcess).run emptyWorld (.ok (unitVector 1, signals)) w' := by
  obtain ⟨w', hexec⟩ : ∃ w', Exec (World.Step simulatedUnseal .none)
      (captureAndEmbed mixedProcess).run emptyWorld (.ok (unitVector 1)) w' :=
    mixedScript.exec_of_run 5 (by decide +kernel)
  obtain ⟨⟨emb, signals⟩, v, hsignals, hret⟩ := exec_exceptT_bind_ok.1 hexec
  obtain ⟨hemb, rfl⟩ := exec_exceptT_pure.1 hret
  rw [Except.ok.inj hemb]
  exact ⟨signals, _, hsignals⟩

theorem embedded_frame_passed_median_mixed :
    ∃ found probs frame face, BurstVerdict mixedProcess (1 / 2) mixedModel found probs frame face ∧
      EmbeddedFrom mixedProcess frame face (unitVector 1) := by
  obtain ⟨signals, w', hexec⟩ := exec_mixed_burst
  obtain ⟨-, -, -, -, frames, detect, probs, frame, face, -, -, -, -, hemb, hverdict, -⟩ :=
    embedded_frame_passed_median cached_mixedProcess rfl hexec
  exact ⟨_, probs, frame, face, hverdict, hemb⟩

theorem predict_mixed_photo {frame : Frame} {bbox : BBox} (hphoto : isLivePixel frame = false) :
    mixedModel.predict mixedProcess.fl frame bbox = .ok 1 := by
  have hsoftmax : softmax mixedProcess.fl [0, -200, -200] = [1, 0, 0] := by decide +kernel
  simp [AntiSpoofModel.predict, mixedModel, AntiSpoofModel.memberProbs, hphoto, hsoftmax]
  norm_num [clamp]

private theorem predict_of_embeddedFrom_mixed {frame : Frame} {face : Face} {bbox : BBox}
    (h : EmbeddedFrom mixedProcess frame face (unitVector 1)) :
    mixedModel.predict mixedProcess.fl frame bbox = .ok 1 := by
  obtain ⟨aligned, infer, out, halign, hinfer, hout, hcheck⟩ := h
  obtain rfl : frame = aligned := Except.ok.inj halign
  obtain rfl := Except.ok.inj hinfer
  have hphoto : isLivePixel frame = false := by
    cases hlive : isLivePixel frame with
    | false => rfl
    | true =>
        obtain rfl := Except.ok.inj hout
        rw [hlive] at hcheck
        exact absurd hcheck (by decide +kernel)
  exact predict_mixed_photo hphoto

theorem not_embedded_frame_live :
    ¬ ∀ (W : Type) (S : Semantics host W) (pr : Process) (ev : LivenessEvaluator)
      (model : AntiSpoofModel) (w w' : W) (emb : List F32) (signals : LivenessSignals),
      LivenessEvaluator.cached pr = .ok ev → ev.antispoof = some model →
      Exec S (captureAndEmbedSignals pr).run w (.ok (emb, signals)) w' →
      ∃ frame face v p, Exec S (captureDetectLive pr).run w (.ok (frame, face, signals)) v ∧
        EmbeddedFrom pr frame face emb ∧ model.predict pr.fl frame face.bbox = .ok p ∧
        p < ev.config.spoofThreshold := by
  intro hall
  obtain ⟨signals, w', hexec⟩ := exec_mixed_burst
  obtain ⟨frame, face, v, p, -, hemb, hp, hlt⟩ :=
    hall _ _ mixedProcess mixedEvaluator mixedModel _ _ _ _ cached_mixedProcess rfl hexec
  obtain rfl : (1 : ℚ) = p := Except.ok.inj ((predict_of_embeddedFrom_mixed hemb).symm.trans hp)
  have hthreshold : mixedEvaluator.config.spoofThreshold = 1 / 2 := rfl
  rw [hthreshold] at hlt
  norm_num at hlt

end Linhello.Biometrics
