import Linhello.Common.Error
import Linhello.Liveness.Image
import Linhello.Select.Greedy
/-!
# Face detection

What the detector makes of the nine tensors of an SCRFD inference (`detect.rs`): anchors
are decoded stride by stride, mapped back from the letterboxed input into the frame, and
overlapping boxes are suppressed.
-/

namespace Linhello.Biometrics

open Common (LinuxHelloError)
open Liveness Select

def INPUT_SIZE : Nat := 640

def STRIDES : List Nat := [8, 16, 32]

def NUM_ANCHORS : Nat := 2

def SCORE_THRESHOLD : ℚ := 1 / 2

def NMS_IOU : ℚ := 4 / 10

/-! ## Decoding -/

/-- The face of one anchor, if its score reaches the threshold. -/
def decodeAnchor (stride gridW : Nat) (scores bboxes kpses : List ℚ) (i : Nat) : Option Face :=
  let s := scores.getD i 0
  if s < SCORE_THRESHOLD then none
  else
    let cell := i / NUM_ANCHORS
    let cx : ℚ := (cell % gridW : Nat) * stride
    let cy : ℚ := (cell / gridW : Nat) * stride
    let b j := bboxes.getD (i * 4 + j) 0 * stride
    let k j := kpses.getD (i * 10 + j) 0 * stride
    let point j : Point := { x := cx + k (j * 2), y := cy + k (j * 2 + 1) }
    some { score := s
           bbox := { x1 := cx - b 0, y1 := cy - b 1, x2 := cx + b 2, y2 := cy + b 3 }
           landmarks := { leftEye := point 0, rightEye := point 1, nose := point 2,
                          leftMouth := point 3, rightMouth := point 4 } }

def decodeStride (stride gridW gridH : Nat) (scores bboxes kpses : List ℚ) : List Face :=
  (List.range (gridW * gridH * NUM_ANCHORS)).filterMap
    (decodeAnchor stride gridW scores bboxes kpses)

/-- The faces of the `i`-th stride; short tensors are an error. -/
def decodeOutputs (all : List (List ℚ)) (i stride : Nat) : Except LinuxHelloError (List Face) :=
  let grid := INPUT_SIZE / stride
  let total := grid * grid * NUM_ANCHORS
  let scores := all.getD i []
  let bboxes := all.getD (i + 3) []
  let kpses := all.getD (i + 6) []
  if scores.length < total ∨ bboxes.length < total * 4 ∨ kpses.length < total * 10 then
    .error (.biometrics ("scrfd output too small at stride " ++ toString stride ++ ": scores=" ++
      toString scores.length ++ " bboxes=" ++ toString bboxes.length ++ " kps=" ++
      toString kpses.length ++ " (need " ++ toString total ++ "/" ++ toString (total * 4) ++ "/" ++
      toString (total * 10) ++ ")"))
  else .ok (decodeStride stride grid grid scores bboxes kpses)

/-! ## Back into the frame -/

/-- How `letterbox` fits a frame into the square input. -/
structure Letterbox where
  scale : ℚ
  padX : ℚ
  padY : ℚ

def letterbox (w h : Nat) : Letterbox :=
  let scale := min ((INPUT_SIZE : ℚ) / w) ((INPUT_SIZE : ℚ) / h)
  -- `round` of a number that is not negative
  let nw := toU32 (w * scale + 1 / 2)
  let nh := toU32 (h * scale + 1 / 2)
  { scale := scale, padX := ((INPUT_SIZE - nw) / 2 : Nat), padY := ((INPUT_SIZE - nh) / 2 : Nat) }

def unpad (l : Letterbox) (p : Point) : Point :=
  { x := (p.x - l.padX) / l.scale, y := (p.y - l.padY) / l.scale }

def clampPoint (ow oh : Nat) (p : Point) : Point :=
  { x := clamp 0 (ow - 1) p.x, y := clamp 0 (oh - 1) p.y }

/-- The corners one by one, so a reversed box stays reversed. -/
def clampBox (ow oh : Nat) (b : BBox) : BBox :=
  let lo := clampPoint ow oh { x := b.x1, y := b.y1 }
  let hi := clampPoint ow oh { x := b.x2, y := b.y2 }
  { x1 := lo.x, y1 := lo.y, x2 := hi.x, y2 := hi.y }

def unpadBox (l : Letterbox) (b : BBox) : BBox :=
  let lo := unpad l { x := b.x1, y := b.y1 }
  let hi := unpad l { x := b.x2, y := b.y2 }
  { x1 := lo.x, y1 := lo.y, x2 := hi.x, y2 := hi.y }

def backIntoFrame (ow oh : Nat) (f : Face) : Face :=
  let l := letterbox ow oh
  let point p := clampPoint ow oh (unpad l p)
  { f with
    bbox := clampBox ow oh (unpadBox l f.bbox)
    landmarks := { leftEye := point f.landmarks.leftEye, rightEye := point f.landmarks.rightEye,
                   nose := point f.landmarks.nose, leftMouth := point f.landmarks.leftMouth,
                   rightMouth := point f.landmarks.rightMouth } }

/-! ## Suppression -/

def iou (a b : BBox) : ℚ :=
  let x1 := max a.x1 b.x1
  let y1 := max a.y1 b.y1
  let x2 := min a.x2 b.x2
  let y2 := min a.y2 b.y2
  let inter := max (x2 - x1) 0 * max (y2 - y1) 0
  let union := a.area + b.area - inter
  if union ≤ 0 then 0 else inter / union

def apart (thresh : ℚ) (f k : Face) : Bool := iou f.bbox k.bbox < thresh

def sortFaces (faces : List Face) : List Face := faces.insertionSort fun a b => b.score ≤ a.score

def nms (faces : List Face) (thresh : ℚ) : List Face := select (apart thresh) (sortFaces faces)

/-- `Detector::detect` behind the inference, on the tensors it returned. -/
def detections (ow oh : Nat) (all : List (List ℚ)) : Except LinuxHelloError (List Face) := do
  if all.length < 9 then
    throw (.biometrics ("scrfd returned " ++ toString all.length ++ " outputs, expected 9"))
  let faces ← STRIDES.zipIdx.mapM fun (stride, i) => decodeOutputs all i stride
  pure (nms (faces.flatten.map (backIntoFrame ow oh)) NMS_IOU)

/-! ## What suppression leaves -/

theorem iou_comm (a b : BBox) : iou a b = iou b a := by
  simp only [iou, max_comm a.x1, max_comm a.y1, min_comm a.x2, min_comm a.y2, add_comm a.area]

variable {faces : List Face} {thresh : ℚ}

theorem sortFaces_sorted (faces : List Face) :
    (sortFaces faces).Pairwise fun a b => b.score ≤ a.score :=
  have : Std.Total fun a b : Face => b.score ≤ a.score := ⟨fun a b => le_total b.score a.score⟩
  have : IsTrans Face fun a b => b.score ≤ a.score := ⟨fun _ _ _ hab hbc => hbc.trans hab⟩
  List.pairwise_insertionSort _ faces

theorem sortFaces_of_sorted (h : faces.Pairwise fun a b => b.score ≤ a.score) :
    sortFaces faces = faces :=
  h.insertionSort_eq

/-- What a selection from overlapping faces has to meet. -/
structure Suppressed (thresh : ℚ) (faces kept : List Face) : Prop where
  /-- Every other face overlaps one that is kept and scores no less. -/
  covered : ∃ dropped, faces.Perm (kept ++ dropped) ∧
    ∀ f ∈ dropped, ∃ k ∈ kept, f.score ≤ k.score ∧ thresh ≤ iou f.bbox k.bbox
  sorted : kept.Pairwise fun a b => b.score ≤ a.score
  apart : kept.Pairwise fun a b => iou a.bbox b.bbox < thresh
  best : ∀ k ∈ kept.head?, ∀ f ∈ faces, f.score ≤ k.score
  nonempty : faces ≠ [] → kept ≠ []
  idempotent : nms kept thresh = kept

/-- `nms` keeps faces that are apart, covers the others, and has the best one first. -/
theorem nms_suppressed (faces : List Face) (thresh : ℚ) :
    Suppressed thresh faces (nms faces thresh) := by
  have hsorted := sortFaces_sorted faces
  have hperm : (sortFaces faces).Perm faces := List.perm_insertionSort _ faces
  have hselected : Selected (Biometrics.apart thresh) (fun a b => b.score ≤ a.score)
      (sortFaces faces) (nms faces thresh) := selected_select hsorted
  have hkept : (nms faces thresh).Pairwise fun a b => b.score ≤ a.score :=
    hsorted.sublist hselected.sublist
  constructor
  · obtain ⟨dropped, hparts, hcovered⟩ := hselected.covered
    refine ⟨dropped, hperm.symm.trans hparts, fun f hf => ?_⟩
    obtain ⟨k, hk, hscore, hclash⟩ := hcovered f hf
    exact ⟨k, hk, hscore, not_lt.1 (of_decide_eq_false hclash)⟩
  · exact hkept
  · refine hselected.apart.imp fun {a b} hab => ?_
    rw [iou_comm]
    exact of_decide_eq_true hab
  · intro k hk f hf
    rw [nms, head?_select] at hk
    have hf' : f ∈ sortFaces faces := hperm.symm.subset hf
    cases hlist : sortFaces faces with
    | nil =>
        rw [hlist] at hk
        cases hk
    | cons first rest =>
        rw [hlist] at hk hf' hsorted
        obtain rfl : first = k := Option.some.inj hk
        cases List.mem_cons.1 hf' with
        | inl hfirst => exact (congrArg Face.score hfirst).le
        | inr hrest => exact List.rel_of_pairwise_cons hsorted hrest
  · intro hne
    apply select_ne_nil
    intro hnil
    rw [hnil] at hperm
    exact hne hperm.nil_eq.symm
  · rw [nms, sortFaces_of_sorted hkept]
    exact select_idem _

/-! ## What the detector returns -/

variable {all : List (List ℚ)} {ow oh i stride gridW : Nat} {scores bboxes kpses : List ℚ}
  {f : Face}

private theorem le_score_of_decodeAnchor (h :
      decodeAnchor stride gridW scores bboxes kpses i = some f) :
    SCORE_THRESHOLD ≤ f.score := by
  unfold decodeAnchor at h
  simp only at h
  split at h
  · cases h
  · next hscore =>
      obtain rfl := Option.some.inj h
      exact not_lt.1 hscore

theorem le_score_of_decodeOutputs (h : decodeOutputs all i stride = .ok faces) :
    ∀ f ∈ faces, SCORE_THRESHOLD ≤ f.score := by
  intro f hf
  unfold decodeOutputs at h
  simp only at h
  split at h
  · cases h
  · obtain rfl := Except.ok.inj h
    obtain ⟨i, -, hanchor⟩ := List.mem_filterMap.1 hf
    exact le_score_of_decodeAnchor hanchor

def InFrame (ow oh : Nat) (p : Point) : Prop := 0 ≤ p.x ∧ p.x ≤ ow - 1 ∧ 0 ≤ p.y ∧ p.y ≤ oh - 1

theorem inFrame_clampPoint (how : 0 < ow) (hoh : 0 < oh) (p : Point) :
    InFrame ow oh (clampPoint ow oh p) := by
  have hw : (1 : ℚ) ≤ ow := Nat.one_le_cast.2 how
  have hh : (1 : ℚ) ≤ oh := Nat.one_le_cast.2 hoh
  exact ⟨le_clamp, clamp_le (by linarith), le_clamp, clamp_le (by linarith)⟩

/-- The box and the landmarks of a face are on the frame. -/
structure FaceInFrame (ow oh : Nat) (f : Face) : Prop where
  upper : InFrame ow oh ⟨f.bbox.x1, f.bbox.y1⟩
  lower : InFrame ow oh ⟨f.bbox.x2, f.bbox.y2⟩
  leftEye : InFrame ow oh f.landmarks.leftEye
  rightEye : InFrame ow oh f.landmarks.rightEye
  nose : InFrame ow oh f.landmarks.nose
  leftMouth : InFrame ow oh f.landmarks.leftMouth
  rightMouth : InFrame ow oh f.landmarks.rightMouth

private theorem faceInFrame_backIntoFrame (how : 0 < ow) (hoh : 0 < oh) (f : Face) :
    FaceInFrame ow oh (backIntoFrame ow oh f) := by
  constructor <;> exact inFrame_clampPoint how hoh _

/-- Whatever the network puts into the tensors: the faces returned for a frame reach the score
threshold, lie on the frame, come by falling score and do not overlap. -/
theorem detections_ok (how : 0 < ow) (hoh : 0 < oh) (h : detections ow oh all = .ok faces) :
    (∀ f ∈ faces, SCORE_THRESHOLD ≤ f.score ∧ FaceInFrame ow oh f) ∧
    (faces.Pairwise fun a b => b.score ≤ a.score) ∧
    faces.Pairwise fun a b => iou a.bbox b.bbox < NMS_IOU := by
  unfold detections at h
  split at h
  · cases h
  · obtain ⟨decoded, hdecoded, hfaces⟩ := Common.bind_eq_ok.1 h
    obtain rfl := Except.ok.inj hfaces
    have hkept := nms_suppressed (decoded.flatten.map (backIntoFrame ow oh)) NMS_IOU
    obtain ⟨dropped, hperm, -⟩ := hkept.covered
    refine ⟨fun f hf => ?_, hkept.sorted, hkept.apart⟩
    obtain ⟨g, hg, rfl⟩ := List.mem_map.1 (hperm.symm.subset (List.mem_append_left _ hf))
    obtain ⟨gs, hgs, hg⟩ := List.mem_flatten.1 hg
    obtain ⟨⟨stride, i⟩, -, houtputs⟩ := Common.exists_of_mem_mapM hdecoded hgs
    exact ⟨le_score_of_decodeOutputs houtputs g hg, faceInFrame_backIntoFrame how hoh g⟩

end Linhello.Biometrics
