import Mathlib.Data.List.GetD
import Mathlib.Tactic.Linarith
import Linhello.Common.Error
import Linhello.Liveness.Image
import Linhello.Stat.OrderStatistic
/-!
# MiniFASNet anti-spoof

The ensemble score of one frame (`AntiSpoofModel::predict`) and the median over
a burst (`predict_median`). A member's inference is a parameter: it stands for
the crop, the preprocessing and the ONNX session, and returns the raw logits.
-/

namespace Linhello.Liveness

open Common (LinuxHelloError)
open Stat

/-- One model of the ensemble. `run` yields the logits for a frame and a box, or
the text of the inference error. -/
structure Member where
  scale : ℚ
  label : String
  run : Frame → BBox → Except String (List ℚ)

structure AntiSpoofModel where
  members : List Member

def softmax (fl : FloatLib) (x : List ℚ) : List ℚ :=
  -- the fold starts at minus infinity, so it is the maximum of `x`
  let m := x.max?.getD 0
  let exps := x.map fun v => fl.exp (v - m)
  let s := exps.sum
  if 0 < s then exps.map (· / s) else List.replicate x.length 0

namespace AntiSpoofModel

/-- The class probabilities one member contributes. -/
def memberProbs (fl : FloatLib) (m : Member) (frame : Frame) (bbox : BBox) :
    Except LinuxHelloError (List ℚ) :=
  match m.run frame bbox with
  | .error e => .error (.biometrics ("antispoof inference (" ++ m.label ++ "): " ++ e))
  | .ok logits =>
      if logits.length < 2 then
        .error (.biometrics ("unexpected antispoof output shape from " ++ m.label ++ " (len " ++
          toString logits.length ++ ")"))
      else .ok (softmax fl logits)

/-- Spoof probability of one frame: the members' softmax outputs are averaged and
class 1 is read as "real". -/
def predict (fl : FloatLib) (model : AntiSpoofModel) (frame : Frame) (bbox : BBox) :
    Except LinuxHelloError ℚ := do
  let probs ← model.members.mapM fun m => memberProbs fl m frame bbox
  let realSum := (probs.map fun p => p.getD 1 0).sum
  let realP := realSum / model.members.length
  pure (clamp 0 1 (1 - realP))

/-- Median of `v`; the average of the two middle values for even length. -/
def median (v : List ℚ) : ℚ :=
  let v := v.insertionSort (· ≤ ·)
  let n := v.length
  if n = 0 then 0
  else if n % 2 = 1 then v.getD (n / 2) 0
  else (v.getD (n / 2 - 1) 0 + v.getD (n / 2) 0) / 2

/-- The median of the per-frame spoof probabilities. -/
def predictMedian (fl : FloatLib) (model : AntiSpoofModel) (frames : List (Frame × BBox)) :
    Except LinuxHelloError ℚ := do
  if frames = [] then
    throw (.biometrics "anti-spoof: no frames to score")
  let probs ← frames.mapM fun (frame, bbox) => model.predict fl frame bbox
  pure (median probs)

end AntiSpoofModel

/-! ## What a median below the threshold says -/

/-- The median averages the two middle entries, which are the same one for odd length. -/
theorem median_eq_average {v : List ℚ} (hv : 0 < v.length) :
    AntiSpoofModel.median v =
      (kth v ((v.length - 1) / 2) (by omega) + kth v (v.length / 2) (by omega)) / 2 := by
  have hget : ∀ {i : Nat} (hi : i < v.length), (v.insertionSort (· ≤ ·)).getD i 0 = kth v i hi :=
    fun hi => List.getD_eq_getElem _ 0 (by rwa [List.length_insertionSort])
  simp only [AntiSpoofModel.median, List.length_insertionSort]
  rw [if_neg (by omega)]
  by_cases hodd : v.length % 2 = 1
  · have hmid : (v.length - 1) / 2 = v.length / 2 := by omega
    rw [if_pos hodd, hget (by omega)]
    simp only [hmid, add_self_div_two]
  · have hlow : v.length / 2 - 1 = (v.length - 1) / 2 := by omega
    rw [if_neg hodd, hlow, hget (by omega), hget (by omega)]

/-- A median below `t` has at least half of the values below `t`. -/
theorem length_le_two_mul_countP_of_median_lt {v : List ℚ} {t : ℚ}
    (h : AntiSpoofModel.median v < t) (hv : v ≠ []) : v.length ≤ 2 * v.countP (· < t) := by
  have hpos : 0 < v.length := List.length_pos_iff.2 hv
  rw [median_eq_average hpos] at h
  have hle := kth_le_kth (v := v) (i := (v.length - 1) / 2) (j := v.length / 2) (by omega)
    (by omega)
  -- the smaller of the two middle values is at most their average
  have hlow : kth v ((v.length - 1) / 2) (by omega) < t := by linarith
  rw [kth_lt_iff] at hlow
  omega

/-- The burst is scored frame by frame and the result is the median. -/
theorem predictMedian_eq_ok {fl : FloatLib} {model : AntiSpoofModel}
    {frames : List (Frame × BBox)} {p : ℚ} (h : model.predictMedian fl frames = .ok p) :
    frames ≠ [] ∧ ∃ probs, p = AntiSpoofModel.median probs ∧
      List.Forall₂ (fun x q => model.predict fl x.1 x.2 = .ok q) frames probs := by
  unfold AntiSpoofModel.predictMedian at h
  split at h
  · cases h
  · rename_i hne
    change (frames.mapM fun x => model.predict fl x.1 x.2) >>=
      (fun probs => pure (AntiSpoofModel.median probs)) = .ok p at h
    cases hprobs : frames.mapM fun x => model.predict fl x.1 x.2 with
    | error e =>
        rw [hprobs] at h
        cases h
    | ok probs =>
        rw [hprobs] at h
        exact ⟨hne, probs, (Except.ok.inj h).symm, Common.forall₂_of_mapM hprobs⟩

theorem median_singleton (p : ℚ) : AntiSpoofModel.median [p] = p := by
  simp [AntiSpoofModel.median]

end Linhello.Liveness
