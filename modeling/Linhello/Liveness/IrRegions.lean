import Linhello.Liveness.Precision
/-!
# The pixels an IR evaluation reads

The face region and its centre as sets of coordinates, the frame as the disjoint sum of
the face region and the rest, and `ir::evaluate` once more with the checks the source's
operations make: an access outside the buffer and a negative unsigned difference have
no result.
-/

namespace Linhello.Liveness

/-! ## Coordinates -/

namespace Region

/-- The pixel `(x, y)` is in the region. -/
def Contains (r : Region) (p : Nat × Nat) : Prop :=
  r.x1 ≤ p.1 ∧ p.1 ≤ r.x2 ∧ r.y1 ≤ p.2 ∧ p.2 ≤ r.y2

instance (r : Region) (p : Nat × Nat) : Decidable (r.Contains p) :=
  inferInstanceAs (Decidable (_ ∧ _ ∧ _ ∧ _))

/-- Nonempty, and inside another region. -/
structure Within (r outer : Region) : Prop where
  left : outer.x1 ≤ r.x1
  width : r.x1 ≤ r.x2
  right : r.x2 ≤ outer.x2
  top : outer.y1 ≤ r.y1
  height : r.y1 ≤ r.y2
  bottom : r.y2 ≤ outer.y2

end Region

theorem mem_box {x1 y1 x2 y2 : Nat} {p : Nat × Nat} :
    p ∈ box x1 y1 x2 y2 ↔ (⟨x1, y1, x2, y2⟩ : Region).Contains p := by
  obtain ⟨x, y⟩ := p
  simp only [box, Region.Contains, List.mem_flatMap, List.mem_map, List.mem_range'_1,
    Prod.mk.injEq]
  constructor
  · rintro ⟨y', hy, x', hx, rfl, rfl⟩
    omega
  · rintro ⟨hx1, hx2, hy1, hy2⟩
    exact ⟨y, by omega, x, by omega, rfl, rfl⟩

theorem filter_range' {a b n : Nat} (hb : b < n) :
    (List.range n).filter (fun i => decide (a ≤ i ∧ i ≤ b)) = List.range' a (b + 1 - a) := by
  have hkept : ((List.range n).filter fun i => decide (a ≤ i ∧ i ≤ b)).Pairwise (· < ·) :=
    List.pairwise_lt_range.filter _
  have hrange : (List.range' a (b + 1 - a)).Pairwise (· < ·) := List.pairwise_lt_range'
  have hperm : ((List.range n).filter fun i => decide (a ≤ i ∧ i ≤ b)).Perm
      (List.range' a (b + 1 - a)) := by
    rw [List.perm_ext_iff_of_nodup (List.nodup_range.filter _) List.nodup_range']
    intro i
    simp only [List.mem_filter, List.mem_range, decide_eq_true_eq, List.mem_range'_1]
    omega
  apply hperm.eq_of_pairwise _ hkept hrange
  intro x y _ _ hxy hyx
  omega

private theorem flatMap_filter {α β : Type} (p : α → Bool) (f : α → List β) (l : List α) :
    (l.filter p).flatMap f = l.flatMap fun a => if p a then f a else [] := by
  induction l with
  | nil => rfl
  | cons a l ih =>
      by_cases ha : p a = true
      · rw [List.filter_cons_of_pos ha, List.flatMap_cons, List.flatMap_cons, if_pos ha, ih]
      · rw [List.filter_cons_of_neg ha, List.flatMap_cons, if_neg ha, ih, List.nil_append]

/-- Row by row, the coordinates of a region are those of the frame that lie in it. -/
theorem filter_box {r : Region} {w h : Nat} (hx : r.x2 < w) (hy : r.y2 < h) :
    (box 0 0 (w - 1) (h - 1)).filter (fun p => decide (r.Contains p)) =
      box r.x1 r.y1 r.x2 r.y2 := by
  have hw : w - 1 + 1 - 0 = w := by omega
  have hh : h - 1 + 1 - 0 = h := by omega
  unfold box
  rw [hw, hh, ← List.range_eq_range', ← List.range_eq_range', ← filter_range' hy,
    ← filter_range' hx, List.filter_flatMap, flatMap_filter]
  apply List.flatMap_congr
  intro y _
  by_cases hyin : r.y1 ≤ y ∧ y ≤ r.y2
  · rw [if_pos (by simpa using hyin), List.filter_map]
    congr 1
    apply List.filter_congr
    intro x _
    simp [Region.Contains, hyin.1, hyin.2]
  · rw [if_neg (by simpa using hyin), List.filter_eq_nil_iff]
    intro p hp
    obtain ⟨x, -, rfl⟩ := List.mem_map.1 hp
    rw [decide_eq_true_eq]
    exact fun hin => hyin hin.2.2

/-- Rows of `w` entries, one after the other, number the entries of a buffer. -/
theorem flatMap_rows {α : Type} (f : Nat → α) (w h : Nat) :
    ((List.range h).flatMap fun y => (List.range w).map fun x => f (y * w + x)) =
      (List.range (h * w)).map f := by
  induction h with
  | zero => simp
  | succ h ih =>
      rw [List.range_succ, List.flatMap_append, ih, Nat.succ_mul, List.range_add,
        List.map_append]
      simp [Function.comp_def]

theorem valuesIn_frame {ir : GrayImage} (hw : 1 ≤ ir.width) (hh : 1 ≤ ir.height) :
    valuesIn ir 0 0 (ir.width - 1) (ir.height - 1) = ir.pixels.map UInt8.toNat := by
  have hw' : ir.width - 1 + 1 - 0 = ir.width := by omega
  have hh' : ir.height - 1 + 1 - 0 = ir.height := by omega
  have hread : ∀ y ∈ List.range ir.height, ∀ x ∈ List.range ir.width,
      (ir.getPixel x y).toNat = (ir.pixels.getD (y * ir.width + x) default).toNat := by
    intro y hy x hx
    rw [Image.getPixel, if_pos ⟨List.mem_range.1 hx, List.mem_range.1 hy⟩]
  have hrows := flatMap_rows (fun i => (ir.pixels.getD i default).toNat) ir.width ir.height
  unfold valuesIn box
  rw [hw', hh', ← List.range_eq_range', ← List.range_eq_range', List.map_flatMap]
  simp only [List.map_map]
  rw [show (List.range ir.height).flatMap (fun y => (List.range ir.width).map
      ((fun p : Nat × Nat => (ir.getPixel p.1 p.2).toNat) ∘ fun x => (x, y))) =
      (List.range ir.height).flatMap fun y => (List.range ir.width).map fun x =>
        (ir.pixels.getD (y * ir.width + x) default).toNat from
    List.flatMap_congr fun y hy => List.map_congr_left fun x hx => hread y hy x hx, hrows]
  apply List.ext_getElem
  · rw [List.length_map, List.length_range, List.length_map, ir.size_eq, Nat.mul_comm]
  · intro i hi hi'
    rw [List.length_map] at hi'
    simp [hi']

/-! ## Face and background -/

/-- The values of the pixels outside a region. -/
def Region.outside (r : Region) (ir : GrayImage) : List Nat :=
  ((box 0 0 (ir.width - 1) (ir.height - 1)).filter fun p => !decide (r.Contains p)).map
    fun (x, y) => (ir.getPixel x y).toNat

def frameRegion (ir : GrayImage) : Region := ⟨0, 0, ir.width - 1, ir.height - 1⟩

/-- The values of a frame are those of a region and those outside it. -/
theorem perm_values_outside {ir : GrayImage} {r : Region} (hw : 1 ≤ ir.width)
    (hh : 1 ≤ ir.height) (hr : r.Within (frameRegion ir)) :
    (r.values ir ++ r.outside ir).Perm (ir.pixels.map UInt8.toNat) := by
  have hx : r.x2 < ir.width := by
    have := hr.right
    simp only [frameRegion] at this
    omega
  have hy : r.y2 < ir.height := by
    have := hr.bottom
    simp only [frameRegion] at this
    omega
  rw [← valuesIn_frame hw hh]
  unfold Region.values Region.outside valuesIn
  rw [← filter_box hx hy, ← List.map_append]
  exact (List.filter_append_perm _ _).map _

theorem values_ne_nil (ir : GrayImage) {r outer : Region} (hr : r.Within outer) :
    r.values ir ≠ [] := by
  have hmem : (r.x1, r.y1) ∈ box r.x1 r.y1 r.x2 r.y2 :=
    mem_box.2 ⟨le_rfl, hr.width, le_rfl, hr.height⟩
  exact List.ne_nil_of_mem (List.mem_map_of_mem hmem)

theorem toU32_clamp_lt {w : Nat} (hw : 1 ≤ w) (q : ℚ) :
    toU32 (clamp 0 ((w : ℚ) - 1) q) ≤ w - 1 := by
  have hnonneg : (0 : ℚ) ≤ (w : ℚ) - 1 := by
    have : (1 : ℚ) ≤ w := by exact_mod_cast hw
    linarith
  have hle : clamp 0 ((w : ℚ) - 1) q ≤ ((w - 1 : ℕ) : ℚ) := by
    rw [Nat.cast_sub hw, Nat.cast_one]
    exact clamp_le hnonneg
  have hfloor : ⌊clamp 0 ((w : ℚ) - 1) q⌋ ≤ ((w - 1 : ℕ) : ℤ) := by
    have := Int.floor_mono hle
    rwa [Int.floor_natCast] at this
  unfold toU32
  omega

theorem faceRegion_within {ir : GrayImage} (hw : 1 ≤ ir.width) (hh : 1 ≤ ir.height) (bbox : BBox)
    (rgbSize : Nat × Nat) : (faceRegion ir bbox rgbSize).Within (frameRegion ir) := by
  have hx := toU32_clamp_lt hw
  have hy := toU32_clamp_lt hh
  constructor <;> simp only [faceRegion, frameRegion]
  · omega
  · have := hx (bbox.x1 * (ir.width / max (rgbSize.1 : ℚ) 1))
    omega
  · omega
  · omega
  · have := hy (bbox.y1 * (ir.height / max (rgbSize.2 : ℚ) 1))
    omega
  · omega

theorem center_within {f c : Region} (h : f.center = some c) : c.Within f := by
  simp only [Region.center] at h
  split at h
  · rename_i hwide
    obtain rfl := Option.some.inj h
    constructor <;> dsimp only <;> omega
  · cases h

/-! ## The checked evaluation -/

namespace Checked

/-- Unsigned subtraction, which overflows below zero. -/
def sub (a b : Nat) : Option Nat := if b ≤ a then some (a - b) else none

/-- `get_pixel`, which panics outside the image. -/
def getPixel (ir : GrayImage) (x y : Nat) : Option Nat :=
  if x < ir.width ∧ y < ir.height then (ir.pixels[y * ir.width + x]?).map UInt8.toNat else none

def valuesIn (ir : GrayImage) (x1 y1 x2 y2 : Nat) : Option (List Nat) :=
  (box x1 y1 x2 y2).mapM fun (x, y) => getPixel ir x y

def eyeGlintAt (ir : GrayImage) (cx cy r : Int) : Option ℚ := do
  let w := wrapI32 ir.width
  let h := wrapI32 ir.height
  let x1 := (max (wrapI32 (cx - r)) 0).toNat
  let y1 := (max (wrapI32 (cy - r)) 0).toNat
  let x2 := min (wrapI32 (cx + r)) (wrapI32 (w - 1))
  let y2 := min (wrapI32 (cy + r)) (wrapI32 (h - 1))
  let vs ← if x2 < 0 ∨ y2 < 0 then some [] else valuesIn ir x1 y1 x2.toNat y2.toNat
  return glintOf vs

/-- The part of `evaluate` after the face region. -/
def evaluateRegion (fl : FloatLib) (ir : GrayImage) (f : Region) (l r : Int × Int) :
    Option IrSignals := do
  let face ← valuesIn ir f.x1 f.y1 f.x2 f.y2
  if face.length = 0 then return emptySignals
  let width ← sub f.x2 f.x1
  let glintR : Int := max 8 (min 28 ((wrapI32 width).tdiv 8))
  let left ← eyeGlintAt ir l.1 l.2 glintR
  let right ← eyeGlintAt ir r.1 r.2 glintR
  let height ← sub f.y2 f.y1
  let cx2 ← sub f.x2 (width / 4)
  let cy2 ← sub f.y2 (height / 4)
  let cx1 := f.x1 + width / 4
  let cy1 := f.y1 + height / 4
  let center ← if cx2 > cx1 ∧ cy2 > cy1 then valuesIn ir cx1 cy1 cx2 cy2 else some []
  return irStatistics fl (ir.width * ir.height) (ir.pixels.map UInt8.toNat).sum face center
    (min left right)

/-- `evaluate` once the box corners and the eyes are in whole IR pixels. -/
def evaluateAt (fl : FloatLib) (ir : GrayImage) (xa ya xb yb : Nat) (l r : Int × Int) :
    Option IrSignals := do
  let lastX ← sub ir.width 1
  let lastY ← sub ir.height 1
  evaluateRegion fl ir
    { x1 := min xa xb
      y1 := min ya yb
      x2 := min (max (max xa xb) ((xa + 1) % 2 ^ 32)) lastX
      y2 := min (max (max ya yb) ((ya + 1) % 2 ^ 32)) lastY } l r

/-- `evaluate` with the checks of the source's operations. -/
def evaluate (fl : FloatLib) (ir : GrayImage) (rgbBbox : BBox) (rgbSize : Nat × Nat)
    (lm : Landmarks) : Option IrSignals :=
  let iw : ℚ := ir.width
  let ih : ℚ := ir.height
  let sx := iw / max (rgbSize.1 : ℚ) 1
  let sy := ih / max (rgbSize.2 : ℚ) 1
  evaluateAt fl ir (toU32 (clamp 0 (iw - 1) (rgbBbox.x1 * sx)))
    (toU32 (clamp 0 (ih - 1) (rgbBbox.y1 * sy))) (toU32 (clamp 0 (iw - 1) (rgbBbox.x2 * sx)))
    (toU32 (clamp 0 (ih - 1) (rgbBbox.y2 * sy)))
    (toI32 (lm.leftEye.x * sx), toI32 (lm.leftEye.y * sy))
    (toI32 (lm.rightEye.x * sx), toI32 (lm.rightEye.y * sy))

theorem sub_eq_some {a b : Nat} (h : b ≤ a) : sub a b = some (a - b) := if_pos h

theorem getPixel_eq_some {ir : GrayImage} {x y : Nat} (hx : x < ir.width) (hy : y < ir.height) :
    getPixel ir x y = some (ir.getPixel x y).toNat := by
  have hrow : y * ir.width + x < ir.width * ir.height := by
    have : (y + 1) * ir.width ≤ ir.height * ir.width := Nat.mul_le_mul_right _ hy
    rw [Nat.succ_mul] at this
    rw [Nat.mul_comm ir.width]
    omega
  have hlen : y * ir.width + x < ir.pixels.length := by rwa [ir.size_eq]
  rw [getPixel, if_pos ⟨hx, hy⟩, Image.getPixel, if_pos ⟨hx, hy⟩, List.getD_eq_getElem?_getD,
    List.getElem?_eq_getElem hlen]
  rfl

/-- A box whose far corner is in the frame is read without a panic. -/
theorem valuesIn_eq_some {ir : GrayImage} {x1 y1 x2 y2 : Nat} (hx : x2 < ir.width)
    (hy : y2 < ir.height) :
    valuesIn ir x1 y1 x2 y2 = some (Liveness.valuesIn ir x1 y1 x2 y2) := by
  have hread : ∀ p ∈ box x1 y1 x2 y2, getPixel ir p.1 p.2 = some (ir.getPixel p.1 p.2).toNat := by
    intro p hp
    have hp := mem_box.1 hp
    exact getPixel_eq_some (lt_of_le_of_lt hp.2.1 hx) (lt_of_le_of_lt hp.2.2.2 hy)
  unfold valuesIn Liveness.valuesIn
  generalize box x1 y1 x2 y2 = ps at hread
  induction ps with
  | nil => rfl
  | cons p ps ih =>
      rw [List.mapM_cons, ih fun q hq => hread q (List.mem_cons_of_mem _ hq)]
      simp [hread p List.mem_cons_self]

/-- The last column an `i32` range reaches is in the frame, also where the casts wrap. -/
theorem wrapI32_pred_lt {w : Nat} (hw : 1 ≤ w) (hw' : w < 2 ^ 32) :
    wrapI32 (wrapI32 w - 1) < w := by
  unfold wrapI32
  rw [Int.bmod_def, Int.bmod_def]
  omega

theorem eyeGlintAt_eq_some {ir : GrayImage} (hw : 1 ≤ ir.width) (hh : 1 ≤ ir.height)
    (hw' : ir.width < 2 ^ 32) (hh' : ir.height < 2 ^ 32) (cx cy r : Int) :
    eyeGlintAt ir cx cy r = some (Liveness.eyeGlintAt ir cx cy r) := by
  have hx := wrapI32_pred_lt hw hw'
  have hy := wrapI32_pred_lt hh hh'
  unfold eyeGlintAt Liveness.eyeGlintAt
  simp only
  generalize wrapI32 (wrapI32 ir.width - 1) = lastX at *
  generalize wrapI32 (wrapI32 ir.height - 1) = lastY at *
  by_cases hempty : min (wrapI32 (cx + r)) lastX < 0 ∨ min (wrapI32 (cy + r)) lastY < 0
  · rw [if_pos hempty, if_pos hempty]
    rfl
  · rw [if_neg hempty, if_neg hempty, valuesIn_eq_some (by omega) (by omega)]
    rfl

/-- The region between two corners, with the source's repair of a reversed box. -/
def regionAt (ir : GrayImage) (xa ya xb yb : Nat) : Region where
  x1 := min xa xb
  y1 := min ya yb
  x2 := min (max (max xa xb) ((xa + 1) % 2 ^ 32)) (ir.width - 1)
  y2 := min (max (max ya yb) ((ya + 1) % 2 ^ 32)) (ir.height - 1)

/-- What the evaluation returns for a region and the two eyes. -/
def resultAt (fl : FloatLib) (ir : GrayImage) (f : Region) (l r : Int × Int) : IrSignals :=
  if (f.values ir).length = 0 then emptySignals
  else
    let glintR : Int := max 8 (min 28 ((wrapI32 (f.x2 - f.x1 : Nat)).tdiv 8))
    irStatistics fl (ir.width * ir.height) (ir.pixels.map UInt8.toNat).sum (f.values ir)
      (f.centerValues ir)
      (min (Liveness.eyeGlintAt ir l.1 l.2 glintR) (Liveness.eyeGlintAt ir r.1 r.2 glintR))

/-- In a region that ends in the frame no access is outside the image and no unsigned
difference is negative. -/
theorem evaluateRegion_eq_some {ir : GrayImage} (hw : 1 ≤ ir.width) (hh : 1 ≤ ir.height)
    (hw' : ir.width < 2 ^ 32) (hh' : ir.height < 2 ^ 32) (fl : FloatLib) {f : Region}
    (hright : f.x2 < ir.width) (hbottom : f.y2 < ir.height) (l r : Int × Int) :
    evaluateRegion fl ir f l r = some (resultAt fl ir f l r) := by
  have hglint := eyeGlintAt_eq_some hw hh hw' hh'
  have hread : valuesIn ir f.x1 f.y1 f.x2 f.y2 = some (f.values ir) :=
    valuesIn_eq_some hright hbottom
  unfold evaluateRegion resultAt
  simp only [hread, bind, Option.bind_some]
  by_cases hempty : (f.values ir).length = 0
  · rw [if_pos hempty, if_pos hempty]
    rfl
  · rw [if_neg hempty, if_neg hempty]
    -- a pixel has been read, so neither side of the region is negative
    have hpos : 0 < (box f.x1 f.y1 f.x2 f.y2).length := by
      rw [Region.values, Liveness.valuesIn, List.length_map] at hempty
      omega
    obtain ⟨p, hp⟩ := List.exists_mem_of_length_pos hpos
    obtain ⟨hx1, hx2, hy1, hy2⟩ := mem_box.1 hp
    have hwidth : sub f.x2 f.x1 = some (f.x2 - f.x1) := sub_eq_some (hx1.trans hx2)
    have hheight : sub f.y2 f.y1 = some (f.y2 - f.y1) := sub_eq_some (hy1.trans hy2)
    have hinsetX : sub f.x2 ((f.x2 - f.x1) / 4) = some (f.x2 - (f.x2 - f.x1) / 4) :=
      sub_eq_some (by omega)
    have hinsetY : sub f.y2 ((f.y2 - f.y1) / 4) = some (f.y2 - (f.y2 - f.y1) / 4) :=
      sub_eq_some (by omega)
    simp only [hwidth, hheight, hinsetX, hinsetY, hglint, Option.bind_some]
    by_cases hcenter : f.x2 - (f.x2 - f.x1) / 4 > f.x1 + (f.x2 - f.x1) / 4 ∧
        f.y2 - (f.y2 - f.y1) / 4 > f.y1 + (f.y2 - f.y1) / 4
    · have hc : f.center = some ⟨f.x1 + (f.x2 - f.x1) / 4, f.y1 + (f.y2 - f.y1) / 4,
          f.x2 - (f.x2 - f.x1) / 4, f.y2 - (f.y2 - f.y1) / 4⟩ := if_pos hcenter
      rw [if_pos hcenter, Region.centerValues, hc, valuesIn_eq_some (by omega) (by omega)]
      rfl
    · have hc : f.center = none := if_neg hcenter
      rw [if_neg hcenter, Region.centerValues, hc]
      rfl

/-- Whatever the corners and the eyes are, the evaluation has a result. -/
theorem evaluateAt_eq_some {ir : GrayImage} (hw : 1 ≤ ir.width) (hh : 1 ≤ ir.height)
    (hw' : ir.width < 2 ^ 32) (hh' : ir.height < 2 ^ 32) (fl : FloatLib) (xa ya xb yb : Nat)
    (l r : Int × Int) :
    evaluateAt fl ir xa ya xb yb l r =
      some (resultAt fl ir (regionAt ir xa ya xb yb) l r) := by
  have hright : (regionAt ir xa ya xb yb).x2 < ir.width := by
    simp only [regionAt]
    omega
  have hbottom : (regionAt ir xa ya xb yb).y2 < ir.height := by
    simp only [regionAt]
    omega
  rw [← evaluateRegion_eq_some hw hh hw' hh' fl hright hbottom, evaluateAt, sub_eq_some hw,
    sub_eq_some hh]
  rfl

end Checked

/-! ## The evaluation in range -/

private theorem irEvaluate_eq_resultAt {fl : FloatLib} {ir : GrayImage} {bbox : BBox}
    {rgbSize : Nat × Nat} {lm : Landmarks} :
    irEvaluate fl ir bbox rgbSize lm =
      Checked.resultAt fl ir (faceRegion ir bbox rgbSize)
        (toI32 (lm.leftEye.x * (ir.width / max (rgbSize.1 : ℚ) 1)),
          toI32 (lm.leftEye.y * (ir.height / max (rgbSize.2 : ℚ) 1)))
        (toI32 (lm.rightEye.x * (ir.width / max (rgbSize.1 : ℚ) 1)),
          toI32 (lm.rightEye.y * (ir.height / max (rgbSize.2 : ℚ) 1))) :=
  rfl

theorem checked_evaluate_eq_some {ir : GrayImage} (hw : 1 ≤ ir.width) (hh : 1 ≤ ir.height)
    (hw' : ir.width < 2 ^ 32) (hh' : ir.height < 2 ^ 32) (fl : FloatLib) (bbox : BBox)
    (rgbSize : Nat × Nat) (lm : Landmarks) :
    Checked.evaluate fl ir bbox rgbSize lm = some (irEvaluate fl ir bbox rgbSize lm) := by
  have hx := toU32_clamp_lt hw (bbox.x1 * (ir.width / max (rgbSize.1 : ℚ) 1))
  have hy := toU32_clamp_lt hh (bbox.y1 * (ir.height / max (rgbSize.2 : ℚ) 1))
  unfold Checked.evaluate
  simp only
  rw [Checked.evaluateAt_eq_some hw hh hw' hh', irEvaluate_eq_resultAt]
  -- the corner is in the frame, so that adding one does not wrap
  have hregion : Checked.regionAt ir
      (toU32 (clamp 0 (ir.width - 1) (bbox.x1 * (ir.width / max (rgbSize.1 : ℚ) 1))))
      (toU32 (clamp 0 (ir.height - 1) (bbox.y1 * (ir.height / max (rgbSize.2 : ℚ) 1))))
      (toU32 (clamp 0 (ir.width - 1) (bbox.x2 * (ir.width / max (rgbSize.1 : ℚ) 1))))
      (toU32 (clamp 0 (ir.height - 1) (bbox.y2 * (ir.height / max (rgbSize.2 : ℚ) 1)))) =
      faceRegion ir bbox rgbSize := by
    unfold Checked.regionAt faceRegion
    rw [Nat.mod_eq_of_lt (by omega), Nat.mod_eq_of_lt (by omega)]
  rw [hregion]

/-- What is read of the frame by an evaluation, and what the two means are. -/
theorem irEvaluate_means {ir : GrayImage} (hw : 1 ≤ ir.width) (hh : 1 ≤ ir.height) (fl : FloatLib)
    (bbox : BBox) (rgbSize : Nat × Nat) (lm : Landmarks) :
    (irEvaluate fl ir bbox rgbSize lm).meanFace =
        (((faceRegion ir bbox rgbSize).values ir).sum : ℚ) /
          ((faceRegion ir bbox rgbSize).values ir).length ∧
      (irEvaluate fl ir bbox rgbSize lm).meanBg =
        if 0 < ((faceRegion ir bbox rgbSize).outside ir).length then
          (((faceRegion ir bbox rgbSize).outside ir).sum : ℚ) /
            ((faceRegion ir bbox rgbSize).outside ir).length
        else 1 := by
  have hwithin := faceRegion_within hw hh bbox rgbSize
  have hperm := perm_values_outside hw hh hwithin
  have hlen := hperm.length_eq
  have hsum := hperm.sum_eq
  rw [List.length_append, List.length_map, ir.size_eq] at hlen
  rw [List.sum_append] at hsum
  have hne : ((faceRegion ir bbox rgbSize).values ir).length ≠ 0 := by
    have := List.length_pos_iff.2 (values_ne_nil ir hwithin)
    omega
  unfold irEvaluate
  simp only [if_neg hne, irStatistics, ← hlen, ← hsum, Nat.add_sub_cancel_left, true_and]

/-! ### A constant image -/

theorem sum_of_constant {vs : List Nat} {v : Nat} (h : ∀ x ∈ vs, x = v) :
    vs.sum = v * vs.length := by
  rw [List.eq_replicate_of_mem h, List.sum_replicate_nat, List.length_replicate, Nat.mul_comm]

theorem glintOf_of_constant {vs : List Nat} {v : Nat} (h : ∀ x ∈ vs, x = v) : glintOf vs = 0 := by
  unfold glintOf
  by_cases hlen : vs.length = 0
  · rw [if_pos hlen]
  · rw [if_neg hlen, sum_of_constant h]
    have hmax : vs.foldl max 0 ≤ v := by
      have hfold : ∀ m ≤ v, vs.foldl max m ≤ v := by
        clear hlen
        induction vs with
        | nil => exact fun m hm => hm
        | cons x vs ih =>
            intro m hm
            have hx := h x List.mem_cons_self
            exact ih (fun y hy => h y (List.mem_cons_of_mem x hy)) _ (by omega)
      exact hfold 0 (Nat.zero_le v)
    have hlen' : (vs.length : ℚ) ≠ 0 := by exact_mod_cast hlen
    have hmax' : ((vs.foldl max 0 : Nat) : ℚ) ≤ v := by exact_mod_cast hmax
    rw [Nat.cast_mul, mul_div_assoc, div_self hlen', mul_one, max_eq_right]
    linarith

/-- Rounding that leaves the naturals up to the frame's sum alone gives ratios of one. -/
theorem irStatisticsIn_of_constant {rnd : ℚ → ℚ} (fl : FloatLib) (eyeGlint : ℚ)
    {totalPx frameSum v : Nat} {face center : List Nat}
    (hexact : ∀ n : Nat, n ≤ v * totalPx → rnd n = n) (hv : 1 < v) (hface : ∀ x ∈ face, x = v)
    (hcenter : ∀ x ∈ center, x = v) (hframe : frameSum = v * totalPx) (hne : face ≠ [])
    (hbg : face.length < totalPx) :
    (irStatisticsIn rnd fl totalPx frameSum face center eyeGlint).faceBgRatio = 1 ∧
      (irStatisticsIn rnd fl totalPx frameSum face center eyeGlint).depthRatio = 1 := by
  have hmul : ∀ n, n ≤ totalPx → v * n ≤ v * totalPx := fun n hn => Nat.mul_le_mul_left v hn
  have hscale : ∀ n, n ≤ v * n := fun n => Nat.le_mul_of_pos_left n (by omega)
  have hmean : ∀ n : Nat, 0 < n → n ≤ totalPx → rnd (rnd (v * n : Nat) / rnd n) = v := by
    intro n hn hle
    have hn' : (n : ℚ) ≠ 0 := by
      have : n ≠ 0 := by omega
      exact_mod_cast this
    have hone : v * 1 ≤ v * totalPx := hmul 1 (by omega)
    rw [hexact _ (hmul n hle), hexact n ((hscale n).trans (hmul n hle)), Nat.cast_mul,
      mul_div_assoc, div_self hn', mul_one, hexact v (by omega)]
  have hv' : (v : ℚ) ≠ 0 := by
    have : v ≠ 0 := by omega
    exact_mod_cast this
  have hratio : rnd ((v : ℚ) / v) = 1 := by
    have hone := hexact 1 ((hscale 1).trans (hmul 1 (by omega)))
    rw [Nat.cast_one] at hone
    rw [div_self hv', hone]
  have hone : (1 : ℚ) < v := by exact_mod_cast hv
  have hpos := List.length_pos_iff.2 hne
  have hbgN : 0 < totalPx - face.length := by omega
  simp only [irStatisticsIn, sum_of_constant hface, sum_of_constant hcenter, hframe,
    ← Nat.mul_sub, gt_iff_lt, if_pos hbgN, hmean _ hpos hbg.le, hmean _ hbgN (Nat.sub_le _ _),
    if_pos hone, hratio, true_and]
  split
  · rename_i h
    obtain ⟨hcN, hedgeN, -⟩ := h
    rw [hmean _ hcN (by omega), hmean _ hedgeN (by omega), hratio]
  · rfl

theorem irStatistics_of_constant (fl : FloatLib) (eyeGlint : ℚ) {totalPx frameSum v : Nat}
    {face center : List Nat} (hv : 1 < v) (hface : ∀ x ∈ face, x = v)
    (hcenter : ∀ x ∈ center, x = v) (hframe : frameSum = v * totalPx) (hne : face ≠ [])
    (hbg : face.length < totalPx) :
    (irStatistics fl totalPx frameSum face center eyeGlint).faceBgRatio = 1 ∧
      (irStatistics fl totalPx frameSum face center eyeGlint).depthRatio = 1 :=
  irStatisticsIn_of_constant fl eyeGlint (fun n _ => id_eq (n : ℚ)) hv hface hcenter hframe hne hbg

theorem valuesIn_of_constant {ir : GrayImage} {v : Nat} (hconst : ∀ p ∈ ir.pixels, p.toNat = v)
    {x1 y1 x2 y2 : Nat} (hx : x2 < ir.width) (hy : y2 < ir.height) :
    ∀ x ∈ valuesIn ir x1 y1 x2 y2, x = v := by
  intro x hmem
  obtain ⟨p, hp, rfl⟩ := List.mem_map.1 hmem
  obtain ⟨-, hpx, -, hpy⟩ := mem_box.1 hp
  have hread := Checked.getPixel_eq_some (lt_of_le_of_lt hpx hx) (lt_of_le_of_lt hpy hy)
  rw [Checked.getPixel, if_pos ⟨lt_of_le_of_lt hpx hx, lt_of_le_of_lt hpy hy⟩,
    Option.map_eq_some_iff] at hread
  obtain ⟨q, hq, hread⟩ := hread
  change (ir.getPixel p.1 p.2).toNat = v
  rw [← hread]
  exact hconst q (List.mem_of_getElem? hq)

private theorem eyeGlintAt_of_constant {ir : GrayImage} {v : Nat}
    (hconst : ∀ p ∈ ir.pixels, p.toNat = v) (hw : 1 ≤ ir.width) (hh : 1 ≤ ir.height)
    (hw' : ir.width < 2 ^ 32) (hh' : ir.height < 2 ^ 32) (cx cy r : Int) :
    eyeGlintAt ir cx cy r = 0 := by
  have hx := Checked.wrapI32_pred_lt hw hw'
  have hy := Checked.wrapI32_pred_lt hh hh'
  unfold eyeGlintAt
  simp only
  apply glintOf_of_constant (v := v)
  split
  · simp
  · exact valuesIn_of_constant hconst (by omega) (by omega)

/-- On an image of one value every ratio is one and there is no glint. -/
theorem irEvaluate_of_constant {ir : GrayImage} {v : Nat} (hv : 1 < v)
    (hconst : ∀ p ∈ ir.pixels, p.toNat = v) (hw : 1 ≤ ir.width) (hh : 1 ≤ ir.height)
    (hw' : ir.width < 2 ^ 32) (hh' : ir.height < 2 ^ 32) (fl : FloatLib) {bbox : BBox}
    {rgbSize : Nat × Nat} (hbg : (faceRegion ir bbox rgbSize).outside ir ≠ []) (lm : Landmarks) :
    (irEvaluate fl ir bbox rgbSize lm).faceBgRatio = 1 ∧
      (irEvaluate fl ir bbox rgbSize lm).depthRatio = 1 ∧
      (irEvaluate fl ir bbox rgbSize lm).eyeGlint = 0 := by
  have hwithin := faceRegion_within hw hh bbox rgbSize
  have hlen := (perm_values_outside hw hh hwithin).length_eq
  rw [List.length_append, List.length_map, ir.size_eq] at hlen
  have hbgPos := List.length_pos_iff.2 hbg
  have hne := values_ne_nil ir hwithin
  have hne' : ((faceRegion ir bbox rgbSize).values ir).length ≠ 0 := by
    have := List.length_pos_iff.2 hne
    omega
  have hright := hwithin.right
  have hbottom := hwithin.bottom
  simp only [frameRegion] at hright hbottom
  have hglint := eyeGlintAt_of_constant hconst hw hh hw' hh'
  have hframe : (ir.pixels.map UInt8.toNat).sum = v * (ir.width * ir.height) := by
    have hmap : ∀ x ∈ ir.pixels.map UInt8.toNat, x = v := by
      intro x hx
      obtain ⟨p, hp, rfl⟩ := List.mem_map.1 hx
      exact hconst p hp
    rw [sum_of_constant hmap, List.length_map, ir.size_eq]
  have hface : ∀ x ∈ (faceRegion ir bbox rgbSize).values ir, x = v :=
    valuesIn_of_constant hconst (by omega) (by omega)
  have hcenter : ∀ x ∈ (faceRegion ir bbox rgbSize).centerValues ir, x = v := by
    unfold Region.centerValues
    cases hc : (faceRegion ir bbox rgbSize).center with
    | none => simp
    | some c =>
        have hcw := center_within hc
        have := hcw.right
        have := hcw.bottom
        exact valuesIn_of_constant hconst (by omega) (by omega)
  unfold irEvaluate
  simp only [if_neg hne']
  have hratios := irStatistics_of_constant fl
    (eyeGlintIn ir (faceRegion ir bbox rgbSize) rgbSize lm) hv hface hcenter hframe hne (by omega)
  refine ⟨hratios.1, hratios.2, ?_⟩
  change eyeGlintIn ir (faceRegion ir bbox rgbSize) rgbSize lm = 0
  simp only [eyeGlintIn, hglint, min_self]

/-- The evaluation is in range for every image, box, frame size and landmarks: with its
operations checked it has the same result, and has one for any corners the casts could
give. The centre is in the face region and the face region in the frame, the face and
the background add up to the frame, and a constant image with a background has the
ratios one and no glint. -/
theorem irEvaluate_in_range (fl : FloatLib) (ir : GrayImage) (hw : 1 ≤ ir.width)
    (hh : 1 ≤ ir.height) (hw' : ir.width < 2 ^ 32) (hh' : ir.height < 2 ^ 32) :
    (∀ (xa ya xb yb : Nat) (l r : Int × Int),
      ∃ s, Checked.evaluateAt fl ir xa ya xb yb l r = some s) ∧
    ∀ (bbox : BBox) (rgbSize : Nat × Nat) (lm : Landmarks),
      Checked.evaluate fl ir bbox rgbSize lm = some (irEvaluate fl ir bbox rgbSize lm) ∧
      (faceRegion ir bbox rgbSize).Within (frameRegion ir) ∧
      (∀ c, (faceRegion ir bbox rgbSize).center = some c →
        c.Within (faceRegion ir bbox rgbSize)) ∧
      ((irEvaluate fl ir bbox rgbSize lm).meanFace =
          (((faceRegion ir bbox rgbSize).values ir).sum : ℚ) /
            ((faceRegion ir bbox rgbSize).values ir).length ∧
        (irEvaluate fl ir bbox rgbSize lm).meanBg =
          (if 0 < ((faceRegion ir bbox rgbSize).outside ir).length then
            (((faceRegion ir bbox rgbSize).outside ir).sum : ℚ) /
              ((faceRegion ir bbox rgbSize).outside ir).length
          else 1) ∧
        ((faceRegion ir bbox rgbSize).values ir).sum +
          ((faceRegion ir bbox rgbSize).outside ir).sum = (ir.pixels.map UInt8.toNat).sum) ∧
      ∀ v, 1 < v → (∀ p ∈ ir.pixels, p.toNat = v) →
        (faceRegion ir bbox rgbSize).outside ir ≠ [] →
        (irEvaluate fl ir bbox rgbSize lm).faceBgRatio = 1 ∧
          (irEvaluate fl ir bbox rgbSize lm).depthRatio = 1 ∧
          (irEvaluate fl ir bbox rgbSize lm).eyeGlint = 0 := by
  refine ⟨fun xa ya xb yb l r =>
    ⟨_, Checked.evaluateAt_eq_some hw hh hw' hh' fl xa ya xb yb l r⟩, ?_⟩
  intro bbox rgbSize lm
  have hwithin := faceRegion_within hw hh bbox rgbSize
  obtain ⟨hmeanFace, hmeanBg⟩ := irEvaluate_means hw hh fl bbox rgbSize lm
  have hsum := (perm_values_outside hw hh hwithin).sum_eq
  rw [List.sum_append] at hsum
  exact ⟨checked_evaluate_eq_some hw hh hw' hh' fl bbox rgbSize lm, hwithin,
    fun c hc => center_within hc, ⟨hmeanFace, hmeanBg, hsum⟩,
    fun v hv hconst hbg => irEvaluate_of_constant hv hconst hw hh hw' hh' fl hbg lm⟩

/-- One column, and a reversed box that reaches out of the frame. -/
theorem irEvaluate_in_range_column : ∃ s, Checked.evaluate ⟨id, id, fun _ => none, fun _ _ => ""⟩
    (.fromPixel 1 3 90) ⟨700, 20, -5, -40⟩ (640, 480)
    ⟨⟨1, 1⟩, ⟨2, 1⟩, ⟨1, 2⟩, ⟨1, 3⟩, ⟨2, 3⟩⟩ = some s :=
  ⟨_, ((irEvaluate_in_range _ (.fromPixel 1 3 90) (by decide) (by decide) (by decide)
    (by decide)).2 _ _ _).1⟩

/-! ## A constant frame in single precision -/

/-- In single precision the ratios are one while the frame's sum has at most 24 bits. -/
theorem irStatistics_f32_of_constant (fl : FloatLib) (eyeGlint : ℚ) {totalPx frameSum v : Nat}
    {face center : List Nat} (hsum : frameSum < 2 ^ 24) (hv : 1 < v) (hface : ∀ x ∈ face, x = v)
    (hcenter : ∀ x ∈ center, x = v) (hframe : frameSum = v * totalPx) (hne : face ≠ [])
    (hbg : face.length < totalPx) :
    (irStatisticsIn roundF32 fl totalPx frameSum face center eyeGlint).faceBgRatio = 1 ∧
      (irStatisticsIn roundF32 fl totalPx frameSum face center eyeGlint).depthRatio = 1 :=
  irStatisticsIn_of_constant fl eyeGlint
    (fun _ hn => roundBits_natCast (by decide) (lt_of_le_of_lt (hframe ▸ hn) hsum)) hv hface hcenter
    hframe hne hbg

def whiteFrame : GrayImage := .fromPixel 640 480 255

def whiteBox : BBox := ⟨300, 200, 301, 201⟩

def whiteLandmarks : Landmarks :=
  ⟨⟨300, 200⟩, ⟨301, 200⟩, ⟨300, 201⟩, ⟨300, 201⟩, ⟨301, 201⟩⟩

theorem whiteFrame_constant : ∀ p ∈ whiteFrame.pixels, p.toNat = 255 := by
  intro p hp
  rw [List.eq_of_mem_replicate hp]
  rfl

theorem faceRegionIn_whiteFrame :
    faceRegionIn roundF32 whiteFrame whiteBox (640, 480) = ⟨300, 200, 301, 201⟩ := by
  decide +kernel

theorem values_whiteFrame :
    (⟨300, 200, 301, 201⟩ : Region).values whiteFrame = List.replicate 4 255 := by
  have hmem : ∀ x ∈ valuesIn whiteFrame 300 200 301 201, x = 255 :=
    valuesIn_of_constant whiteFrame_constant (by decide) (by decide)
  have hvalues := List.eq_replicate_of_mem hmem
  rw [Region.values, hvalues]
  congr 1

private theorem faceBgRatio_whiteFrame (fl : FloatLib) :
    (irEvaluateIn roundF32 fl whiteFrame whiteBox (640, 480) whiteLandmarks).faceBgRatio =
      1 + 1 / 2 ^ 23 := by
  have hframe : (whiteFrame.pixels.map UInt8.toNat).sum = 78336000 := by
    have hmap : ∀ x ∈ whiteFrame.pixels.map UInt8.toNat, x = 255 := by
      intro x hx
      obtain ⟨p, hp, rfl⟩ := List.mem_map.1 hx
      exact whiteFrame_constant p hp
    rw [sum_of_constant hmap, List.length_map, whiteFrame.size_eq]
    rfl
  simp only [irEvaluateIn, faceRegionIn_whiteFrame, values_whiteFrame, hframe,
    List.length_replicate, OfNat.ofNat_ne_zero, if_false, irStatisticsIn]
  decide +kernel

/-- Single precision rounds the sum of the background, so the ratio of a constant frame
need not be one. -/
theorem not_faceBgRatio_one :
    ¬ ∀ (fl : FloatLib) (ir : GrayImage) (bbox : BBox) (rgbSize : Nat × Nat) (lm : Landmarks),
      1 ≤ ir.width → 1 ≤ ir.height → ir.width < 2 ^ 32 → ir.height < 2 ^ 32 →
      ∀ v, 1 < v → (∀ p ∈ ir.pixels, p.toNat = v) →
        (faceRegionIn roundF32 ir bbox rgbSize).outside ir ≠ [] →
        (irEvaluateIn roundF32 fl ir bbox rgbSize lm).faceBgRatio = 1 ∧
          (irEvaluateIn roundF32 fl ir bbox rgbSize lm).depthRatio = 1 ∧
          (irEvaluateIn roundF32 fl ir bbox rgbSize lm).eyeGlint = 0 := by
  intro hall
  have hwithin : (⟨300, 200, 301, 201⟩ : Region).Within (frameRegion whiteFrame) := by
    constructor <;> decide
  have hside : 1 ≤ whiteFrame.width ∧ 1 ≤ whiteFrame.height := by decide
  have hlen := (perm_values_outside hside.1 hside.2 hwithin).length_eq
  rw [List.length_append, List.length_map, whiteFrame.size_eq, values_whiteFrame,
    List.length_replicate] at hlen
  have hbackground : (⟨300, 200, 301, 201⟩ : Region).outside whiteFrame ≠ [] := by
    intro hnil
    rw [hnil] at hlen
    exact absurd hlen (by decide)
  obtain ⟨hratio, -⟩ := hall ⟨id, id, fun _ => none, fun _ _ => ""⟩ whiteFrame whiteBox (640, 480)
    whiteLandmarks (by decide) (by decide) (by decide) (by decide) 255 (by decide)
    whiteFrame_constant (by rwa [faceRegionIn_whiteFrame])
  rw [faceBgRatio_whiteFrame] at hratio
  norm_num at hratio

end Linhello.Liveness
