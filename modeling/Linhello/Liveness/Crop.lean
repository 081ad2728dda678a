import Linhello.Biometrics.Detect
/-!
# The anti-spoof crop

The rectangle `crop_scaled` (`antispoof.rs`) cuts out around a face. The box is enlarged
about its centre, by less than was asked where it would not fit, shifted into the frame
and rounded to whole pixels.
-/

namespace Linhello.Liveness

open Biometrics (clampBox)

/-- One side of a rectangle. -/
structure Span where
  lo : ℚ
  hi : ℚ
  deriving DecidableEq

def Span.length (s : Span) : ℚ := s.hi - s.lo

/-- The side of a box; an empty or reversed one counts as a pixel. -/
def sideLength (lo hi : ℚ) : ℚ := max (hi - lo) 1

/-- A side of length `len` about `c`, shifted if it spills out at either end. -/
def shiftInside (c len bound : ℚ) : Span :=
  let s : Span := { lo := c - len / 2, hi := c + len / 2 }
  let s : Span := if s.lo < 0 then { lo := 0, hi := s.hi - s.lo } else s
  if bound < s.hi then { lo := s.lo - (s.hi - bound), hi := bound } else s

/-- The scale that is applied: at most what keeps both sides inside the frame. -/
def effectiveScale (fw fh boxW boxH scale : ℚ) : ℚ :=
  min scale (min ((fh - 1) / boxH) ((fw - 1) / boxW))

/-- A rectangle before it is rounded. -/
structure CropRect where
  x : Span
  y : Span
  deriving DecidableEq

def cropRect (w h : Nat) (b : BBox) (scale : ℚ) : CropRect :=
  let fw : ℚ := w
  let fh : ℚ := h
  let boxW := sideLength b.x1 b.x2
  let boxH := sideLength b.y1 b.y2
  let eff := effectiveScale fw fh boxW boxH scale
  { x := shiftInside (b.x1 + boxW / 2) (boxW * eff) fw
    y := shiftInside (b.y1 + boxH / 2) (boxH * eff) fh }

/-- Whole pixels, from the first to the one after the last. -/
structure Pixels where
  first : Nat
  stop : Nat
  deriving DecidableEq

/-- `as u32` on both ends, and a repair of an empty side. -/
def Span.round (s : Span) (bound : ℚ) : Pixels :=
  let first := toU32 (max s.lo 0)
  { first := first, stop := max (toU32 (min s.hi bound)) (first + 1) }

/-- The columns and the rows `crop_scaled` cuts out. -/
def cropPixels (w h : Nat) (b : BBox) (scale : ℚ) : Pixels × Pixels :=
  let r := cropRect w h b scale
  (r.x.round w, r.y.round h)

/-! ## One side -/

variable {c len bound scale lo hi : ℚ} {s : Span} {w h n : Nat} {b : BBox}

theorem one_le_sideLength : 1 ≤ sideLength lo hi := le_max_right _ _

theorem shiftInside_spec (c : ℚ) (hlen : len ≤ bound) : 0 ≤ (shiftInside c len bound).lo ∧
    (shiftInside c len bound).hi ≤ bound ∧ (shiftInside c len bound).length = len := by
  unfold shiftInside Span.length
  dsimp only
  by_cases hlow : c - len / 2 < 0
  · have hfits : ¬ bound < c + len / 2 - (c - len / 2) := by linarith
    rw [if_pos hlow, if_neg hfits]
    refine ⟨le_rfl, not_lt.1 hfits, ?_⟩
    ring
  · rw [if_neg hlow]
    by_cases hhigh : bound < c + len / 2
    · rw [if_pos hhigh]
      refine ⟨?_, le_rfl, ?_⟩
      · have hstart : c - len / 2 - (c + len / 2 - bound) = bound - len := by ring
        rw [hstart]
        exact sub_nonneg.2 hlen
      · ring
    · rw [if_neg hhigh]
      refine ⟨not_lt.1 hlow, not_lt.1 hhigh, ?_⟩
      ring

theorem toU32_le_floor {q : ℚ} (hq : 0 ≤ q) : (toU32 q : Int) ≤ ⌊q⌋ := by
  have hfloor : 0 ≤ ⌊q⌋ := Int.floor_nonneg.2 hq
  rw [toU32]
  omega

/-- A side of at least a pixel stays one when it is rounded, and stays inside. -/
theorem round_spec (hlo : 0 ≤ s.lo) (hhi : s.hi ≤ n) (hlen : 1 ≤ s.length) :
    (s.round n).first < (s.round n).stop ∧ (s.round n).stop ≤ n := by
  have hwide : s.lo + 1 ≤ s.hi := by
    rw [Span.length] at hlen
    linarith
  have hstart : (toU32 s.lo : Int) + 1 ≤ n := by
    calc (toU32 s.lo : Int) + 1 ≤ ⌊s.lo⌋ + 1 := by linarith [toU32_le_floor hlo]
      _ = ⌊s.lo + 1⌋ := (Int.floor_add_one s.lo).symm
      _ ≤ ⌊(n : ℚ)⌋ := Int.floor_le_floor (hwide.trans hhi)
      _ = n := Int.floor_natCast n
  have hstop : (toU32 s.hi : Int) ≤ n := by
    have hnonneg : 0 ≤ s.hi := by linarith
    calc (toU32 s.hi : Int) ≤ ⌊s.hi⌋ := toU32_le_floor hnonneg
      _ ≤ ⌊(n : ℚ)⌋ := Int.floor_le_floor hhi
      _ = n := Int.floor_natCast n
  simp only [Span.round, max_eq_left hlo, min_eq_left hhi]
  omega

/-! ## The rectangle -/

/-- What the crop around a box has to meet. -/
structure CropInside (w h : Nat) (b : BBox) (scale : ℚ) : Prop where
  columns : (cropPixels w h b scale).1.first < (cropPixels w h b scale).1.stop ∧
    (cropPixels w h b scale).1.stop ≤ w
  rows : (cropPixels w h b scale).2.first < (cropPixels w h b scale).2.stop ∧
    (cropPixels w h b scale).2.stop ≤ h
  /-- The sides before rounding are to each other as those of the box. -/
  aspect : (cropRect w h b scale).x.length * sideLength b.y1 b.y2 =
    (cropRect w h b scale).y.length * sideLength b.x1 b.x2
  /-- As wide as asked, or as the frame allows in either direction. -/
  width : (cropRect w h b scale).x.length = min (scale * sideLength b.x1 b.x2)
    (min ((h - 1) / sideLength b.y1 b.y2 * sideLength b.x1 b.x2) (w - 1))
  within : 0 ≤ (cropRect w h b scale).x.lo ∧ (cropRect w h b scale).x.hi ≤ w ∧
    0 ≤ (cropRect w h b scale).y.lo ∧ (cropRect w h b scale).y.hi ≤ h

theorem clamp_mem {v : ℚ} (hn : 2 ≤ n) : 0 ≤ clamp 0 (n - 1) v ∧ clamp 0 (n - 1) v ≤ n - 1 := by
  have hn' : (2 : ℚ) ≤ n := Nat.cast_le.2 hn
  exact ⟨le_clamp, clamp_le (by linarith)⟩

/-- The side of a box that was clamped into a frame of at least two pixels. -/
theorem sideLength_clamp_le {v v' : ℚ} (hn : 2 ≤ n) :
    sideLength (clamp 0 (n - 1) v) (clamp 0 (n - 1) v') ≤ n - 1 := by
  have hn' : (2 : ℚ) ≤ n := Nat.cast_le.2 hn
  have hlo := (clamp_mem (v := v) hn).1
  have hhi := (clamp_mem (v := v') hn).2
  apply max_le
  · linarith
  · linarith

private theorem crop_inside_of_sides (hscale : 1 ≤ scale) (hx : sideLength b.x1 b.x2 ≤ w - 1)
    (hy : sideLength b.y1 b.y2 ≤ h - 1) : CropInside w h b scale := by
  have hboxW : 1 ≤ sideLength b.x1 b.x2 := one_le_sideLength
  have hboxH : 1 ≤ sideLength b.y1 b.y2 := one_le_sideLength
  have hposW : 0 < sideLength b.x1 b.x2 := by linarith
  have hposH : 0 < sideLength b.y1 b.y2 := by linarith
  obtain ⟨eff, heff⟩ : ∃ eff, eff =
    effectiveScale w h (sideLength b.x1 b.x2) (sideLength b.y1 b.y2) scale := ⟨_, rfl⟩
  -- the frame leaves room for the box itself
  have hone : 1 ≤ eff := by
    rw [heff]
    exact le_min hscale (le_min ((one_le_div hposH).2 hy) ((one_le_div hposW).2 hx))
  have hfitW : sideLength b.x1 b.x2 * eff ≤ w - 1 := by
    have hle : eff ≤ (w - 1) / sideLength b.x1 b.x2 := by
      rw [heff]
      exact (min_le_right _ _).trans (min_le_right _ _)
    rw [mul_comm]
    exact (le_div_iff₀ hposW).1 hle
  have hfitH : sideLength b.y1 b.y2 * eff ≤ h - 1 := by
    have hle : eff ≤ (h - 1) / sideLength b.y1 b.y2 := by
      rw [heff]
      exact (min_le_right _ _).trans (min_le_left _ _)
    rw [mul_comm]
    exact (le_div_iff₀ hposH).1 hle
  have hwideW : 1 ≤ sideLength b.x1 b.x2 * eff := one_le_mul_of_one_le_of_one_le hboxW hone
  have hwideH : 1 ≤ sideLength b.y1 b.y2 * eff := one_le_mul_of_one_le_of_one_le hboxH hone
  have hlenW : sideLength b.x1 b.x2 * eff ≤ w := by linarith
  have hlenH : sideLength b.y1 b.y2 * eff ≤ h := by linarith
  obtain ⟨hxlo, hxhi, hxlen⟩ := shiftInside_spec (b.x1 + sideLength b.x1 b.x2 / 2) hlenW
  obtain ⟨hylo, hyhi, hylen⟩ := shiftInside_spec (b.y1 + sideLength b.y1 b.y2 / 2) hlenH
  have hrect : cropRect w h b scale =
      { x := shiftInside (b.x1 + sideLength b.x1 b.x2 / 2) (sideLength b.x1 b.x2 * eff) w
        y := shiftInside (b.y1 + sideLength b.y1 b.y2 / 2) (sideLength b.y1 b.y2 * eff) h } := by
    rw [heff]
    rfl
  constructor
  · simp only [cropPixels, hrect]
    exact round_spec hxlo hxhi (by rwa [hxlen])
  · simp only [cropPixels, hrect]
    exact round_spec hylo hyhi (by rwa [hylen])
  · rw [hrect, hxlen, hylen]
    ring
  · rw [hrect, hxlen, heff, effectiveScale, mul_comm, min_mul_of_nonneg _ _ hposW.le,
      min_mul_of_nonneg _ _ hposW.le, div_mul_cancel₀ _ hposW.ne']
  · rw [hrect]
    exact ⟨hxlo, hxhi, hylo, hyhi⟩

/-- Whatever box the detector clamped into the frame, the crop is a rectangle of whole
pixels inside it. -/
theorem crop_inside (hw : 2 ≤ w) (hh : 2 ≤ h) (hscale : 1 ≤ scale) (b : BBox) :
    CropInside w h (clampBox w h b) scale :=
  crop_inside_of_sides hscale (sideLength_clamp_le hw) (sideLength_clamp_le hh)

/-- A box in the last column and row of a small frame, and one that is reversed. -/
theorem crop_inside_corner : CropInside 100 100 (clampBox 100 100 ⟨99, 99, 120, 99⟩) (27 / 10) ∧
    CropInside 2 3 (clampBox 2 3 ⟨5, 1, -1, 0⟩) 4 :=
  ⟨crop_inside (by decide) (by decide) (by norm_num) _,
    crop_inside (by decide) (by decide) (by norm_num) _⟩

end Linhello.Liveness
