import Mathlib.Data.Rat.Floor
import Mathlib.Algebra.BigOperators.Group.List.Basic
import Linhello.Common.Config
/-!
# Frames, faces and numbers

`f32` arithmetic is exact rational arithmetic here. What a rational function
cannot say (square root, exponential, the decimal rendering in a message, and
parsing) is taken from a `FloatLib`, so every result holds for whatever the
platform's own functions return.
-/

namespace Linhello.Liveness

/-- The floating point routines of the platform. `parse` has a nested option:
text that is no number, and text that denotes an infinity or a NaN. -/
structure FloatLib where
  sqrt : ℚ → ℚ
  exp : ℚ → ℚ
  parse : String → Option (Option ℚ)
  fixed : Nat → ℚ → String

/-- `parse::<f32>()` followed by a finiteness filter. -/
def FloatLib.parseFinite (fl : FloatLib) (s : String) : Option ℚ :=
  (fl.parse s).join

/-- `f32::clamp`. -/
def clamp (lo hi v : ℚ) : ℚ := max lo (min hi v)

theorem le_clamp {lo hi v : ℚ} : lo ≤ clamp lo hi v := le_max_left _ _

theorem clamp_le {lo hi v : ℚ} (h : lo ≤ hi) : clamp lo hi v ≤ hi :=
  max_le h (min_le_left _ _)

/-- `as u32`: truncation towards zero, saturating. -/
def toU32 (q : ℚ) : Nat := min ⌊q⌋.toNat (2 ^ 32 - 1)

/-- `as i32`: truncation towards zero, saturating. -/
def toI32 (q : ℚ) : Int :=
  max (-2 ^ 31) (min (2 ^ 31 - 1) (if 0 ≤ q then ⌊q⌋ else ⌈q⌉))

/-- An image buffer: its pixels row by row, exactly `width * height` of them. -/
structure Image (π : Type) where
  width : Nat
  height : Nat
  pixels : List π
  size_eq : pixels.length = width * height

/-- `get_pixel`, with a default where the source would panic. -/
def Image.getPixel {π : Type} [Inhabited π] (img : Image π) (x y : Nat) : π :=
  if x < img.width ∧ y < img.height then img.pixels.getD (y * img.width + x) default else default

/-- An image of one colour, `ImageBuffer::from_pixel`. -/
def Image.fromPixel {π : Type} (width height : Nat) (p : π) : Image π where
  width := width
  height := height
  pixels := List.replicate (width * height) p
  size_eq := List.length_replicate

structure Rgb where
  r : UInt8
  g : UInt8
  b : UInt8
  deriving DecidableEq, Inhabited

abbrev Frame := Image Rgb

abbrev GrayImage := Image UInt8

structure Point where
  x : ℚ
  y : ℚ
  deriving DecidableEq

/-- `[x1, y1, x2, y2]` in frame pixels. -/
structure BBox where
  x1 : ℚ
  y1 : ℚ
  x2 : ℚ
  y2 : ℚ
  deriving DecidableEq

/-- The area `capture_burst_detect` compares frames by. -/
def BBox.area (b : BBox) : ℚ := max (b.x2 - b.x1) 0 * max (b.y2 - b.y1) 0

/-- The five SCRFD landmarks. -/
structure Landmarks where
  leftEye : Point
  rightEye : Point
  nose : Point
  leftMouth : Point
  rightMouth : Point
  deriving DecidableEq

structure Face where
  score : ℚ
  bbox : BBox
  landmarks : Landmarks
  deriving DecidableEq

/-- The pixels `x1..=x2`, `y1..=y2`, row by row. -/
def box (x1 y1 x2 y2 : Nat) : List (Nat × Nat) :=
  (List.range' y1 (y2 + 1 - y1)).flatMap fun y =>
    (List.range' x1 (x2 + 1 - x1)).map fun x => (x, y)

end Linhello.Liveness
