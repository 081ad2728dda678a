import Mathlib.Data.List.GetD
import Linhello.Common.Error
import Linhello.Liveness.Image
/-!
# Decoding YUYV frames

`yuyv_to_rgb` (`camera.rs`) walks over the pixels two by two. Reading past the buffer and
writing past the image are panics, `none` here: the reads are guarded, the write of the
second pixel of a pair is not, so a row of odd width runs over its end. `yuyv_decodes_iff`
says for which frames.
-/

namespace Linhello.Biometrics

open Common (Bytes)
open Liveness

/-! ## The image buffer -/

/-- `put_pixel`, which panics outside the image. -/
def putPixel (img : Frame) (x y : Nat) (p : Rgb) : Option Frame :=
  if x < img.width ∧ y < img.height then
    some { img with pixels := img.pixels.set (y * img.width + x) p
                    size_eq := List.length_set.trans img.size_eq }
  else none

/-- `ImageBuffer::new`: black, and a panic when its size in bytes is no `usize`. -/
def newFrame (w h : Nat) : Option Frame :=
  if w * h * 3 < 2 ^ 64 then some (.fromPixel w h { r := 0, g := 0, b := 0 }) else none

/-! ## The decoder -/

/-- `clamp(0, 255) as u8`. -/
def toByte (v : Int) : UInt8 := UInt8.ofNat (max 0 (min 255 v)).toNat

/-- `yuv_pixel`; a shift by 8 is a division by 256 rounded down. -/
def yuvPixel (y u v : UInt8) : Rgb :=
  let c : Int := y.toNat - 16
  let d : Int := u.toNat - 128
  let e : Int := v.toNat - 128
  { r := toByte ((298 * c + 409 * e + 128) / 256)
    g := toByte ((298 * c - 100 * d - 208 * e + 128) / 256)
    b := toByte ((298 * c + 516 * d + 128) / 256) }

/-- One pair of pixels, from the macropixel at `i`. -/
def decodePair (buf : Bytes) (i x y : Nat) (out : Frame) : Option Frame := do
  let y0 ← buf[i]?
  let u ← buf[i + 1]?
  let y1 ← buf[i + 2]?
  let v ← buf[i + 3]?
  let out ← putPixel out x y (yuvPixel y0 u v)
  putPixel out (x + 1) y (yuvPixel y1 u v)

/-- The inner loop over the columns that are left. -/
def decodeRow (buf : Bytes) (base y : Nat) : List Nat → Frame → Option Frame
  | [], out => some out
  | x :: xs, out =>
      let i := base + x * 2
      if buf.length ≤ i + 3 then some out
      else do
        let out ← decodePair buf i x y out
        decodeRow buf base y xs out

/-- `(0..w).step_by(2)`. -/
def columns (w : Nat) : List Nat := List.range' 0 ((w + 1) / 2) 2

/-- `w * 2` is computed in `u32`. -/
def rowBytes (w : Nat) : Nat := w * 2 % 2 ^ 32

def yuyvToRgb (buf : Bytes) (w h : Nat) : Option Frame := do
  let out ← newFrame w h
  (List.range h).foldlM (fun out y => decodeRow buf (y * rowBytes w) y (columns w) out) out

/-! ## Pixels that are written -/

variable {buf : Bytes} {img out : Frame} {w h x y px py base : Nat} {p : Rgb}

theorem putPixel_eq_none (h : img.width ≤ x) : putPixel img x y p = none :=
  if_neg fun hin => absurd hin.1 (Nat.not_lt.2 h)

/-- A pixel that is written holds its new value; the others are as before. -/
theorem putPixel_spec (p : Rgb) (hx : x < img.width) (hy : y < img.height) :
    ∃ img', putPixel img x y p = some img' ∧ img'.width = img.width ∧ img'.height = img.height ∧
      ∀ px py, px < img.width → py < img.height →
        img'.getPixel px py = if px = x ∧ py = y then p else img.getPixel px py := by
  refine ⟨_, if_pos ⟨hx, hy⟩, rfl, rfl, fun px py hpx hpy => ?_⟩
  have hindex : py * img.width + px = y * img.width + x ↔ px = x ∧ py = y := by
    constructor
    · intro heq
      have hrow : py = y := by
        have hdiv := congrArg (· / img.width) heq
        have hpos : 0 < img.width := Nat.lt_of_le_of_lt (Nat.zero_le x) hx
        simpa [Nat.mul_comm _ img.width, Nat.mul_add_div hpos, Nat.div_eq_of_lt hpx,
          Nat.div_eq_of_lt hx] using hdiv
      rw [hrow] at heq
      exact ⟨Nat.add_left_cancel heq, hrow⟩
    · rintro ⟨rfl, rfl⟩
      rfl
  have hlen : y * img.width + x < img.pixels.length := by
    rw [img.size_eq]
    calc y * img.width + x < y * img.width + img.width := Nat.add_lt_add_left hx _
      _ = img.width * (y + 1) := by ring
      _ ≤ img.width * img.height := Nat.mul_le_mul_left _ hy
  simp only [Image.getPixel, if_pos (And.intro hpx hpy)]
  by_cases hsame : px = x ∧ py = y
  · rw [if_pos hsame, hindex.2 hsame, List.getD_eq_getElem _ _ (by rwa [List.length_set]),
      List.getElem_set_self]
  · have hne : y * img.width + x ≠ py * img.width + px := fun heq => hsame (hindex.1 heq.symm)
    rw [if_neg hsame, List.getD_eq_getElem?_getD, List.getElem?_set_ne hne,
      List.getD_eq_getElem?_getD]

/-- The first byte of the macropixel of column `x` in a row that starts at `base`. -/
def macropixel (base x : Nat) : Nat := base + (x - x % 2) * 2

/-- The value of a pixel: its own luma with the chroma of its macropixel. -/
def pixelValue (buf : Bytes) (base x : Nat) : Rgb :=
  let i := macropixel base x
  yuvPixel (buf.getD (i + x % 2 * 2) 0) (buf.getD (i + 1) 0) (buf.getD (i + 3) 0)

/-- What a stretch of columns from `x` up to `x'` leaves. -/
structure Wrote (buf : Bytes) (base y x x' : Nat) (img out : Frame) : Prop where
  width : out.width = img.width
  height : out.height = img.height
  pixels : ∀ px py, px < img.width → py < img.height → out.getPixel px py =
    if py = y ∧ x ≤ px ∧ px < x' ∧ macropixel base px + 3 < buf.length then
      pixelValue buf base px
    else img.getPixel px py

theorem decodePair_spec (hbuf : base + x * 2 + 3 < buf.length) (heven : x % 2 = 0)
    (hx : x + 1 < img.width) (hy : y < img.height) :
    ∃ out, decodePair buf (base + x * 2) x y img = some out ∧
      Wrote buf base y x (x + 2) img out := by
  have hread :
      ∀ {k : Nat}, k ≤ 3 → buf[base + x * 2 + k]? = some (buf.getD (base + x * 2 + k) 0) := by
    intro k hk
    have hlt : base + x * 2 + k < buf.length := by omega
    rw [List.getElem?_eq_getElem hlt, List.getD_eq_getElem _ _ hlt]
  have hx' : x < img.width := by omega
  obtain ⟨mid, hmid, hwidth, hheight, hpixels⟩ := putPixel_spec
    (yuvPixel (buf.getD (base + x * 2) 0) (buf.getD (base + x * 2 + 1) 0)
      (buf.getD (base + x * 2 + 3) 0)) hx' hy
  rw [← hwidth] at hx
  rw [← hheight] at hy
  obtain ⟨out, hout, hwidth', hheight', hpixels'⟩ := putPixel_spec
    (yuvPixel (buf.getD (base + x * 2 + 2) 0) (buf.getD (base + x * 2 + 1) 0)
      (buf.getD (base + x * 2 + 3) 0)) hx hy
  refine ⟨out, ?_, hwidth'.trans hwidth, hheight'.trans hheight, fun px py hpx hpy => ?_⟩
  · have hfirst := hread (k := 0) (by omega)
    rw [Nat.add_zero] at hfirst
    simp only [decodePair, hfirst, hread (k := 1) (by omega), hread (k := 2) (by omega),
      hread (k := 3) (by omega), bind, Option.bind_some, hmid]
    exact hout
  · rw [hpixels' px py (by omega) (by omega), hpixels px py hpx hpy]
    by_cases hsecond : px = x + 1 ∧ py = y
    · have hodd : (x + 1) % 2 = 1 := by omega
      have hstart : macropixel base (x + 1) = base + x * 2 := by
        rw [macropixel, hodd, Nat.add_sub_cancel]
      obtain ⟨rfl, rfl⟩ := hsecond
      rw [if_pos ⟨rfl, rfl⟩, if_pos ⟨rfl, by omega, by omega, by rwa [hstart]⟩, pixelValue, hstart,
        hodd, Nat.one_mul]
    · rw [if_neg hsecond]
      by_cases hfirst : px = x ∧ py = y
      · have hstart : macropixel base x = base + x * 2 := by
          rw [macropixel, heven, Nat.sub_zero]
        obtain ⟨rfl, rfl⟩ := hfirst
        rw [if_pos ⟨rfl, rfl⟩, if_pos ⟨rfl, le_rfl, by omega, by rwa [hstart]⟩, pixelValue, hstart,
          heven]
        rfl
      · rw [if_neg hfirst, if_neg]
        rintro ⟨hrow, hle, hlt, -⟩
        omega

/-! ## A row -/

theorem decodeRow_spec {k : Nat} (heven : x % 2 = 0) (hy : y < img.height)
    (hfit : ∀ c, x ≤ c → c < x + 2 * k → c % 2 = 0 → base + c * 2 + 3 < buf.length →
      c + 1 < img.width) :
    ∃ out, decodeRow buf base y (List.range' x k 2) img = some out ∧
      Wrote buf base y x (x + 2 * k) img out := by
  induction k generalizing x img with
  | zero =>
      refine ⟨img, rfl, rfl, rfl, fun px py _ _ => (if_neg ?_).symm⟩
      rintro ⟨-, hle, hlt, -⟩
      omega
  | succ k ih =>
      rw [List.range'_succ, decodeRow]
      by_cases hshort : buf.length ≤ base + x * 2 + 3
      · -- the buffer ends here, and so it does for every later pair
        refine ⟨img, if_pos hshort, rfl, rfl, fun px py _ _ => (if_neg ?_).symm⟩
        rintro ⟨-, hle, -, hbuf⟩
        rw [macropixel] at hbuf
        omega
      · have hx : x + 1 < img.width := hfit x le_rfl (by omega) heven (by omega)
        have hlong : base + x * 2 + 3 < buf.length := Nat.not_le.1 hshort
        obtain ⟨mid, hmid, hwrote⟩ := decodePair_spec hlong heven hx hy
        have heven' : (x + 2) % 2 = 0 := by omega
        have hfit' : ∀ c, x + 2 ≤ c → c < x + 2 + 2 * k → c % 2 = 0 →
            base + c * 2 + 3 < buf.length → c + 1 < mid.width := by
          intro c hle hlt hc hbuf
          rw [hwrote.width]
          exact hfit c (by omega) (by omega) hc hbuf
        obtain ⟨out, hout, hrest⟩ := ih heven' (hwrote.height.symm ▸ hy) hfit'
        refine ⟨out, ?_, hrest.width.trans hwrote.width, hrest.height.trans hwrote.height, ?_⟩
        · rw [if_neg hshort, hmid]
          exact hout
        · intro px py hpx hpy
          rw [hrest.pixels px py (hwrote.width.symm ▸ hpx) (hwrote.height.symm ▸ hpy),
            hwrote.pixels px py hpx hpy]
          by_cases hlate : py = y ∧ x + 2 ≤ px ∧ px < x + 2 + 2 * k ∧
              macropixel base px + 3 < buf.length
          · rw [if_pos hlate, if_pos ⟨hlate.1, by omega, by omega, hlate.2.2.2⟩]
          · rw [if_neg hlate]
            by_cases hpair : py = y ∧ x ≤ px ∧ px < x + 2 ∧ macropixel base px + 3 < buf.length
            · rw [if_pos hpair, if_pos ⟨hpair.1, hpair.2.1, by omega, hpair.2.2.2⟩]
            · rw [if_neg hpair, if_neg]
              rintro ⟨hrow, hle, hlt, hbuf⟩
              by_cases hnear : px < x + 2
              · exact hpair ⟨hrow, hle, hnear, hbuf⟩
              · exact hlate ⟨hrow, by omega, by omega, hbuf⟩

/-- A row whose last pair is reached although only its first pixel is in the image. -/
theorem decodeRow_eq_none {k : Nat} (heven : x % 2 = 0) (hy : y < img.height)
    (hend : x + 2 * (k + 1) = img.width + 1) (hbuf : base + (img.width - 1) * 2 + 3 < buf.length) :
    decodeRow buf base y (List.range' x (k + 1) 2) img = none := by
  induction k generalizing x img with
  | zero =>
      have hx : img.width = x + 1 := by omega
      have hlong : ¬ buf.length ≤ base + x * 2 + 3 := by
        rw [hx, Nat.add_sub_cancel] at hbuf
        exact Nat.not_le.2 hbuf
      have hpair : decodePair buf (base + x * 2) x y img = none := by
        simp only [decodePair, bind, Option.bind_eq_none_iff]
        intro _ _ _ _ _ _ _ _ mid hmid
        have hx' : x < img.width := by omega
        obtain ⟨mid', hmid', hwidth, -⟩ := putPixel_spec _ hx' hy
        rw [hmid'] at hmid
        obtain rfl := Option.some.inj hmid
        exact putPixel_eq_none (by omega)
      rw [List.range'_succ, decodeRow, if_neg hlong, hpair]
      rfl
  | succ k ih =>
      have hlong : base + x * 2 + 3 < buf.length := by omega
      have hx : x + 1 < img.width := by omega
      obtain ⟨mid, hmid, hwrote⟩ := decodePair_spec hlong heven hx hy
      rw [List.range'_succ, decodeRow, if_neg (Nat.not_le.2 hlong), hmid]
      exact ih (by omega) (hwrote.height.symm ▸ hy) (by rw [hwrote.width]; omega)
        (by rwa [hwrote.width])

/-! ## A frame -/

def decodeRows (buf : Bytes) (w : Nat) (rows : List Nat) (img : Frame) : Option Frame :=
  rows.foldlM (fun out y => decodeRow buf (y * rowBytes w) y (columns w) out) img

/-- An even column that is reached has its neighbour in the image. -/
def Fits (buf : Bytes) (w y : Nat) : Prop :=
  ∀ c, c < w → c % 2 = 0 → y * rowBytes w + c * 2 + 3 < buf.length → c + 1 < w

theorem decodeRows_spec {k : Nat} (hw : img.width = w) (hk : y + k ≤ img.height)
    (hfit : ∀ r, y ≤ r → r < y + k → Fits buf w r) :
    ∃ out, decodeRows buf w (List.range' y k) img = some out ∧ out.width = img.width ∧
      out.height = img.height ∧ ∀ px py, px < img.width → py < img.height → out.getPixel px py =
        if y ≤ py ∧ py < y + k ∧ macropixel (py * rowBytes w) px + 3 < buf.length then
          pixelValue buf (py * rowBytes w) px
        else img.getPixel px py := by
  induction k generalizing y img with
  | zero =>
      refine ⟨img, rfl, rfl, rfl, fun px py _ _ => (if_neg ?_).symm⟩
      rintro ⟨hle, hlt, -⟩
      omega
  | succ k ih =>
      have hrow : ∀ c, 0 ≤ c → c < 0 + 2 * ((w + 1) / 2) → c % 2 = 0 →
          y * rowBytes w + c * 2 + 3 < buf.length → c + 1 < img.width := by
        intro c _ hlt heven hbuf
        rw [hw]
        exact hfit y le_rfl (by omega) c (by omega) heven hbuf
      have hy : y < img.height := by omega
      obtain ⟨mid, hmid, hwrote⟩ := decodeRow_spec (Nat.zero_mod 2) hy hrow
      have hk' : y + 1 + k ≤ mid.height := by
        rw [hwrote.height]
        omega
      have hfit' : ∀ r, y + 1 ≤ r → r < y + 1 + k → Fits buf w r :=
        fun r hle hlt => hfit r (by omega) (by omega)
      obtain ⟨out, hout, hwidth, hheight, hpixels⟩ := ih (hwrote.width.trans hw) hk' hfit'
      refine ⟨out, ?_, hwidth.trans hwrote.width, hheight.trans hwrote.height, ?_⟩
      · rw [decodeRows, List.range'_succ, List.foldlM_cons, columns, hmid]
        exact hout
      · intro px py hpx hpy
        rw [hpixels px py (hwrote.width.symm ▸ hpx) (hwrote.height.symm ▸ hpy),
          hwrote.pixels px py hpx hpy]
        have hcolumn : px < 0 + 2 * ((w + 1) / 2) := by omega
        rcases Nat.lt_trichotomy py y with hbefore | rfl | hafter
        · rw [if_neg (by omega), if_neg (by omega), if_neg (by omega)]
        · rw [if_neg (by omega)]
          by_cases hbuf : macropixel (py * rowBytes w) px + 3 < buf.length
          · rw [if_pos ⟨rfl, Nat.zero_le px, hcolumn, hbuf⟩, if_pos ⟨le_rfl, by omega, hbuf⟩]
          · rw [if_neg fun h => hbuf h.2.2.2, if_neg fun h => hbuf h.2.2]
        · by_cases hlate : y + 1 ≤ py ∧ py < y + 1 + k ∧
              macropixel (py * rowBytes w) px + 3 < buf.length
          · rw [if_pos hlate, if_pos ⟨by omega, by omega, hlate.2.2⟩]
          · rw [if_neg hlate, if_neg fun h => hafter.ne' h.1,
              if_neg fun h => hlate ⟨hafter, by omega, h.2.2⟩]

theorem yuyvToRgb_eq (hsize : w * h * 3 < 2 ^ 64) : yuyvToRgb buf w h =
    decodeRows buf w (List.range' 0 h) (.fromPixel w h { r := 0, g := 0, b := 0 }) := by
  rw [yuyvToRgb, newFrame, if_pos hsize, List.range_eq_range']
  rfl

/-- A frame in which every pixel with a whole macropixel has its value. -/
structure Decoded (buf : Bytes) (w h : Nat) (out : Frame) : Prop where
  width : out.width = w
  height : out.height = h
  pixels : ∀ px py, px < w → py < h → macropixel (py * (w * 2)) px + 3 < buf.length →
    out.getPixel px py = pixelValue buf (py * (w * 2)) px

/-- A frame is decoded without a panic, and rightly, exactly when its width is even, or
there is no row, or the buffer ends before the last pair of the first row. -/
theorem yuyv_decodes_iff (hrow : w * 2 < 2 ^ 32) (hsize : w * h * 3 < 2 ^ 64) :
    (∃ out, yuyvToRgb buf w h = some out ∧ Decoded buf w h out) ↔
      w % 2 = 0 ∨ h = 0 ∨ buf.length ≤ 2 * w + 1 := by
  have hbytes : rowBytes w = w * 2 := Nat.mod_eq_of_lt hrow
  rw [yuyvToRgb_eq hsize]
  constructor
  · intro hsome
    obtain ⟨out, hout, -⟩ := hsome
    by_contra hbad
    obtain ⟨k, hk⟩ : ∃ k, (w + 1) / 2 = k + 1 := Nat.exists_eq_succ_of_ne_zero (by omega)
    obtain ⟨h', hh⟩ : ∃ h', h = h' + 1 := Nat.exists_eq_succ_of_ne_zero (by omega)
    have hfirst : decodeRow buf (0 * rowBytes w) 0 (columns w)
        (.fromPixel w h { r := 0, g := 0, b := 0 }) = none := by
      rw [columns, hk]
      refine decodeRow_eq_none (by omega) ?_ ?_ ?_
      · change 0 < h
        omega
      · change 0 + 2 * (k + 1) = w + 1
        omega
      · change 0 * rowBytes w + (w - 1) * 2 + 3 < buf.length
        omega
    rw [decodeRows, hh, List.range'_succ, List.foldlM_cons, ← hh, hfirst] at hout
    cases hout
  · intro hgood
    have hfit : ∀ r, 0 ≤ r → r < 0 + h → Fits buf w r := by
      intro r _ hr c hc heven hbuf
      rcases hgood with hwidth | hheight | hshort
      · omega
      · omega
      · -- the pairs that are reached are those of the first row but its last
        have hzero : r = 0 := by
          by_contra hne
          have hlater : w * 2 ≤ r * rowBytes w := by
            rw [hbytes]
            exact Nat.le_mul_of_pos_left _ (Nat.pos_of_ne_zero hne)
          omega
        rw [hzero, Nat.zero_mul] at hbuf
        omega
    obtain ⟨black, hblack⟩ : ∃ black : Frame, black = .fromPixel w h { r := 0, g := 0, b := 0 } :=
      ⟨_, rfl⟩
    have hw : black.width = w := by rw [hblack]; rfl
    have hh : black.height = h := by rw [hblack]; rfl
    obtain ⟨out, hout, hwidth, hheight, hpixels⟩ :=
      decodeRows_spec hw ((Nat.zero_add h).trans hh.symm).le hfit
    rw [hw, hh] at hpixels
    rw [← hblack]
    refine ⟨out, hout, hwidth.trans hw, hheight.trans hh, fun px py hpx hpy hbuf => ?_⟩
    rw [hpixels px py hpx hpy, hbytes, if_pos ⟨Nat.zero_le py, by omega, hbuf⟩]

/-- A frame of even width that the buffer fills. -/
theorem yuyv_decodes_pair :
    ∃ out, yuyvToRgb [81, 90, 145, 240] 2 1 = some out ∧ Decoded [81, 90, 145, 240] 2 1 out :=
  (yuyv_decodes_iff (by decide) (by decide)).2 (.inl rfl)

/-- One column whose macropixel the buffer holds as a whole. -/
theorem not_yuyv_decodes : ¬ ∀ (buf : Bytes) (w h : Nat), w * 2 < 2 ^ 32 → w * h * 3 < 2 ^ 64 →
    ∃ out, yuyvToRgb buf w h = some out ∧ Decoded buf w h out := by
  intro hall
  obtain ⟨out, hout, -⟩ := hall [81, 90, 145, 240] 1 1 (by decide) (by decide)
  have hpanic : yuyvToRgb [81, 90, 145, 240] 1 1 = none := by decide +kernel
  rw [hpanic] at hout
  cases hout

end Linhello.Biometrics
