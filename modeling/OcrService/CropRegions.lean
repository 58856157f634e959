import Mathlib.Tactic.Linarith
import Mathlib.Tactic.Ring
import OcrService.Signing

/-! The rectangles `cropRegion` cuts out (`functions/signing/execute.ts`), one axis at a time. -/
namespace OcrService

def cropStart (lo : ℚ) : ℚ := clamp01 (lo - CROP_PADDING)

def cropStop (hi : ℚ) : ℚ := clamp01 (hi + CROP_PADDING)

def cropOrigin (size : Nat) (lo : ℚ) : Int := min ⌊cropStart lo * size⌋ (size - 1)

def cropExtent (size : Nat) (lo hi : ℚ) : Int :=
  max 1 (min ⌈(cropStop hi - cropStart lo) * size⌉ (size - cropOrigin size lo))

theorem cropArea_eq (width height : Nat) (bbox : Bbox) :
    cropArea width height bbox =
      { left := cropOrigin width bbox.x0
        top := cropOrigin height bbox.y0
        width := cropExtent width bbox.x0 bbox.x1
        height := cropExtent height bbox.y0 bbox.y1 } := rfl

section Axis
variable {size : Nat} {lo hi : ℚ}

theorem clamp01_nonneg (n : ℚ) : 0 ≤ clamp01 n := le_max_left 0 _

theorem cropOrigin_nonneg (hsize : 1 ≤ size) : 0 ≤ cropOrigin size lo := by
  have hfloor : 0 ≤ ⌊cropStart lo * size⌋ :=
    Int.floor_nonneg.mpr (mul_nonneg (clamp01_nonneg _) (Nat.cast_nonneg size))
  rw [cropOrigin]
  omega

theorem one_le_cropExtent : 1 ≤ cropExtent size lo hi := le_max_left 1 _

theorem crop_within : cropOrigin size lo + cropExtent size lo hi ≤ size := by
  have horigin : cropOrigin size lo ≤ size - 1 := min_le_right _ _
  rw [cropExtent]
  omega

theorem clamp01_of_nonneg {n : ℚ} (h : 0 ≤ n) (hn : n ≤ 1) : clamp01 n = n := by
  rw [clamp01, min_eq_right hn, max_eq_right h]

theorem cropOrigin_le (hlo : 0 ≤ lo) : (cropOrigin size lo : ℚ) ≤ lo * size := by
  have hstart : cropStart lo ≤ lo := by
    have hpad : lo - CROP_PADDING ≤ lo := by norm_num [CROP_PADDING]
    exact max_le hlo ((min_le_right _ _).trans hpad)
  calc (cropOrigin size lo : ℚ) ≤ (⌊cropStart lo * size⌋ : ℚ) := by
        exact_mod_cast min_le_left _ _
    _ ≤ cropStart lo * size := Int.floor_le _
    _ ≤ lo * size := mul_le_mul_of_nonneg_right hstart (Nat.cast_nonneg size)

theorem cropOrigin_eq (hlo1 : lo ≤ 1) (hpad : 1 ≤ CROP_PADDING * size) :
    cropOrigin size lo = ⌊cropStart lo * size⌋ := by
  have hpadding : CROP_PADDING ≤ 1 := by norm_num [CROP_PADDING]
  have hstart : cropStart lo ≤ 1 - CROP_PADDING :=
    max_le (by linarith) ((min_le_right _ _).trans (by linarith))
  have hpixel : cropStart lo * size ≤ ((size - 1 : Int) : ℚ) := by
    have := mul_le_mul_of_nonneg_right hstart (Nat.cast_nonneg (α := ℚ) size)
    push_cast
    linarith
  refine min_eq_left ?_
  exact_mod_cast (Int.floor_le _).trans hpixel

theorem ceil_rest (x : ℚ) (n : Nat) : ⌈(n : ℚ) - x⌉ = n - ⌊x⌋ := by
  rw [sub_eq_neg_add, Int.ceil_add_natCast, Int.ceil_neg]
  omega

/-- Either the crop runs to the edge, or the padding makes up for what rounding loses. -/
theorem le_cropStop (hlo1 : lo ≤ 1) (hhi : 0 ≤ hi) (hhi1 : hi ≤ 1)
    (hpad : 1 ≤ CROP_PADDING * size) :
    hi * size ≤ ((cropOrigin size lo + cropExtent size lo hi : Int) : ℚ) := by
  have hedge : hi * size ≤ ((size : Int) : ℚ) := by
    have := mul_le_mul_of_nonneg_right hhi1 (Nat.cast_nonneg (α := ℚ) size)
    push_cast
    linarith
  have hextent : min ⌈(cropStop hi - cropStart lo) * size⌉ (size - cropOrigin size lo) ≤
      cropExtent size lo hi := le_max_right _ _
  by_cases hrest : (size - cropOrigin size lo : Int) ≤ ⌈(cropStop hi - cropStart lo) * size⌉
  · rw [min_eq_right hrest] at hextent
    have hreach : (size : Int) ≤ cropOrigin size lo + cropExtent size lo hi := by omega
    exact hedge.trans (by exact_mod_cast hreach)
  · rw [min_eq_left (by omega)] at hextent
    have horigin := cropOrigin_eq hlo1 hpad
    by_cases hclamped : hi + CROP_PADDING ≤ 1
    · have hstop : cropStop hi = hi + CROP_PADDING :=
        clamp01_of_nonneg (by norm_num [CROP_PADDING]; linarith) hclamped
      have hceil := Int.le_ceil ((cropStop hi - cropStart lo) * size)
      have hfloor := Int.lt_floor_add_one (cropStart lo * size)
      have hcast : (⌈(cropStop hi - cropStart lo) * size⌉ : ℚ) ≤ cropExtent size lo hi := by
        exact_mod_cast hextent
      push_cast
      rw [horigin]
      rw [hstop] at hceil hcast
      linarith
    · -- the far end is clamped to the edge, and origin and extent round at the same place
      have hstop : cropStop hi = 1 := by
        rw [cropStop, clamp01, min_eq_left (by linarith)]
        norm_num
      have hceil : ⌈(cropStop hi - cropStart lo) * size⌉ = size - cropOrigin size lo := by
        rw [horigin, ← ceil_rest, hstop]
        ring_nf
      omega

end Axis

/-- The rectangle lies in the image, holds at least one pixel, and holds the whole block when
the padding is a pixel wide. -/
theorem cropRegion_extracts (width height : Nat) (hwidth : 1 ≤ width) (hheight : 1 ≤ height)
    (bbox : Bbox) :
    ∃ area : CropArea,
      (∀ (tools : SigningTools) (pageImage : Buffer),
        tools.metadata pageImage = .ok (some width, some height) →
        cropRegion tools pageImage bbox = (tools.extractPng pageImage area).map fun buffer =>
          "data:image/png;base64," ++ base64 buffer) ∧
      0 ≤ area.left ∧ 0 ≤ area.top ∧ 1 ≤ area.width ∧ 1 ≤ area.height ∧
      area.left + area.width ≤ width ∧ area.top + area.height ≤ height ∧
      (0 ≤ bbox.x0 → bbox.x0 ≤ bbox.x1 → bbox.x1 ≤ 1 → 0 ≤ bbox.y0 → bbox.y0 ≤ bbox.y1 →
        bbox.y1 ≤ 1 → 1 ≤ CROP_PADDING * width → 1 ≤ CROP_PADDING * height →
        (area.left : ℚ) ≤ bbox.x0 * width ∧
        bbox.x1 * width ≤ ((area.left + area.width : Int) : ℚ) ∧
        (area.top : ℚ) ≤ bbox.y0 * height ∧
        bbox.y1 * height ≤ ((area.top + area.height : Int) : ℚ)) := by
  refine ⟨cropArea width height bbox, ?_, ?_⟩
  · intro tools pageImage hmetadata
    have hsize : ¬(width = 0 ∨ height = 0) := by omega
    rw [cropRegion, hmetadata]
    simp only [bind, Except.bind, Option.getD_some, hsize, if_false, pure, Except.pure]
    cases tools.extractPng pageImage (cropArea width height bbox) with
    | error err => rfl
    | ok buffer => rfl
  · rw [cropArea_eq]
    refine ⟨cropOrigin_nonneg hwidth, cropOrigin_nonneg hheight, one_le_cropExtent,
      one_le_cropExtent, crop_within, crop_within, ?_⟩
    intro hx0 hx hx1 hy0 hy hy1 hpadx hpady
    exact ⟨cropOrigin_le hx0, le_cropStop (hx.trans hx1) (hx0.trans hx) hx1 hpadx,
      cropOrigin_le hy0, le_cropStop (hy.trans hy1) (hy0.trans hy) hy1 hpady⟩

/-- A page of 100 by 50 pixels, and a block that reaches its right edge. -/
theorem cropRegion_extracts_edge :
    ∃ area : CropArea, area.left + area.width ≤ (100 : Nat) ∧ area.top + area.height ≤ (50 : Nat) ∧
      (1 : ℚ) * (100 : Nat) ≤ ((area.left + area.width : Int) : ℚ) := by
  obtain ⟨area, -, -, -, -, -, hright, hbottom, hcontains⟩ :=
    cropRegion_extracts 100 50 (by decide) (by decide) ⟨9 / 10, 1 / 2, 1, 1⟩
  have hblock := hcontains (by norm_num) (by norm_num) (by norm_num) (by norm_num) (by norm_num)
    (by norm_num) (by norm_num [CROP_PADDING]) (by norm_num [CROP_PADDING])
  exact ⟨area, hright, hbottom, hblock.2.1⟩

end OcrService
