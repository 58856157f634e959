import Mathlib.Order.Bounds.Basic
import OcrService.ReadingOrder

/-! What becomes of a page with two columns, and of the lines of a page without: which blocks
are read too early. -/
namespace OcrService
open Decimals Sorting

def LocatedBlock.middle (b : LocatedBlock) : ℚ := (b.bbox.x0 + b.bbox.x1) / 2

def middles (blocks : List LocatedBlock) : List ℚ :=
  stableSort id (blocks.map LocatedBlock.middle)

/-- The middle between two neighbouring middles is in the middle of the page. -/
def MidPage (neighbours : ℚ × ℚ) : Prop :=
  3 / 10 < (neighbours.2 + neighbours.1) / 2 ∧ (neighbours.2 + neighbours.1) / 2 < 7 / 10

/-- The blocks of a page stand in two columns, `left` and the rest, on either side of a line;
`l` and `r` are the middles next to the line, and their gap is the widest in the middle of the
page. -/
structure TwoColumns (blocks : List LocatedBlock) (left : LocatedBlock → Bool) (l r : ℚ) :
    Prop where
  normalised : ∀ b ∈ blocks, 0 ≤ b.bbox.x0 ∧ b.bbox.x0 ≤ b.bbox.x1 ∧ b.bbox.x1 ≤ 1
  top : ∀ b ∈ blocks, 0 ≤ b.bbox.y0 ∧ b.bbox.y0 < 1
  line : ∃ c, ∀ b ∈ blocks, if left b then b.bbox.x1 ≤ c else c ≤ b.bbox.x0
  left_middle : IsGreatest {x | ∃ b ∈ blocks, left b = true ∧ b.middle = x} l
  right_middle : IsLeast {x | ∃ b ∈ blocks, left b = false ∧ b.middle = x} r
  mid : MidPage (l, r)
  wide : 15 / 100 ≤ r - l
  widest : ∀ p ∈ (middles blocks).zip (middles blocks).tail, MidPage p →
    p = (l, r) ∨ p.2 - p.1 < r - l

/-- Whatever gutter is found, one that some block of the left column reaches has all of the
right column beyond it. -/
theorem TwoColumns.right_beyond {blocks : List LocatedBlock} {left : LocatedBlock → Bool}
    {l r : ℚ} (h : TwoColumns blocks left l r) {gutter : Option ℚ} {a b : LocatedBlock}
    (ha : a ∈ blocks) (hb : b ∈ blocks) (hleft : left a = true) (hright : left b = false)
    (hbeyond : column gutter a = 1) : column gutter b = 1 := by
  obtain ⟨c, hline⟩ := h.line
  have haline : a.bbox.x1 ≤ c := by simpa [hleft] using hline a ha
  have hbline : c ≤ b.bbox.x0 := by simpa [hright] using hline b hb
  have hbox := (h.normalised a ha).2.1
  cases gutter with
  | none => exact absurd hbeyond (by simp [column])
  | some g =>
    have hg : g ≤ a.bbox.x0 := by
      by_contra hshort
      exact absurd (hbeyond.symm.trans (if_neg hshort)) one_ne_zero
    exact if_pos (by linarith)

/-- `a` before `b`: no block of the left column comes after one of the right, and each column
is read from the top. -/
def InColumns (left : LocatedBlock → Bool) (a b : LocatedBlock) : Prop :=
  (left b = true → left a = true) ∧ (left a = left b → a.bbox.y0 ≤ b.bbox.y0)

def ReadInColumns (blocks : List LayoutBlock) (page : Nat) (left : LocatedBlock → Bool) : Prop :=
  (readingOrder blocks).Pairwise fun a b => a.page = page → b.page = page → InColumns left a b

/-- `HarmlessGutter` for two blocks with their positions: where the blocks of the two sides
stand against the gutter that is found. -/
structure Harmless (left : LocatedBlock → Bool) (gutter : Option ℚ) (x y : LocatedBlock × Nat) :
    Prop where
  /-- Of the blocks short of the gutter those of the left side come first. -/
  short : left x.1 = true → left y.1 = false → column gutter x.1 = 0 → column gutter y.1 = 0 →
    x.1.bbox.y0 < y.1.bbox.y0 ∨ x.1.bbox.y0 = y.1.bbox.y0 ∧ x.2 < y.2
  /-- And of the blocks beyond it. -/
  beyond : left x.1 = true → left y.1 = false → column gutter x.1 = 1 →
    double (1 + x.1.bbox.y0) < double (1 + y.1.bbox.y0) ∨
      double (1 + x.1.bbox.y0) = double (1 + y.1.bbox.y0) ∧ x.2 < y.2
  /-- Of one side the blocks short of the gutter stand above those beyond it. -/
  across : left x.1 = left y.1 → column gutter x.1 = 0 → column gutter y.1 = 1 →
    x.1.bbox.y0 ≤ y.1.bbox.y0
  /-- And of those beyond it no lower one comes first in the input for want of a bit. -/
  apart : left x.1 = left y.1 → column gutter x.1 = 1 → column gutter y.1 = 1 → x.2 < y.2 →
    double (1 + x.1.bbox.y0) = double (1 + y.1.bbox.y0) → x.1.bbox.y0 ≤ y.1.bbox.y0

def HarmlessGutter (blocks : List LayoutBlock) (page : Nat) (left : LocatedBlock → Bool) : Prop :=
  ∀ x ∈ (usableBlocks blocks).zipIdx, ∀ y ∈ (usableBlocks blocks).zipIdx,
    x.1.page = page → y.1.page = page → Harmless left (gutterOf blocks page) x y

section
variable {gutter : Option ℚ} {x y : LocatedBlock × Nat}

theorem precedes_first (hx : column gutter x.1 = 0) (hy : column gutter y.1 = 0) :
    Precedes (rank gutter) x y ↔
      x.1.bbox.y0 < y.1.bbox.y0 ∨ x.1.bbox.y0 = y.1.bbox.y0 ∧ x.2 < y.2 := by
  rw [Precedes, rank_first hx, rank_first hy]

theorem precedes_second (hx : column gutter x.1 = 1) (hy : column gutter y.1 = 1) :
    Precedes (rank gutter) x y ↔
      double (1 + x.1.bbox.y0) < double (1 + y.1.bbox.y0) ∨
        double (1 + x.1.bbox.y0) = double (1 + y.1.bbox.y0) ∧ x.2 < y.2 := by
  rw [Precedes, rank_second hx, rank_second hy]

end

theorem harmless_of_read {left : LocatedBlock → Bool} {gutter : Option ℚ}
    {x y : LocatedBlock × Nat} (hx : 0 ≤ x.1.bbox.y0 ∧ x.1.bbox.y0 < 1)
    (hy : 0 ≤ y.1.bbox.y0 ∧ y.1.bbox.y0 < 1)
    (hright : left x.1 = true → left y.1 = false → column gutter x.1 = 1 → column gutter y.1 = 1)
    (hpos : left x.1 ≠ left y.1 → x.2 ≠ y.2)
    (hxy : Precedes (rank gutter) x y → InColumns left x.1 y.1)
    (hyx : Precedes (rank gutter) y x → InColumns left y.1 x.1) : Harmless left gutter x y := by
  have hfirst (hxleft : left x.1 = true) (hyright : left y.1 = false) :
      Precedes (rank gutter) x y := by
    have hne : x.2 ≠ y.2 := hpos (by simp [hxleft, hyright])
    refine (Precedes.total (rank gutter) hne).resolve_right fun h => ?_
    exact absurd (hyright.symm.trans ((hyx h).1 hxleft)) (by simp)
  constructor
  · intro hxleft hyright hxcolumn hycolumn
    exact (precedes_first hxcolumn hycolumn).mp (hfirst hxleft hyright)
  · intro hxleft hyright hxcolumn
    exact (precedes_second hxcolumn (hright hxleft hyright hxcolumn)).mp (hfirst hxleft hyright)
  · intro hside hxcolumn hycolumn
    exact (hxy (.inl (rank_first_lt_second hx.2 hy.1 hxcolumn hycolumn))).2 hside
  · intro hside hxcolumn hycolumn hlt heq
    exact (hxy ((precedes_second hxcolumn hycolumn).mpr (.inr ⟨heq, hlt⟩))).2 hside

theorem inColumns_of_harmless {left : LocatedBlock → Bool} {gutter : Option ℚ}
    {x y : LocatedBlock × Nat} (hx : 0 ≤ x.1.bbox.y0 ∧ x.1.bbox.y0 < 1)
    (hy : 0 ≤ y.1.bbox.y0 ∧ y.1.bbox.y0 < 1)
    (hright : left y.1 = true → left x.1 = false → column gutter y.1 = 1 → column gutter x.1 = 1)
    (hxy : Harmless left gutter x y) (hyx : Harmless left gutter y x)
    (h : Precedes (rank gutter) x y) : InColumns left x.1 y.1 := by
  have hcolumn : column gutter x.1 ≤ column gutter y.1 := column_le_of_rank_le hx hy h.le
  constructor
  · intro hyleft
    by_contra hxleft
    have hxright : left x.1 = false := by simpa using hxleft
    cases column_zero_or_one gutter y.1 with
    | inl hyfirst =>
      have hxfirst : column gutter x.1 = 0 := by omega
      exact h.asymm ((precedes_first hyfirst hxfirst).mpr
        (hyx.short hyleft hxright hyfirst hxfirst))
    | inr hysecond =>
      exact h.asymm ((precedes_second hysecond (hright hyleft hxright hysecond)).mpr
        (hyx.beyond hyleft hxright hysecond))
  · intro hside
    rcases hcolumn.lt_or_eq with hlt | heq
    · have hsecond : column gutter y.1 = 1 :=
        (column_zero_or_one gutter y.1).resolve_left (by omega)
      exact hxy.across hside (by omega) hsecond
    · obtain hrank | ⟨hrank, hpos⟩ := h
      · exact (y0_lt_of_rank_lt heq hrank).le
      · cases column_zero_or_one gutter y.1 with
        | inl hfirst =>
          rw [rank_first (heq.trans hfirst), rank_first hfirst] at hrank
          exact hrank.le
        | inr hsecond =>
          rw [rank_second (heq.trans hsecond), rank_second hsecond] at hrank
          exact hxy.apart hside (heq.trans hsecond) hsecond hpos hrank

structure TextLines (blocks : List LocatedBlock) (line : LocatedBlock → Nat) : Prop where
  upright : ∀ b ∈ blocks, b.bbox.y0 ≤ b.bbox.y1
  bands : ∃ top bottom : Nat → ℚ,
    (∀ b ∈ blocks, top (line b) ≤ b.bbox.y0 ∧ b.bbox.y1 ≤ bottom (line b)) ∧
    ∀ a ∈ blocks, ∀ b ∈ blocks, line a < line b → bottom (line a) < top (line b)

theorem TextLines.y0_lt {blocks : List LocatedBlock} {line : LocatedBlock → Nat}
    (h : TextLines blocks line) {a b : LocatedBlock} (ha : a ∈ blocks) (hb : b ∈ blocks)
    (hline : line a < line b) : a.bbox.y0 < b.bbox.y0 := by
  obtain ⟨top, bottom, hband, hbands⟩ := h.bands
  have hupright := h.upright a ha
  have hbottom := (hband a ha).2
  have htop := (hband b hb).1
  have hgap := hbands a ha b hb hline
  linarith

def InLines (line : LocatedBlock → Nat) (a b : LocatedBlock) : Prop :=
  line a ≤ line b ∧ (line a = line b → a.bbox.x0 ≤ b.bbox.x0)

def ReadInLines (blocks : List LayoutBlock) (page : Nat) (line : LocatedBlock → Nat) : Prop :=
  (readingOrder blocks).Pairwise fun a b => a.page = page → b.page = page → InLines line a b

def LinesDescend (blocks : List LayoutBlock) (page : Nat) (line : LocatedBlock → Nat) : Prop :=
  ∀ x ∈ (usableBlocks blocks).zipIdx, ∀ y ∈ (usableBlocks blocks).zipIdx,
    x.1.page = page → y.1.page = page → line x.1 = line y.1 →
    x.1.bbox.y0 < y.1.bbox.y0 ∨ x.1.bbox.y0 = y.1.bbox.y0 ∧ x.2 < y.2 →
    x.1.bbox.x0 ≤ y.1.bbox.x0

theorem precedes_no_gutter {x y : LocatedBlock × Nat} :
    Precedes (rank none) x y ↔
      x.1.bbox.y0 < y.1.bbox.y0 ∨ x.1.bbox.y0 = y.1.bbox.y0 ∧ x.2 < y.2 := by
  exact precedes_first rfl rfl

/-- Without a gutter a page is read line by line, and each line from left to right exactly if
no block of a line has its top edge above that of one to its left. -/
theorem readInLines_iff {blocks : List LayoutBlock} {page : Nat} {line : LocatedBlock → Nat}
    (hgutter : detectGutter (onPage page (usableBlocks blocks)) = none)
    (h : TextLines (onPage page (usableBlocks blocks)) line) :
    reconstructReadingOrder blocks = joinPages (readingOrder blocks) ∧
    (ReadInLines blocks page line ↔ LinesDescend blocks page line) := by
  refine ⟨reconstructReadingOrder_eq blocks, ?_⟩
  rw [ReadInLines, pairwise_readingOrder_iff, gutterOf, hgutter]
  constructor
  · intro hQ x hx y hy hxpage hypage hline hxy
    exact (hQ x hx y hy hxpage hypage (precedes_no_gutter.mpr hxy)).2 hline
  · intro hdescend x hx y hy hxpage hypage hprecedes
    have hxy := precedes_no_gutter.mp hprecedes
    refine ⟨?_, fun hline => hdescend x hx y hy hxpage hypage hline hxy⟩
    by_contra hline
    have hlt : y.1.bbox.y0 < x.1.bbox.y0 :=
      h.y0_lt (mem_onPage.mpr ⟨List.fst_mem_of_mem_zipIdx hy, hypage⟩)
        (mem_onPage.mpr ⟨List.fst_mem_of_mem_zipIdx hx, hxpage⟩) (not_le.mp hline)
    obtain habove | ⟨hlevel, -⟩ := hxy
    · exact lt_asymm habove hlt
    · exact absurd hlevel (ne_of_gt hlt)

namespace Sample

def resumeBlock (index : Nat) (bbox : Bbox) (content : String) : LayoutBlock where
  index := index
  page := 1
  label := .text
  bbox := some bbox
  content := content

def doubleBox (x0 y0 x1 y1 : ℚ) : Bbox := ⟨double x0, double y0, double x1, double y1⟩

def beside (right left : Bbox) : List LayoutBlock :=
  [resumeBlock 0 right "Led a team", resumeBlock 1 left "Skills"]

def inSidebar (b : LocatedBlock) : Bool := b.block.index = 1

theorem onPage_beside (right left : Bbox) : onPage 1 (usableBlocks (beside right left)) =
    [⟨resumeBlock 0 right "Led a team", right, rfl⟩,
      ⟨resumeBlock 1 left "Skills", left, rfl⟩] := by
  have hteam : jsTrim "Led a team" ≠ "" := by decide +kernel
  have hskills : jsTrim "Skills" ≠ "" := by decide +kernel
  simp [usableBlocks, beside, resumeBlock, onPage, LocatedBlock.page, LayoutBlock.located?,
    hteam, hskills]

theorem beside_twoColumns {right left : Bbox}
    (hnormalised : ∀ b ∈ [right, left], 0 ≤ b.x0 ∧ b.x0 ≤ b.x1 ∧ b.x1 ≤ 1)
    (htop : ∀ b ∈ [right, left], 0 ≤ b.y0 ∧ b.y0 < 1) (hline : left.x1 ≤ right.x0)
    (hmid : MidPage ((left.x0 + left.x1) / 2, (right.x0 + right.x1) / 2))
    (hwide : 15 / 100 ≤ (right.x0 + right.x1) / 2 - (left.x0 + left.x1) / 2) :
    TwoColumns (onPage 1 (usableBlocks (beside right left))) inSidebar
      ((left.x0 + left.x1) / 2) ((right.x0 + right.x1) / 2) := by
  have hlt : (left.x0 + left.x1) / 2 < (right.x0 + right.x1) / 2 := by linarith
  rw [onPage_beside]
  constructor
  · simpa using hnormalised
  · simpa using htop
  · exact ⟨left.x1, by simpa [inSidebar, resumeBlock] using hline⟩
  · simp [IsGreatest, upperBounds, inSidebar, resumeBlock, LocatedBlock.middle]
  · simp [IsLeast, lowerBounds, inSidebar, resumeBlock, LocatedBlock.middle]
  · exact hmid
  · exact hwide
  · simp [middles, stableSort, LocatedBlock.middle, not_le_of_gt hlt]

def sidebar : List LayoutBlock :=
  beside (doubleBox (3 / 10) (1 / 10) (95 / 100) (2 / 10))
    (doubleBox (5 / 100) (3 / 10) (25 / 100) (4 / 10))

def closeColumns : List LayoutBlock :=
  beside (doubleBox (55 / 100) (1 / 10) (6 / 10) (2 / 10))
    (doubleBox (35 / 100) (3 / 10) (5 / 10) (4 / 10))

/-- No gutter is found there, and the right column is read first. -/
example : detectGutter (onPage 1 (usableBlocks closeColumns)) = none ∧
    reconstructReadingOrder closeColumns = "Led a team\nSkills" := by
  decide +kernel

/-- Two words of one line, the second a little higher. -/
def heading : List LayoutBlock :=
  [resumeBlock 0 (doubleBox (5 / 100) (11 / 100) (15 / 100) (13 / 100)) "Work",
    resumeBlock 1 (doubleBox (16 / 100) (10 / 100) (30 / 100) (13 / 100)) "history"]

theorem heading_textLines : TextLines (onPage 1 (usableBlocks heading)) fun _ => 0 :=
  ⟨by decide +kernel, fun _ => 0, fun _ => 1, by decide +kernel, by decide⟩

/-- The higher word is read first. -/
theorem heading_swapped :
    detectGutter (onPage 1 (usableBlocks heading)) = none ∧
    TextLines (onPage 1 (usableBlocks heading)) (fun _ => 0) ∧
    reconstructReadingOrder heading = "history\nWork" ∧
    ¬ReadInLines heading 1 fun _ => 0 := by
  refine ⟨by decide +kernel, heading_textLines, by decide +kernel, ?_⟩
  unfold ReadInLines InLines
  decide +kernel

theorem heading_readInLines_iff :
    reconstructReadingOrder heading = joinPages (readingOrder heading) ∧
    (ReadInLines heading 1 (fun _ => 0) ↔ LinesDescend heading 1 fun _ => 0) :=
  readInLines_iff (by decide +kernel) heading_textLines

end Sample

end OcrService
