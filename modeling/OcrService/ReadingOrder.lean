import Mathlib.Data.List.Dedup
import OcrService.Decimals.Doubles
import OcrService.Documents
import OcrService.Prompts
import OcrService.Sorting.Stable

/-! RESUME_PARSING (`functions/resume-parsing/execute.ts`, `prompt.ts`): the order in which
the blocks of a resume are read. Coordinates are rationals, what is computed from them is
rounded to doubles. -/
namespace OcrService
open Decimals Sorting

structure ResumeParsingArgs where
  normalizeDates : Bool := true

def buildResumeParsingPrompt (markdown : String) (args : ResumeParsingArgs) : Prompt where
  system := buildSystem
    ["You are a resume parsing assistant.",
      "Extract contact info, summary, experience, education, " ++
        "skills, certifications, and languages.",
      if args.normalizeDates then
        "Normalize all dates to ISO 8601 (YYYY-MM or YYYY-MM-DD)."
      else "Preserve dates as written.",
      "For current roles set current=true and endDate=null. Use null for missing scalar fields."]
  user := "Parse this resume:\n\n" ++ wrapUntrusted "RESUME" markdown

def LocatedBlock.page (b : LocatedBlock) : Nat := b.block.page

def LocatedBlock.text (b : LocatedBlock) : String := jsTrim b.block.content

/-- The blocks with a place on their page and content to read there. -/
def usableBlocks (blocks : List LayoutBlock) : List LocatedBlock :=
  blocks.filterMap fun b => if jsTrim b.content = "" then none else b.located?

def onPage (page : Nat) (usable : List LocatedBlock) : List LocatedBlock :=
  usable.filter fun b => b.page = page

def LocatedBlock.xCenter (b : LocatedBlock) : ℚ := doubleMid b.bbox.x0 b.bbox.x1

def MIN_GUTTER_WIDTH : ℚ := double (15 / 100)

/-- The loop body of `detectGutter`, over `widest` and `gutter`, on two neighbouring centers. -/
def widen (best : ℚ × Option ℚ) (neighbours : ℚ × ℚ) : ℚ × Option ℚ :=
  let gap := doubleSub neighbours.2 neighbours.1
  let mid := doubleMid neighbours.2 neighbours.1
  if best.1 < gap ∧ double (3 / 10) < mid ∧ mid < double (7 / 10) then (gap, some mid) else best

def centers (blocks : List LocatedBlock) : List ℚ :=
  stableSort id (blocks.map LocatedBlock.xCenter)

def detectGutter (blocks : List LocatedBlock) : Option ℚ :=
  let sorted := centers blocks
  let best := (sorted.zip sorted.tail).foldl widen (0, none)
  if MIN_GUTTER_WIDTH ≤ best.1 then best.2 else none

def column (gutter : Option ℚ) (b : LocatedBlock) : Nat :=
  match gutter with
  | some g => if g ≤ b.bbox.x0 then 1 else 0
  | none => 0

def rank (gutter : Option ℚ) (b : LocatedBlock) : ℚ := doubleAdd (column gutter b) b.bbox.y0

def pageOrder (blocks : List LocatedBlock) : List LocatedBlock :=
  stableSort (rank (detectGutter blocks)) blocks

def orderPage (blocks : List LocatedBlock) : String :=
  "\n".intercalate ((pageOrder blocks).map LocatedBlock.text)

def usedPages (usable : List LocatedBlock) : List Nat :=
  stableSort id (usable.map LocatedBlock.page).dedup

def reconstructReadingOrder (blocks : List LayoutBlock) : String :=
  let usable := usableBlocks blocks
  if usable = [] then ""
  else
    jsTrim ("\n\n".intercalate
      ((usedPages usable).map fun page => orderPage (onPage page usable)))

def executeResumeParsing {α : Type} (complete : Prompt → α) (doc : RecognizedDocument)
    (args : ResumeParsingArgs) : α :=
  let markdown := (truthy (some (reconstructReadingOrder doc.blocks))).getD doc.markdown
  complete (buildResumeParsingPrompt markdown args)

def readingOrder (blocks : List LayoutBlock) : List LocatedBlock :=
  (usedPages (usableBlocks blocks)).flatMap fun page =>
    pageOrder (onPage page (usableBlocks blocks))

def gutterOf (blocks : List LayoutBlock) (page : Nat) : Option ℚ :=
  detectGutter (onPage page (usableBlocks blocks))

theorem mem_onPage {page : Nat} {usable : List LocatedBlock} {b : LocatedBlock} :
    b ∈ onPage page usable ↔ b ∈ usable ∧ b.page = page := by
  simp [onPage]

theorem usedPages_sorted (usable : List LocatedBlock) : (usedPages usable).Pairwise (· < ·) := by
  have hle : (usedPages usable).Pairwise (· ≤ ·) := List.pairwise_insertionSort _ _
  have hnodup : (usedPages usable).Nodup :=
    (stableSort_perm id _).nodup_iff.mpr (List.nodup_dedup _)
  exact (hle.and hnodup).imp fun h => lt_of_le_of_ne h.1 h.2

theorem mem_usedPages {usable : List LocatedBlock} {page : Nat} :
    page ∈ usedPages usable ↔ ∃ b ∈ usable, b.page = page := by
  rw [usedPages, mem_stableSort, List.mem_dedup, List.mem_map]

theorem readingOrder_eq (blocks : List LayoutBlock) :
    readingOrder blocks =
      stableSort (fun b => toLex (b.page, rank (gutterOf blocks b.page) b))
        (usableBlocks blocks) := by
  rw [← flatMap_stableSort (usedPages_sorted (usableBlocks blocks))
    fun b hb => mem_usedPages.mpr ⟨b, hb, rfl⟩, readingOrder]
  congr 1
  funext page
  rw [pageOrder]
  refine stableSort_congr fun b hb => ?_
  rw [gutterOf, (mem_onPage.mp hb).2]

theorem pairwise_readingOrder_iff {blocks : List LayoutBlock} {page : Nat}
    {Q : LocatedBlock → LocatedBlock → Prop} :
    (readingOrder blocks).Pairwise (fun a b => a.page = page → b.page = page → Q a b) ↔
      ∀ x ∈ (usableBlocks blocks).zipIdx, ∀ y ∈ (usableBlocks blocks).zipIdx,
        x.1.page = page → y.1.page = page → Precedes (rank (gutterOf blocks page)) x y →
        Q x.1 y.1 := by
  rw [readingOrder_eq, pairwise_stableSort_iff]
  have hprecedes {x y : LocatedBlock × Nat} (hx : x.1.page = page) (hy : y.1.page = page) :
      Precedes (fun b => toLex (b.page, rank (gutterOf blocks b.page) b)) x y ↔
        Precedes (rank (gutterOf blocks page)) x y := by
    simp [Precedes, Prod.Lex.toLex_lt_toLex, hx, hy]
  constructor
  · intro h x hx y hy hxpage hypage hxy
    exact h x hx y hy ((hprecedes hxpage hypage).mpr hxy) hxpage hypage
  · intro h x hx y hy hxy hxpage hypage
    exact h x hx y hy hxpage hypage ((hprecedes hxpage hypage).mp hxy)

def joinPages : List LocatedBlock → String
  | [] => ""
  | [b] => b.text
  | a :: b :: rest => a.text ++ (if a.page = b.page then "\n" else "\n\n") ++ joinPages (b :: rest)

theorem joinPages_onePage {page : Nat} {order : List LocatedBlock}
    (h : ∀ b ∈ order, b.page = page) :
    joinPages order = "\n".intercalate (order.map LocatedBlock.text) := by
  induction order with
  | nil => rfl
  | cons a order ih =>
    cases order with
    | nil => simp [joinPages]
    | cons b rest =>
      have heq : a.page = b.page := (h a (by simp)).trans (h b (by simp)).symm
      rw [joinPages, ih fun c hc => h c (List.mem_cons_of_mem a hc), if_pos heq]
      simp only [List.map_cons, String.intercalate_cons_cons]

theorem joinPages_append {order rest : List LocatedBlock} (horder : order ≠ []) (hrest : rest ≠ [])
    (hpages : ∀ a ∈ order, ∀ b ∈ rest, a.page ≠ b.page) :
    joinPages (order ++ rest) = joinPages order ++ "\n\n" ++ joinPages rest := by
  induction order with
  | nil => exact absurd rfl horder
  | cons a order ih =>
    cases order with
    | nil =>
      obtain ⟨b, rest, rfl⟩ := List.exists_cons_of_ne_nil hrest
      simp [joinPages, hpages a (by simp) b (by simp)]
    | cons a' order =>
      have htail := ih (by simp) fun c hc b hb => hpages c (List.mem_cons_of_mem a hc) b hb
      simp only [List.cons_append] at htail ⊢
      simp only [joinPages, htail, String.append_assoc]

theorem joinPages_flatMap {pages : List Nat} {order : Nat → List LocatedBlock}
    (hpages : pages.Nodup) (horder : ∀ page ∈ pages, order page ≠ [])
    (hpage : ∀ page ∈ pages, ∀ b ∈ order page, b.page = page) :
    joinPages (pages.flatMap order) = "\n\n".intercalate
      (pages.map fun page => "\n".intercalate ((order page).map LocatedBlock.text)) := by
  induction pages with
  | nil => rfl
  | cons page pages ih =>
    rw [List.nodup_cons] at hpages
    have hfirst := joinPages_onePage (hpage page List.mem_cons_self)
    have hih := ih hpages.2 (fun p hp => horder p (List.mem_cons_of_mem page hp))
      fun p hp => hpage p (List.mem_cons_of_mem page hp)
    cases pages with
    | nil => simp [hfirst]
    | cons next pages =>
      have hne : (next :: pages).flatMap order ≠ [] := by
        simp [horder next (by simp)]
      have hturn : ∀ a ∈ order page, ∀ b ∈ (next :: pages).flatMap order, a.page ≠ b.page := by
        intro a ha b hb heq
        obtain ⟨p, hp, hb⟩ := List.mem_flatMap.mp hb
        rw [hpage page List.mem_cons_self a ha, hpage p (List.mem_cons_of_mem page hp) b hb] at heq
        exact hpages.1 (heq ▸ hp)
      rw [List.flatMap_cons, joinPages_append (horder page List.mem_cons_self) hne hturn, hih,
        hfirst]
      simp only [List.map_cons, String.intercalate_cons_cons]

theorem joinPages_eq_empty {order : List LocatedBlock} (htexts : ∀ b ∈ order, b.text ≠ "") :
    joinPages order = "" ↔ order = [] := by
  cases order with
  | nil => simp [joinPages]
  | cons a order =>
    have ha := htexts a List.mem_cons_self
    cases order with
    | nil => simp [joinPages, ha]
    | cons b rest => simp [joinPages, ha]

theorem joinPages_head {order : List LocatedBlock} (htexts : ∀ b ∈ order, b.text ≠ "") {c : Char}
    (h : (joinPages order).toList.head? = some c) : jsWhitespace c = false := by
  cases order with
  | nil => simp [joinPages] at h
  | cons a order =>
    cases order with
    | nil => exact jsTrim_head h
    | cons b rest =>
      have hne : a.text.toList ≠ [] := by simpa using htexts a List.mem_cons_self
      rw [joinPages, String.append_assoc, String.toList_append, List.head?_append_of_ne_nil _ hne]
        at h
      exact jsTrim_head h

theorem joinPages_last {order : List LocatedBlock} (htexts : ∀ b ∈ order, b.text ≠ "") {c : Char}
    (h : (joinPages order).toList.getLast? = some c) : jsWhitespace c = false := by
  induction order with
  | nil => simp [joinPages] at h
  | cons a order ih =>
    cases order with
    | nil => exact jsTrim_last h
    | cons b rest =>
      have hrest : ∀ b' ∈ b :: rest, b'.text ≠ "" := fun b' hb' =>
        htexts b' (List.mem_cons_of_mem a hb')
      have hne : (joinPages (b :: rest)).toList ≠ [] := by
        simpa using (joinPages_eq_empty hrest).not.mpr (List.cons_ne_nil b rest)
      apply ih hrest
      rw [joinPages, String.toList_append, List.getLast?_append_of_ne_nil _ hne] at h
      exact h

theorem mem_usableBlocks {blocks : List LayoutBlock} {b : LocatedBlock} :
    b ∈ usableBlocks blocks ↔ b.block ∈ blocks ∧ b.text ≠ "" := by
  rw [usableBlocks, List.mem_filterMap]
  constructor
  · intro h
    obtain ⟨block, hmem, hb⟩ := h
    split at hb
    · cases hb
    · rename_i htext
      obtain rfl := located?_eq_some.mp hb
      exact ⟨hmem, htext⟩
  · intro h
    obtain ⟨hmem, htext⟩ := h
    refine ⟨b.block, hmem, ?_⟩
    exact (if_neg htext).trans (located?_eq_some.mpr rfl)

theorem mem_readingOrder {blocks : List LayoutBlock} {b : LocatedBlock} :
    b ∈ readingOrder blocks ↔ b ∈ usableBlocks blocks := by
  rw [readingOrder_eq, mem_stableSort]

theorem reconstructReadingOrder_eq (blocks : List LayoutBlock) :
    reconstructReadingOrder blocks = joinPages (readingOrder blocks) := by
  have htexts : ∀ b ∈ readingOrder blocks, b.text ≠ "" := fun b hb =>
    (mem_usableBlocks.mp (mem_readingOrder.mp hb)).2
  have hjoin : joinPages (readingOrder blocks) = "\n\n".intercalate
      ((usedPages (usableBlocks blocks)).map fun page =>
        orderPage (onPage page (usableBlocks blocks))) := by
    refine joinPages_flatMap ((usedPages_sorted _).imp ne_of_lt) ?_ ?_
    · intro page hpage hnil
      obtain ⟨b, hb, hbpage⟩ := mem_usedPages.mp hpage
      have hmem : b ∈ pageOrder (onPage page (usableBlocks blocks)) :=
        mem_stableSort.mpr (mem_onPage.mpr ⟨hb, hbpage⟩)
      rw [hnil] at hmem
      exact absurd hmem (List.not_mem_nil)
    · intro page _ b hb
      exact (mem_onPage.mp (mem_stableSort.mp hb)).2
  simp only [reconstructReadingOrder]
  split
  · rename_i hnone
    rw [readingOrder, hnone]
    rfl
  · rw [← hjoin]
    exact jsTrim_eq_self (fun c hc => joinPages_head htexts hc) fun c hc => joinPages_last htexts hc

def columnOf (blocks : List LayoutBlock) (b : LocatedBlock) : Nat :=
  column (gutterOf blocks b.page) b

/-- By page, then by column, then by top edge, then by the order of the input. -/
def ReadBefore (blocks : List LayoutBlock) (x y : LocatedBlock × Nat) : Prop :=
  x.1.page < y.1.page ∨ x.1.page = y.1.page ∧
    (columnOf blocks x.1 < columnOf blocks y.1 ∨ columnOf blocks x.1 = columnOf blocks y.1 ∧
      (x.1.bbox.y0 < y.1.bbox.y0 ∨ x.1.bbox.y0 = y.1.bbox.y0 ∧ x.2 < y.2))

theorem column_zero_or_one (gutter : Option ℚ) (b : LocatedBlock) :
    column gutter b = 0 ∨ column gutter b = 1 := by
  cases gutter with
  | none => exact .inl rfl
  | some g => exact (ite_eq_or_eq (g ≤ b.bbox.x0) 1 0).symm

theorem rank_first {gutter : Option ℚ} {b : LocatedBlock} (h : column gutter b = 0) :
    rank gutter b = b.bbox.y0 := by
  simp [rank, doubleAdd, h]

theorem rank_second {gutter : Option ℚ} {b : LocatedBlock} (h : column gutter b = 1) :
    rank gutter b = double (1 + b.bbox.y0) := by
  rw [rank, h, Nat.cast_one, doubleAdd, if_neg one_ne_zero]
  split
  · rename_i hzero
    rw [hzero, add_zero, double_one]
  · rfl

/-- Columns and heights share one number, and the column decides. -/
theorem rank_first_lt_second {gutter : Option ℚ} {a b : LocatedBlock} (ha : a.bbox.y0 < 1)
    (hb : 0 ≤ b.bbox.y0) (hacolumn : column gutter a = 0) (hbcolumn : column gutter b = 1) :
    rank gutter a < rank gutter b := by
  rw [rank_first hacolumn, rank_second hbcolumn]
  calc a.bbox.y0 < 1 := ha
    _ = double 1 := double_one.symm
    _ ≤ double (1 + b.bbox.y0) := double_mono (by linarith)

theorem y0_lt_of_rank_lt {gutter : Option ℚ} {a b : LocatedBlock}
    (hcolumn : column gutter a = column gutter b) (h : rank gutter a < rank gutter b) :
    a.bbox.y0 < b.bbox.y0 := by
  cases column_zero_or_one gutter b with
  | inl hb => rwa [rank_first (hcolumn.trans hb), rank_first hb] at h
  | inr hb =>
    rw [rank_second (hcolumn.trans hb), rank_second hb] at h
    by_contra hle
    exact absurd h (not_lt_of_ge (double_mono (by linarith)))

theorem column_le_of_rank_le {gutter : Option ℚ} {a b : LocatedBlock}
    (ha : 0 ≤ a.bbox.y0 ∧ a.bbox.y0 < 1) (hb : 0 ≤ b.bbox.y0 ∧ b.bbox.y0 < 1)
    (h : rank gutter a ≤ rank gutter b) : column gutter a ≤ column gutter b := by
  cases column_zero_or_one gutter a with
  | inl ha0 => omega
  | inr ha1 =>
    cases column_zero_or_one gutter b with
    | inl hb0 => exact absurd h (not_le_of_gt (rank_first_lt_second hb.2 ha.1 hb0 ha1))
    | inr hb1 => omega

/-- Nowhere in a second column are two top edges, the lower one first in the input, so close
that their sums with the column are the same double. -/
def TopsToldApart (blocks : List LayoutBlock) : Prop :=
  ∀ x ∈ (usableBlocks blocks).zipIdx, ∀ y ∈ (usableBlocks blocks).zipIdx,
    x.1.page = y.1.page → columnOf blocks x.1 = 1 → columnOf blocks y.1 = 1 → x.2 < y.2 →
    double (1 + x.1.bbox.y0) = double (1 + y.1.bbox.y0) → x.1.bbox.y0 ≤ y.1.bbox.y0

theorem readBefore_of_precedes {blocks : List LayoutBlock} (hapart : TopsToldApart blocks)
    {x y : LocatedBlock × Nat} (hxmem : x ∈ (usableBlocks blocks).zipIdx)
    (hymem : y ∈ (usableBlocks blocks).zipIdx)
    (hx : 0 ≤ x.1.bbox.y0 ∧ x.1.bbox.y0 < 1) (hy : 0 ≤ y.1.bbox.y0 ∧ y.1.bbox.y0 < 1)
    (hxy : Precedes (fun b => toLex (b.page, rank (gutterOf blocks b.page) b)) x y) :
    ReadBefore blocks x y := by
  simp only [Precedes, Prod.Lex.toLex_lt_toLex, EmbeddingLike.apply_eq_iff_eq,
    Prod.mk.injEq] at hxy
  obtain (hpage | ⟨hpage, hrank⟩) | ⟨⟨hpage, hrank⟩, hpos⟩ := hxy
  · exact .inl hpage
  · refine .inr ⟨hpage, ?_⟩
    have hcolumn := hrank.le
    rw [hpage] at hrank hcolumn
    rw [columnOf, hpage, columnOf]
    exact (column_le_of_rank_le hx hy hcolumn).lt_or_eq.imp_right fun heq =>
      ⟨heq, .inl (y0_lt_of_rank_lt heq hrank)⟩
  · refine .inr ⟨hpage, .inr ?_⟩
    have hcolumn : columnOf blocks x.1 = columnOf blocks y.1 := by
      rw [columnOf, hpage, columnOf]
      rw [hpage] at hrank
      exact le_antisymm (column_le_of_rank_le hx hy hrank.le)
        (column_le_of_rank_le hy hx hrank.ge)
    refine ⟨hcolumn, ?_⟩
    cases column_zero_or_one (gutterOf blocks y.1.page) y.1 with
    | inl hfirst =>
      rw [rank_first (hcolumn.trans hfirst), rank_first hfirst] at hrank
      exact .inr ⟨hrank, hpos⟩
    | inr hsecond =>
      rw [rank_second (hcolumn.trans hsecond), rank_second hsecond] at hrank
      have hle := hapart x hxmem y hymem hpage (hcolumn.trans hsecond) hsecond hpos hrank
      exact hle.lt_or_eq.imp_right fun heq => ⟨heq, hpos⟩

def OrderedByTop (blocks : List LayoutBlock) : Prop :=
  ∃ order : List (LocatedBlock × Nat), order.Perm (usableBlocks blocks).zipIdx ∧
    order.Pairwise (ReadBefore blocks) ∧ order.map Prod.fst = readingOrder blocks

theorem orderedByTop_iff {blocks : List LayoutBlock}
    (htop : ∀ b ∈ blocks, ∀ bbox, b.bbox = some bbox → 0 ≤ bbox.y0 ∧ bbox.y0 < 1) :
    OrderedByTop blocks ↔ TopsToldApart blocks := by
  have hplace : ∀ x ∈ (usableBlocks blocks).zipIdx, 0 ≤ x.1.bbox.y0 ∧ x.1.bbox.y0 < 1 := by
    intro x hx
    exact htop _ (mem_usableBlocks.mp (List.fst_mem_of_mem_zipIdx hx)).1 _ x.1.located
  constructor
  · intro h x hx y hy hpage hxcolumn hycolumn hpos heq
    obtain ⟨order, -, hsorted, hmap⟩ := h
    -- of one page and column, what is read first has its top edge no lower
    have hdown : (readingOrder blocks).Pairwise fun a b => a.page = b.page →
        columnOf blocks a = columnOf blocks b → a.bbox.y0 ≤ b.bbox.y0 := by
      rw [← hmap, List.pairwise_map]
      refine hsorted.imp ?_
      intro a b hab hpage hcolumn
      obtain hlt | ⟨-, hlt | ⟨-, hlt | ⟨heq, -⟩⟩⟩ := hab
      · exact absurd hpage (ne_of_lt hlt)
      · exact absurd hcolumn (ne_of_lt hlt)
      · exact hlt.le
      · exact heq.le
    rw [readingOrder_eq, pairwise_stableSort_iff] at hdown
    refine hdown x hx y hy (.inr ⟨?_, hpos⟩) hpage (hxcolumn.trans hycolumn.symm)
    have hrank : rank (gutterOf blocks x.1.page) x.1 = rank (gutterOf blocks y.1.page) y.1 := by
      rw [rank_second hxcolumn, rank_second hycolumn, heq]
    exact congrArg toLex (Prod.ext hpage hrank)
  · intro hapart
    obtain ⟨order, hperm, hsorted, hmap⟩ := stableSort_indexed
      (fun b => toLex (b.page, rank (gutterOf blocks b.page) b)) (usableBlocks blocks)
    refine ⟨order, hperm, hsorted.imp_of_mem ?_, by rw [readingOrder_eq, hmap]⟩
    intro x y hx hy hxy
    have hxmem := hperm.mem_iff.mp hx
    have hymem := hperm.mem_iff.mp hy
    exact readBefore_of_precedes hapart hxmem hymem (hplace x hxmem) (hplace y hymem) hxy

/-- Without any usable block, and only then, the text is empty. -/
theorem reconstructReadingOrder_eq_empty {blocks : List LayoutBlock} :
    reconstructReadingOrder blocks = "" ↔
      ∀ b ∈ blocks, b.bbox = none ∨ jsTrim b.content = "" := by
  rw [reconstructReadingOrder_eq,
    joinPages_eq_empty fun b hb => (mem_usableBlocks.mp (mem_readingOrder.mp hb)).2,
    List.eq_nil_iff_forall_not_mem]
  constructor
  · intro hnone b hb
    by_contra hboth
    push Not at hboth
    obtain ⟨bbox, hbbox⟩ := Option.ne_none_iff_exists'.mp hboth.1
    have hmem : ⟨b, bbox, hbbox⟩ ∈ usableBlocks blocks := mem_usableBlocks.mpr ⟨hb, hboth.2⟩
    exact hnone _ (mem_readingOrder.mpr hmem)
  · intro hall b hb
    obtain ⟨hmem, htext⟩ := mem_usableBlocks.mp (mem_readingOrder.mp hb)
    cases hall b.block hmem with
    | inl hbbox => exact absurd (b.located.symm.trans hbbox) (by simp)
    | inr hblank => exact htext hblank

/-- What is returned is the text of `readingOrder`, empty without usable blocks; the order is
that of page, column and top edge exactly if the sums of column and top edge tell the top edges
apart. -/
theorem reconstructReadingOrder_iff {blocks : List LayoutBlock}
    (htop : ∀ b ∈ blocks, ∀ bbox, b.bbox = some bbox → 0 ≤ bbox.y0 ∧ bbox.y0 < 1) :
    reconstructReadingOrder blocks = joinPages (readingOrder blocks) ∧
    (reconstructReadingOrder blocks = "" ↔
      ∀ b ∈ blocks, b.bbox = none ∨ jsTrim b.content = "") ∧
    (OrderedByTop blocks ↔ TopsToldApart blocks) :=
  ⟨reconstructReadingOrder_eq blocks, reconstructReadingOrder_eq_empty, orderedByTop_iff htop⟩

namespace Sample

def threeTenths : ℚ := 5404319552844595 / 2 ^ 54

def afterThreeTenths : ℚ := 5404319552844596 / 2 ^ 54

/-- In the right column the lower of two blocks comes first, by the last bit of a double. -/
def closeTops : List LayoutBlock :=
  [{ index := 0, page := 1, label := .text, bbox := some ⟨1 / 8, 1 / 8, 3 / 8, 1 / 4⟩,
     content := "Skills " },
    { index := 1, page := 1, label := .text,
      bbox := some ⟨5 / 8, afterThreeTenths, 7 / 8, 1 / 2⟩, content := "Led a team" },
    { index := 2, page := 1, label := .text, bbox := some ⟨5 / 8, threeTenths, 7 / 8, 1 / 2⟩,
      content := "Engineer" }]

theorem closeTops_top : ∀ b ∈ closeTops, ∀ bbox, b.bbox = some bbox →
    0 ≤ bbox.y0 ∧ bbox.y0 < 1 := by
  intro b hb bbox hbbox
  have hall : closeTops.all fun b => b.bbox.all fun bbox => 0 ≤ bbox.y0 ∧ bbox.y0 < 1 := by
    decide +kernel
  have hplace := List.all_eq_true.mp hall b hb
  rw [hbbox] at hplace
  exact of_decide_eq_true hplace

theorem closeTops_swapped :
    (∀ b ∈ closeTops, ∀ bbox, b.bbox = some bbox → 0 ≤ bbox.y0 ∧ bbox.y0 < 1) ∧
    reconstructReadingOrder closeTops = "Skills\nLed a team\nEngineer" ∧
    ¬OrderedByTop closeTops := by
  refine ⟨closeTops_top, by decide +kernel, ?_⟩
  rw [orderedByTop_iff closeTops_top]
  unfold TopsToldApart
  decide +kernel

theorem closeTops_order :
    reconstructReadingOrder closeTops = joinPages (readingOrder closeTops) ∧
    (reconstructReadingOrder closeTops = "" ↔
      ∀ b ∈ closeTops, b.bbox = none ∨ jsTrim b.content = "") ∧
    (OrderedByTop closeTops ↔ TopsToldApart closeTops) :=
  reconstructReadingOrder_iff closeTops_top

end Sample

end OcrService
