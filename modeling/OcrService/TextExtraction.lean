import OcrService.Documents

/-! TEXT_EXTRACTION (`functions/text-extraction/execute.ts`, `args.ts`), and what of a document
it can show when it is asked for some of the pages. -/
namespace OcrService

inductive TextFormat where
  | markdown | plain
  deriving DecidableEq

structure TextExtractionArgs where
  format : TextFormat := .markdown
  pageRange : Option (Nat × Nat) := none
  includeBlocks : Bool := false

structure TextExtractionResult where
  text : String
  format : TextFormat
  pageCount : Nat
  /-- With the members a `LayoutBlock` has. -/
  blocks : Option (List LayoutBlock) := none
  deriving DecidableEq

def isLineTerminator (c : Char) : Bool := c.val ∈ [0xA, 0xD, 0x2028, 0x2029]

/-- How much `#{1,6}\s+` takes off the front; nothing where it does not match. -/
def headingLength (cs : List Char) : Nat :=
  let hashes := (cs.takeWhile (· = '#')).length
  let blanks := ((cs.dropWhile (· = '#')).takeWhile jsWhitespace).length
  if 1 ≤ hashes ∧ hashes ≤ 6 ∧ 0 < blanks then hashes + blanks else 0

/-- `replace(/^#{1,6}\s+/gm, "")`, with the length still to skip of a match. -/
def stripHeadings (cs : List Char) : List Char := go true 0 cs
where
  go : Bool → Nat → List Char → List Char
    | _, _, [] => []
    | _, skip + 1, c :: cs => go (isLineTerminator c) skip cs
    | lineStart, 0, c :: cs =>
      match if lineStart then headingLength (c :: cs) else 0 with
      | 0 => c :: go (isLineTerminator c) 0 cs
      | skip + 1 => go (isLineTerminator c) skip cs

/-- The text of the link that `([^\]]+)\]\([^)]*\)` matches here, and the length of the match. -/
def linkTail (cs : List Char) : Option (List Char × Nat) :=
  let label := cs.takeWhile (· ≠ ']')
  match label, cs.dropWhile (· ≠ ']') with
  | _ :: _, ']' :: '(' :: target =>
    let url := target.takeWhile (· ≠ ')')
    if url.length < target.length then some (label, label.length + url.length + 3) else none
  | _, _ => none

/-- `replace(/\[([^\]]+)\]\([^)]*\)/g, "$1")`, with the length still to skip of a match. -/
def stripLinks (cs : List Char) : List Char := go 0 cs
where
  go : Nat → List Char → List Char
    | _, [] => []
    | skip + 1, _ :: cs => go skip cs
    | 0, c :: cs =>
      match if c = '[' then linkTail cs else none with
      | some (label, skip) => label ++ go skip cs
      | none => c :: go 0 cs

def stripMarkdown (md : String) : String :=
  String.ofList (stripLinks ((stripHeadings md.toList).filter fun c => c ∉ "*_`>#".toList))

def pagesInRange (range : Option (Nat × Nat)) (doc : RecognizedDocument) : List PageResult :=
  match range with
  | some (first, last) => doc.pages.filter fun p => first ≤ p.page ∧ p.page ≤ last
  | none => doc.pages

def blocksInRange (range : Option (Nat × Nat)) (doc : RecognizedDocument) : List LayoutBlock :=
  match range with
  | some (first, last) => doc.blocks.filter fun b => first ≤ b.page ∧ b.page ≤ last
  | none => doc.blocks

def pagesToPlain (pages : List PageResult) (whole : String) (ranged : Bool) : String :=
  if !ranged ∧ pages.length ≤ 1 then jsTrim whole
  else jsTrim ("\n\n".intercalate (pages.map fun p => stripMarkdown p.markdown))

def pagesToMarkdown (pages : List PageResult) : String :=
  jsTrim ("\n\n".intercalate (pages.map PageResult.markdown))

def executeTextExtraction (doc : RecognizedDocument) (args : TextExtractionArgs) :
    TextExtractionResult :=
  let pages := pagesInRange args.pageRange doc
  { text :=
      match args.format with
      | .plain => pagesToPlain pages doc.plainText args.pageRange.isSome
      | .markdown => (truthy (some (pagesToMarkdown pages))).getD doc.markdown
    format := args.format
    pageCount := doc.pageCount
    blocks := if args.includeBlocks then some (blocksInRange args.pageRange doc) else none }

theorem pagesToMarkdown_eq_empty {pages : List PageResult} :
    pagesToMarkdown pages = "" ↔ ∀ p ∈ pages, jsTrim p.markdown = "" := by
  rw [pagesToMarkdown, jsTrim_intercalate_eq_empty (List.all_eq_true.mp (by decide)),
    List.forall_mem_map]

theorem executeTextExtraction_plain {doc doc' : RecognizedDocument} {args : TextExtractionArgs}
    (hformat : args.format = .plain) (hrange : args.pageRange.isSome)
    (hpages : pagesInRange args.pageRange doc = pagesInRange args.pageRange doc') :
    (executeTextExtraction doc args).text = (executeTextExtraction doc' args).text := by
  simp only [executeTextExtraction, hformat, hpages, pagesToPlain, hrange]
  simp

/-- The markdown is read off the pages as long as one of them has any; with none it is the
markdown of the whole document. -/
theorem executeTextExtraction_markdown (doc : RecognizedDocument) {args : TextExtractionArgs}
    (hformat : args.format = .markdown) :
    (executeTextExtraction doc args).text =
      if ∃ p ∈ pagesInRange args.pageRange doc, jsTrim p.markdown ≠ "" then
        pagesToMarkdown (pagesInRange args.pageRange doc)
      else doc.markdown := by
  simp only [executeTextExtraction, hformat]
  by_cases hblank : pagesToMarkdown (pagesInRange args.pageRange doc) = ""
  · have hnone := pagesToMarkdown_eq_empty.mp hblank
    rw [if_neg (fun ⟨p, hp, hmarkdown⟩ => hmarkdown (hnone p hp)), hblank]
    rfl
  · have hsome : ∃ p ∈ pagesInRange args.pageRange doc, jsTrim p.markdown ≠ "" := by
      by_contra hnone
      apply hblank
      rw [pagesToMarkdown_eq_empty]
      intro p hp
      by_contra hmarkdown
      exact hnone ⟨p, hp, hmarkdown⟩
    rw [if_pos hsome]
    simp [truthy, Option.filter, hblank]

/-- What stands outside the range leaves the answer alone, except where markdown is asked for
and no page of the range has any: then the whole document's markdown is the answer. -/
theorem executeTextExtraction_range_iff {doc doc' : RecognizedDocument}
    {args : TextExtractionArgs} {range : Nat × Nat} (hrange : args.pageRange = some range)
    (hpages : pagesInRange (some range) doc = pagesInRange (some range) doc')
    (hblocks : blocksInRange (some range) doc = blocksInRange (some range) doc')
    (hcount : doc.pageCount = doc'.pageCount) :
    executeTextExtraction doc args = executeTextExtraction doc' args ↔
      args.format = .plain ∨
      (∃ p ∈ pagesInRange (some range) doc, jsTrim p.markdown ≠ "") ∨
      doc.markdown = doc'.markdown := by
  rw [← hrange] at hpages hblocks ⊢
  have hrest : executeTextExtraction doc args = executeTextExtraction doc' args ↔
      (executeTextExtraction doc args).text = (executeTextExtraction doc' args).text := by
    simp [executeTextExtraction, hblocks, hcount]
  rw [hrest]
  cases hformat : args.format with
  | plain => simp [executeTextExtraction_plain hformat (by rw [hrange]; rfl) hpages]
  | markdown =>
    rw [executeTextExtraction_markdown doc hformat, executeTextExtraction_markdown doc' hformat,
      ← hpages]
    by_cases hsome : ∃ p ∈ pagesInRange args.pageRange doc, jsTrim p.markdown ≠ ""
    · simp only [if_pos hsome]
      simp [hsome]
    · simp only [if_neg hsome]
      simp [hsome]

namespace Sample

def twoPager (first : String) : RecognizedDocument where
  markdown := first
  plainText := first
  pages := [{ page := 1, markdown := first }, { page := 2, markdown := " " }]
  blocks := []
  pageCount := 2
  provider := "glm-ocr"
  durationMs := 40

/-- Asked for its blank second page, a document shows what is on the first. -/
theorem executeTextExtraction_blankPage :
    ¬∀ (doc doc' : RecognizedDocument) (args : TextExtractionArgs) (first last : Nat),
      0 < first → 0 < last → args.pageRange = some (first, last) →
      pagesInRange (some (first, last)) doc = pagesInRange (some (first, last)) doc' →
      blocksInRange (some (first, last)) doc = blocksInRange (some (first, last)) doc' →
      doc.pageCount = doc'.pageCount →
      (executeTextExtraction doc args).text = (executeTextExtraction doc' args).text ∧
        (executeTextExtraction doc args).blocks = (executeTextExtraction doc' args).blocks := by
  intro h
  have htext := (h (twoPager "Salary: 100") (twoPager "Salary: 200")
    { pageRange := some (2, 2) } 2 2 (by decide) (by decide) rfl (by decide) rfl rfl).1
  exact absurd htext (by decide +kernel)

theorem executeTextExtraction_firstPage :
    executeTextExtraction (twoPager "Dear Ms Vega") { pageRange := some (1, 1) } =
        executeTextExtraction { twoPager "Dear Ms Vega" with markdown := "none of this" }
          { pageRange := some (1, 1) } ↔
      TextFormat.markdown = .plain ∨
      (∃ p ∈ pagesInRange (some (1, 1)) (twoPager "Dear Ms Vega"), jsTrim p.markdown ≠ "") ∨
      "Dear Ms Vega" = "none of this" :=
  @executeTextExtraction_range_iff _ _ { pageRange := some (1, 1) } _ rfl rfl rfl rfl

end Sample

end OcrService
