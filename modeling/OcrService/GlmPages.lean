import Mathlib.Data.List.Nodup
import OcrService.Interaction.Gather
import OcrService.LayoutMapping
import OcrService.Providers
import OcrService.World

/-! The page numbers of a PDF that GLM-OCR has read page by page (`providers/glm/index.ts`,
`chunker.ts`): numbers are given out by position, whatever page a chunk was cut from. -/
namespace OcrService
open Interaction

abbrev LayoutParsing := Nat → LayoutParsingRequest → Except Thrown LayoutParsingResponse

def DEFAULT_CONCURRENCY : Nat := 8

def chunkCalls (client : LayoutParsing) (opts : RecognizeOptions) (chunks : List PageChunk) :
    List (Except Thrown LayoutParsingResponse) :=
  chunks.zipIdx.map fun (chunk, i) => client i (buildRequest chunk opts)

/-- `mapWithConcurrency`, when its calls have been started and have settled in the order of
`moves`; nothing while the promise is pending. -/
def mapWithConcurrency (limit : Nat) (calls : List (Except Thrown LayoutParsingResponse))
    (moves : List GatherMove) : Option (Except Thrown (List LayoutParsingResponse)) :=
  (Gather.run (max 1 limit) calls moves).bind Gather.result

def glmRecognize (pkg : Packages) (client : LayoutParsing) (concurrency : Nat)
    (input : DocumentInput) (opts : RecognizeOptions) (moves : List GatherMove)
    (durationMs : Nat) : Option (Except Thrown RecognizedDocument) :=
  match glmChunks pkg input opts with
  | .error err => some (.error err)
  | .ok chunks =>
    (mapWithConcurrency concurrency (chunkCalls client opts chunks) moves).map fun responses =>
      responses.map fun responses =>
        mapLayoutParsing responses { provider := glmOcr.name, durationMs }

def answered (client : LayoutParsing) (opts : RecognizeOptions) (chunks : List PageChunk) :
    List (PageChunk × LayoutParsingResponse) :=
  chunks.zipIdx.filterMap fun (chunk, i) =>
    (client i (buildRequest chunk opts)).toOption.map fun response => (chunk, response)

def claimedPages (response : LayoutParsingResponse) : Nat :=
  max (response.pages.getD []).length (response.layout_details.getD []).length

/-- What a chunk's response adds to the document carries the chunk's page number. -/
structure PagesAligned (answers : List (PageChunk × LayoutParsingResponse))
    (doc : RecognizedDocument) : Prop where
  pages : doc.pages.map PageResult.page =
    answers.flatMap fun answer => (toPages answer.2 0).map fun _ => answer.1.page
  blocks : doc.blocks.map LayoutBlock.page =
    answers.flatMap fun answer => (upstreamDetails answer.2).map fun _ => answer.1.page

theorem filterMap_toOption {α β ε : Type} {f : α → Except ε β} {l : List α} {vs : List β}
    (h : l.map f = vs.map .ok) :
    l.filterMap (fun a => (f a).toOption.map fun v => (a, v)) = l.zip vs := by
  induction l generalizing vs with
  | nil => rfl
  | cons a l ih =>
    cases vs with
    | nil => cases h
    | cons v vs =>
      rw [List.map_cons, List.map_cons, List.cons.injEq] at h
      have hcons : (f a).toOption.map (fun v => (a, v)) = some (a, v) := by
        rw [h.1]
        rfl
      rw [List.filterMap_cons, hcons, List.zip_cons_cons, ih h.2]

theorem answered_eq {client : LayoutParsing} {opts : RecognizeOptions} {chunks : List PageChunk}
    {responses : List LayoutParsingResponse}
    (h : chunkCalls client opts chunks = responses.map .ok) :
    (answered client opts chunks).map Prod.fst = chunks ∧
      (answered client opts chunks).map Prod.snd = responses := by
  have hlength := congrArg List.length h
  rw [chunkCalls, List.length_map, List.length_map, List.length_zipIdx] at hlength
  have hzip : answered client opts chunks =
      (chunks.zipIdx.zip responses).map fun ((chunk, _), response) => (chunk, response) := by
    rw [← filterMap_toOption h, List.map_filterMap]
    refine List.filterMap_congr fun placed _ => ?_
    rw [Option.map_map]
    rfl
  have hfst : (chunks.zipIdx.zip responses).map (fun placed => placed.1.1) = chunks := by
    change (chunks.zipIdx.zip responses).map (Prod.fst ∘ Prod.fst) = chunks
    rw [← List.map_map, List.map_fst_zip (by rw [List.length_zipIdx]; omega), List.zipIdx_map_fst]
  rw [hzip, List.map_map, List.map_map]
  exact ⟨hfst, List.map_snd_zip (by rw [List.length_zipIdx]; omega)⟩

/-- The document of a PDF is mapped from the responses in the order of the chunks, in whatever
order the calls have settled. -/
theorem glmRecognize_ok {pkg : Packages} {client : LayoutParsing} {concurrency : Nat}
    {input : DocumentInput} {opts : RecognizeOptions} {moves : List GatherMove} {durationMs : Nat}
    {chunks : List PageChunk} {doc : RecognizedDocument}
    (hchunks : glmChunks pkg input opts = .ok chunks)
    (h : glmRecognize pkg client concurrency input opts moves durationMs = some (.ok doc)) :
    ∃ responses, chunkCalls client opts chunks = responses.map .ok ∧
      doc = mapLayoutParsing responses { provider := glmOcr.name, durationMs } := by
  simp only [glmRecognize, hchunks, mapWithConcurrency, Option.map_eq_some_iff,
    Option.bind_eq_some_iff] at h
  obtain ⟨result, ⟨g, hrun, hresult⟩, hdoc⟩ := h
  cases result with
  | error err => cases hdoc
  | ok responses =>
    cases hdoc
    exact ⟨responses, Gather.run_result hrun hresult, rfl⟩

theorem glmRecognize_settled {pkg : Packages} {client : LayoutParsing} {concurrency : Nat}
    {input : DocumentInput} {opts : RecognizeOptions} {moves : List GatherMove}
    {chunks : List PageChunk} {responses : List LayoutParsingResponse}
    {g : Gather Thrown LayoutParsingResponse} (durationMs : Nat)
    (hchunks : glmChunks pkg input opts = .ok chunks)
    (hcalls : chunkCalls client opts chunks = responses.map .ok)
    (hrun : Gather.run (max 1 concurrency) (chunkCalls client opts chunks) moves = some g)
    (hstarted : g.started = responses.length) (hactive : g.active = []) :
    glmRecognize pkg client concurrency input opts moves durationMs =
      some (.ok (mapLayoutParsing responses { provider := glmOcr.name, durationMs })) := by
  rw [hcalls] at hrun
  have hresult := Gather.run_settled hrun hstarted hactive
  simp only [glmRecognize, hchunks, mapWithConcurrency, hcalls, hrun, Option.bind_some, hresult,
    Option.map_some]
  rfl

theorem length_toPages (response : LayoutParsingResponse) :
    (toPages response 0).length = max (claimedPages response) 1 := by
  simp [toPages, claimedPages]

theorem toPages_onePage {response : LayoutParsingResponse} (h : claimedPages response ≤ 1) :
    (toPages response 0).length = 1 := by
  rw [length_toPages]
  omega

theorem toBlocks_onePage {response : LayoutParsingResponse} (h : claimedPages response ≤ 1) :
    (toBlocks response 0).map LayoutBlock.page = (upstreamDetails response).map fun _ => 1 := by
  have hdetails : (response.layout_details.getD []).length ≤ 1 := (le_max_right _ _).trans h
  rw [toBlocks_page, ← placedDetails_fst, List.map_map]
  refine List.map_congr_left fun placed hplaced => ?_
  have hpage := placedDetails_page_le response hplaced
  simp only [Function.comp_apply]
  omega

theorem blocks_onePage {answers : List (PageChunk × LayoutParsingResponse)} {pagesBefore : Nat}
    (hpages : answers.map (fun answer => answer.1.page) =
      List.range' (pagesBefore + 1) answers.length)
    (hone : ∀ answer ∈ answers, claimedPages answer.2 ≤ 1) :
    ((mapping (answers.map Prod.snd)).blocks.map LayoutBlock.page).map (· + pagesBefore) =
      answers.flatMap fun answer => (upstreamDetails answer.2).map fun _ => answer.1.page := by
  induction answers generalizing pagesBefore with
  | nil => rfl
  | cons answer rest ih =>
    obtain ⟨chunk, response⟩ := answer
    rw [List.length_cons, List.range'_succ, List.map_cons, List.cons.injEq] at hpages
    have hfirst := hone (chunk, response) List.mem_cons_self
    have hcount := toPages_onePage hfirst
    have hrest := ih hpages.2 fun answer hanswer => hone answer (List.mem_cons_of_mem _ hanswer)
    have hshift : ∀ blocks : List LayoutBlock,
        ((blocks.map (LayoutBlock.shifted 1)).map LayoutBlock.page).map (· + pagesBefore) =
          (blocks.map LayoutBlock.page).map (· + (pagesBefore + 1)) := by
      intro blocks
      simp only [List.map_map]
      refine List.map_congr_left fun b _ => ?_
      simp only [Function.comp_apply, LayoutBlock.shifted]
      omega
    rw [List.map_cons, mapping_cons, mapping_single, List.flatMap_cons, ← hrest]
    simp only [Mapping.append, List.map_append, hcount, hshift, toBlocks_onePage hfirst]
    rw [List.map_map, hpages.1]
    congr 1
    exact List.map_congr_left fun _ _ => Nat.add_comm _ _

/-- Different page numbers throughout, so that no response adds two pages. -/
theorem claimed_of_nodup {answers : List (PageChunk × LayoutParsingResponse)}
    (h : (answers.flatMap fun answer =>
      (toPages answer.2 0).map fun _ => answer.1.page).Nodup) :
    ∀ answer ∈ answers, claimedPages answer.2 ≤ 1 := by
  intro answer hanswer
  have hnodup := (List.nodup_flatMap.mp h).1 answer hanswer
  rw [List.map_const', List.nodup_replicate, length_toPages] at hnodup
  omega

theorem pages_onePage {answers : List (PageChunk × LayoutParsingResponse)}
    (hone : ∀ answer ∈ answers, claimedPages answer.2 ≤ 1) :
    (answers.flatMap fun answer => (toPages answer.2 0).map fun _ => answer.1.page) =
      answers.map fun answer => answer.1.page := by
  induction answers with
  | nil => rfl
  | cons answer rest ih =>
    obtain ⟨chunk, response⟩ := answer
    have hcount := toPages_onePage (hone (chunk, response) List.mem_cons_self)
    have hrest := ih fun answer hanswer => hone answer (List.mem_cons_of_mem _ hanswer)
    rw [List.flatMap_cons, List.map_cons, hrest, List.map_const', hcount]
    rfl

theorem length_pages_onePage {responses : List LayoutParsingResponse}
    (hone : ∀ response ∈ responses, claimedPages response ≤ 1) :
    (mapping responses).pages.length = responses.length := by
  induction responses with
  | nil => rfl
  | cons response rest ih =>
    have hcount := toPages_onePage (hone response List.mem_cons_self)
    have hrest := ih fun r hr => hone r (List.mem_cons_of_mem _ hr)
    rw [mapping_cons, mapping_single, List.length_cons, ← hrest]
    simp only [Mapping.append, List.length_append, List.length_map, hcount]
    exact Nat.add_comm _ _

theorem pagesAligned_iff {answers : List (PageChunk × LayoutParsingResponse)}
    (info : MappingMeta) :
    PagesAligned answers (mapLayoutParsing (answers.map Prod.snd) info) ↔
      (∀ answer ∈ answers, claimedPages answer.2 ≤ 1) ∧
        answers.map (fun answer => answer.1.page) = List.range' 1 answers.length := by
  have hnumbered := mapping_numbered (answers.map Prod.snd)
  have hpages : (mapLayoutParsing (answers.map Prod.snd) info).pages.map PageResult.page =
      List.range' 1 (mapping (answers.map Prod.snd)).pages.length := hnumbered.pages
  have hblocks : (mapLayoutParsing (answers.map Prod.snd) info).blocks.map LayoutBlock.page =
      (mapping (answers.map Prod.snd)).blocks.map LayoutBlock.page :=
    reindexed_map _ _ fun _ _ => rfl
  constructor
  · intro h
    have hsame := h.pages
    rw [hpages] at hsame
    have hone : ∀ answer ∈ answers, claimedPages answer.2 ≤ 1 := by
      refine claimed_of_nodup ?_
      rw [← hsame]
      exact List.nodup_range'
    refine ⟨hone, ?_⟩
    rw [pages_onePage hone] at hsame
    have hlength := congrArg List.length hsame
    rw [List.length_range', List.length_map] at hlength
    rw [← hsame, hlength]
  · intro h
    obtain ⟨hone, hrange⟩ := h
    have hcount : (mapping (answers.map Prod.snd)).pages.length = answers.length := by
      rw [length_pages_onePage, List.length_map]
      intro response hresponse
      obtain ⟨answer, hanswer, rfl⟩ := List.mem_map.mp hresponse
      exact hone answer hanswer
    refine ⟨?_, ?_⟩
    · rw [hpages, pages_onePage hone, hrange, hcount]
    · have hfromFirst : answers.map (fun answer => answer.1.page) =
          List.range' (0 + 1) answers.length := hrange
      rw [hblocks, ← blocks_onePage hfromFirst hone]
      simp

def StartsAtFirst (pageRange : Option (Nat × Nat)) : Prop :=
  ∀ first last, pageRange = some (first, last) → first ≤ 1

theorem splitPdf_pages {pkg : Packages} {buffer : Buffer} {pageRange : Option (Nat × Nat)}
    {chunks : List PageChunk} (h : splitPdfToPageImages pkg buffer pageRange = .ok chunks) :
    ∃ images : List Buffer, chunks.map PageChunk.page =
      (List.range' 1 images.length).filter fun page =>
        (pageRange.getD (1, images.length)).1 ≤ page ∧
          page ≤ (pageRange.getD (1, images.length)).2 := by
  rw [splitPdfToPageImages] at h
  cases himages : pkg.pdfToImg buffer with
  | error err =>
    rw [himages] at h
    cases h
  | ok images =>
    rw [himages] at h
    cases h
    refine ⟨images, ?_⟩
    rw [← List.zipIdx_map_snd 1 images, List.filter_map, List.map_map]
    simp [Function.comp_def]

theorem filter_fromFirst (n first last : Nat) (hfirst : first ≤ 1) :
    ((List.range' 1 n).filter fun page => first ≤ page ∧ page ≤ last) =
      List.range' 1 (min n last) := by
  induction n with
  | zero => simp
  | succ n ih =>
    rw [List.range'_concat, List.filter_append, ih]
    by_cases hlast : n + 1 ≤ last
    · have hmin : min (n + 1) last = min n last + 1 := by omega
      have hn : min n last = n := by omega
      rw [hmin, List.range'_concat, hn, List.filter_cons_of_pos (by simp; omega)]
      rfl
    · have hmin : min (n + 1) last = min n last := by omega
      rw [hmin, List.filter_cons_of_neg (by simp; omega)]
      simp

theorem chunks_fromFirst_iff {pkg : Packages} {buffer : Buffer} {pageRange : Option (Nat × Nat)}
    {chunks : List PageChunk} (h : splitPdfToPageImages pkg buffer pageRange = .ok chunks) :
    chunks.map PageChunk.page = List.range' 1 chunks.length ↔
      chunks = [] ∨ StartsAtFirst pageRange := by
  obtain ⟨images, hpages⟩ := splitPdf_pages h
  constructor
  · intro hrange
    by_cases hne : chunks = []
    · exact Or.inl hne
    · refine Or.inr fun first last hsome => ?_
      have hpos := List.length_pos_iff.mpr hne
      have hone : 1 ∈ chunks.map PageChunk.page := by
        rw [hrange, List.mem_range'_1]
        omega
      rw [hpages, List.mem_filter, decide_eq_true_eq, hsome] at hone
      exact hone.2.1
  · intro hcond
    obtain rfl | hstarts := hcond
    · rfl
    · have hfirst : (pageRange.getD (1, images.length)).1 ≤ 1 := by
        cases pageRange with
        | none => exact Nat.le_refl 1
        | some range => exact hstarts range.1 range.2 rfl
      have hfilter := hpages.trans (filter_fromFirst images.length _ _ hfirst)
      have hlength := congrArg List.length hfilter
      rw [List.length_map, List.length_range'] at hlength
      rw [hfilter, hlength]

/-- In whatever order the calls settle, the pages and blocks of the document carry the page
numbers of the chunks exactly when the range begins with the first page and no response speaks
of more than one page. -/
theorem glmRecognize_aligned_iff {pkg : Packages} {client : LayoutParsing} {concurrency : Nat}
    {input : DocumentInput} {opts : RecognizeOptions} {moves : List GatherMove} {durationMs : Nat}
    {chunks : List PageChunk} {doc : RecognizedDocument} (hpdf : input.mimeGroup = .pdf)
    (hchunks : splitPdfToPageImages pkg input.buffer opts.pageRange = .ok chunks)
    (hdoc : glmRecognize pkg client concurrency input opts moves durationMs = some (.ok doc)) :
    PagesAligned (answered client opts chunks) doc ↔
      chunks = [] ∨ StartsAtFirst opts.pageRange ∧
        ∀ answer ∈ answered client opts chunks, claimedPages answer.2 ≤ 1 := by
  have hglm : glmChunks pkg input opts = .ok chunks := by rw [glmChunks, if_pos hpdf, hchunks]
  obtain ⟨responses, hcalls, rfl⟩ := glmRecognize_ok hglm hdoc
  obtain ⟨hfst, hsnd⟩ := answered_eq hcalls
  have hpage : (answered client opts chunks).map (fun answer => answer.1.page) =
      chunks.map PageChunk.page := by
    have hmap := congrArg (List.map PageChunk.page) hfst
    rwa [List.map_map] at hmap
  have hlength : (answered client opts chunks).length = chunks.length := by
    have hmap := congrArg List.length hfst
    rwa [List.length_map] at hmap
  rw [← hsnd, pagesAligned_iff, hpage, hlength, chunks_fromFirst_iff hchunks]
  constructor
  · intro h
    obtain ⟨hone, hempty | hstarts⟩ := h
    · exact Or.inl hempty
    · exact Or.inr ⟨hstarts, hone⟩
  · intro h
    obtain hempty | ⟨hstarts, hone⟩ := h
    · refine ⟨?_, Or.inl hempty⟩
      rw [hempty]
      intro answer hanswer
      cases hanswer
    · exact ⟨hone, Or.inr hstarts⟩

namespace Sample

def threePages : Packages := { packages with pdfToImg := fun _ => .ok [[1], [2], [3]] }

def pdfInput : DocumentInput where
  buffer := [0x25]
  mimeGroup := .pdf
  sha256 := digest [0x25]
  originalName := "upload"

def onePage : LayoutParsing := fun _ _ => .ok
  { md_results := none
    layout_details := some [some [{ label := "image", bbox_2d := none, content := none }]]
    pages := none
    total_tokens := none }

def lastTwo : RecognizeOptions := { pageRange := some (2, 3) }

def secondFirst : List GatherMove := [.start, .start, .settle 1, .settle 0]

def readLastTwo : Option (Except Thrown RecognizedDocument) :=
  glmRecognize threePages onePage DEFAULT_CONCURRENCY pdfInput lastTwo secondFirst 0

end Sample

/-- All three pages, read with two calls in flight. -/
theorem glmRecognize_aligned_iff_allPages :
    ∃ chunks doc, splitPdfToPageImages Sample.threePages Sample.pdfInput.buffer none = .ok chunks ∧
      glmRecognize Sample.threePages Sample.onePage 2 Sample.pdfInput {}
        [.start, .start, .settle 1, .start, .settle 2, .settle 0] 0 = some (.ok doc) ∧
      PagesAligned (answered Sample.onePage {} chunks) doc := by
  have hdoc : glmRecognize Sample.threePages Sample.onePage 2 Sample.pdfInput {}
      [.start, .start, .settle 1, .start, .settle 2, .settle 0] 0 = some (.ok _) := rfl
  refine ⟨_, _, rfl, hdoc, (glmRecognize_aligned_iff rfl rfl hdoc).mpr (Or.inr ⟨?_, by decide⟩)⟩
  intro first last h
  cases h

/-- Of a PDF's last two pages, read as such, the document says that they are pages 1 and 2. -/
theorem lastTwo_misnumbered :
    ∃ chunks doc, splitPdfToPageImages Sample.threePages Sample.pdfInput.buffer
        Sample.lastTwo.pageRange = .ok chunks ∧
      Sample.readLastTwo = some (.ok doc) ∧
      chunks.map PageChunk.page = [2, 3] ∧ doc.pages.map PageResult.page = [1, 2] ∧
      doc.blocks.map LayoutBlock.page = [1, 2] ∧
      ¬PagesAligned (answered Sample.onePage Sample.lastTwo chunks) doc := by
  refine ⟨_, _, rfl, rfl, rfl, rfl, rfl, fun h => ?_⟩
  exact absurd h.blocks (by decide)

end OcrService
