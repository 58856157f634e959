import OcrService.DocxText
import OcrService.GlmPages
import OcrService.PlainText
import OcrService.ScannedPdf
import Mathlib.Tactic.Linarith
import Mathlib.Tactic.Positivity

/-! What the providers make of a file: `providers/tesseract.ts`, and beside it the others of the
registry. Functions are given no documents but canonical ones. -/
namespace OcrService
open Interaction

structure Word where
  bbox : Bbox
  text : String

structure TextLine where
  words : List Word

structure Paragraph where
  lines : List TextLine

structure TextBlock where
  paragraphs : List Paragraph

structure PageData where
  text : String
  blocks : Option (List TextBlock)

/-- What the provider uses of `tesseract.js`: a worker for a language, which reads pictures and is
terminated in the end. -/
structure Tesseract where
  createWorker : String → Except Thrown Unit
  recognize : String → Buffer → Except Thrown PageData
  terminate : String → Except Thrown Unit

structure Dimensions where
  width : ℚ
  height : ℚ

def PageData.words (data : PageData) : List Word :=
  (data.blocks.getD []).flatMap fun b =>
    b.paragraphs.flatMap fun p => p.lines.flatMap TextLine.words

def Dimensions.cover (d : Dimensions) (w : Word) : Dimensions where
  width := if w.bbox.x1 > d.width then w.bbox.x1 else d.width
  height := if w.bbox.y1 > d.height then w.bbox.y1 else d.height

def pageDimensions (words : List Word) : Dimensions := words.foldl Dimensions.cover ⟨1, 1⟩

def normalizeBbox (word : Word) (dims : Dimensions) : Bbox where
  x0 := word.bbox.x0 / dims.width
  y0 := word.bbox.y0 / dims.height
  x1 := word.bbox.x1 / dims.width
  y1 := word.bbox.y1 / dims.height

def rasterizePdf (pkg : Packages) (buffer : Buffer) (pageRange : Option (Nat × Nat)) :
    Except Thrown (List Buffer) :=
  (pkg.pdfToImg buffer).map fun images =>
    let (first, last) := pageRange.getD (1, images.length)
    ((images.zipIdx 1).filter fun (_, page) => first ≤ page && page ≤ last).map Prod.fst

structure Scan where
  pages : List PageResult := []
  blocks : List LayoutBlock := []
  blockIndex : Nat := 0

def Scan.add (s : Scan) (page : Nat) (data : PageData) : Scan :=
  let dims := pageDimensions data.words
  { pages := s.pages ++ [{ page, markdown := jsTrim data.text }]
    blocks := s.blocks ++ (data.words.zipIdx s.blockIndex).map fun (word, index) =>
      { index, page, label := .text, bbox := some (normalizeBbox word dims), content := word.text }
    blockIndex := s.blockIndex + data.words.length }

def scanImages (read : Buffer → Except Thrown PageData) (i : Nat) (s : Scan) :
    List Buffer → Except Thrown Scan
  | [] => .ok s
  | image :: rest =>
    match read image with
    | .error err => .error err
    | .ok data => scanImages read (i + 1) (s.add (i + 1) data) rest

def tesseractImages (pkg : Packages) (input : DocumentInput) (opts : RecognizeOptions) :
    Except Thrown (List Buffer) :=
  if input.mimeGroup = .pdf then rasterizePdf pkg input.buffer opts.pageRange
  else .ok [input.buffer]

def Scan.document (s : Scan) (durationMs : Nat) : RecognizedDocument :=
  let markdown := jsTrim ("\n\n".intercalate (s.pages.map PageResult.markdown))
  { markdown
    plainText := markdown
    pages := s.pages
    blocks := s.blocks
    pageCount := s.pages.length
    provider := tesseract.name
    durationMs }

/-- `TesseractProvider.recognize`; what `terminate` throws in the `finally` comes before the
outcome of the loop. -/
def tesseractRecognize (pkg : Packages) (tess : Tesseract) (durationMs : Nat)
    (input : DocumentInput) (opts : RecognizeOptions) : Except Thrown RecognizedDocument := do
  let lang := opts.language.getD "eng"
  let images ← tesseractImages pkg input opts
  tess.createWorker lang
  let scanned := scanImages (tess.recognize lang) 0 {} images
  tess.terminate lang
  return (← scanned).document durationMs

structure Readers where
  docx : DocxReader
  pdf : PdfParse
  ocr : Tesseract
  glm : LayoutParsing
  concurrency : Nat

/-- What a registered provider can answer. The calls to GLM-OCR settle in any order. -/
inductive Readers.Recognize (readers : Readers) (pkg : Packages) (input : DocumentInput)
    (opts : RecognizeOptions) : OcrProvider → Except Thrown RecognizedDocument → Prop
  | plainText (durationMs : Nat) :
    Recognize readers pkg input opts plainText (.ok (plainTextRecognize input.buffer durationMs))
  | pdfText (durationMs : Nat) :
    Recognize readers pkg input opts pdfText (pdfTextRecognize readers.pdf durationMs input opts)
  | mammoth (durationMs : Nat) :
    Recognize readers pkg input opts mammoth (mammothRecognize readers.docx durationMs input)
  | tesseract (durationMs : Nat) :
    Recognize readers pkg input opts tesseract
      (tesseractRecognize pkg readers.ocr durationMs input opts)
  | glmOcr {moves : List GatherMove} {durationMs : Nat} {r : Except Thrown RecognizedDocument}
    (hsettled : glmRecognize pkg readers.glm readers.concurrency input opts moves durationMs =
      some r) : Recognize readers pkg input opts glmOcr r

structure Bbox.Upright (b : Bbox) : Prop where
  left : 0 ≤ b.x0
  top : 0 ≤ b.y0
  wide : b.x0 ≤ b.x1
  high : b.y0 ≤ b.y1

structure Bbox.Normalized (b : Bbox) : Prop extends b.Upright where
  right : b.x1 ≤ 1
  bottom : b.y1 ≤ 1

/-- What the packages document of their answers: `pdf-parse` numbers all the pages when it is asked
for no range, the boxes of `tesseract.js` run from the upper left to the lower right, and `bbox_2d`
is normalised. -/
structure Readers.Documented (readers : Readers) : Prop where
  getText : ∀ buffer result, readers.pdf.getText buffer none = .ok result →
    result.pages.map PageText.num = List.range' 1 result.total
  boxes : ∀ lang image data, readers.ocr.recognize lang image = .ok data →
    ∀ word ∈ data.words, word.bbox.Upright
  details : ∀ i req response, readers.glm i req = .ok response →
    ∀ detail ∈ upstreamDetails response, ∀ b, detail.bbox_2d = some b → b.Normalized

/-- The shape all documents of the service have in common. -/
structure RecognizedDocument.Canonical (doc : RecognizedDocument) : Prop where
  pages : doc.pages.map PageResult.page = List.range' 1 doc.pageCount
  index : doc.blocks.map LayoutBlock.index = List.range doc.blocks.length
  ordered : (doc.blocks.map LayoutBlock.page).Pairwise (· ≤ ·)
  inside : ∀ block ∈ doc.blocks, 1 ≤ block.page ∧ block.page ≤ doc.pageCount
  bbox : ∀ block ∈ doc.blocks, ∀ b, block.bbox = some b → b.Normalized
  trimmed : jsTrim doc.markdown = doc.markdown ∧ jsTrim doc.plainText = doc.plainText

theorem cover_fold (words : List Word) (d : Dimensions) :
    let all := words.foldl Dimensions.cover d
    (d.width ≤ all.width ∧ d.height ≤ all.height) ∧
      ∀ w ∈ words, w.bbox.x1 ≤ all.width ∧ w.bbox.y1 ≤ all.height := by
  induction words generalizing d with
  | nil => exact ⟨⟨le_rfl, le_rfl⟩, fun w hw => absurd hw List.not_mem_nil⟩
  | cons w words ih =>
    obtain ⟨⟨hwidth, hheight⟩, hwords⟩ := ih (d.cover w)
    have hgrows : (d.width ≤ (d.cover w).width ∧ w.bbox.x1 ≤ (d.cover w).width) ∧
        d.height ≤ (d.cover w).height ∧ w.bbox.y1 ≤ (d.cover w).height := by
      simp only [Dimensions.cover]
      refine ⟨?_, ?_⟩ <;> split <;> constructor <;> linarith
    refine ⟨⟨hgrows.1.1.trans hwidth, hgrows.2.1.trans hheight⟩, ?_⟩
    exact List.forall_mem_cons.mpr
      ⟨⟨hgrows.1.2.trans hwidth, hgrows.2.2.trans hheight⟩, hwords⟩

theorem normalizeBbox_normalized {words : List Word} {word : Word} (hword : word ∈ words)
    (hbox : word.bbox.Upright) : (normalizeBbox word (pageDimensions words)).Normalized := by
  obtain ⟨⟨hwidth, hheight⟩, hwords⟩ := cover_fold words ⟨1, 1⟩
  have hw : (0 : ℚ) < (pageDimensions words).width := zero_lt_one.trans_le hwidth
  have hh : (0 : ℚ) < (pageDimensions words).height := zero_lt_one.trans_le hheight
  exact
    { left := div_nonneg hbox.left hw.le
      top := div_nonneg hbox.top hh.le
      wide := div_le_div_of_nonneg_right hbox.wide hw.le
      high := div_le_div_of_nonneg_right hbox.high hh.le
      right := (div_le_one hw).mpr (hwords word hword).1
      bottom := (div_le_one hh).mpr (hwords word hword).2 }

structure Scan.Sound (s : Scan) : Prop where
  numbered : s.pages.map PageResult.page = List.range' 1 s.pages.length
  index : s.blocks.map LayoutBlock.index = List.range s.blocks.length
  next : s.blockIndex = s.blocks.length
  ordered : (s.blocks.map LayoutBlock.page).Pairwise (· ≤ ·)
  inside : ∀ block ∈ s.blocks, 1 ≤ block.page ∧ block.page ≤ s.pages.length
  bbox : ∀ block ∈ s.blocks, ∀ b, block.bbox = some b → b.Normalized

theorem Scan.Sound.add {s : Scan} (hs : s.Sound) {data : PageData}
    (hdata : ∀ word ∈ data.words, word.bbox.Upright) : (s.add (s.pages.length + 1) data).Sound := by
  have hnew : ∀ block ∈ (s.add (s.pages.length + 1) data).blocks, block ∈ s.blocks ∨
      block.page = s.pages.length + 1 ∧
        ∃ word ∈ data.words,
          block.bbox = some (normalizeBbox word (pageDimensions data.words)) := by
    intro block hblock
    simp only [Scan.add, List.mem_append, List.mem_map] at hblock
    refine hblock.imp_right ?_
    rintro ⟨⟨word, index⟩, hword, rfl⟩
    exact ⟨rfl, word, List.fst_mem_of_mem_zipIdx hword, rfl⟩
  have hindices : ((data.words.zipIdx s.blockIndex).map fun placed => placed.2) =
      List.range' s.blocks.length data.words.length := hs.next ▸ List.zipIdx_map_snd _ _
  refine ⟨?_, ?_, ?_, ?_, fun block hblock => ?_, fun block hblock b hb => ?_⟩
  · simp only [Scan.add, List.map_append, hs.numbered, List.length_append, List.map_cons,
      List.map_nil, List.length_singleton]
    rw [← List.range'_append_1, Nat.add_comm]
    rfl
  · simp only [Scan.add, List.map_append, hs.index, List.map_map, List.length_append,
      List.length_map, List.length_zipIdx, Function.comp_def]
    rw [hindices, List.range_eq_range', List.range_eq_range', ← List.range'_append_1, Nat.zero_add]
  · simp [Scan.add, hs.next]
  · simp only [Scan.add, List.map_append, List.map_map, List.pairwise_append]
    refine ⟨hs.ordered, ?_, ?_⟩
    · rw [List.pairwise_map]
      exact List.pairwise_of_forall fun _ _ => le_rfl
    · intro page hpage page' hpage'
      obtain ⟨block, hblock, rfl⟩ := List.mem_map.mp hpage
      obtain ⟨_, _, rfl⟩ := List.mem_map.mp hpage'
      exact (hs.inside block hblock).2.trans (Nat.le_succ _)
  · have hlength : (s.add (s.pages.length + 1) data).pages.length = s.pages.length + 1 := by
      simp [Scan.add]
    rw [hlength]
    obtain h | ⟨h, -⟩ := hnew block hblock
    · have := hs.inside block h
      omega
    · omega
  · obtain h | ⟨-, word, hword, hbox⟩ := hnew block hblock
    · exact hs.bbox block h b hb
    · cases hbox.symm.trans hb
      exact normalizeBbox_normalized hword (hdata word hword)

theorem scanImages_sound {read : Buffer → Except Thrown PageData}
    (hread : ∀ image data, read image = .ok data → ∀ word ∈ data.words, word.bbox.Upright)
    {images : List Buffer} {s s' : Scan} (hs : s.Sound)
    (h : scanImages read s.pages.length s images = .ok s') : s'.Sound := by
  induction images generalizing s with
  | nil =>
    cases h
    exact hs
  | cons image rest ih =>
    rw [scanImages] at h
    cases himage : read image with
    | error err => simp [himage] at h
    | ok data =>
      simp only [himage] at h
      have hlength : (s.add (s.pages.length + 1) data).pages.length = s.pages.length + 1 := by
        simp [Scan.add]
      exact ih (hs.add (hread image data himage)) (by rw [hlength]; exact h)

theorem Scan.Sound.canonical {s : Scan} (hs : s.Sound) (durationMs : Nat) :
    (s.document durationMs).Canonical where
  pages := hs.numbered
  index := hs.index
  ordered := hs.ordered
  inside := hs.inside
  bbox := hs.bbox
  trimmed := ⟨jsTrim_jsTrim _, jsTrim_jsTrim _⟩

theorem bind_eq_ok {α β : Type} {x : Except Thrown α} {f : α → Except Thrown β} {b : β} :
    x >>= f = .ok b ↔ ∃ a, x = .ok a ∧ f a = .ok b := by
  cases x with
  | error err =>
    constructor
    · rintro ⟨⟩
    · rintro ⟨_, ⟨⟩, _⟩
  | ok a =>
    constructor
    · exact fun h => ⟨a, rfl, h⟩
    · rintro ⟨_, ⟨⟩, h⟩
      exact h

theorem tesseractRecognize_ok {pkg : Packages} {tess : Tesseract} {durationMs : Nat}
    {input : DocumentInput} {opts : RecognizeOptions} {doc : RecognizedDocument}
    (h : tesseractRecognize pkg tess durationMs input opts = .ok doc) :
    ∃ images scan, tesseractImages pkg input opts = .ok images ∧
      scanImages (tess.recognize (opts.language.getD "eng")) 0 {} images = .ok scan ∧
      doc = scan.document durationMs := by
  obtain ⟨images, himages, h⟩ := bind_eq_ok.mp h
  obtain ⟨_, -, h⟩ := bind_eq_ok.mp h
  obtain ⟨_, -, h⟩ := bind_eq_ok.mp h
  obtain ⟨scan, hscan, h⟩ := bind_eq_ok.mp h
  cases h
  exact ⟨images, scan, himages, hscan, rfl⟩

theorem canonical_onePage (markdown text provider : String) (durationMs : Nat)
    (hmarkdown : jsTrim markdown = markdown) (htext : jsTrim text = text) :
    RecognizedDocument.Canonical
      { markdown, plainText := text, pages := [{ page := 1, markdown }], blocks := [],
        pageCount := 1, provider, durationMs } where
  pages := rfl
  index := rfl
  ordered := List.Pairwise.nil
  inside := by simp
  bbox := by simp
  trimmed := ⟨hmarkdown, htext⟩

theorem pdfTextRecognize_canonical {parser : PdfParse} {durationMs : Nat} {input : DocumentInput}
    {opts : RecognizeOptions} {doc : RecognizedDocument}
    (hparser : ∀ buffer result, parser.getText buffer none = .ok result →
      result.pages.map PageText.num = List.range' 1 result.total)
    (hopts : opts.pageRange = none)
    (h : pdfTextRecognize parser durationMs input opts = .ok doc) :
    doc.Canonical ∧ doc.provider = pdfText.name := by
  rw [pdfTextRecognize, hopts, PdfParse.textLayer] at h
  cases hdestroy : parser.destroy input.buffer with
  | error err => simp [hdestroy, Except.map] at h
  | ok _ =>
    cases hresult : parser.getText input.buffer none with
    | error err => simp [hdestroy, hresult, Except.map] at h
    | ok result =>
      simp only [hdestroy, hresult, Except.map, Except.ok.injEq] at h
      subst h
      refine ⟨⟨?_, rfl, .nil, by simp, by simp, jsTrim_jsTrim _, jsTrim_jsTrim _⟩, rfl⟩
      rw [List.map_map]
      exact hparser _ _ hresult

theorem mapLayoutParsing_canonical {responses : List LayoutParsingResponse} {info : MappingMeta}
    (hdetails : ∀ response ∈ responses, ∀ detail ∈ upstreamDetails response, ∀ b,
      detail.bbox_2d = some b → b.Normalized) : (mapLayoutParsing responses info).Canonical := by
  have hspec := (mapLayoutParsing_spec info).1 responses
  dsimp only at hspec
  obtain ⟨hpages, -, -, hindex, hblocks, hordered, hinside, -⟩ := hspec
  refine ⟨hpages, ?_, hordered, hinside, fun block hblock b hb => ?_, jsTrim_jsTrim _,
    jsTrim_jsTrim _⟩
  · have hlength := congrArg List.length hblocks
    rw [List.length_map, List.length_map] at hlength
    rw [hindex, hlength]
  · have hmem := List.mem_map_of_mem (f := fun b => (b.label, b.bbox, b.content)) hblock
    rw [hblocks] at hmem
    obtain ⟨detail, hdetail, heq⟩ := List.mem_map.mp hmem
    obtain ⟨response, hresponse, hdetail⟩ := List.mem_flatMap.mp hdetail
    have hbbox : detail.bbox_2d = block.bbox := congrArg (fun t => t.2.1) heq
    exact hdetails response hresponse detail hdetail b (hbbox.trans hb)

theorem glmRecognize_canonical {pkg : Packages} {client : LayoutParsing} {concurrency : Nat}
    {input : DocumentInput} {opts : RecognizeOptions} {moves : List GatherMove} {durationMs : Nat}
    {doc : RecognizedDocument}
    (hclient : ∀ i req response, client i req = .ok response →
      ∀ detail ∈ upstreamDetails response, ∀ b, detail.bbox_2d = some b → b.Normalized)
    (h : glmRecognize pkg client concurrency input opts moves durationMs = some (.ok doc)) :
    doc.Canonical ∧ doc.provider = glmOcr.name := by
  cases hchunks : glmChunks pkg input opts with
  | error err => simp [glmRecognize, hchunks] at h
  | ok chunks =>
    obtain ⟨responses, hcalls, rfl⟩ := glmRecognize_ok hchunks h
    refine ⟨mapLayoutParsing_canonical fun response hresponse => ?_, rfl⟩
    have hmem : Except.ok response ∈ chunkCalls client opts chunks :=
      hcalls ▸ List.mem_map_of_mem hresponse
    obtain ⟨⟨chunk, i⟩, -, hcall⟩ := List.mem_map.mp hmem
    exact hclient i _ response hcall

/-- Asked for all the pages, every registered provider makes canonical documents. -/
theorem Readers.Recognize.canonical {readers : Readers} {pkg : Packages} {input : DocumentInput}
    {opts : RecognizeOptions} {p : OcrProvider} {doc : RecognizedDocument}
    (hreaders : readers.Documented) (hopts : opts.pageRange = none)
    {r : Except Thrown RecognizedDocument} (h : readers.Recognize pkg input opts p r)
    (hr : r = .ok doc) : doc.Canonical ∧ doc.provider = p.name := by
  cases h with
  | plainText durationMs =>
    cases hr
    exact ⟨canonical_onePage _ _ _ _ (jsTrim_jsTrim _) (jsTrim_jsTrim _), rfl⟩
  | pdfText durationMs => exact pdfTextRecognize_canonical hreaders.getText hopts hr
  | mammoth durationMs =>
    rw [mammothRecognize] at hr
    cases hhtml : readers.docx.convertToHtml input.buffer with
    | error err => simp [hhtml, Except.map] at hr
    | ok html =>
      simp only [hhtml, Except.map, Except.ok.injEq] at hr
      subst hr
      exact ⟨canonical_onePage _ _ _ _ (jsTrim_jsTrim _) (htmlToText_plain html).2.2.1, rfl⟩
  | tesseract durationMs =>
    obtain ⟨images, scan, -, hscan, rfl⟩ := tesseractRecognize_ok hr
    have hempty : Scan.Sound {} := ⟨rfl, rfl, rfl, .nil, by simp, by simp⟩
    exact ⟨(scanImages_sound (hreaders.boxes _) hempty hscan).canonical durationMs, rfl⟩
  | glmOcr hsettled =>
    subst hr
    exact glmRecognize_canonical hreaders.details hsettled

def Surroundings.Reads (env : Surroundings) (deps : PipelineDeps) : Prop :=
  ∀ p ∈ deps.providers, ∀ input opts, opts.pageRange = none →
    ∃ readers : Readers, readers.Documented ∧
      readers.Recognize deps.pkg input opts p (env.recognize p input opts)

def MakesCanonical : Makes :=
  fun p _ r => ∀ doc, r = .ok doc → doc.Canonical ∧ doc.provider = p.name

theorem makesCanonical_stamped : Makes.Stamped MakesCanonical where
  provider _ _ doc h := (h doc rfl).2
  fellBack p b doc primary h := by
    rintro _ ⟨⟩
    obtain ⟨hdoc, hprovider⟩ := h doc rfl
    exact ⟨⟨hdoc.pages, hdoc.index, hdoc.ordered, hdoc.inside, hdoc.bbox, hdoc.trimmed⟩, hprovider⟩

theorem Surroundings.Reads.answers {env : Surroundings} {deps : PipelineDeps}
    (h : env.Reads deps) : env.Answers deps MakesCanonical := by
  intro p hp input opts hopts _ doc hdoc
  obtain ⟨readers, hreaders, hread⟩ := h p hp input opts hopts
  exact hread.canonical hreaders hopts hdoc

/-- What GLM-OCR has made of these bytes: it was sent the images of their pages, all of them, and
the document is mapped from the responses, which are as `vendor` says. -/
def GlmReads (pkg : Packages) (vendor : LayoutParsingRequest → LayoutParsingResponse → Prop)
    (b : Buffer) (doc : RecognizedDocument) : Prop :=
  ∃ input opts chunks responses durationMs fellBackFrom,
    input.buffer = b ∧ Sniffed pkg input ∧ opts.pageRange = none ∧
    glmChunks pkg input opts = .ok chunks ∧
    List.Forall₂ (fun chunk response => vendor (buildRequest chunk opts) response) chunks
      responses ∧
    doc = { mapLayoutParsing responses { provider := glmOcr.name, durationMs } with fellBackFrom }

theorem chunkCalls_forall₂ {client : LayoutParsing} {opts : RecognizeOptions}
    {vendor : LayoutParsingRequest → LayoutParsingResponse → Prop}
    (hvendor : ∀ i req response, client i req = .ok response → vendor req response)
    {chunks : List PageChunk} {responses : List LayoutParsingResponse}
    (h : chunkCalls client opts chunks = responses.map .ok) :
    List.Forall₂ (fun chunk response => vendor (buildRequest chunk opts) response) chunks
      responses := by
  have hlength : chunks.length = responses.length := by
    simpa [chunkCalls] using congrArg List.length h
  rw [List.forall₂_iff_get]
  refine ⟨hlength, fun i hi hi' => hvendor i _ _ ?_⟩
  have hget := congrArg (fun calls => calls[i]?) h
  simpa [chunkCalls, List.getElem?_zipIdx, hi, hi'] using hget

theorem glmRecognize_reads {pkg : Packages} {client : LayoutParsing} {concurrency : Nat}
    {input : DocumentInput} {opts : RecognizeOptions} {moves : List GatherMove} {durationMs : Nat}
    {doc : RecognizedDocument} {vendor : LayoutParsingRequest → LayoutParsingResponse → Prop}
    (hvendor : ∀ i req response, client i req = .ok response → vendor req response)
    (hsniffed : Sniffed pkg input) (hopts : opts.pageRange = none)
    (h : glmRecognize pkg client concurrency input opts moves durationMs = some (.ok doc)) :
    GlmReads pkg vendor input.buffer doc := by
  cases hchunks : glmChunks pkg input opts with
  | error err => simp [glmRecognize, hchunks] at h
  | ok chunks =>
    obtain ⟨responses, hcalls, rfl⟩ := glmRecognize_ok hchunks h
    exact ⟨input, opts, chunks, responses, durationMs, none, rfl, hsniffed, hopts, hchunks,
      chunkCalls_forall₂ hvendor hcalls, rfl⟩

/-- Beside that, GLM-OCR answers the requests as `vendor` says. -/
def Surroundings.ReadsAs (env : Surroundings) (deps : PipelineDeps)
    (vendor : LayoutParsingRequest → LayoutParsingResponse → Prop) : Prop :=
  ∀ p ∈ deps.providers, ∀ input opts, opts.pageRange = none →
    ∃ readers : Readers, readers.Documented ∧
      (∀ i req response, readers.glm i req = .ok response → vendor req response) ∧
      readers.Recognize deps.pkg input opts p (env.recognize p input opts)

def MakesOfPages (pkg : Packages) (vendor : LayoutParsingRequest → LayoutParsingResponse → Prop) :
    Makes :=
  fun p b r => MakesCanonical p b r ∧ ∀ doc, r = .ok doc → p = glmOcr → GlmReads pkg vendor b doc

theorem makesOfPages_stamped (pkg : Packages)
    (vendor : LayoutParsingRequest → LayoutParsingResponse → Prop) :
    Makes.Stamped (MakesOfPages pkg vendor) where
  provider p b doc h := makesCanonical_stamped.provider p b doc h.1
  fellBack p b doc primary h := by
    refine ⟨makesCanonical_stamped.fellBack p b doc primary h.1, ?_⟩
    rintro _ ⟨⟩ hp
    obtain ⟨input, opts, chunks, responses, durationMs, fellBackFrom, hbuffer, hsniffed, hopts,
      hchunks, hresponses, rfl⟩ := h.2 doc rfl hp
    exact ⟨input, opts, chunks, responses, durationMs, primary, hbuffer, hsniffed, hopts, hchunks,
      hresponses, rfl⟩

theorem Surroundings.ReadsAs.answers {env : Surroundings} {deps : PipelineDeps}
    {vendor : LayoutParsingRequest → LayoutParsingResponse → Prop}
    (h : env.ReadsAs deps vendor) : env.Answers deps (MakesOfPages deps.pkg vendor) := by
  intro p hp input opts hopts hsniffed
  obtain ⟨readers, hreaders, hvendor, hread⟩ := h p hp input opts hopts
  refine ⟨fun doc hdoc => hread.canonical hreaders hopts hdoc, fun doc hdoc hglm => ?_⟩
  subst hglm
  generalize env.recognize glmOcr input opts = r at hread hdoc
  generalize hname : glmOcr = q at hread
  cases hread with
  | plainText | pdfText | mammoth | tesseract => exact absurd hname (by decide)
  | glmOcr hsettled => exact glmRecognize_reads hvendor hsniffed hopts (hdoc ▸ hsettled)

theorem emptyDocument_canonical : emptyDocument.Canonical :=
  ⟨rfl, rfl, .nil, by simp [emptyDocument], by simp [emptyDocument], by decide⟩

namespace Sample

def readers (up : Bool) : Readers where
  docx := ⟨fun _ => .ok "<p>word</p>", id⟩
  pdf := onePageParse "word"
  ocr :=
    { createWorker := fun _ => .ok ()
      recognize := fun _ _ => .ok
        { text := "word", blocks := some [⟨[⟨[⟨[⟨⟨10, 20, 40, 30⟩, "word"⟩]⟩]⟩]⟩] }
      terminate := fun _ => .ok () }
  glm := fun _ _ =>
    if up then .ok
      { md_results := some "word"
        layout_details := some [some [⟨"text", some ⟨0, 0, 1, 1 / 2⟩, some "word"⟩]]
        pages := none
        total_tokens := some 7 }
    else .error (.error "unreachable")
  concurrency := 8

def readWith (up : Bool) : Surroundings where
  recognize p input opts :=
    if p = plainText then .ok (plainTextRecognize input.buffer 0)
    else if p = pdfText then pdfTextRecognize (readers up).pdf 0 input opts
    else if p = mammoth then mammothRecognize (readers up).docx 0 input
    else if p = tesseract then tesseractRecognize packages (readers up).ocr 0 input opts
    else (glmRecognize packages (readers up).glm 8 input opts [.start, .settle 0] 0).getD
      (.error (.error "pending"))

theorem readers_documented (up : Bool) : (readers up).Documented where
  getText := by
    rintro buffer result ⟨⟩
    rfl
  boxes := by
    rintro lang image data ⟨⟩ word hword
    obtain rfl := List.mem_singleton.mp hword
    constructor <;> norm_num
  details := by
    intro i req response hresponse detail hdetail b hb
    cases up with
    | false => cases hresponse
    | true =>
      cases hresponse
      obtain rfl := List.mem_singleton.mp hdetail
      cases hb
      exact ⟨⟨by norm_num, by norm_num, by norm_num, by norm_num⟩, by norm_num, by norm_num⟩

def oneWord (req : LayoutParsingRequest) (response : LayoutParsingResponse) : Prop :=
  (readers true).glm 0 req = .ok response

theorem readWith_readsAs (up : Bool) : (readWith up).ReadsAs deps oneWord := by
  intro p hp input opts hopts
  refine ⟨readers up, readers_documented up, fun i req response h => ?_, ?_⟩
  · cases up with
    | false => cases h
    | true => exact h
  have hcases : p = plainText ∨ p = pdfText ∨ p = mammoth ∨ p = tesseract ∨ p = glmOcr := by
    simpa [deps, buildProviderRegistry] using hp
  obtain rfl | rfl | rfl | rfl | rfl := hcases
  · exact .plainText 0
  · exact .pdfText 0
  · exact .mammoth 0
  · exact .tesseract 0
  · refine .glmOcr (?_ : glmRecognize packages (readers up).glm 8 input opts [.start, .settle 0] 0 =
      some _)
    obtain ⟨pageRange, _⟩ := opts
    cases hopts
    obtain ⟨buffer, group, _⟩ := input
    cases up <;> cases group <;> rfl

theorem readWith_reads (up : Bool) : (readWith up).Reads deps := by
  intro p hp input opts hopts
  obtain ⟨readers, hreaders, -, hread⟩ := readWith_readsAs up p hp input opts hopts
  exact ⟨readers, hreaders, hread⟩

def locating (b : UInt8) : Call :=
  ⟨(textExtractionDefinition id).untyped,
    { upload [0x89, b] "tenant" with args := .obj [("includeBlocks", .bool true)] }, timings⟩

def twoImages : List (Move Call Surroundings WorldEvent) :=
  [.spawn (locating 1), .spawn (locating 2)] ++
    List.replicate 8 (.step 0 (readWith true)) ++ List.replicate 8 (.step 1 (readWith false))

theorem twoImages_spawn {c : Call} (h : Move.spawn c ∈ twoImages) :
    c = locating 1 ∨ c = locating 2 := by
  simpa [twoImages] using h

theorem twoImages_sha (c c' : Call) (hc : .spawn c ∈ twoImages) (hc' : .spawn c' ∈ twoImages)
    (h : digest c.req.file.buffer = digest c'.req.file.buffer) :
    c.req.file.buffer = c'.req.file.buffer := by
  have htext := congrArg Sha256Hex.text h
  obtain rfl | rfl := twoImages_spawn hc <;> obtain rfl | rfl := twoImages_spawn hc'
  · rfl
  · exact absurd htext (by decide)
  · exact absurd htext (by decide)
  · rfl

theorem twoImages_reads (i : Nat) (env : Surroundings) (h : .step i env ∈ twoImages) :
    env.Reads deps := by
  have henv : (i = 0 ∧ env = readWith true) ∨ (i = 1 ∧ env = readWith false) := by
    simpa [twoImages] using h
  obtain ⟨-, rfl⟩ | ⟨-, rfl⟩ := henv
  · exact readWith_reads true
  · exact readWith_reads false

theorem twoImages_run : ∃ calls, (concurrently deps).run ⟨{}, []⟩ twoImages = some calls ∧
    calls.threads.map (fun th => th.prog.result?.isSome) = [true, true] := by
  have hends : ((concurrently deps).run ⟨{}, []⟩ twoImages).map (fun calls =>
      calls.threads.map fun th => th.prog.result?.isSome) = some [true, true] := by decide +kernel
  exact Option.map_eq_some_iff.mp hends

end Sample

/-- Whatever is read, fallen back on, cached, dropped and interleaved: a function that answers has
been given a canonical document of no more pages than it allows. -/
theorem documents_canonical (deps : PipelineDeps)
    (hnames : (deps.providers.map OcrProvider.name).Nodup)
    {moves : List (Move Call Surroundings WorldEvent)}
    (hsha : ∀ c c', .spawn c ∈ moves → .spawn c' ∈ moves →
      deps.pkg.sha256 c.req.file.buffer = deps.pkg.sha256 c'.req.file.buffer →
      c.req.file.buffer = c'.req.file.buffer)
    (hreads : ∀ i env, .step i env ∈ moves → env.Reads deps)
    {w : World} (hw : w.cache = fun _ => none)
    {calls : Conf Call ServiceOp ServiceOp.Answer (Except Thrown (OcrOutcome JsValue)) World}
    (hrun : (concurrently deps).run ⟨w, []⟩ moves = some calls)
    {th : Thread Call ServiceOp ServiceOp.Answer (Except Thrown (OcrOutcome JsValue))}
    (hth : th ∈ calls.threads) {outcome : OcrOutcome JsValue}
    (hout : th.prog = .ret (.ok outcome)) :
    ∃ args input doc, (checkRequest th.req.d th.req.req deps).2 = .ok (args, input) ∧
      doc.Canonical ∧ doc.pageCount ≤ th.req.d.maxPages ∧
      (th.req.d.skipExtraction = false →
        ∃ p ∈ orderedProviders deps.providers (routeInput th.req.d input deps),
          doc.provider = p.name) ∧
      conclude th.req.d th.req.req deps args input doc = .ok outcome.result := by
  have hends := run_ends deps makesCanonical_stamped hnames hsha
    (fun i env hstep => (hreads i env hstep).answers) hw hrun th hth _ hout
  obtain ⟨args, input, doc, hcheck, hdoc, hconclude⟩ := hends.answered
  have hpages := (conclude_eq_ok.mp hconclude).1
  refine ⟨args, input, doc, hcheck, ?_, hpages, ?_, hconclude⟩
  · cases hdoc with
    | nothing _ => exact emptyDocument_canonical
    | made _ _ hmade => exact (hmade doc rfl).1
  · intro hskip
    cases hdoc with
    | nothing hnothing => simp [hskip] at hnothing
    | made _ hp hmade => exact ⟨_, hp, (hmade doc rfl).2⟩

theorem documents_canonical_pair :
    ∃ calls, (concurrently Sample.deps).run ⟨{}, []⟩ Sample.twoImages = some calls ∧
      calls.threads.map (fun th => th.prog.result?.isSome) = [true, true] ∧
      ∀ th ∈ calls.threads, ∀ outcome, th.prog = .ret (.ok outcome) → ∃ args input doc,
        (checkRequest th.req.d th.req.req Sample.deps).2 = .ok (args, input) ∧
          doc.Canonical ∧ doc.pageCount ≤ th.req.d.maxPages ∧
          conclude th.req.d th.req.req Sample.deps args input doc = .ok outcome.result := by
  obtain ⟨calls, hrun, hended⟩ := Sample.twoImages_run
  refine ⟨calls, hrun, hended, fun th hth outcome hout => ?_⟩
  obtain ⟨args, input, doc, hcheck, hdoc, hpages, -, hconclude⟩ :=
    documents_canonical Sample.deps (buildProviderRegistry_names_nodup _) Sample.twoImages_sha
      Sample.twoImages_reads rfl hrun hth hout
  exact ⟨args, input, doc, hcheck, hdoc, hpages, hconclude⟩

structure TextExtractionResult.Located (result : TextExtractionResult) (args : TextExtractionArgs) :
    Prop where
  pageCount : result.pageCount ≤ 100
  asked : result.blocks.isSome = args.includeBlocks
  increasing : ((result.blocks.getD []).map LayoutBlock.index).Pairwise (· < ·)
  ordered : ((result.blocks.getD []).map LayoutBlock.page).Pairwise (· ≤ ·)
  inside : ∀ block ∈ result.blocks.getD [], 1 ≤ block.page ∧ block.page ≤ result.pageCount
  inRange : ∀ block ∈ result.blocks.getD [], ∀ first last, args.pageRange = some (first, last) →
    first ≤ block.page ∧ block.page ≤ last
  bbox : ∀ block ∈ result.blocks.getD [], ∀ b, block.bbox = some b → b.Normalized

theorem blocksInRange_sublist (range : Option (Nat × Nat)) (doc : RecognizedDocument) :
    (blocksInRange range doc).Sublist doc.blocks := by
  cases range with
  | none => exact .refl _
  | some range => exact List.filter_sublist

theorem executeTextExtraction_located {doc : RecognizedDocument} (hdoc : doc.Canonical)
    (hpages : doc.pageCount ≤ 100) (args : TextExtractionArgs) :
    (executeTextExtraction doc args).Located args := by
  have hblocks : ((executeTextExtraction doc args).blocks.getD []).Sublist
      (blocksInRange args.pageRange doc) := by
    simp only [executeTextExtraction]
    cases args.includeBlocks with
    | false => exact List.nil_sublist _
    | true => exact .refl _
  have hsublist := hblocks.trans (blocksInRange_sublist args.pageRange doc)
  refine ⟨hpages, ?_, ?_, hdoc.ordered.sublist (hsublist.map _), fun block hblock =>
    hdoc.inside block (hsublist.subset hblock), fun block hblock first last hrange => ?_,
    fun block hblock => hdoc.bbox block (hsublist.subset hblock)⟩
  · simp only [executeTextExtraction]
    cases args.includeBlocks <;> rfl
  · refine List.Pairwise.sublist (hsublist.map _) ?_
    rw [hdoc.index]
    exact List.pairwise_lt_range
  · have hmem := hblocks.subset hblock
    rw [hrange] at hmem
    simpa using (List.mem_filter.mp hmem).2

/-- Every text extraction that is answered, in whatever run, has the blocks it is asked for, each
under an index of its own and on one of the pages asked for. -/
theorem extraction_located (issuesOf : JsValue → JsValue) (deps : PipelineDeps)
    (hnames : (deps.providers.map OcrProvider.name).Nodup)
    {moves : List (Move Call Surroundings WorldEvent)}
    (hsha : ∀ c c', .spawn c ∈ moves → .spawn c' ∈ moves →
      deps.pkg.sha256 c.req.file.buffer = deps.pkg.sha256 c'.req.file.buffer →
      c.req.file.buffer = c'.req.file.buffer)
    (hreads : ∀ i env, .step i env ∈ moves → env.Reads deps)
    {w : World} (hw : w.cache = fun _ => none)
    {calls : Conf Call ServiceOp ServiceOp.Answer (Except Thrown (OcrOutcome JsValue)) World}
    (hrun : (concurrently deps).run ⟨w, []⟩ moves = some calls)
    {th : Thread Call ServiceOp ServiceOp.Answer (Except Thrown (OcrOutcome JsValue))}
    (hth : th ∈ calls.threads) (hd : th.req.d = (textExtractionDefinition issuesOf).untyped)
    {outcome : OcrOutcome JsValue} (hout : th.prog = .ret (.ok outcome)) :
    ∃ args, ∃ result : TextExtractionResult,
      textExtractionArgsSchema (orEmptyObject th.req.req.args) = some args ∧
      outcome.result = result.toJs ∧ result.Located args := by
  obtain ⟨raw, input, doc, hcheck, hdoc, hpages, -, hconclude⟩ :=
    documents_canonical deps hnames hsha hreads hw hrun hth hout
  rw [hd] at hcheck hpages hconclude
  obtain ⟨args, hargs, rfl⟩ := checkRequest_untyped_ok hcheck
  rw [conclude_untyped hargs, conclude_eq_ok] at hconclude
  obtain ⟨-, _, hraw, hresult⟩ := hconclude
  cases hraw
  have hschema := safeParse_ok.mp (forArgs_ok.mp (parseArgs_eq_ok.mp hargs))
  exact ⟨args, executeTextExtraction doc args, hschema,
    textExtractionResultSchema_some (safeParse_ok.mp hresult),
    executeTextExtraction_located hdoc hpages args⟩

theorem extraction_located_pair :
    ∃ calls, (concurrently Sample.deps).run ⟨{}, []⟩ Sample.twoImages = some calls ∧
      calls.threads.map (fun th => th.prog.result?.isSome) = [true, true] ∧
      ∀ th ∈ calls.threads, ∀ outcome, th.prog = .ret (.ok outcome) →
        ∃ args, ∃ result : TextExtractionResult, outcome.result = result.toJs ∧
          result.Located args := by
  obtain ⟨calls, hrun, hended⟩ := Sample.twoImages_run
  refine ⟨calls, hrun, hended, fun th hth outcome hout => ?_⟩
  have hd : th.req.d = (textExtractionDefinition id).untyped := by
    obtain h | h := Sample.twoImages_spawn (Machine.run_spawned hrun hth) <;> rw [h] <;> rfl
  obtain ⟨args, result, -, hresult, hlocated⟩ :=
    extraction_located id Sample.deps (buildProviderRegistry_names_nodup _) Sample.twoImages_sha
      Sample.twoImages_reads rfl hrun hth hd hout
  exact ⟨args, result, hresult, hlocated⟩

end OcrService
