import OcrService.Residency
import OcrService.Fallback

/-! The digital text layer of a PDF (`providers/pdf-text.ts`), and the scanned pages of a PDF
of which only the text is asked. -/
namespace OcrService
open Interaction

/-- Below this a page counts as scanned (`config/providers.ts`); no code reads it. -/
def SCANNED_PDF_CHARS_PER_PAGE_THRESHOLD : Nat := 100

structure PageText where
  num : Nat
  text : String

structure TextResult where
  pages : List PageText
  text : String
  total : Nat

structure PdfParse where
  getText : Buffer → Option (Nat × Nat) → Except Thrown TextResult
  destroy : Buffer → Except Thrown Unit

/-- `getText`; what `destroy` throws in the `finally` comes before its outcome. -/
def PdfParse.textLayer (parser : PdfParse) (buffer : Buffer) (pageRange : Option (Nat × Nat)) :
    Except Thrown TextResult :=
  match parser.destroy buffer with
  | .error err => .error err
  | .ok () => parser.getText buffer pageRange

def pdfTextRecognize (parser : PdfParse) (durationMs : Nat) (input : DocumentInput)
    (opts : RecognizeOptions) : Except Thrown RecognizedDocument :=
  (parser.textLayer input.buffer opts.pageRange).map fun result =>
    let markdown := jsTrim result.text
    { markdown
      plainText := markdown
      pages := result.pages.map fun p => { page := p.num, markdown := p.text }
      blocks := []
      pageCount := result.total
      provider := pdfText.name
      durationMs }

/-- The registered provider of the name `pdf-text` is this one. -/
def Surroundings.ReadsTextLayer (env : Surroundings) (parser : PdfParse) : Prop :=
  ∀ p input opts, p.name = pdfText.name →
    ∃ durationMs, env.recognize p input opts = pdfTextRecognize parser durationMs input opts

def isOcr (name : String) : Bool := name = tesseract.name || name = glmOcr.name

def Serves (registry : List OcrProvider) (input : RouteInput) (name : String) : Prop :=
  ∃ p, byName registry name = some p ∧ providerSatisfies p input.group input.required = true

structure TextOnlyPdf (deps : PipelineDeps) (c : Call) (args : JsValue) (input : DocumentInput)
    (route : RoutingDecision) : Prop extends Routed deps c args input route where
  pdf : input.mimeGroup = .pdf
  textOnly : ∀ cap ∈ c.d.requires, cap = .text
  textLayer : Serves deps.providers (routeInput c.d input deps) pdfText.name
  ocr : ∃ name, isOcr name = true ∧ Serves deps.providers (routeInput c.d input deps) name

def PageText.scanned (page : PageText) : Bool :=
  jsLength page.text < SCANNED_PDF_CHARS_PER_PAGE_THRESHOLD

def RecognizedDocument.OcrPage (doc : RecognizedDocument) (page : Nat) : Prop :=
  isOcr doc.provider = true ∧ ∃ p ∈ doc.pages, p.page = page

/-- Each page whose text layer is too short is handed on as OCR output, or an OCR provider
was tried and failed. -/
def ScannedPagesRead (deps : PipelineDeps) (parser : PdfParse) (w : World) (c : Call)
    (env : Surroundings) : Prop :=
  ∀ args input route, TextOnlyPdf deps c args input route →
    ∀ result, parser.textLayer input.buffer none = .ok result →
    ∀ page ∈ result.pages, page.scanned = true →
      (∃ out, ((extraction c.d c.req deps input).eval (World.handle env) w).1 = .ok out ∧
        out.doc.OcrPage page.num) ∨
      ∃ r ∈ (w.serve deps c env).2.recognitions.drop w.recognitions.length,
        isOcr r.provider.name = true ∧ ∃ err, r.answer = .error err

/-- The text layer of such a PDF cannot be read, or it has text enough on every page. -/
def NoScannedPage (deps : PipelineDeps) (parser : PdfParse) (c : Call) : Prop :=
  ∀ args input route, TextOnlyPdf deps c args input route →
    ∀ result, parser.textLayer input.buffer none = .ok result →
    ∀ page ∈ result.pages, page.scanned = false

section
variable {deps : PipelineDeps} {parser : PdfParse} {c : Call} {env : Surroundings} {w : World}
  {args : JsValue} {input : DocumentInput} {route : RoutingDecision}

theorem TextOnlyPdf.primary (h : TextOnlyPdf deps c args input route) :
    route.provider.name = pdfText.name := by
  obtain ⟨p, hp, hs⟩ := h.textLayer
  have hpdf : (routeInput c.d input deps).group = .pdf := h.pdf
  have htext : ((routeInput c.d input deps).required.all fun cap => cap = .text) = true := by
    simpa [routeInput] using h.textOnly
  obtain ⟨names, horder⟩ : ∃ names, preferenceOrder (routeInput c.d input deps)
      (policyForFunction (routeInput c.d input deps).policy (routeInput c.d input deps).fn) =
        pdfText.name :: names := by
    simp only [preferenceOrder, hpdf, htext, if_true]
    exact ⟨_, rfl⟩
  rw [provider_of_preferred horder hp hs h.routed]
  exact byName_name hp

theorem pdfText_not_ocr : isOcr pdfText.name = false := by decide

/-- A readable text layer is all that is looked at: it is what is handed on, and nothing else
is tried. -/
theorem textLayer_handed_on (h : TextOnlyPdf deps c args input route) (hw : w.CacheNamed)
    (hreads : env.ReadsTextLayer parser) {result : TextResult}
    (hlayer : parser.textLayer input.buffer none = .ok result) :
    (∃ out, ((extraction c.d c.req deps input).eval (World.handle env) w).1 = .ok out ∧
      out.doc.provider = pdfText.name) ∧
    ∀ r ∈ (w.serve deps c env).2.recognitions.drop w.recognitions.length,
      r.provider = route.provider := by
  have hprimary := h.primary
  obtain ⟨durationMs, hrecognize⟩ :=
    hreads route.provider input (recognizeOptions c.req) hprimary
  have hlayer' : parser.textLayer input.buffer (recognizeOptions c.req).pageRange = .ok result :=
    hlayer
  obtain ⟨doc, hdoc, hname⟩ : ∃ doc, env.recognize route.provider input (recognizeOptions c.req) =
      .ok doc ∧ doc.provider = pdfText.name := by
    rw [hrecognize, pdfTextRecognize, hlayer']
    exact ⟨_, rfl, rfl⟩
  have hanswers : answers env input (recognizeOptions c.req) route.provider = true := by
    simp [answers, hdoc]
  constructor
  · have hextracted := extraction_cases env c.d c.req deps input w
    generalize ((extraction c.d c.req deps input).eval (World.handle env) w).1 = r at hextracted
    generalize ((extraction c.d c.req deps input).eval (World.handle env) w).2 = w' at hextracted
    cases hextracted with
    | skipped hskip => simp [h.extracts] at hskip
    | unrouted err _ hroute => simp [h.routed] at hroute
    | hit route' doc _ hroute hhit =>
      obtain rfl := h.toRouted.route_eq hroute
      refine ⟨_, rfl, ?_⟩
      rw [← hprimary]
      exact hw.cachedAnswer hhit
    | failed route' last _ hroute _ hfail =>
      obtain rfl := h.toRouted.route_eq hroute
      simp [hfail route'.provider (by simp)] at hanswers
    | recognized route' before after p doc' _ hroute _ hchain hfail hok =>
      obtain rfl := h.toRouted.route_eq hroute
      cases before with
      | nil =>
        obtain rfl : route'.provider = p := (List.cons.inj hchain).1
        obtain rfl : doc = doc' := by simpa [hdoc] using hok
        exact ⟨_, rfl, hname⟩
      | cons q before =>
        rw [chain_head hchain, hfail q (by simp)] at hanswers
        cases hanswers
  · rw [serve_recognitions h.toRouted, List.drop_left]
    intro r hr
    by_cases hmiss : (cachedAnswer c.d env w
        (extractionCacheKey input.sha256 route.provider.name)).isNone = true
    · simp only [hmiss, if_true, tried, hanswers, asked, List.map_cons, List.map_nil,
        List.mem_singleton] at hr
      rw [hr]
    · simp [hmiss] at hr

/-- One request has its scanned pages read exactly if there is none. -/
theorem scannedPagesRead_iff (hw : w.CacheNamed) (hreads : env.ReadsTextLayer parser) :
    ScannedPagesRead deps parser w c env ↔ NoScannedPage deps parser c := by
  constructor
  · intro hread args input route h result hlayer page hpage
    obtain ⟨⟨out, hout, hname⟩, htried⟩ := textLayer_handed_on h hw hreads hlayer
    cases hscanned : page.scanned with
    | false => rfl
    | true =>
      obtain ⟨out', hout', hocr, -⟩ | ⟨r, hr, hocr, -⟩ :=
        hread args input route h result hlayer page hpage hscanned
      · obtain rfl : out = out' := by simpa [hout] using hout'
        rw [hname, pdfText_not_ocr] at hocr
        cases hocr
      · rw [htried r hr, h.primary, pdfText_not_ocr] at hocr
        cases hocr
  · intro hnone args input route h result hlayer page hpage hscanned
    rw [hnone args input route h result hlayer page hpage] at hscanned
    cases hscanned

end

/-- Over any session from an empty cache: the scanned pages of text-only PDFs are read by OCR
if and only if there are no such pages. -/
theorem scannedPages_read_iff (deps : PipelineDeps) (parser : PdfParse) {w : World}
    (hw : w.cache = fun _ => none) {turns : List Turn}
    (hreads : ∀ c env, Turn.serve c env ∈ turns → env.ReadsTextLayer parser) :
    EachServed deps (ScannedPagesRead deps parser) w turns ↔
      EachServed deps (fun _ c _ => NoScannedPage deps parser c) w turns := by
  refine eachServed_congr_named hw ?_
  intro w c env hmem hnamed
  exact scannedPagesRead_iff hnamed (hreads c env hmem)

namespace Sample

/-- Every PDF has one page, with this text on it. `pdf-parse` marks in `text` where a page ends. -/
def onePageParse (text : String) : PdfParse where
  getText _ _ := .ok { pages := [⟨1, text⟩], text := text ++ "\n\n-- 1 of 1 --\n\n", total := 1 }
  destroy _ := .ok ()

def textLayerOf (text : String) : Surroundings where
  recognize p input opts :=
    if p.name = pdfText.name then pdfTextRecognize (onePageParse text) 1 input opts
    else (surroundings []).recognize p input opts

def pdfCall : Call := ⟨textExtraction body, upload [0x25] "tenant", timings⟩

theorem textLayerOf_reads (text : String) : (textLayerOf text).ReadsTextLayer (onePageParse text) :=
  fun _ _ _ h => ⟨1, if_pos h⟩

theorem pdfCall_textOnly :
    TextOnlyPdf deps pdfCall (.obj []) ⟨[0x25], .pdf, digest [0x25], "upload"⟩
      ⟨pdfText, [glmOcr, tesseract]⟩ where
  admitted := rfl
  extracts := rfl
  routed := rfl
  pdf := rfl
  textOnly := by simp [pdfCall, textExtraction, defineOcrFunction]
  textLayer := ⟨pdfText, rfl, rfl⟩
  ocr := ⟨tesseract.name, by decide, tesseract, rfl, rfl⟩

theorem noScannedPage_onePage {text : String} (h : (⟨1, text⟩ : PageText).scanned = false) :
    NoScannedPage deps (onePageParse text) pdfCall := by
  intro args input route _ result hlayer page hpage
  obtain rfl := Except.ok.inj hlayer
  obtain rfl := List.mem_singleton.mp hpage
  exact h

def printed (n : Nat) : String := String.ofList (List.replicate n 'a')

theorem jsLength_printed (n : Nat) : jsLength (printed n) = n := by
  have hunit : (if 'a'.val > 0xFFFF then 2 else 1) = 1 := by decide
  simp only [jsLength, printed, String.toList_ofList, List.map_replicate, hunit,
    List.sum_replicate_nat, Nat.mul_one]

theorem scannedPages_read_iff_printed :
    EachServed deps (ScannedPagesRead deps (onePageParse (printed 120))) {}
      [.serve pdfCall (textLayerOf (printed 120))] := by
  have hlong : (⟨1, printed 120⟩ : PageText).scanned = false := by
    rw [PageText.scanned, jsLength_printed]
    decide
  refine (scannedPages_read_iff deps (onePageParse (printed 120)) rfl ?_).mpr
    ⟨noScannedPage_onePage hlong, trivial⟩
  intro c env hmem
  obtain ⟨-, rfl⟩ : c = pdfCall ∧ env = textLayerOf (printed 120) := by simpa using hmem
  exact textLayerOf_reads (printed 120)

/-- A scan has no text in its text layer. It is answered with the mark of its page alone, and no
OCR provider is asked. -/
theorem scan_unread :
    ¬ EachServed deps (ScannedPagesRead deps (onePageParse "")) {}
      [.serve pdfCall (textLayerOf "")] ∧
    ∃ o, (World.serve deps pdfCall (textLayerOf "") {}).1 = .ok o ∧ o.result = .str "-- 1 of 1 --" ∧
      (World.serve deps pdfCall (textLayerOf "") {}).2.recognitions.map
        (fun r => r.provider.name) = ["pdf-text"] := by
  refine ⟨fun h => ?_, _, rfl, rfl, rfl⟩
  obtain ⟨out, hout, hocr, -⟩ | ⟨r, hr, hocr, -⟩ :=
    h.1 _ _ _ pdfCall_textOnly _ rfl ⟨1, ""⟩ (by simp) (by decide)
  · obtain rfl := Except.ok.inj hout
    exact absurd hocr (by decide)
  · obtain rfl := List.mem_singleton.mp hr
    exact absurd hocr (by decide)

end Sample
end OcrService
