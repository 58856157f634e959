import OcrService.Ingest
import OcrService.Service

/-! The provider registry (`providers/index.ts`) and what GLM-OCR sends to its vendor
(`providers/glm`). -/
namespace OcrService

def plainText : OcrProvider where
  name := "plain-text"
  accepts := [.text]
  capabilities := [.text]

def pdfText : OcrProvider where
  name := "pdf-text"
  accepts := [.pdf]
  capabilities := [.text]

def mammoth : OcrProvider where
  name := "mammoth"
  accepts := [.docx]
  capabilities := [.text, .tables]

def tesseract : OcrProvider where
  name := "tesseract"
  accepts := [.image, .pdf]
  capabilities := [.text, .layout]

def glmOcr : OcrProvider where
  name := "glm-ocr"
  accepts := [.pdf, .image]
  capabilities := [.text, .layout, .tables, .handwriting, .seals]

def buildProviderRegistry (env : Env) : List OcrProvider :=
  [plainText, pdfText, mammoth, tesseract] ++ if env.GLM_ENABLED then [glmOcr] else []

theorem buildProviderRegistry_names_nodup (env : Env) :
    ((buildProviderRegistry env).map OcrProvider.name).Nodup := by
  rw [buildProviderRegistry]
  cases env.GLM_ENABLED <;> decide

structure DataUri where
  mime : String
  bytes : Buffer
  deriving DecidableEq

/-- The body of a call, with the fields `buildRequest` can set. -/
structure LayoutParsingRequest where
  model : String := "glm-ocr"
  file : DataUri
  return_crop_images : Option Bool
  request_id : Option String
  user_id : Option String
  deriving DecidableEq

structure LayoutParsingCall where
  url : String
  body : LayoutParsingRequest
  deriving DecidableEq

structure PageChunk where
  page : Nat
  dataUri : DataUri

/-- `buffer.toString("ascii", start, end)`, which drops the high bit of every byte. -/
def asciiSlice (buffer : Buffer) (first last : Nat) : String :=
  String.ofList (((buffer.take last).drop first).map fun b => Char.ofNat (b &&& 0x7F).toNat)

def imageMime (buffer : Buffer) : String :=
  match buffer with
  | b0 :: b1 :: b2 :: b3 :: _ =>
    if b0 = 0x89 ∧ b1 = 0x50 ∧ b2 = 0x4E ∧ b3 = 0x47 then "image/png"
    else if b0 = 0xFF ∧ b1 = 0xD8 ∧ b2 = 0xFF then "image/jpeg"
    else if b0 = 0x47 ∧ b1 = 0x49 ∧ b2 = 0x46 then "image/gif"
    else if b0 = 0x42 ∧ b1 = 0x4D then "image/bmp"
    else if b0 = 0x49 ∧ b1 = 0x49 then "image/tiff"
    else if b0 = 0x4D ∧ b1 = 0x4D then "image/tiff"
    else if buffer.length ≥ 12 ∧ asciiSlice buffer 0 4 = "RIFF" ∧
        asciiSlice buffer 8 12 = "WEBP" then
      "image/webp"
    else "image/png"
  | _ => "image/png"

def splitPdfToPageImages (pkg : Packages) (buffer : Buffer) (pageRange : Option (Nat × Nat)) :
    Except Thrown (List PageChunk) :=
  (pkg.pdfToImg buffer).map fun images =>
    let (first, last) := pageRange.getD (1, images.length)
    ((images.zipIdx 1).filter fun (_, page) => first ≤ page && page ≤ last).map
      fun (image, page) => { page, dataUri := { mime := "image/png", bytes := image } }

def inRange (value : Option String) (min max : Nat) : Option String :=
  value.filter fun v => min ≤ jsLength v && jsLength v ≤ max

def buildRequest (chunk : PageChunk) (opts : RecognizeOptions) : LayoutParsingRequest where
  file := chunk.dataUri
  return_crop_images := if opts.returnCropImages then some true else none
  request_id := inRange opts.requestId 6 64
  user_id := inRange opts.userIdHash 6 128

def glmChunks (pkg : Packages) (input : DocumentInput) (opts : RecognizeOptions) :
    Except Thrown (List PageChunk) :=
  if input.mimeGroup = .pdf then splitPdfToPageImages pkg input.buffer opts.pageRange
  else .ok [{ page := 1, dataUri := { mime := imageMime input.buffer, bytes := input.buffer } }]

/-- The calls one `recognize` of GLM-OCR makes: `p-limit` runs the task of every chunk,
whatever becomes of the others. -/
def layoutParsingCalls (env : Env) (pkg : Packages) (input : DocumentInput)
    (opts : RecognizeOptions) : List LayoutParsingCall :=
  match glmChunks pkg input opts with
  | .error _ => []
  | .ok chunks =>
    chunks.map fun chunk =>
      { url := env.GLM_BASE_URL ++ "/layout_parsing", body := buildRequest chunk opts }

theorem mem_layoutParsingCalls {env : Env} {pkg : Packages} {input : DocumentInput}
    {opts : RecognizeOptions} {call : LayoutParsingCall}
    (h : call ∈ layoutParsingCalls env pkg input opts) :
    ∃ chunk, call = ⟨env.GLM_BASE_URL ++ "/layout_parsing", buildRequest chunk opts⟩ := by
  rw [layoutParsingCalls] at h
  cases hchunks : glmChunks pkg input opts with
  | error err => simp [hchunks] at h
  | ok chunks =>
    simp only [hchunks] at h
    obtain ⟨chunk, -, rfl⟩ := List.mem_map.mp h
    exact ⟨chunk, rfl⟩

end OcrService
