import OcrService.Documents
import OcrService.Errors

/-! Content sniffing (`ingest/sniff.ts`). -/
namespace OcrService

structure FileTypeResult where
  ext : String
  mime : String

/-- What the service imports and this repository does not contain: `fromBuffer` of
`file-type`, the sha256 of `crypto`, the page images of `pdf-to-img`, and the page count
`pdf-lib` reads (`none` where it throws). -/
structure Packages where
  fromBuffer : Buffer → Option FileTypeResult
  sha256 : Buffer → Sha256Hex
  pdfToImg : Buffer → Except Thrown (List Buffer)
  pdfLibPageCount : Buffer → Option Nat

structure SniffResult where
  mime : String
  mimeGroup : MimeGroup
  ext : String

def DOCX_MIME : String :=
  "application/vnd.openxmlformats-officedocument.wordprocessingml.document"

def toMimeGroup (mime : String) : Option MimeGroup :=
  if mime = "application/pdf" then some .pdf
  else if "image/".toList.isPrefixOf mime.toList then some .image
  else if mime = DOCX_MIME then some .docx
  else if mime = "text/plain" ∨ mime = "text/markdown" then some .text
  else none

/-- State of the strict UTF-8 decoder behind `TextDecoder("utf-8", { fatal: true })`:
continuation bytes still needed, and the range the next one must lie in. -/
structure Utf8State where
  needed : Nat
  lower : UInt8
  upper : UInt8

def Utf8State.start : Utf8State := ⟨0, 0x80, 0xBF⟩

def Utf8State.feed (s : Utf8State) (b : UInt8) : Option Utf8State :=
  if s.needed = 0 then
    if b ≤ 0x7F then some .start
    else if 0xC2 ≤ b ∧ b ≤ 0xDF then some ⟨1, 0x80, 0xBF⟩
    else if 0xE0 ≤ b ∧ b ≤ 0xEF then
      some ⟨2, if b = 0xE0 then 0xA0 else 0x80, if b = 0xED then 0x9F else 0xBF⟩
    else if 0xF0 ≤ b ∧ b ≤ 0xF4 then
      some ⟨3, if b = 0xF0 then 0x90 else 0x80, if b = 0xF4 then 0x8F else 0xBF⟩
    else none
  else if s.lower ≤ b ∧ b ≤ s.upper then some ⟨s.needed - 1, 0x80, 0xBF⟩
  else none

def decodesUtf8 (bytes : Buffer) : Bool :=
  match bytes.foldlM Utf8State.feed Utf8State.start with
  | some s => s.needed = 0
  | none => false

def TEXT_SAMPLE_BYTES : Nat := 4096

/-- Control characters other than tab, line feed, carriage return and form feed. -/
def isControl (byte : UInt8) : Bool :=
  byte < 0x20 && byte ≠ 0x09 && byte ≠ 0x0a && byte ≠ 0x0d && byte ≠ 0x0c

/-- `MAX_CONTROL_RATIO` is 0.1, so `control / length <= 0.1` is read as
`10 * control ≤ length`. -/
def isProbablyText (buffer : Buffer) : Bool :=
  if buffer.length = 0 then false
  else
    let sample := buffer.take TEXT_SAMPLE_BYTES
    if sample.contains 0 then false
    else if !decodesUtf8 sample then false
    else decide (10 * (sample.filter isControl).length ≤ sample.length)

def sniff (pkg : Packages) (buffer : Buffer) : Option SniffResult :=
  match pkg.fromBuffer buffer with
  | some detected =>
    let mime := if detected.ext = "docx" then DOCX_MIME else detected.mime
    (toMimeGroup mime).map fun mimeGroup => { mime, mimeGroup, ext := detected.ext }
  | none =>
    if isProbablyText buffer then some { mime := "text/plain", mimeGroup := .text, ext := "txt" }
    else none

end OcrService
