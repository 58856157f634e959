import OcrService.Calendar
import OcrService.Scanning.Search
import OcrService.TamperSignals
import OcrService.Values

/-! The authenticity of a PDF (`authenticity/pdf.ts`): signals from its bytes and its metadata. -/
namespace OcrService
open Calendar Scanning

def DEEP_TIER_NOTE : String :=
  "Object-level revision diffing (form-field edits vs. page-content edits) and " ++
    "white-box overlay detection are not performed in this tier."

def EDITOR_PRODUCERS : List String :=
  ["ilovepdf", "pdf-xchange", "pdfsam", "smallpdf", "sejda", "ghostscript", "foxit", "pdfescape",
    "nitro", "skia/pdf"]

def latin1 (s : String) : Buffer := s.toList.map fun c => UInt8.ofNat c.toNat

def countOccurrences (haystack : Buffer) (needle : String) : Nat :=
  (search (literal (latin1 needle)) 0 0 haystack).length

def isSpaceByte (b : UInt8) : Bool := b ∈ [9, 10, 11, 12, 13, 32, 0xA0]

def isDigitByte (b : UInt8) : Bool := 48 ≤ b && b ≤ 57

def numberOf (digits : List UInt8) : Nat := digits.foldl (fun n b => 10 * n + (b.toNat - 48)) 0

/-- The first segment is `b` bytes from `a` on, the second `d` bytes from `c` on. -/
structure ByteRange where
  a : Nat
  b : Nat
  c : Nat
  d : Nat

def byteRangeNumbers : Reader UInt8 ByteRange := do
  let _ ← many isSpaceByte
  literal (latin1 "[")
  let _ ← many isSpaceByte
  let a ← many1 isDigitByte
  let _ ← many1 isSpaceByte
  let b ← many1 isDigitByte
  let _ ← many1 isSpaceByte
  let c ← many1 isDigitByte
  let _ ← many1 isSpaceByte
  let d ← many1 isDigitByte
  let _ ← many isSpaceByte
  literal (latin1 "]")
  return { a := numberOf a, b := numberOf b, c := numberOf c, d := numberOf d }

/-- `\/ByteRange\s*\[\s*(\d+)\s+(\d+)\s+(\d+)\s+(\d+)\s*\]`, which has but one way to match. -/
def byteRange : Reader UInt8 ByteRange := do
  literal (latin1 "/ByteRange")
  byteRangeNumbers

def lastMatch (raw : Buffer) : Option (Found ByteRange) := (search byteRange 0 0 raw).getLast?

def lastByteRange (raw : Buffer) : Option ByteRange := (lastMatch raw).map Found.value

/-- What the `pdf-lib` package reads in a file; a date it cannot read is none. -/
structure PdfMetadata where
  producer : Option String
  creator : Option String
  created : Option Int
  modified : Option Int

def padStart (width n : Nat) : String :=
  String.ofList ((toString n).toList.leftpad width '0')

/-- Beyond four digits a year has six and a sign. -/
def toISOString (time : Int) : String :=
  let date := dateFromDay (time / msPerDay)
  let ms := (time % msPerDay).toNat
  let year :=
    if 0 ≤ date.year ∧ date.year ≤ 9999 then padStart 4 date.year.toNat
    else (if date.year < 0 then "-" else "+") ++ padStart 6 date.year.natAbs
  year ++ "-" ++ padStart 2 date.month ++ "-" ++ padStart 2 date.day ++ "T" ++
    padStart 2 (ms / 3600000) ++ ":" ++ padStart 2 (ms / 60000 % 60) ++ ":" ++
    padStart 2 (ms / 1000 % 60) ++ "." ++ padStart 3 (ms % 1000) ++ "Z"

example : toISOString 951782400001 = "2000-02-29T00:00:00.001Z" := by decide +kernel

def formSignals (raw : Buffer) : List TamperSignal :=
  let hasAcroForm := decide (latin1 "/AcroForm" <:+: raw)
  let hasXfa := decide (latin1 "/XFA" <:+: raw)
  if hasAcroForm || hasXfa then
    [{ code := "PDF_HAS_FORM"
       severity := .info
       detail := "Document contains " ++ (if hasXfa then "XFA" else "AcroForm") ++
        " form fields — incremental updates are expected when it is filled." }]
  else []

def revisionSignals (raw : Buffer) : List TamperSignal :=
  let revisions := countOccurrences raw "%%EOF"
  if 1 < revisions then
    [{ code := "PDF_MULTIPLE_REVISIONS"
       severity := .info
       detail := "Saved " ++ toString revisions ++ " times (incremental updates present). " ++
        "Normal for a filled form; suspicious only if a revision modified page content." }]
  else []

def signatureSignals (raw : Buffer) : List TamperSignal :=
  match lastByteRange raw with
  | none => []
  | some range =>
    let signedEnd := range.c + range.d
    { code := "PDF_SIGNED"
      severity := .info
      detail := "Contains a digital signature (/ByteRange present)." } ::
    if 5 < (raw.length : Int) - signedEnd then
      [{ code := "PDF_POST_SIGNATURE_EDIT"
         severity := .high
         detail := toString ((raw.length : Int) - signedEnd) ++
          " bytes were appended after the signed range — " ++
          "the signature no longer covers the whole document. Strong tampering indicator " ++
          "(unless the signature is a certification signature that permits form-filling)." }]
    else []

def producerSignals (metadata : PdfMetadata) : List TamperSignal :=
  let producer := jsTrim (metadata.producer.getD "")
  let creator := jsTrim (metadata.creator.getD "")
  let producerIsEditor := EDITOR_PRODUCERS.any fun p => jsIncludes (jsToLowerCase producer) p
  if producer ≠ "" ∧ creator ≠ "" ∧ producer ≠ creator ∧ producerIsEditor then
    [{ code := "PDF_PRODUCER_CREATOR_MISMATCH"
       severity := .low
       detail := "Authored by \"" ++ creator ++ "\" but last written by \"" ++ producer ++
        "\" (a PDF-editing tool). Corroborating, not conclusive." }]
  else []

def dateSignals (metadata : PdfMetadata) : List TamperSignal :=
  match metadata.created, metadata.modified with
  | some created, some modified =>
    if 1000 < modified - created then
      [{ code := "PDF_MODIFIED_AFTER_CREATION"
         severity := .info
         detail := "Modified (" ++ toISOString modified ++ ") after creation (" ++
          toISOString created ++ "). Expected for a filled form; context only." }]
    else []
  | _, _ => []

def metadataSignals : Option PdfMetadata → List TamperSignal
  | some metadata => producerSignals metadata ++ dateSignals metadata
  | none => []

/-- `load` is what `pdf-lib` reads in the bytes, none where it throws. -/
def analyzePdf (load : Buffer → Option PdfMetadata) (buffer : Buffer) : TamperSignals :=
  let metadata := load buffer
  aggregate .pdf
    (formSignals buffer ++ revisionSignals buffer ++ signatureSignals buffer ++
      metadataSignals metadata)
    (DEEP_TIER_NOTE :: if metadata.isNone then
      ["Structured PDF parse failed; only byte-level signals were computed."] else [])

def IsSlash (b : UInt8) : Prop := b = 47

theorem not_slash_of_space (b : UInt8) (h : isSpaceByte b = true) : ¬IsSlash b := by
  intro hslash
  rw [hslash] at h
  exact absurd h (by decide)

theorem not_slash_of_digit (b : UInt8) (h : isDigitByte b = true) : ¬IsSlash b := by
  intro hslash
  rw [hslash] at h
  exact absurd h (by decide)

theorem not_slash_of_not_mem {text : Buffer} (h : 47 ∉ text) : ∀ b ∈ text, ¬IsSlash b :=
  fun _ hb hslash => h (hslash ▸ hb)

theorem byteRange_marked : Marked IsSlash byteRange := by
  have hspaces : Takes (fun y => ¬IsSlash y) (many isSpaceByte) := Takes.many not_slash_of_space
  have hgap : Takes (fun y => ¬IsSlash y) (many1 isSpaceByte) := Takes.many1 not_slash_of_space
  have hdigits : Takes (fun y => ¬IsSlash y) (many1 isDigitByte) := Takes.many1 not_slash_of_digit
  have hopen : Takes (fun y => ¬IsSlash y) (literal (latin1 "[")) :=
    Takes.literal (not_slash_of_not_mem (by decide))
  have hclose : Takes (fun y => ¬IsSlash y) (literal (latin1 "]")) :=
    Takes.literal (not_slash_of_not_mem (by decide))
  refine Marked.bind rfl (not_slash_of_not_mem (by decide)) fun _ => ?_
  exact hspaces.bind fun _ => hopen.bind fun _ => hspaces.bind fun _ => hdigits.bind fun _ =>
    hgap.bind fun _ => hdigits.bind fun _ => hgap.bind fun _ => hdigits.bind fun _ =>
    hgap.bind fun _ => hdigits.bind fun _ => hspaces.bind fun _ => hclose.bind fun _ =>
    Takes.pure _

theorem byteRange_local : Local byteRange :=
  (Local.literal _).bind fun _ => (Local.many _).bind fun _ => (Local.literal _).bind fun _ =>
    (Local.many _).bind fun _ => (Local.many1 _).bind fun _ => (Local.many1 _).bind fun _ =>
    (Local.many1 _).bind fun _ => (Local.many1 _).bind fun _ => (Local.many1 _).bind fun _ =>
    (Local.many1 _).bind fun _ => (Local.many1 _).bind fun _ => (Local.many _).bind fun _ =>
    (Local.literal _).bind fun _ => Local.pure _

theorem byteRange_closed : Closed byteRange :=
  (Local.literal _).bind_closed fun _ => (Local.many _).bind_closed fun _ =>
    (Local.literal _).bind_closed fun _ => (Local.many _).bind_closed fun _ =>
    (Local.many1 _).bind_closed fun _ => (Local.many1 _).bind_closed fun _ =>
    (Local.many1 _).bind_closed fun _ => (Local.many1 _).bind_closed fun _ =>
    (Local.many1 _).bind_closed fun _ => (Local.many1 _).bind_closed fun _ =>
    (Local.many1 _).bind_closed fun _ => (Local.many _).bind_closed fun _ =>
    (Closed.literal (by decide)).bind_pure _

def ReportsEdit (result : TamperSignals) : Prop :=
  (∃ s ∈ result.signals, s.code = "PDF_POST_SIGNATURE_EDIT" ∧ s.severity = .high) ∧
    result.verdict = .likelyDoctored

/-- Most of the signals are given if there is reason for them, and have one severity. -/
theorem severity_of_mem_ite {c : Prop} [Decidable c] {s signal : TamperSignal}
    (hs : s ∈ if c then [signal] else []) : s.severity = signal.severity := by
  split at hs
  · rw [List.mem_singleton.mp hs]
  · cases hs

theorem formSignals_info (raw : Buffer) : ∀ s ∈ formSignals raw, s.severity = .info :=
  fun _ hs => (severity_of_mem_ite hs :)

theorem revisionSignals_info (raw : Buffer) : ∀ s ∈ revisionSignals raw, s.severity = .info :=
  fun _ hs => (severity_of_mem_ite hs :)

theorem producerSignals_low (metadata : PdfMetadata) :
    ∀ s ∈ producerSignals metadata, s.severity = .low := fun _ hs => (severity_of_mem_ite hs :)

theorem dateSignals_info (metadata : PdfMetadata) :
    ∀ s ∈ dateSignals metadata, s.severity = .info := by
  intro s hs
  unfold dateSignals at hs
  split at hs
  · exact (severity_of_mem_ite hs :)
  · cases hs

theorem metadataSignals_soft (metadata : Option PdfMetadata) :
    ∀ s ∈ metadataSignals metadata, s.severity ≠ .high := by
  intro s hs
  cases metadata with
  | none => cases hs
  | some metadata =>
    obtain hs | hs := List.mem_append.mp hs
    · rw [producerSignals_low metadata s hs]
      decide
    · rw [dateSignals_info metadata s hs]
      decide

theorem signatureSignals_high {raw : Buffer} {s : TamperSignal} (hs : s ∈ signatureSignals raw)
    (hcode : s.code = "PDF_POST_SIGNATURE_EDIT") : s.severity = .high := by
  unfold signatureSignals at hs
  cases hlast : lastByteRange raw with
  | none =>
    rw [hlast] at hs
    cases hs
  | some range =>
    rw [hlast] at hs
    obtain heq | hs := List.mem_cons.mp hs
    · rw [heq] at hcode
      exact absurd hcode (by decide)
    · exact (severity_of_mem_ite hs :)

theorem signatureSignals_edit {raw : Buffer} :
    (∃ s ∈ signatureSignals raw, s.code = "PDF_POST_SIGNATURE_EDIT") ↔
      ∃ range, lastByteRange raw = some range ∧ range.c + range.d + 5 < raw.length := by
  unfold signatureSignals
  cases lastByteRange raw with
  | none => simp
  | some range =>
    by_cases hend : range.c + range.d + 5 < raw.length
    · have hlonger : 5 < (raw.length : Int) - (range.c + range.d) := by omega
      simp [hlonger, hend]
    · have hlonger : ¬5 < (raw.length : Int) - (range.c + range.d) := by omega
      simp [hlonger, hend]

theorem reportsEdit_iff (load : Buffer → Option PdfMetadata) (buffer : Buffer) :
    ReportsEdit (analyzePdf load buffer) ↔
      ∃ range, lastByteRange buffer = some range ∧ range.c + range.d + 5 < buffer.length := by
  rw [← signatureSignals_edit]
  constructor
  · intro h
    obtain ⟨⟨s, hs, hcode, hhigh⟩, -⟩ := h
    simp only [analyzePdf, aggregate, List.mem_append] at hs
    obtain ((hs | hs) | hs) | hs := hs
    · rw [formSignals_info buffer s hs] at hhigh
      cases hhigh
    · rw [revisionSignals_info buffer s hs] at hhigh
      cases hhigh
    · exact ⟨s, hs, hcode⟩
    · exact absurd hhigh (metadataSignals_soft _ s hs)
  · intro h
    obtain ⟨s, hs, hcode⟩ := h
    have hhigh := signatureSignals_high hs hcode
    have hmem : s ∈ (analyzePdf load buffer).signals := by
      simp only [analyzePdf, aggregate, List.mem_append]
      exact .inl (.inr hs)
    exact ⟨⟨s, hmem, hcode, hhigh⟩, verdictFor_high ⟨s, hmem, hhigh⟩ _⟩

/-- A byte range that signs a file of that length over again: from its first byte on, in two
segments of the file that have nothing in common and come to within five bytes of its end. -/
structure Resigns (range : ByteRange) (length : Nat) : Prop where
  first : range.a = 0
  apart : ∀ i, ¬((range.a ≤ i ∧ i < range.a + range.b) ∧ (range.c ≤ i ∧ i < range.c + range.d))
  inside : range.a + range.b ≤ length ∧ range.c + range.d ≤ length
  covers : length ≤ range.c + range.d + 5

/-- More than five bytes behind a signed file are reported, unless the last byte range signs
the longer file, exactly if no byte range that they complete comes to its end or goes beyond
without signing it. -/
theorem analyzePdf_appended_iff (load : Buffer → Option PdfMetadata) {file appended : Buffer}
    {range : ByteRange} (hrange : lastByteRange file = some range)
    (hend : range.c + range.d = file.length) (happended : 5 < appended.length) :
    (ReportsEdit (analyzePdf load (file ++ appended)) ∨
      ∃ m, lastMatch (file ++ appended) = some m ∧ file.length ≤ m.start ∧
        Resigns m.value (file ++ appended).length) ↔
    ∀ m, lastMatch (file ++ appended) = some m → file.length < m.stop →
      (file ++ appended).length ≤ m.value.c + m.value.d + 5 →
      file.length ≤ m.start ∧ Resigns m.value (file ++ appended).length := by
  rw [reportsEdit_iff]
  constructor
  · intro h m' hm' hstop hlong
    obtain ⟨last, hlast, hshort⟩ | ⟨m, hm, hresigns⟩ := h
    · rw [lastByteRange, hm'] at hlast
      obtain rfl := Option.some.inj hlast
      omega
    · rw [hm] at hm'
      obtain rfl := Option.some.inj hm'
      exact hresigns
  · intro h
    obtain ⟨m₀, hm₀, rfl⟩ := Option.map_eq_some_iff.mp hrange
    cases hm : lastMatch (file ++ appended) with
    | none => exact absurd hm (last_search_append_ne_none byteRange_marked byteRange_closed hm₀ _)
    | some m =>
      by_cases hstop : m.stop ≤ file.length
      · have hmfile : lastMatch file = some m :=
          last_search_of_append byteRange_marked byteRange_local byteRange_closed hm hstop
        rw [hm₀] at hmfile
        obtain rfl := Option.some.inj hmfile
        refine .inl ⟨m₀.value, by rw [lastByteRange, hm]; rfl, ?_⟩
        rw [hend, List.length_append]
        omega
      · by_cases hlong : (file ++ appended).length ≤ m.value.c + m.value.d + 5
        · exact .inr ⟨m, rfl, h m hm (by omega) hlong⟩
        · exact .inl ⟨m.value, by rw [lastByteRange, hm]; rfl, by omega⟩

namespace Sample

def signedFile : Buffer := latin1 "%PDF-1.7\n/ByteRange [0 0 0 30]"

def forgedRange : Buffer := latin1 "\n/ByteRange [0 0 999999 999999]"

theorem lastByteRange_signedFile : lastByteRange signedFile = some ⟨0, 0, 0, 30⟩ := rfl

theorem lastByteRange_forged :
    lastByteRange (signedFile ++ forgedRange) = some ⟨0, 0, 999999, 999999⟩ := rfl

/-- The forged range keeps the bytes it came with from being reported. -/
theorem analyzePdf_forged :
    lastByteRange signedFile = some ⟨0, 0, 0, 30⟩ ∧ 0 + 30 = signedFile.length ∧
      5 < forgedRange.length ∧
      ¬(ReportsEdit (analyzePdf (fun _ => none) (signedFile ++ forgedRange)) ∨
        ∃ m, lastMatch (signedFile ++ forgedRange) = some m ∧ signedFile.length ≤ m.start ∧
          Resigns m.value (signedFile ++ forgedRange).length) := by
  refine ⟨lastByteRange_signedFile, by decide, by decide, ?_⟩
  intro h
  obtain hreported | ⟨m, hm, -, hresigns⟩ := h
  · obtain ⟨range, hrange, hshort⟩ := (reportsEdit_iff _ _).mp hreported
    rw [lastByteRange_forged] at hrange
    obtain rfl := Option.some.inj hrange
    exact absurd hshort (by decide)
  · have hvalue : some m.value = some ⟨0, 0, 999999, 999999⟩ := by
      rw [← lastByteRange_forged, lastByteRange, hm]
      rfl
    have hinside := hresigns.inside.2
    rw [Option.some.inj hvalue] at hinside
    exact absurd hinside (by decide)

theorem analyzePdf_appended_text :
    (ReportsEdit (analyzePdf (fun _ => none) (signedFile ++ latin1 "and more")) ∨
      ∃ m, lastMatch (signedFile ++ latin1 "and more") = some m ∧ signedFile.length ≤ m.start ∧
        Resigns m.value (signedFile ++ latin1 "and more").length) ↔
    ∀ m, lastMatch (signedFile ++ latin1 "and more") = some m → signedFile.length < m.stop →
      (signedFile ++ latin1 "and more").length ≤ m.value.c + m.value.d + 5 →
      signedFile.length ≤ m.start ∧
        Resigns m.value (signedFile ++ latin1 "and more").length :=
  analyzePdf_appended_iff _ lastByteRange_signedFile (by decide) (by decide)

end Sample

end OcrService
