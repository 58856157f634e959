import OcrService.Catalog
import OcrService.PdfTamper
import OcrService.Provenance
import OcrService.TokenLedger

/-! DOCUMENT_AUTHENTICITY (`functions/document-authenticity`) and its analysis of images
(`authenticity/image.ts`, `index.ts`). -/
namespace OcrService
open Interaction

namespace Image

def DEEP_TIER_NOTE : String :=
  "Pixel-level forensics (ELA, double-JPEG, PRNU/noise, copy-move) are not enabled in this tier."

structure Editor where
  name : String
  needles : List String
  deriving DecidableEq

def EDITORS : List Editor :=
  [⟨"Adobe Photoshop", ["Adobe Photoshop", "Photoshop 3.0"]⟩, ⟨"GIMP", ["GIMP"]⟩,
    ⟨"Adobe Illustrator", ["Adobe Illustrator"]⟩, ⟨"Pixelmator", ["Pixelmator"]⟩,
    ⟨"Canva", ["Canva"]⟩, ⟨"Figma", ["Figma"]⟩, ⟨"Inkscape", ["Inkscape"]⟩,
    ⟨"Snapseed", ["Snapseed"]⟩, ⟨"Lightroom", ["Lightroom"]⟩]

def SCAN_BYTES : Nat := 256 * 1024

def EXIF_MARKER : String := "Exif\x00\x00"

def mentions (head : Buffer) (text : String) : Bool := decide (latin1 text <:+: head)

def isJpeg (buffer : Buffer) : Bool :=
  3 < buffer.length && buffer[0]? = some 0xFF && buffer[1]? = some 0xD8 && buffer[2]? = some 0xFF

def isPng (buffer : Buffer) : Bool :=
  8 < buffer.length && buffer[0]? = some 0x89 && buffer[1]? = some 0x50 && buffer[2]? = some 0x4E &&
    buffer[3]? = some 0x47

def editorOf (head : Buffer) : Option Editor :=
  EDITORS.find? fun e => e.needles.any (mentions head)

def editorSignals (head : Buffer) : List TamperSignal :=
  match editorOf head with
  | some editor =>
    [{ code := "IMAGE_EDITOR_SOFTWARE"
       severity := .medium
       detail := "Metadata names an image editor (" ++ editor.name ++
        "). The image was opened/saved in editing software." }]
  | none => []

def historySignals (head : Buffer) : List TamperSignal :=
  if mentions head "xmpMM:History" || mentions head "stEvt:action" then
    [{ code := "IMAGE_XMP_EDIT_HISTORY"
       severity := .low
       detail := "XMP metadata records an edit history (xmpMM:History)." }]
  else []

def exifSignals (buffer head : Buffer) : List TamperSignal :=
  if isJpeg buffer && !mentions head EXIF_MARKER && (editorOf head).isNone then
    [{ code := "IMAGE_NO_METADATA"
       severity := .low
       detail := "JPEG has no EXIF metadata. Provenance can't be corroborated — metadata may " ++
        "have been stripped by an editor or export." }]
  else []

end Image

open Image in
def analyzeImage (buffer : Buffer) : TamperSignals :=
  let head := buffer.take SCAN_BYTES
  aggregate .image (editorSignals head ++ historySignals head ++ exifSignals buffer head)
    (Image.DEEP_TIER_NOTE ::
      if !isJpeg buffer && !isPng buffer then
        ["Unrecognized image container; only substring scanning was applied."]
      else [])

def analyzeTamper (load : Buffer → Option PdfMetadata) (buffer : Buffer) :
    MimeGroup → TamperSignals
  | .pdf => analyzePdf load buffer
  | .image => analyzeImage buffer
  | group =>
    aggregate .unsupported []
      ["Tamper analysis is not supported for '" ++ group.name ++ "' inputs."]

def TamperSeverity.name : TamperSeverity → String
  | .info => "info"
  | .low => "low"
  | .medium => "medium"
  | .high => "high"

def TamperVerdict.name : TamperVerdict → String
  | .clean => "clean"
  | .suspicious => "suspicious"
  | .likelyDoctored => "likely-doctored"
  | .inconclusive => "inconclusive"

def TamperAnalyzer.name : TamperAnalyzer → String
  | .pdf => "pdf"
  | .image => "image"
  | .unsupported => "unsupported"

def TamperSignal.toJs (s : TamperSignal) : JsValue :=
  .obj [("code", .str s.code), ("severity", .str s.severity.name), ("detail", .str s.detail)]

def TamperSignals.toJs (t : TamperSignals) : JsValue :=
  .obj [("verdict", .str t.verdict.name), ("score", .num (.finite t.score)),
    ("signals", .arr (t.signals.map TamperSignal.toJs)), ("assuranceLevel", .str "heuristic-only"),
    ("analyzer", .str t.analyzer.name), ("notes", .arr (t.notes.map .str))]

/-- Any object will do; its members are dropped. -/
def documentAuthenticityArgsSchema : JsValue → Option Unit
  | .obj _ => some ()
  | _ => none

def signalSchema : ZodType :=
  zodObject [("code", zodString), ("severity", zodEnum ["info", "low", "medium", "high"]),
    ("detail", zodString)]

def documentAuthenticityResultSchema : ZodType :=
  zodShaped
    [{ key := "verdict"
       schema := zodEnum ["clean", "suspicious", "likely-doctored", "inconclusive"] },
      { key := "score", schema := zodNumberWithin 0 1 },
      { key := "signals", schema := zodArray signalSchema },
      { key := "assuranceLevel", schema := zodEnum ["heuristic-only"] },
      { key := "analyzer", schema := zodEnum ["pdf", "image", "unsupported"] },
      { key := "notes", schema := zodArray zodString, optional := true }]

def documentAuthenticityDefinition (load : Buffer → Option PdfMetadata)
    (issuesOf : JsValue → JsValue) : OcrFunctionDefinition Unit JsValue where
  key := .DOCUMENT_AUTHENTICITY
  accepts := [.pdf, .image]
  requires := []
  sensitivity := .standard
  maxPages := 1000
  skipExtraction := true
  argsSchema := forArgs (safeParse issuesOf documentAuthenticityArgsSchema)
  resultSchema := .static (safeParse issuesOf documentAuthenticityResultSchema)
  execute ctx _ := .ok (analyzeTamper load ctx.file.buffer ctx.file.mimeGroup).toJs

def NamesEditor (buffer : Buffer) : Prop :=
  ∃ editor ∈ Image.EDITORS, ∃ needle ∈ editor.needles,
    latin1 needle <:+: buffer.take Image.SCAN_BYTES

def EditedAfterSigning (buffer : Buffer) : Prop :=
  ∃ range, lastByteRange buffer = some range ∧ range.c + range.d + 5 < buffer.length

namespace Image

theorem editorOf_isSome (buffer : Buffer) :
    (editorOf (buffer.take SCAN_BYTES)).isSome = true ↔ NamesEditor buffer := by
  simp [editorOf, NamesEditor, mentions, List.find?_isSome]

theorem editorSignals_medium {head : Buffer} :
    HasSeverity .medium (editorSignals head) ↔ (editorOf head).isSome = true := by
  unfold editorSignals
  cases editorOf head <;> simp [HasSeverity]

theorem editorSignals_severity {head : Buffer} {s : TamperSignal} (hs : s ∈ editorSignals head) :
    s.severity = .medium := by
  unfold editorSignals at hs
  split at hs
  · rw [List.mem_singleton.mp hs]
  · cases hs

theorem historySignals_severity {head : Buffer} {s : TamperSignal} (hs : s ∈ historySignals head) :
    s.severity = .low := (severity_of_mem_ite hs :)

theorem exifSignals_severity {buffer head : Buffer} {s : TamperSignal}
    (hs : s ∈ exifSignals buffer head) : s.severity = .low := (severity_of_mem_ite hs :)

end Image

theorem lows_append (before after : List TamperSignal) :
    lows (before ++ after) = lows before + lows after := List.countP_append

theorem lows_eq_zero {signals : List TamperSignal} (h : ∀ s ∈ signals, s.severity ≠ .low) :
    lows signals = 0 := List.countP_eq_zero.mpr fun s hs => by simpa using h s hs

theorem lows_ite (c : Prop) [Decidable c] (s : TamperSignal) :
    lows (if c then [s] else []) ≤ 1 := by
  split
  · exact List.countP_le_length
  · exact Nat.zero_le _

theorem verdictFor_few {signals : List TamperSignal} (hlows : lows signals ≤ 2) :
    (verdictFor signals (scoreSignals signals) = .likelyDoctored ↔ HasSeverity .high signals) ∧
      (verdictFor signals (scoreSignals signals) = .suspicious ↔
        ¬HasSeverity .high signals ∧ HasSeverity .medium signals) ∧
      verdictFor signals (scoreSignals signals) ≠ .inconclusive := by
  have hfew : ¬3 ≤ lows signals := by omega
  obtain ⟨hverdict, hhigh⟩ | ⟨hverdict, hhigh, hsoft⟩ | ⟨hverdict, hhigh, hsoft⟩ :=
    verdictFor_cases signals
  · simp [hverdict, hhigh]
  · have hmedium := hsoft.resolve_right hfew
    simp [hverdict, hhigh, hmedium]
  · have hmedium : ¬HasSeverity .medium signals := fun h => hsoft (.inl h)
    simp [hverdict, hhigh, hmedium]

theorem hasSeverity_append {severity : TamperSeverity} {before after : List TamperSignal} :
    HasSeverity severity (before ++ after) ↔
      HasSeverity severity before ∨ HasSeverity severity after := by
  simp [HasSeverity, or_and_right, exists_or]

theorem not_hasSeverity {severity : TamperSeverity} {signals : List TamperSignal}
    (h : ∀ s ∈ signals, s.severity ≠ severity) : ¬HasSeverity severity signals := by
  rintro ⟨s, hs, hseverity⟩
  exact h s hs hseverity

theorem analyzeImage_verdict (buffer : Buffer) :
    (analyzeImage buffer).verdict ≠ .likelyDoctored ∧
      ((analyzeImage buffer).verdict = .suspicious ↔ NamesEditor buffer) ∧
      (analyzeImage buffer).verdict ≠ .inconclusive := by
  rw [← Image.editorOf_isSome, ← Image.editorSignals_medium]
  let head := buffer.take Image.SCAN_BYTES
  let signals := Image.editorSignals head ++ Image.historySignals head ++
    Image.exifSignals buffer head
  have hverdict : (analyzeImage buffer).verdict = verdictFor signals (scoreSignals signals) := rfl
  have hlows : lows signals ≤ 2 := by
    have hhistory : lows (Image.historySignals head) ≤ 1 := lows_ite _ _
    have hexif : lows (Image.exifSignals buffer head) ≤ 1 := lows_ite _ _
    have heditor : lows (Image.editorSignals head) = 0 :=
      lows_eq_zero fun s hs => by rw [Image.editorSignals_severity hs]; decide
    rw [lows_append, lows_append]
    omega
  have hhigh : ¬HasSeverity .high signals := by
    refine not_hasSeverity fun s hs => ?_
    simp only [signals, List.mem_append] at hs
    obtain (hs | hs) | hs := hs
    · rw [Image.editorSignals_severity hs]
      decide
    · rw [Image.historySignals_severity hs]
      decide
    · rw [Image.exifSignals_severity hs]
      decide
  have hmedium : HasSeverity .medium signals ↔ HasSeverity .medium (Image.editorSignals head) := by
    have hhistory : ¬HasSeverity .medium (Image.historySignals head) :=
      not_hasSeverity fun s hs => by rw [Image.historySignals_severity hs]; decide
    have hexif : ¬HasSeverity .medium (Image.exifSignals buffer head) :=
      not_hasSeverity fun s hs => by rw [Image.exifSignals_severity hs]; decide
    rw [hasSeverity_append, hasSeverity_append, or_iff_left hexif, or_iff_left hhistory]
  obtain ⟨hdoctored, hsuspicious, hinconclusive⟩ := verdictFor_few hlows
  rw [hverdict, hsuspicious, and_iff_right hhigh, hmedium, ne_eq, hdoctored]
  exact ⟨hhigh, Iff.rfl, hinconclusive⟩

theorem signatureSignals_severity {raw : Buffer} {s : TamperSignal}
    (hs : s ∈ signatureSignals raw) :
    s.severity = .info ∨ s.severity = .high ∧ s.code = "PDF_POST_SIGNATURE_EDIT" := by
  unfold signatureSignals at hs
  split at hs
  · cases hs
  · obtain rfl | hs := List.mem_cons.mp hs
    · exact .inl rfl
    · split at hs
      · rw [List.mem_singleton.mp hs]
        exact .inr ⟨rfl, rfl⟩
      · cases hs

theorem lows_metadataSignals (metadata : Option PdfMetadata) :
    lows (metadataSignals metadata) ≤ 1 := by
  unfold metadataSignals
  split
  · rename_i metadata
    have hproducer : lows (producerSignals metadata) ≤ 1 := lows_ite _ _
    have hdates : lows (dateSignals metadata) = 0 :=
      lows_eq_zero fun s hs => by simp [dateSignals_info metadata s hs]
    rw [lows_append]
    omega
  · exact Nat.zero_le _

theorem analyzePdf_verdict (load : Buffer → Option PdfMetadata) (buffer : Buffer) :
    ((analyzePdf load buffer).verdict = .likelyDoctored ↔ EditedAfterSigning buffer) ∧
      (analyzePdf load buffer).verdict ≠ .suspicious ∧
      (analyzePdf load buffer).verdict ≠ .inconclusive := by
  let signals := formSignals buffer ++ revisionSignals buffer ++ signatureSignals buffer ++
    metadataSignals (load buffer)
  have hverdict : (analyzePdf load buffer).verdict = verdictFor signals (scoreSignals signals) :=
    rfl
  have hinfo : ∀ s ∈ formSignals buffer ++ revisionSignals buffer, s.severity = .info := fun s hs =>
    (List.mem_append.mp hs).elim (formSignals_info buffer s) (revisionSignals_info buffer s)
  have hlow : ∀ s ∈ metadataSignals (load buffer), s.severity = .low ∨ s.severity = .info := by
    intro s hs
    unfold metadataSignals at hs
    split at hs
    · exact (List.mem_append.mp hs).imp (producerSignals_low _ s) (dateSignals_info _ s)
    · cases hs
  have hlows : lows signals ≤ 2 := by
    have hzero : lows (formSignals buffer ++ revisionSignals buffer) = 0 :=
      lows_eq_zero fun s hs => by simp [hinfo s hs]
    have hsignature : lows (signatureSignals buffer) = 0 := lows_eq_zero fun s hs => by
      obtain h | ⟨h, -⟩ := signatureSignals_severity hs <;> simp [h]
    have hmetadata := lows_metadataSignals (load buffer)
    rw [lows_append, lows_append, hzero, hsignature]
    omega
  have hmedium : ¬HasSeverity .medium signals := by
    refine not_hasSeverity fun s hs => ?_
    obtain hs | hs := List.mem_append.mp hs
    · obtain hs | hs := List.mem_append.mp hs
      · simp [hinfo s hs]
      · obtain h | ⟨h, -⟩ := signatureSignals_severity hs <;> simp [h]
    · obtain h | h := hlow s hs <;> simp [h]
  have hhigh : HasSeverity .high signals ↔ EditedAfterSigning buffer := by
    constructor
    · rintro ⟨s, hs, hsevere⟩
      obtain hs | hs := List.mem_append.mp hs
      · obtain hs | hs := List.mem_append.mp hs
        · simp [hinfo s hs] at hsevere
        · obtain h | ⟨-, hcode⟩ := signatureSignals_severity hs
          · simp [h] at hsevere
          · exact signatureSignals_edit.mp ⟨s, hs, hcode⟩
      · exact absurd hsevere (metadataSignals_soft _ s hs)
    · intro h
      obtain ⟨⟨s, hs, -, hsevere⟩, -⟩ := (reportsEdit_iff load buffer).mpr h
      exact ⟨s, hs, hsevere⟩
  obtain ⟨hdoctored, hsuspicious, hinconclusive⟩ := verdictFor_few hlows
  rw [hverdict, hdoctored, ne_eq, hsuspicious]
  exact ⟨hhigh, fun h => hmedium h.2, hinconclusive⟩

theorem analyzeTamper_score (load : Buffer → Option PdfMetadata) (buffer : Buffer)
    (group : MimeGroup) :
    0 ≤ (analyzeTamper load buffer group).score ∧ (analyzeTamper load buffer group).score ≤ 1 := by
  cases group <;> exact scoreSignals_bounds _

theorem signalSchema_toJs (s : TamperSignal) : signalSchema s.toJs = some s.toJs := by
  obtain ⟨code, severity, detail⟩ := s
  have hseverity : zodEnum ["info", "low", "medium", "high"] (.str severity.name) =
      some (.str severity.name) := by cases severity <;> rfl
  simp [signalSchema, zodObject, zodMembers, TamperSignal.toJs, hseverity, zodString,
    lookup_cons_ite]

theorem documentAuthenticityResultSchema_toJs {t : TamperSignals} (h : 0 ≤ t.score ∧ t.score ≤ 1) :
    documentAuthenticityResultSchema t.toJs = some t.toJs := by
  obtain ⟨verdict, score, signals, analyzer, notes⟩ := t
  have hverdict : zodEnum ["clean", "suspicious", "likely-doctored", "inconclusive"]
      (.str verdict.name) = some (.str verdict.name) := by cases verdict <;> rfl
  have hanalyzer : zodEnum ["pdf", "image", "unsupported"] (.str analyzer.name) =
      some (.str analyzer.name) := by cases analyzer <;> rfl
  have hassurance : zodEnum ["heuristic-only"] (.str "heuristic-only") =
      some (.str "heuristic-only") := rfl
  have hscore : zodNumberWithin 0 1 (.num (.finite score)) = some (.num (.finite score)) := if_pos h
  have hsignals : zodArray signalSchema (.arr (signals.map TamperSignal.toJs)) =
      some (.arr (signals.map TamperSignal.toJs)) := by
    refine congrArg (Option.map JsValue.arr) (mapM_some_self fun v hv => ?_)
    obtain ⟨s, -, rfl⟩ := List.mem_map.mp hv
    exact signalSchema_toJs s
  have hnotes : zodArray zodString (.arr (notes.map .str)) = some (.arr (notes.map .str)) := by
    refine congrArg (Option.map JsValue.arr) (mapM_some_self fun v hv => ?_)
    obtain ⟨note, -, rfl⟩ := List.mem_map.mp hv
    rfl
  simp [documentAuthenticityResultSchema, zodShaped, zodShape, TamperSignals.toJs, hverdict,
    hanalyzer, hassurance, hscore, hsignals, hnotes, lookup_cons_ite]

theorem conclude_authenticity (load : Buffer → Option PdfMetadata) (issuesOf : JsValue → JsValue)
    (req : OcrRequest) (deps : PipelineDeps) (input : DocumentInput) :
    conclude (documentAuthenticityDefinition load issuesOf) req deps () input emptyDocument =
      .ok (analyzeTamper load input.buffer input.mimeGroup).toJs := by
  rw [conclude_eq_ok]
  refine ⟨Nat.zero_le _, _, rfl, safeParse_ok.mpr ?_⟩
  exact documentAuthenticityResultSchema_toJs (analyzeTamper_score load _ _)

section Skipping
variable {d : AnyOcrFunctionDefinition} {req : OcrRequest} {deps : PipelineDeps}

def decided (d : AnyOcrFunctionDefinition) (req : OcrRequest) (deps : PipelineDeps) :
    Locals × Except Thrown (JsValue × RecognizedDocument) :=
  match checkRequest d req deps with
  | (l, .error err) => (l, .error err)
  | (l, .ok (args, input)) =>
    afterExtraction d req deps l args input (.ok { doc := emptyDocument, cached := false })

theorem stages_skipped (hskip : d.skipExtraction = true) :
    stages d req deps = .ret (decided d req deps) := by
  rw [stages, decided]
  cases checkRequest d req deps with
  | mk l r =>
    cases r with
    | error err => rfl
    | ok ai =>
      simp only [extraction_skipped hskip]
      rfl

def Closes (tenantId : String) (o : ServiceOp) : Prop :=
  (∃ sample, o = .metric sample) ∨ ∃ errors tokens, o = .upsertUsage tenantId errors tokens

theorem skipping_traces (hskip : d.skipExtraction = true) (t : Timings) :
    (runPipeline d req deps t).Traces SinksAccept (fun log => ∀ o ∈ log, Closes req.tenantId o)
      fun log out => (∀ o ∈ log, Closes req.tenantId o) ∧ out = outcome t (decided d req deps) := by
  rw [runPipeline, stages_skipped hskip]
  refine (finish_traces d req t _).mono (fun log hlog o ho => ?_) fun log out h =>
    ⟨fun o ho => ?_, h.2⟩
  · obtain ⟨sample, -, rfl⟩ := List.mem_map.mp (hlog.subset ho)
    exact .inl ⟨sample, rfl⟩
  · rw [h.1, closing] at ho
    obtain ho | ho := List.mem_append.mp ho
    · obtain ⟨sample, -, rfl⟩ := List.mem_map.mp ho
      exact .inl ⟨sample, rfl⟩
    · obtain rfl := List.mem_singleton.mp ho
      exact .inr ⟨_, _, by rw [closingUpsert_tenantId]⟩

theorem skipping_logs {w : World} {moves : List (Move Call Surroundings WorldEvent)}
    {calls : Conf Call ServiceOp ServiceOp.Answer (Except Thrown (OcrOutcome JsValue)) World}
    (hrun : (concurrently deps).run ⟨w, []⟩ moves = some calls)
    {th : Thread Call ServiceOp ServiceOp.Answer (Except Thrown (OcrOutcome JsValue))}
    (hth : th ∈ calls.threads) (hskip : th.req.d.skipExtraction = true) :
    (∀ o ∈ th.log, Closes th.req.req.tenantId o) ∧
      ∀ out, th.prog = .ret out →
        out = outcome th.req.timings (decided th.req.d th.req.req deps) := by
  have hlogs := Machine.run_logs (m := concurrently deps) (fun env o w => handle_accepts env o w)
    (P := fun c log => c.d.skipExtraction = true → ∀ o ∈ log, Closes c.req.tenantId o)
    (Q := fun c log out => c.d.skipExtraction = true → (∀ o ∈ log, Closes c.req.tenantId o) ∧
      out = outcome c.timings (decided c.d c.req deps)) (fun c => ?_) hrun th hth
  · obtain ⟨c, prog, log⟩ := th
    cases prog with
    | ret out =>
      have hend := hlogs hskip
      rw [List.append_nil] at hend
      refine ⟨hend.1, ?_⟩
      rintro _ ⟨⟩
      exact hend.2
    | ask o k =>
      have hpart := hlogs.1 hskip
      rw [List.append_nil] at hpart
      exact ⟨hpart, fun out h => by cases h⟩
  · cases hc : c.d.skipExtraction with
    | true => exact (skipping_traces hc c.timings).mono (fun _ h _ => h) fun _ _ h _ => h
    | false =>
      exact (Prog.Uses.trivial _).traces.mono (fun _ _ h => nomatch h) fun _ _ _ h => nomatch h

theorem checkRequest_accepted {args : JsValue} {input : DocumentInput}
    (h : (checkRequest d req deps).2 = .ok (args, input)) :
    d.accepts.contains input.mimeGroup = true ∧
      ∃ sniffed, sniff deps.pkg req.file.buffer = some sniffed ∧
        input.buffer = req.file.buffer ∧ input.mimeGroup = sniffed.mimeGroup := by
  rw [checkRequest] at h
  cases hargs : parseArgs d req.args with
  | error err => simp [hargs] at h
  | ok args' =>
    cases hsniff : sniff deps.pkg req.file.buffer with
    | none => simp [hargs, ingest, hsniff] at h
    | some sniffed =>
      simp only [hargs, ingest, hsniff] at h
      split at h
      · rename_i haccepts
        cases h
        exact ⟨haccepts, sniffed, rfl, rfl, rfl⟩
      · cases h

end Skipping

/-- What the bytes of a PDF or an image are judged to be. -/
structure TamperSignals.Judges (t : TamperSignals) (group : MimeGroup) (buffer : Buffer) :
    Prop where
  doctored : t.verdict = .likelyDoctored ↔ group = .pdf ∧ EditedAfterSigning buffer
  suspicious : t.verdict = .suspicious ↔ group = .image ∧ NamesEditor buffer
  conclusive : t.verdict ≠ .inconclusive

theorem analyzeTamper_judges (load : Buffer → Option PdfMetadata) (buffer : Buffer)
    {group : MimeGroup} (hgroup : group = .pdf ∨ group = .image) :
    (analyzeTamper load buffer group).Judges group buffer := by
  obtain rfl | rfl := hgroup
  · obtain ⟨hdoctored, hsuspicious, hinconclusive⟩ := analyzePdf_verdict load buffer
    exact ⟨by simpa [analyzeTamper] using hdoctored, by simpa [analyzeTamper] using hsuspicious,
      hinconclusive⟩
  · obtain ⟨hdoctored, hsuspicious, hinconclusive⟩ := analyzeImage_verdict buffer
    exact ⟨by simpa [analyzeTamper] using hdoctored, by simpa [analyzeTamper] using hsuspicious,
      hinconclusive⟩

/-- In any run an analysis touches neither cache nor providers. It is refused by the checks, or
answered with the judgment of its own bytes: doctored, for a PDF edited after signing; suspicious,
for an image that names an editor among the bytes scanned; otherwise clean. -/
theorem authenticity_answered (load : Buffer → Option PdfMetadata) (issuesOf : JsValue → JsValue)
    (deps : PipelineDeps) {w : World} {moves : List (Move Call Surroundings WorldEvent)}
    {calls : Conf Call ServiceOp ServiceOp.Answer (Except Thrown (OcrOutcome JsValue)) World}
    (hrun : (concurrently deps).run ⟨w, []⟩ moves = some calls)
    {th : Thread Call ServiceOp ServiceOp.Answer (Except Thrown (OcrOutcome JsValue))}
    (hth : th ∈ calls.threads)
    (hd : th.req.d = (documentAuthenticityDefinition load issuesOf).untyped) :
    let b := th.req.req.file.buffer
    (∀ o ∈ th.log, Closes th.req.req.tenantId o) ∧
      ∀ out, th.prog = .ret out →
        (∃ err, (checkRequest th.req.d th.req.req deps).2 = .error err ∧ out = .error err) ∨
        ∃ sniffed, sniff deps.pkg b = some sniffed ∧
          (analyzeTamper load b sniffed.mimeGroup).Judges sniffed.mimeGroup b ∧
          out = .ok ⟨(analyzeTamper load b sniffed.mimeGroup).toJs,
            responseMeta emptyDocument false th.req.timings⟩ := by
  intro b
  have hskip : th.req.d.skipExtraction = true := by
    rw [hd]
    rfl
  have htraces := skipping_logs hrun hth hskip
  refine ⟨htraces.1, fun out hout => ?_⟩
  rw [htraces.2 out hout, decided]
  cases hcheck : checkRequest th.req.d th.req.req deps with
  | mk l r =>
    cases r with
    | error err => exact .inl ⟨err, rfl, rfl⟩
    | ok ai =>
      obtain ⟨raw, input⟩ := ai
      have hpassed : (checkRequest th.req.d th.req.req deps).2 = .ok (raw, input) :=
        congrArg Prod.snd hcheck
      obtain ⟨haccepts, sniffed, hsniff, hbuffer, hgroup⟩ := checkRequest_accepted hpassed
      rw [hd] at hpassed haccepts
      obtain ⟨⟨⟩, hargs, rfl⟩ := checkRequest_untyped_ok hpassed
      refine .inr ⟨sniffed, hsniff, analyzeTamper_judges load b ?_, ?_⟩
      · rw [← hgroup]
        have hlist : [MimeGroup.pdf, .image].contains input.mimeGroup = true := haccepts
        simpa using hlist
      · simp only [afterExtraction, hd, conclude_untyped hargs]
        rw [conclude_authenticity, hbuffer, hgroup]
        rfl

namespace Sample

def retouched : Buffer := 0x89 :: latin1 "PNG GIMP"

def unreadable : Buffer → Option PdfMetadata := fun _ => none

def assessing (buffer : Buffer) : Call :=
  ⟨(documentAuthenticityDefinition unreadable id).untyped, upload buffer "tenant", timings⟩

def assessRetouched : List (Move Call Surroundings WorldEvent) :=
  let down := surroundings ["glm-ocr", "tesseract"]
  [.spawn (assessing retouched),
    .spawn ⟨textExtraction body, upload retouched "tenant", timings⟩, .step 1 down, .step 0 down,
    .step 1 down] ++ List.replicate 4 (.step 0 down)

theorem retouched_namesEditor : NamesEditor retouched := by
  refine ⟨⟨"GIMP", ["GIMP"]⟩, by decide, "GIMP", by decide, 0x89 :: latin1 "PNG ", [], ?_⟩
  rw [List.take_of_length_le (by decide)]
  decide

end Sample

theorem authenticity_answered_retouched :
    ∃ calls, (concurrently Sample.deps).run ⟨{}, []⟩ Sample.assessRetouched = some calls ∧
      calls.threads.map (fun th => th.prog.result?.isSome) = [true, false] ∧
      ∀ th ∈ calls.threads, th.req = Sample.assessing Sample.retouched →
        ∀ out, th.prog = .ret out → ∃ t : TamperSignals, t.verdict = .suspicious ∧
          ∃ info, out = .ok ⟨t.toJs, info⟩ := by
  have hends : ((concurrently Sample.deps).run ⟨{}, []⟩ Sample.assessRetouched).map (fun calls =>
      calls.threads.map fun th => th.prog.result?.isSome) = some [true, false] := by decide +kernel
  obtain ⟨calls, hrun, hended⟩ := Option.map_eq_some_iff.mp hends
  refine ⟨calls, hrun, hended, fun th hth hreq out hout => ?_⟩
  obtain ⟨-, hanswered⟩ := authenticity_answered Sample.unreadable id Sample.deps hrun hth
    (hreq ▸ rfl)
  have hsniff : sniff Sample.packages Sample.retouched = some ⟨"image/png", .image, "png"⟩ := rfl
  rw [hreq] at hanswered
  obtain ⟨err, herr, -⟩ | ⟨sniffed, hsniffed, hjudges, hout'⟩ := hanswered out hout
  · cases herr
  · cases hsniff.symm.trans hsniffed
    exact ⟨_, hjudges.suspicious.mpr ⟨rfl, Sample.retouched_namesEditor⟩, _, hout'⟩

end OcrService
