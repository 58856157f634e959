import OcrService.Llm
import OcrService.Prompts

/-! DOCUMENT_CLASSIFICATION (`functions/document-classification`). -/
namespace OcrService

structure DocumentClassificationArgs where
  candidateLabels : Option (List String) := none
  allowUnknown : Bool := true
  minConfidence : ℚ := 1 / 2
  /-- Classify from page 1 only unless the caller opts in. -/
  fullDocument : Bool := false

def asBool : JsValue → Option Bool
  | .bool b => some b
  | _ => none

def asUnit : JsValue → Option ℚ
  | .num (.finite q) => if 0 ≤ q ∧ q ≤ 1 then some q else none
  | _ => none

def documentClassificationArgsSchema : JsValue → Option DocumentClassificationArgs
  | .obj fields => do
    let candidateLabels ← optionalEntry fields "candidateLabels" fun
      | .arr xs => xs.mapM asString
      | _ => none
    let allowUnknown ← optionalEntry fields "allowUnknown" asBool
    let minConfidence ← optionalEntry fields "minConfidence" asUnit
    let fullDocument ← optionalEntry fields "fullDocument" asBool
    return { candidateLabels, allowUnknown := allowUnknown.getD true,
             minConfidence := minConfidence.getD (1 / 2), fullDocument := fullDocument.getD false }
  | _ => none

def alternativeSchema : ZodType :=
  zodObject [("label", zodString), ("confidence", zodNumberWithin 0 1)]

def documentClassificationResultSchema : ZodType :=
  zodObject
    [("label", zodString), ("confidence", zodNumberWithin 0 1),
      ("alternatives", zodArray alternativeSchema), ("rationale", zodString)]

def DocumentClassificationArgs.candidates (args : DocumentClassificationArgs) : List String :=
  args.candidateLabels.getD []

def buildDocumentClassificationPrompt (markdown : String) (args : DocumentClassificationArgs) :
    Prompt where
  system := buildSystem
    ["You are a document classification assistant.",
      "Identify the document type, your confidence (0–1), plausible alternatives, and a brief " ++
        "rationale.",
      if args.candidates ≠ [] then
        "Choose the single best label from: " ++ ", ".intercalate args.candidates ++ "." ++
          if args.allowUnknown then " If none fit, use \x22unknown\x22."
          else " You must choose one of the provided labels."
      else "Propose the most specific document type label that fits."]
  user := "Classify this document:\n\n" ++ wrapUntrusted "DOCUMENT" markdown

def firstPageMarkdown (doc : RecognizedDocument) : String :=
  let page1 := (doc.pages.find? fun p => p.page = 1).or doc.pages.head?
  (truthy (page1.map fun p => jsTrim p.markdown)).getD doc.markdown

def below (confidence : JsValue) (minConfidence : ℚ) : Bool :=
  match confidence with
  | .num (.finite q) => q < minConfidence
  | .num .negInf => true
  | _ => false

def isUnknown : JsValue → Bool
  | .str label => label = "unknown"
  | _ => false

def executeDocumentClassification (issuesOf : JsValue → JsValue) (ctx : OcrContext)
    (args : DocumentClassificationArgs) : Except Thrown JsValue := do
  let markdown := if args.fullDocument then ctx.doc.markdown else firstPageMarkdown ctx.doc
  let prompt := buildDocumentClassificationPrompt markdown args
  let completion ← ctx.llm
    { system := prompt.system
      user := prompt.user
      schema := safeParse issuesOf documentClassificationResultSchema
      schemaName := some "DOCUMENT_CLASSIFICATION_result" }
  let data := completion.data
  if below (data.get "confidence") args.minConfidence && args.allowUnknown &&
      !isUnknown (data.get "label") then
    return data.set "label" (.str "unknown")
  else return data

def classificationDefinition (issuesOf : JsValue → JsValue) :
    OcrFunctionDefinition DocumentClassificationArgs JsValue where
  key := .DOCUMENT_CLASSIFICATION
  accepts := [.pdf, .image, .docx]
  requires := [.text]
  sensitivity := .standard
  maxPages := 100
  argsSchema := forArgs (safeParse issuesOf documentClassificationArgsSchema)
  resultSchema := .static (safeParse issuesOf documentClassificationResultSchema)
  execute := executeDocumentClassification issuesOf

def LabelTrusted (args : DocumentClassificationArgs) (result : JsValue) : Prop :=
  ∃ label, result.get "label" = .str label ∧
    (label ∈ args.candidates ∨ label = "unknown" ∧ args.allowUnknown = true)

def ConfidenceTrusted (args : DocumentClassificationArgs) (result : JsValue) : Prop :=
  args.allowUnknown = true → result.get "label" ≠ .str "unknown" →
    ∃ confidence, result.get "confidence" = .num (.finite confidence) ∧
      args.minConfidence ≤ confidence

/-- The answer is one that `execute` replaces by that of an unknown document. -/
def Doubtful (args : DocumentClassificationArgs) (answer : JsValue) : Prop :=
  args.allowUnknown = true ∧ below (answer.get "confidence") args.minConfidence = true

theorem resultSchema_get {v out : JsValue} (h : documentClassificationResultSchema v = some out) :
    ∃ label confidence, v.get "label" = .str label ∧ out.get "label" = .str label ∧
      v.get "confidence" = .num (.finite confidence) ∧
      out.get "confidence" = .num (.finite confidence) := by
  cases v with
  | obj fields =>
    simp only [documentClassificationResultSchema, zodObject, zodMembers, bind, pure,
      Option.map_eq_some_iff, Option.bind_eq_some_iff, Option.some.injEq] at h
    obtain ⟨out, ⟨l, ⟨_, hlabel, hl⟩, rest, ⟨c, ⟨_, hconfidence, hc⟩, others, -, rfl⟩, rfl⟩,
      rfl⟩ := h
    obtain ⟨label, rfl, rfl⟩ := zodString_eq_some.mp hl
    obtain ⟨confidence, rfl, -, rfl⟩ := zodNumberWithin_eq_some.mp hc
    exact ⟨label, confidence, by rw [JsValue.get, hlabel]; rfl, rfl,
      by rw [JsValue.get, hconfidence]; rfl, rfl⟩
  | _ => cases h

def settledAnswer (args : DocumentClassificationArgs) (data : JsValue) : JsValue :=
  if below (data.get "confidence") args.minConfidence && args.allowUnknown &&
      !isUnknown (data.get "label") then
    data.set "label" (.str "unknown")
  else data

theorem execute_answer {issuesOf : JsValue → JsValue} {errorText : JsValue → String}
    {ctx : OcrContext} {v data : JsValue} {tokens : Option Nat}
    (hllm : ctx.llm = azureComplete errorText fun _ => .json v tokens)
    (hv : documentClassificationResultSchema v = some data) (args : DocumentClassificationArgs) :
    executeDocumentClassification issuesOf ctx args = .ok (settledAnswer args data) := by
  have hparsed : safeParse issuesOf documentClassificationResultSchema v = .ok data :=
    safeParse_ok.mpr hv
  simp only [executeDocumentClassification, hllm, azureComplete, hparsed, bind, Except.bind]
  rw [settledAnswer]
  split <;> rfl

theorem labelTrusted_iff {args : DocumentClassificationArgs} {result : JsValue} {label : String}
    (h : result.get "label" = .str label) :
    LabelTrusted args result ↔
      label ∈ args.candidates ∨ label = "unknown" ∧ args.allowUnknown = true := by
  constructor
  · intro htrusted
    obtain ⟨label', hlabel', hcases⟩ := htrusted
    rw [h] at hlabel'
    cases hlabel'
    exact hcases
  · intro hcases
    exact ⟨label, h, hcases⟩

theorem below_num {confidence minConfidence : ℚ} :
    below (.num (.finite confidence)) minConfidence = true ↔ confidence < minConfidence := by
  simp [below]

theorem isUnknown_str {label : String} : isUnknown (.str label) = true ↔ label = "unknown" := by
  simp [isUnknown]

theorem settledAnswer_get {args : DocumentClassificationArgs} {v data : JsValue} {label : String}
    {confidence : ℚ} (hv : documentClassificationResultSchema v = some data)
    (hlabel : data.get "label" = .str label)
    (hconfidence : data.get "confidence" = .num (.finite confidence)) :
    (settledAnswer args data).get "confidence" = .num (.finite confidence) ∧
      (settledAnswer args data).get "label" =
        .str (if confidence < args.minConfidence ∧ args.allowUnknown = true then "unknown"
          else label) := by
  have hobj : ∃ fields, data = .obj fields := by
    cases v with
    | obj fields =>
      obtain ⟨out, -, rfl⟩ := Option.map_eq_some_iff.mp hv
      exact ⟨out, rfl⟩
    | _ => cases hv
  obtain ⟨fields, rfl⟩ := hobj
  have hcond : (below ((JsValue.obj fields).get "confidence") args.minConfidence &&
      args.allowUnknown && !isUnknown ((JsValue.obj fields).get "label")) = true ↔
      (confidence < args.minConfidence ∧ args.allowUnknown = true) ∧ label ≠ "unknown" := by
    rw [hlabel, hconfidence, Bool.and_eq_true, Bool.and_eq_true, below_num, Bool.not_eq_true',
      ← Bool.not_eq_true, isUnknown_str]
  rw [settledAnswer]
  by_cases hdoubt : (confidence < args.minConfidence ∧ args.allowUnknown = true) ∧
      label ≠ "unknown"
  · rw [if_pos (hcond.mpr hdoubt), if_pos hdoubt.1, JsValue.get_set, JsValue.get_set,
      if_neg (by decide), if_pos rfl]
    exact ⟨hconfidence, rfl⟩
  · rw [if_neg (hcond.not.mpr hdoubt), hlabel, hconfidence]
    refine ⟨rfl, ?_⟩
    by_cases hdoubtful : confidence < args.minConfidence ∧ args.allowUnknown = true
    · have hunknown : label = "unknown" := by
        by_contra hne
        exact hdoubt ⟨hdoubtful, hne⟩
      rw [if_pos hdoubtful, hunknown]
    · rw [if_neg hdoubtful]

/-- The label of a result can be trusted exactly when the model gave one of the labels it was
told to choose from, or an answer that is replaced; the confidence can be trusted always. -/
theorem classification_trusted_iff {issuesOf : JsValue → JsValue} {errorText : JsValue → String}
    {req : OcrRequest} {deps : PipelineDeps} {t : Timings} {env : Surroundings} {w : World}
    {args : DocumentClassificationArgs} {v data : JsValue} {tokens : Option Nat}
    {o : OcrOutcome JsValue}
    (hargs : documentClassificationArgsSchema (orEmptyObject req.args) = some args)
    (hllm : deps.llm = azureComplete errorText fun _ => .json v tokens)
    (hv : documentClassificationResultSchema v = some data)
    (hrun : ((runPipeline (classificationDefinition issuesOf) req deps t).eval
      (World.handle env) w).1 = .ok o) :
    (LabelTrusted args o.result ↔ LabelTrusted args v ∨ Doubtful args v) ∧
      ConfidenceTrusted args o.result := by
  obtain ⟨args', input, doc, raw, hargs', hraw, hresult⟩ :=
    runPipeline_ok (handle_accepts env) hrun
  obtain rfl : args' = args := by
    have hsame := (safeParse_ok.mp (forArgs_ok.mp hargs')).symm.trans hargs
    exact Option.some.inj hsame
  have hexecuted : executeDocumentClassification issuesOf
      (buildContext (classificationDefinition issuesOf) req deps input doc) args' =
      .ok (settledAnswer args' data) := execute_answer hllm hv args'
  obtain rfl : raw = settledAnswer args' data := Except.ok.inj (hraw.symm.trans hexecuted)
  obtain ⟨label, confidence, hvlabel, hlabel, hvconfidence, hconfidence⟩ := resultSchema_get hv
  obtain ⟨hsettledConfidence, hsettledLabel⟩ := @settledAnswer_get args' _ _ _ _ hv
    hlabel hconfidence
  obtain ⟨label', confidence', hraw', hout', hrawc', houtc'⟩ :=
    resultSchema_get (safeParse_ok.mp hresult)
  rw [hraw'] at hsettledLabel
  rw [hrawc'] at hsettledConfidence
  cases hsettledConfidence
  cases hsettledLabel
  rw [labelTrusted_iff hout', labelTrusted_iff hvlabel, Doubtful, hvconfidence, below_num]
  by_cases hdoubtful : confidence < args'.minConfidence ∧ args'.allowUnknown = true
  · rw [if_pos hdoubtful] at hout' ⊢
    constructor
    · exact ⟨fun _ => Or.inr ⟨hdoubtful.2, hdoubtful.1⟩, fun _ => Or.inr ⟨rfl, hdoubtful.2⟩⟩
    · intro _ hknown
      exact absurd hout' hknown
  · rw [if_neg hdoubtful] at hout' ⊢
    constructor
    · constructor
      · exact Or.inl
      · intro h
        obtain h | ⟨hallowed, hbelow⟩ := h
        · exact h
        · exact absurd ⟨hbelow, hallowed⟩ hdoubtful
    · intro hallowed _
      have hle : args'.minConfidence ≤ confidence := by
        by_contra hbelow
        exact hdoubtful ⟨Rat.not_le.mp hbelow, hallowed⟩
      exact ⟨confidence, houtc', hle⟩

namespace Sample

def receiptsOrInvoices : OcrRequest :=
  { upload [0x25] "tenant" with
    args := .obj [("candidateLabels", .arr [.str "receipt", .str "invoice"]),
      ("minConfidence", .num (.finite 1))] }

def receiptOrInvoice : DocumentClassificationArgs :=
  { candidateLabels := some ["receipt", "invoice"], minConfidence := 1 }

def labelled (label : String) : JsValue :=
  .obj [("label", .str label), ("confidence", .num (.finite 1)), ("alternatives", .arr []),
    ("rationale", .str "")]

def classified (label : String) : Except Thrown (OcrOutcome JsValue) :=
  ((runPipeline (classificationDefinition id) receiptsOrInvoices (answering (labelled label))
    timings).eval (World.handle (surroundings [])) {}).1

end Sample

theorem classification_trusted_iff_invoice :
    ∃ o, Sample.classified "invoice" = .ok o ∧ LabelTrusted Sample.receiptOrInvoice o.result := by
  have hargs : documentClassificationArgsSchema (orEmptyObject Sample.receiptsOrInvoices.args) =
      some Sample.receiptOrInvoice := rfl
  have hllm : (answering (Sample.labelled "invoice")).llm =
      azureComplete (fun _ => "invalid") fun _ => .json (Sample.labelled "invoice") none := rfl
  obtain ⟨o, hrun⟩ : ∃ o, Sample.classified "invoice" = .ok o := ⟨_, rfl⟩
  have htrusted : LabelTrusted Sample.receiptOrInvoice (Sample.labelled "invoice") :=
    ⟨"invoice", rfl, Or.inl (by decide)⟩
  exact ⟨o, hrun, (classification_trusted_iff hargs hllm rfl hrun).1.mpr (Or.inl htrusted)⟩

/-- A label the caller never named is returned as the model gives it. -/
theorem other_label_returned :
    ∃ o, Sample.classified "passport" = .ok o ∧ o.result.get "label" = .str "passport" ∧
      ¬LabelTrusted Sample.receiptOrInvoice o.result := by
  refine ⟨_, rfl, rfl, fun h => ?_⟩
  rw [labelTrusted_iff (show _ = JsValue.str "passport" from rfl)] at h
  revert h
  decide

end OcrService
