import OcrService.Interaction.History
import OcrService.Provenance
import OcrService.ResultSchemas

/-! The catalog with the bodies of all its functions (`functions/registry.ts`, and `args.ts`,
`execute.ts` and `index.ts` of each function). -/
namespace OcrService
open Interaction

/-- What the functions use of packages, and of the language where an implementation decides. -/
structure Libraries where
  /-- What zod says about a value it rejects. -/
  issuesOf : JsValue → JsValue
  engine : Engine
  ajv : Ajv
  /-- `pdf-lib`. -/
  load : Buffer → Option PdfMetadata
  /-- `sharp`. -/
  metadata : Buffer → Except Thrown (Option Nat × Option Nat)
  extractPng : Buffer → CropArea → Except Thrown Buffer
  /-- `pdf-to-img`. -/
  pdf : Buffer → Except Thrown (List (Except Thrown Buffer))
  /-- `mrz`. -/
  parseMrzLines : List String → Option MrzLines
  dateParse : String → Option Int
  toLowerCase : String → String
  hypot : ℚ → ℚ → ℚ

structure ReceiptParsingArgs where
  currency : String := "NGN"
  expectedTaxRate : ℚ := 75 / 1000

def receiptParsingArgsSchema : JsValue → Option ReceiptParsingArgs
  | .obj fields => do
    let currency ← optionalEntry fields "currency" fun v =>
      (asString v).filter fun s => jsLength s = 3
    let expectedTaxRate ← optionalEntry fields "expectedTaxRate" asUnit
    return { currency := currency.getD "NGN"
             expectedTaxRate := expectedTaxRate.getD (75 / 1000) }
  | _ => none

def expectedIdentitySchema : JsValue → Option ExpectedIdentity
  | .obj fields => do
    let fullName ← optionalEntry fields "fullName" asString
    let dateOfBirth ← optionalEntry fields "dateOfBirth" asString
    let documentNumber ← optionalEntry fields "documentNumber" asString
    return { fullName, dateOfBirth, documentNumber }
  | _ => none

def idVerificationArgsSchema : JsValue → Option IdVerificationArgs
  | .obj fields => do
    let documentType ← optionalEntry fields "documentType" idDocumentTypeSchema
    let expected ← optionalEntry fields "expected" expectedIdentitySchema
    return { documentType := documentType.getD .auto, expected }
  | _ => none

def resumeParsingArgsSchema : JsValue → Option ResumeParsingArgs
  | .obj fields => do
    let normalizeDates ← optionalEntry fields "normalizeDates" asBool
    return { normalizeDates := normalizeDates.getD true }
  | _ => none

def signingArgsSchema : JsValue → Option SigningArgs
  | .obj fields => do
    let geometryOnly ← optionalEntry fields "geometryOnly" asBool
    let signatureCues ← optionalEntry fields "signatureCues" (asList asString)
    return { geometryOnly := geometryOnly.getD false
             signatureCues := signatureCues.getD
               ["Signature", "Signed by", "For and on behalf of", "Witness", "Director"] }
  | _ => none

def toFixed1 (x : ℚ) : String :=
  let tenths := ⌊x * 10 + 1 / 2⌋.toNat
  toString (tenths / 10) ++ "." ++ toString (tenths % 10)

def buildReceiptParsingPrompt (markdown : String) (args : ReceiptParsingArgs) : Prompt where
  system := buildSystem
    ["You are a receipt parsing assistant.",
      "Extract merchant details (name, address, TIN), date/time, currency, line items",
      "(description, qty, unit price, total), subtotal, tax, tip, total, and payment method.",
      "Default currency is " ++ args.currency ++ "; VAT is typically " ++
        toFixed1 (args.expectedTaxRate * 100) ++ "%.",
      "Use null for any field not present. " ++
        "Do not compute totals — report only what the receipt shows."]
  user := "Parse this receipt:\n\n" ++ wrapUntrusted "RECEIPT" markdown

section Complete
variable {α : Type}

def typedRequest (issuesOf : JsValue → JsValue) (parse : JsValue → Option α) (write : α → JsValue)
    (prompt : Prompt) (images : List String) (schemaName : String) : StructuredRequest where
  system := prompt.system
  user := prompt.user
  images := images
  schema := safeParse issuesOf (typedSchema parse write)
  schemaName := some schemaName

/-- A client hands out only what has passed the request's schema, so its data can be read. -/
def completeTyped (issuesOf : JsValue → JsValue) (ctx : OcrContext) (parse : JsValue → Option α)
    (write : α → JsValue) (prompt : Prompt) (images : List String) (schemaName : String) :
    Except Thrown α := do
  let completion ← ctx.llm (typedRequest issuesOf parse write prompt images schemaName)
  match parse completion.data with
  | some data => .ok data
  | none => .error (.error "the completion has not passed its schema")

end Complete

section Definitions
variable (lib : Libraries)

/-- The model's own verdict is replaced. -/
def executeReceiptParsing (ctx : OcrContext) (args : ReceiptParsingArgs) :
    Except Thrown ReceiptParsingResult := do
  let data ← completeTyped lib.issuesOf ctx receiptParsingResultSchema ReceiptParsingResult.toJs
    (buildReceiptParsingPrompt ctx.doc.markdown args) [] "RECEIPT_PARSING_result"
  return reconcileTotals data

def receiptParsingDefinition : OcrFunctionDefinition ReceiptParsingArgs JsValue where
  key := .RECEIPT_PARSING
  accepts := [.pdf, .image]
  requires := [.text, .tables]
  sensitivity := .standard
  maxPages := 5
  argsSchema := forArgs (safeParse lib.issuesOf receiptParsingArgsSchema)
  resultSchema := .static (safeParse lib.issuesOf
    (typedSchema receiptParsingResultSchema ReceiptParsingResult.toJs))
  execute ctx args := (executeReceiptParsing lib ctx args).map ReceiptParsingResult.toJs

def resumeParsingDefinition : OcrFunctionDefinition ResumeParsingArgs JsValue where
  key := .RESUME_PARSING
  accepts := [.pdf, .image, .docx]
  requires := [.text, .layout]
  sensitivity := .pii
  maxPages := 10
  argsSchema := forArgs (safeParse lib.issuesOf resumeParsingArgsSchema)
  resultSchema := .static (safeParse lib.issuesOf resumeParsingResultSchema)
  execute ctx args :=
    executeResumeParsing (fun prompt =>
      (ctx.llm
        { system := prompt.system
          user := prompt.user
          schema := safeParse lib.issuesOf resumeParsingResultSchema
          schemaName := some "RESUME_PARSING_result" }).map StructuredCompletion.data) ctx.doc args

def idVerificationTools (ctx : OcrContext) : IdVerificationTools where
  complete req := completeTyped lib.issuesOf ctx idExtractionSchema IdExtraction.toJs
    ⟨req.system, req.user⟩ [] req.schemaName
  parseMrzLines := lib.parseMrzLines
  dateParse := lib.dateParse
  toLowerCase := lib.toLowerCase

def idVerificationDefinition (now : Int) : OcrFunctionDefinition IdVerificationArgs JsValue where
  key := .ID_VERIFICATION
  accepts := [.pdf, .image]
  requires := [.text, .layout]
  sensitivity := .pii
  maxPages := 4
  argsSchema := forArgs (safeParse lib.issuesOf idVerificationArgsSchema)
  resultSchema := .static (safeParse lib.issuesOf idVerificationResultSchema)
  execute ctx args :=
    (executeIdVerification (idVerificationTools lib ctx) now ctx.doc.markdown args).map
      IdVerificationResult.toJs

def signingTools (ctx : OcrContext) : SigningTools where
  metadata := lib.metadata
  extractPng := lib.extractPng
  pdf := lib.pdf
  complete req := completeTyped lib.issuesOf ctx signingJudgmentSchema SigningJudgment.toJs
    ⟨req.system, req.user⟩ req.images req.schemaName

def signingDefinition : OcrFunctionDefinition SigningArgs JsValue where
  key := .SIGNING
  accepts := [.pdf, .image]
  requires := [.layout, .seals]
  sensitivity := .standard
  maxPages := 30
  argsSchema := forArgs (safeParse lib.issuesOf signingArgsSchema)
  resultSchema := .static (safeParse lib.issuesOf signingResultSchema)
  execute ctx args :=
    (executeSigning lib.toLowerCase lib.hypot (signingTools lib ctx) ctx.doc ctx.file args).map
      fun r => r.1.toJs

def registered (now : Int) : OcrFunctionKey → FunctionBody
  | .SIGNING => .of (signingDefinition lib)
  | .ID_VERIFICATION => .of (idVerificationDefinition lib now)
  | .DOCUMENT_CLASSIFICATION => .of (classificationDefinition lib.issuesOf)
  | .FORM_DATA_EXTRACTION => .of (formDefinition lib.issuesOf lib.ajv lib.engine)
  | .RECEIPT_PARSING => .of (receiptParsingDefinition lib)
  | .TEXT_EXTRACTION => .of (textExtractionDefinition lib.issuesOf)
  | .RESUME_PARSING => .of (resumeParsingDefinition lib)
  | .DOCUMENT_AUTHENTICITY => .of (documentAuthenticityDefinition lib.load lib.issuesOf)

theorem definitions_registered (now : Int) : definitions (registered lib now) =
    [(textExtractionDefinition lib.issuesOf).untyped,
      (classificationDefinition lib.issuesOf).untyped, (receiptParsingDefinition lib).untyped,
      (formDefinition lib.issuesOf lib.ajv lib.engine).untyped,
      (resumeParsingDefinition lib).untyped, (idVerificationDefinition lib now).untyped,
      (signingDefinition lib).untyped,
      (documentAuthenticityDefinition lib.load lib.issuesOf).untyped] := rfl

def Call.Registered (c : Call) : Prop := ∃ now, c.d ∈ definitions (registered lib now)

end Definitions

section Kept
variable {TArgs TResult : Type}

/-- What has passed the function's schema passes it again, unchanged. -/
def OcrFunctionDefinition.Revalidates (d : OcrFunctionDefinition TArgs TResult) : Prop :=
  ∀ args v u, resolveResultSchema d args v = .ok u → resolveResultSchema d args u = .ok u

def OcrFunctionDefinition.Blind (d : OcrFunctionDefinition TArgs TResult) : Prop :=
  ∀ (ctx : OcrContext) tenantId args, d.execute { ctx with tenantId } args = d.execute ctx args

theorem Steady.safeParse {schema : ZodType} (h : Steady schema) (issuesOf : JsValue → JsValue)
    {v u : JsValue} (hu : OcrService.safeParse issuesOf schema v = .ok u) :
    OcrService.safeParse issuesOf schema u = .ok u :=
  safeParse_ok.mpr (h v u (safeParse_ok.mp hu))

variable {d : OcrFunctionDefinition TArgs JsValue}

theorem OcrFunctionDefinition.Revalidates.untyped (h : d.Revalidates) : d.untyped.Revalidates := by
  intro raw v u hu
  simp only [resolveResultSchema, OcrFunctionDefinition.untyped, defineOcrFunction,
    FunctionBody.of] at hu ⊢
  cases hargs : d.argsSchema raw with
  | error issues =>
    rw [hargs] at hu
    cases hu
  | ok args =>
    rw [hargs] at hu
    exact h args v u hu

theorem OcrFunctionDefinition.Blind.untyped (h : d.Blind) : d.untyped.Blind := by
  intro ctx tenantId raw
  simp only [OcrFunctionDefinition.untyped, defineOcrFunction, FunctionBody.of]
  cases d.argsSchema raw with
  | error issues => rfl
  | ok args => exact h ctx tenantId args

end Kept

section Catalog
variable {lib : Libraries} {now : Int} {d : AnyOcrFunctionDefinition}

theorem registered_cases {P : AnyOcrFunctionDefinition → Prop}
    (htext : P (textExtractionDefinition lib.issuesOf).untyped)
    (hclassification : P (classificationDefinition lib.issuesOf).untyped)
    (hreceipt : P (receiptParsingDefinition lib).untyped)
    (hform : P (formDefinition lib.issuesOf lib.ajv lib.engine).untyped)
    (hresume : P (resumeParsingDefinition lib).untyped)
    (hid : P (idVerificationDefinition lib now).untyped)
    (hsigning : P (signingDefinition lib).untyped)
    (hauthenticity : P (documentAuthenticityDefinition lib.load lib.issuesOf).untyped)
    (hd : d ∈ definitions (registered lib now)) : P d := by
  rw [definitions_registered] at hd
  simp only [List.mem_cons, List.not_mem_nil, or_false] at hd
  obtain rfl | rfl | rfl | rfl | rfl | rfl | rfl | rfl := hd
  all_goals assumption

theorem registered_revalidates (hd : d ∈ definitions (registered lib now)) : d.Revalidates := by
  refine registered_cases ?_ ?_ ?_ ?_ ?_ ?_ ?_ ?_ hd
  all_goals refine OcrFunctionDefinition.Revalidates.untyped fun args v u hu => ?_
  · exact textExtractionResultSchema_steady.safeParse _ hu
  · exact documentClassificationResultSchema_steady.safeParse _ hu
  · exact (typedSchema_steady receiptParsingResultSchema_toJs).safeParse _ hu
  · exact (buildFormResultSchema_steady args).safeParse _ hu
  · exact resumeParsingResultSchema_steady.safeParse _ hu
  · exact idVerificationResultSchema_steady.safeParse _ hu
  · exact signingResultSchema_steady.safeParse _ hu
  · exact documentAuthenticityResultSchema_steady.safeParse _ hu

theorem registered_blind (hd : d ∈ definitions (registered lib now)) : d.Blind := by
  refine registered_cases ?_ ?_ ?_ ?_ ?_ ?_ ?_ ?_ hd
  all_goals exact OcrFunctionDefinition.Blind.untyped fun _ _ _ => rfl

end Catalog

theorem runPipeline_returns {TArgs TResult : Type} (d : OcrFunctionDefinition TArgs TResult)
    (req : OcrRequest) (deps : PipelineDeps) (t : Timings) :
    (runPipeline d req deps t).Returns fun r => ∀ o, r = .ok o → ∃ args input doc,
      (checkRequest d req deps).2 = .ok (args, input) ∧
        conclude d req deps args input doc = .ok o.result := by
  have hfail : ∀ l interpretMs err, (fail d req l t interpretMs err).Returns
      fun r => ∀ o : OcrOutcome TResult, r ≠ .ok o := by
    intro l interpretMs err
    refine Prog.Returns.bind ((Prog.Returns.trivial _).mono fun r _ => ?_)
    cases r with
    | error err' => exact fun o h => by cases h
    | ok _ => exact fun _ o h => by cases h
  have hstages : (stages d req deps).Returns fun v => ∀ result doc, v.2 = .ok (result, doc) →
      ∃ args input doc, (checkRequest d req deps).2 = .ok (args, input) ∧
        conclude d req deps args input doc = .ok result := by
    cases hcheck : checkRequest d req deps with
    | mk l r =>
      cases r with
      | error err =>
        rw [stages_refused hcheck]
        exact fun result doc h => by cases h
      | ok ai =>
        obtain ⟨args, input⟩ := ai
        rw [stages_admitted hcheck]
        refine Prog.Returns.bind ((Prog.Returns.trivial _).mono fun r _ => ?_)
        intro result doc h
        cases r with
        | error err => cases h
        | ok out =>
          simp only [afterExtraction] at h
          cases hconclude : conclude d req deps args input out.doc with
          | error err =>
            rw [hconclude] at h
            cases h
          | ok result' =>
            rw [hconclude] at h
            cases h
            exact ⟨args, input, out.doc, rfl, hconclude⟩
  refine Prog.Returns.bind (hstages.mono fun v hv => ?_)
  obtain ⟨l, r⟩ := v
  cases r with
  | error err => exact (hfail l 0 err).mono fun r hr o ho => absurd ho (hr o)
  | ok rd =>
    obtain ⟨result, doc⟩ := rd
    refine Prog.Returns.bind ((Prog.Returns.trivial _).mono fun r _ => ?_)
    cases r with
    | error err => exact (hfail l _ err).mono fun r hr o ho => absurd ho (hr o)
    | ok _ =>
      intro _ o ho
      cases ho
      exact hv result doc rfl

/-- What a call has been answered with, its function has concluded. -/
theorem run_concluded {deps : PipelineDeps} {moves : List (Move Call Surroundings WorldEvent)}
    {w : World}
    {calls : Conf Call ServiceOp ServiceOp.Answer (Except Thrown (OcrOutcome JsValue)) World}
    (hrun : (concurrently deps).run ⟨w, []⟩ moves = some calls)
    {th : Thread Call ServiceOp ServiceOp.Answer (Except Thrown (OcrOutcome JsValue))}
    (hth : th ∈ calls.threads) {outcome : OcrOutcome JsValue}
    (hout : th.prog = .ret (.ok outcome)) :
    ∃ args input doc, (checkRequest th.req.d th.req.req deps).2 = .ok (args, input) ∧
      conclude th.req.d th.req.req deps args input doc = .ok outcome.result := by
  have hreturns := Machine.run_returns (m := concurrently deps)
    (fun c => runPipeline_returns c.d c.req deps c.timings) hrun th hth
  rw [hout] at hreturns
  exact hreturns outcome rfl

theorem parseArgs_of_checked {d : AnyOcrFunctionDefinition} {req : OcrRequest}
    {deps : PipelineDeps} {args : JsValue} {input : DocumentInput}
    (h : (checkRequest d req deps).2 = .ok (args, input)) : parseArgs d req.args = .ok args := by
  have hcases := checkRequest_cases d req deps
  generalize checkRequest d req deps = v at hcases h
  cases hcases with
  | badArgs | badFile | unaccepted => cases h
  | passed _ _ hargs _ =>
    cases h
    exact hargs

/-- Every answer of every function, in whatever run, passes the schema that the function has for
these arguments, and is what that schema makes of it. -/
theorem answers_revalidate (lib : Libraries) (deps : PipelineDeps)
    {moves : List (Move Call Surroundings WorldEvent)}
    (hregistered : ∀ c, .spawn c ∈ moves → c.Registered lib) {w : World}
    {calls : Conf Call ServiceOp ServiceOp.Answer (Except Thrown (OcrOutcome JsValue)) World}
    (hrun : (concurrently deps).run ⟨w, []⟩ moves = some calls)
    {th : Thread Call ServiceOp ServiceOp.Answer (Except Thrown (OcrOutcome JsValue))}
    (hth : th ∈ calls.threads) {outcome : OcrOutcome JsValue}
    (hout : th.prog = .ret (.ok outcome)) :
    ∃ args, parseArgs th.req.d th.req.req.args = .ok args ∧
      resolveResultSchema th.req.d args outcome.result = .ok outcome.result := by
  obtain ⟨args, input, doc, hcheck, hconclude⟩ := run_concluded hrun hth hout
  obtain ⟨now, hd⟩ := hregistered th.req (Machine.run_spawned hrun hth)
  obtain ⟨-, raw, -, hresult⟩ := conclude_eq_ok.mp hconclude
  exact ⟨args, parseArgs_of_checked hcheck, registered_revalidates hd args raw _ hresult⟩

namespace Sample

def libraries : Libraries where
  issuesOf := id
  engine := engine
  ajv _ _ := .ok none
  load _ := none
  metadata _ := .ok (some 1, some 1)
  extractPng pageImage _ := .ok pageImage
  pdf buffer := .ok [.ok buffer]
  parseMrzLines _ := none
  dateParse _ := none
  toLowerCase := id
  hypot := hypot

def gullible : PipelineDeps := answering { taxOnly with confidence := .high }.toJs

def parsing : Call :=
  ⟨(receiptParsingDefinition libraries).untyped, upload [0x89] "tenant", timings⟩

def parseReceipts : List (Move Call Surroundings WorldEvent) :=
  [.spawn parsing, .spawn parsing] ++ List.replicate 9 (.step 0 (surroundings [])) ++
    List.replicate 7 (.step 1 (surroundings []))

theorem parseReceipts_spawn {c : Call} (h : Move.spawn c ∈ parseReceipts) : c = parsing := by
  simpa [parseReceipts] using h

theorem parseReceipts_run : ∃ calls,
    (concurrently gullible).run ⟨{}, []⟩ parseReceipts = some calls ∧
      calls.threads.map (fun th => th.prog.result?.map Except.isOk) = [some true, some true] := by
  have hends : ((concurrently gullible).run ⟨{}, []⟩ parseReceipts).map (fun calls =>
      calls.threads.map fun th => th.prog.result?.map Except.isOk) =
        some [some true, some true] := by decide +kernel
  exact Option.map_eq_some_iff.mp hends

end Sample

theorem answers_revalidate_receipts : ∃ calls,
    (concurrently Sample.gullible).run ⟨{}, []⟩ Sample.parseReceipts = some calls ∧
      calls.threads.map (fun th => th.prog.result?.map Except.isOk) = [some true, some true] ∧
      ∀ th ∈ calls.threads, ∀ outcome, th.prog = .ret (.ok outcome) →
        ∃ args, parseArgs th.req.d th.req.req.args = .ok args ∧
          resolveResultSchema th.req.d args outcome.result = .ok outcome.result := by
  obtain ⟨calls, hrun, hended⟩ := Sample.parseReceipts_run
  refine ⟨calls, hrun, hended, fun th hth outcome hout => ?_⟩
  refine answers_revalidate Sample.libraries Sample.gullible (fun c hc => ?_) hrun hth hout
  rw [Sample.parseReceipts_spawn hc]
  exact ⟨0, by rw [definitions_registered]; simp [Sample.parsing]⟩

end OcrService
