import OcrService.Recognition
import OcrService.Registered
import OcrService.SigningVerdict

/-! Verdicts over whole runs: what the functions compute of their own of what a model has told
them (`functions/receipt-parsing`, `functions/form-data-extraction`, `functions/signing`). -/
namespace OcrService
open Interaction

theorem completeTyped_eq_ok {α : Type} {issuesOf : JsValue → JsValue} {ctx : OcrContext}
    {parse : JsValue → Option α} {write : α → JsValue} {prompt : Prompt} {images : List String}
    {schemaName : String} {data : α} :
    completeTyped issuesOf ctx parse write prompt images schemaName = .ok data ↔
      ∃ completion, ctx.llm (typedRequest issuesOf parse write prompt images schemaName) =
          .ok completion ∧ parse completion.data = some data := by
  simp only [completeTyped]
  cases ctx.llm (typedRequest issuesOf parse write prompt images schemaName) with
  | error err => simp [bind, Except.bind]
  | ok completion =>
    cases hparse : parse completion.data <;> simp [bind, Except.bind, hparse]

theorem except_map_eq_ok {ε α β : Type} {f : α → β} {r : Except ε α} {b : β} :
    r.map f = .ok b ↔ ∃ a, r = .ok a ∧ f a = b := by
  cases r <;> simp [Except.map]

/-- The numbers are those the model has told, and the verdict is on them. -/
structure ReceiptVerdict (told result : ReceiptParsingResult) : Prop where
  verdict : result.confidence = .high ↔ LinesAgree result ∧ TotalsAgree result
  warned : ∃ mismatches, result.warnings = told.warnings ++ mismatches ∧
    (mismatches = [] ↔ result.confidence = .high)
  told : result =
    { told with confidence := result.confidence, warnings := result.warnings }

theorem reconcileTotals_verdict (told : ReceiptParsingResult) :
    ReceiptVerdict told (reconcileTotals told) :=
  ⟨confidence_high_iff, warnings_added, rfl⟩

def receiptRequest (lib : Libraries) (markdown : String) (args : ReceiptParsingArgs) :
    StructuredRequest :=
  typedRequest lib.issuesOf receiptParsingResultSchema ReceiptParsingResult.toJs
    (buildReceiptParsingPrompt markdown args) [] "RECEIPT_PARSING_result"

theorem executeReceiptParsing_eq_ok {lib : Libraries} {ctx : OcrContext}
    {args : ReceiptParsingArgs} {result : ReceiptParsingResult} :
    executeReceiptParsing lib ctx args = .ok result ↔
      ∃ completion told, ctx.llm (receiptRequest lib ctx.doc.markdown args) = .ok completion ∧
        receiptParsingResultSchema completion.data = some told ∧ reconcileTotals told = result := by
  have hcomplete : executeReceiptParsing lib ctx args = .ok result ↔
      ∃ told, completeTyped lib.issuesOf ctx receiptParsingResultSchema ReceiptParsingResult.toJs
        (buildReceiptParsingPrompt ctx.doc.markdown args) [] "RECEIPT_PARSING_result" = .ok told ∧
          reconcileTotals told = result := by
    simp only [executeReceiptParsing]
    cases completeTyped lib.issuesOf ctx receiptParsingResultSchema ReceiptParsingResult.toJs
      (buildReceiptParsingPrompt ctx.doc.markdown args) [] "RECEIPT_PARSING_result" <;>
        simp [bind, Except.bind, pure, Except.pure]
  rw [hcomplete]
  constructor
  · rintro ⟨told, htold, hresult⟩
    obtain ⟨completion, hasked, hparsed⟩ := completeTyped_eq_ok.mp htold
    exact ⟨completion, told, hasked, hparsed, hresult⟩
  · rintro ⟨completion, told, hasked, hparsed, hresult⟩
    exact ⟨told, completeTyped_eq_ok.mpr ⟨completion, hasked, hparsed⟩, hresult⟩

/-- Whatever the model says of its own confidence: every receipt that is answered, in whatever
run, has its numbers, and the verdict that these deserve. -/
theorem receipts_reconciled (lib : Libraries) (deps : PipelineDeps)
    {moves : List (Move Call Surroundings WorldEvent)} {w : World}
    {calls : Conf Call ServiceOp ServiceOp.Answer (Except Thrown (OcrOutcome JsValue)) World}
    (hrun : (concurrently deps).run ⟨w, []⟩ moves = some calls)
    {th : Thread Call ServiceOp ServiceOp.Answer (Except Thrown (OcrOutcome JsValue))}
    (hth : th ∈ calls.threads) (hd : th.req.d = (receiptParsingDefinition lib).untyped)
    {outcome : OcrOutcome JsValue} (hout : th.prog = .ret (.ok outcome)) :
    ∃ args markdown completion told result,
      receiptParsingArgsSchema (orEmptyObject th.req.req.args) = some args ∧
      deps.llm (receiptRequest lib markdown args) = .ok completion ∧
      receiptParsingResultSchema completion.data = some told ∧
      outcome.result = ReceiptParsingResult.toJs result ∧ ReceiptVerdict told result := by
  obtain ⟨raw, input, doc, hcheck, hconclude⟩ := run_concluded hrun hth hout
  rw [hd] at hcheck hconclude
  obtain ⟨args, hargs, rfl⟩ := checkRequest_untyped_ok hcheck
  rw [conclude_untyped hargs, conclude_eq_ok] at hconclude
  obtain ⟨-, written, hraw, hresult⟩ := hconclude
  obtain ⟨result, hreceipt, rfl⟩ := except_map_eq_ok.mp hraw
  obtain ⟨completion, told, hasked, hparsed, rfl⟩ := executeReceiptParsing_eq_ok.mp hreceipt
  have hwritten := safeParse_ok.mp hresult
  rw [typedSchema, receiptParsingResultSchema_toJs] at hwritten
  have hschema := safeParse_ok.mp (forArgs_ok.mp (parseArgs_eq_ok.mp hargs))
  exact ⟨args, doc.markdown, completion, told, _, hschema, hasked, hparsed,
    (Option.some.inj hwritten).symm, reconcileTotals_verdict told⟩

theorem receipts_reconciled_gullible : ∃ calls,
    (concurrently Sample.gullible).run ⟨{}, []⟩ Sample.parseReceipts = some calls ∧
      calls.threads.map (fun th => th.prog.result?.map Except.isOk) = [some true, some true] ∧
      ∀ th ∈ calls.threads, ∀ outcome, th.prog = .ret (.ok outcome) → ∃ told result,
        outcome.result = ReceiptParsingResult.toJs result ∧ ReceiptVerdict told result := by
  obtain ⟨calls, hrun, hended⟩ := Sample.parseReceipts_run
  refine ⟨calls, hrun, hended, fun th hth outcome hout => ?_⟩
  have hd : th.req.d = (receiptParsingDefinition Sample.libraries).untyped := by
    rw [Sample.parseReceipts_spawn (Machine.run_spawned hrun hth)]
    rfl
  obtain ⟨-, -, -, told, result, -, -, -, hresult, hverdict⟩ :=
    receipts_reconciled Sample.libraries Sample.gullible hrun hth hd hout
  exact ⟨told, result, hresult, hverdict⟩

/-- The fields are what the caller has asked for: by a list of entries, of which the last one of a
name counts, or by a JSON schema. -/
def Conforms (ajv : Ajv) : FormDataExtractionArgs → List (String × JsValue) → Prop
  | .fields specs, fields => LastsSatisfied specs fields ∧
      (∀ name ∈ fields.map Prod.fst, ∃ spec ∈ specs, spec.name = name) ∧
      (Consistent specs → ∀ spec ∈ specs, Satisfies spec fields)
  | .jsonSchema jsonSchema, fields => ajv jsonSchema (.obj fields) = .ok none

theorem conforms_fields (ajv : Ajv) {specs : List FieldSpec} {v result : JsValue}
    (h : buildFormResultSchema (.fields specs) v = some result) :
    ∃ fields, result = .obj [("fields", .obj fields)] ∧ Conforms ajv (.fields specs) fields := by
  -- the schema lets the result through a second time, so the result itself satisfies the list
  have hagain := buildFormResultSchema_steady (.fields specs) v result h
  obtain ⟨top, fields, kept, hresult, hfields, hkept, hsame⟩ :=
    buildFormResultSchema_eq_some.mp hagain
  rw [hsame] at hresult
  cases hresult
  cases hfields
  refine ⟨fields, hsame, fieldMembers_exists_iff.mp ⟨fields, hkept⟩, fieldMembers_names hkept, ?_⟩
  intro hconsistent
  obtain ⟨_, hhonored, hsatisfied, -⟩ := honors_of_consistent hconsistent h
  rw [hsame] at hhonored
  cases hhonored
  exact hsatisfied

theorem assertMatchesJsonSchema_eq_ok {ajv : Ajv} {jsonSchema : List (String × JsValue)}
    {fields : JsValue} :
    assertMatchesJsonSchema ajv jsonSchema fields = .ok () ↔ ajv jsonSchema fields = .ok none := by
  simp only [assertMatchesJsonSchema]
  rcases ajv jsonSchema fields with err | _ | errors <;>
    simp [bind, Except.bind, pure, Except.pure, throw, throwThe, MonadExceptOf.throw]

theorem executeFormDataExtraction_matches {issuesOf : JsValue → JsValue} {ajv : Ajv}
    {ctx : OcrContext} {jsonSchema : List (String × JsValue)} {raw : JsValue}
    (h : executeFormDataExtraction issuesOf ajv ctx (.jsonSchema jsonSchema) = .ok raw) :
    ajv jsonSchema (raw.get "fields") = .ok none := by
  simp only [executeFormDataExtraction, bind, Except.bind] at h
  split at h
  · cases h
  · rename_i completion _
    cases hmatch : assertMatchesJsonSchema ajv jsonSchema (completion.data.get "fields") with
    | error err => simp [hmatch] at h
    | ok _ =>
      rw [hmatch] at h
      cases h
      exact assertMatchesJsonSchema_eq_ok.mp hmatch

theorem conforms_jsonSchema {issuesOf : JsValue → JsValue} {ajv : Ajv} {ctx : OcrContext}
    {jsonSchema : List (String × JsValue)} {raw result : JsValue}
    (hraw : executeFormDataExtraction issuesOf ajv ctx (.jsonSchema jsonSchema) = .ok raw)
    (hresult : buildFormResultSchema (.jsonSchema jsonSchema) raw = some result) :
    ∃ fields, result = .obj [("fields", .obj fields)] ∧
      Conforms ajv (.jsonSchema jsonSchema) fields := by
  have hvalid := executeFormDataExtraction_matches hraw
  cases raw with
  | obj top =>
    simp only [buildFormResultSchema, zodObject, zodMembers, bind, pure, Option.map_eq_some_iff,
      Option.bind_eq_some_iff, Option.some.injEq] at hresult
    obtain ⟨_, ⟨value, ⟨inner, hinner, hvalue⟩, _, rfl, rfl⟩, rfl⟩ := hresult
    cases inner with
    | obj fields =>
      cases hvalue
      refine ⟨fields, rfl, ?_⟩
      simpa only [Conforms, JsValue.get, hinner, Option.getD_some] using hvalid
    | _ => cases hvalue
  | _ => cases hresult

/-- Whatever the model answers: every result of FORM_DATA_EXTRACTION, in whatever run, has fields
that conform to what its caller has asked for. -/
theorem form_answers_conform (lib : Libraries) (deps : PipelineDeps)
    {moves : List (Move Call Surroundings WorldEvent)} {w : World}
    {calls : Conf Call ServiceOp ServiceOp.Answer (Except Thrown (OcrOutcome JsValue)) World}
    (hrun : (concurrently deps).run ⟨w, []⟩ moves = some calls)
    {th : Thread Call ServiceOp ServiceOp.Answer (Except Thrown (OcrOutcome JsValue))}
    (hth : th ∈ calls.threads)
    (hd : th.req.d = (formDefinition lib.issuesOf lib.ajv lib.engine).untyped)
    {outcome : OcrOutcome JsValue} (hout : th.prog = .ret (.ok outcome)) :
    ∃ args fields,
      formDataExtractionArgsSchema lib.engine (orEmptyObject th.req.req.args) = .ok (some args) ∧
      outcome.result = .obj [("fields", .obj fields)] ∧ Conforms lib.ajv args fields := by
  obtain ⟨raw, input, doc, hcheck, hconclude⟩ := run_concluded hrun hth hout
  rw [hd] at hcheck hconclude
  obtain ⟨args, hargs, rfl⟩ := checkRequest_untyped_ok hcheck
  rw [conclude_untyped hargs, conclude_eq_ok] at hconclude
  obtain ⟨-, written, hraw, hresult⟩ := hconclude
  have hshape := safeParse_ok.mp hresult
  have hparsed := safeParseArgs_ok.mp (parseArgs_eq_ok.mp hargs)
  cases args with
  | fields specs =>
    obtain ⟨fields, hfields, hconforms⟩ := conforms_fields lib.ajv hshape
    exact ⟨.fields specs, fields, hparsed, hfields, hconforms⟩
  | jsonSchema jsonSchema =>
    obtain ⟨fields, hfields, hconforms⟩ := conforms_jsonSchema hraw hshape
    exact ⟨.jsonSchema jsonSchema, fields, hparsed, hfields, hconforms⟩

namespace Sample

def filled : List (String × JsValue) := [("amount", .num (.finite 12)), ("currency", .null)]

def formOf (args : JsValue) : Call :=
  ⟨(formDefinition libraries.issuesOf libraries.ajv libraries.engine).untyped,
    formRequest args, timings⟩

def bySchema : JsValue := .obj [("jsonSchema", .obj [("type", .str "object")])]

def twoForms : List (Move Call Surroundings WorldEvent) :=
  [.spawn (formOf amountArgs), .spawn (formOf bySchema)] ++
    (List.replicate 8 [.step 0 (surroundings []), .step 1 (surroundings [])]).flatten

theorem twoForms_spawn {c : Call} (h : Move.spawn c ∈ twoForms) :
    c = formOf amountArgs ∨ c = formOf bySchema := by
  simpa [twoForms] using h

theorem twoForms_run : ∃ calls,
    (concurrently (answering (.obj [("fields", .obj filled)]))).run ⟨{}, []⟩ twoForms =
        some calls ∧
      calls.threads.map (fun th => th.prog.result?.map Except.isOk) = [some true, some true] := by
  have hends : ((concurrently (answering (.obj [("fields", .obj filled)]))).run ⟨{}, []⟩
      twoForms).map (fun calls => calls.threads.map fun th => th.prog.result?.map Except.isOk) =
        some [some true, some true] := by decide +kernel
  exact Option.map_eq_some_iff.mp hends

end Sample

theorem form_answers_conform_two : ∃ calls,
    (concurrently (answering (.obj [("fields", .obj Sample.filled)]))).run ⟨{}, []⟩
        Sample.twoForms = some calls ∧
      calls.threads.map (fun th => th.prog.result?.map Except.isOk) = [some true, some true] ∧
      ∀ th ∈ calls.threads, ∀ outcome, th.prog = .ret (.ok outcome) → ∃ args fields,
        formDataExtractionArgsSchema Sample.libraries.engine (orEmptyObject th.req.req.args) =
            .ok (some args) ∧
          outcome.result = .obj [("fields", .obj fields)] ∧
          Conforms Sample.libraries.ajv args fields := by
  obtain ⟨calls, hrun, hended⟩ := Sample.twoForms_run
  refine ⟨calls, hrun, hended, fun th hth outcome hout => ?_⟩
  have hd : th.req.d = (formDefinition Sample.libraries.issuesOf Sample.libraries.ajv
      Sample.libraries.engine).untyped := by
    obtain h | h := Sample.twoForms_spawn (Machine.run_spawned hrun hth) <;> rw [h] <;> rfl
  exact form_answers_conform Sample.libraries _ hrun hth hd hout

/-- Of the registered providers only GLM-OCR tells seals. -/
theorem sealsProvider {env : Env} {p : OcrProvider} (hp : p ∈ buildProviderRegistry env)
    (hseals : p.capabilities.contains .seals = true) : p = glmOcr ∧ env.GLM_ENABLED = true := by
  obtain hp | hp := List.mem_append.mp hp
  · simp only [List.mem_cons, List.not_mem_nil, or_false] at hp
    obtain rfl | rfl | rfl | rfl := hp <;> exact absurd hseals (by decide)
  · cases henabled : env.GLM_ENABLED with
    | false => simp [henabled] at hp
    | true => exact ⟨by simpa [henabled] using hp, rfl⟩

theorem providerSatisfies_contains {p : OcrProvider} {group : MimeGroup}
    {required : List Capability} (h : providerSatisfies p group required = true)
    {capability : Capability} (hcapability : capability ∈ required) :
    p.capabilities.contains capability = true := by
  rw [providerSatisfies, Bool.and_eq_true] at h
  exact List.all_eq_true.mp h.2 capability hcapability

/-- A document is fully executed if it has signature slots and the model has found each of them
signed. -/
structure SigningVerdict (lib : Libraries) (ctx : OcrContext) (args : SigningArgs)
    (result : SigningResult) (calls : List JudgmentCall) : Prop where
  outcome : args.geometryOnly = false → Outcome (signingTools lib ctx) ctx.file
    (correlateSlots lib.toLowerCase lib.hypot ctx.doc.blocks args.signatureCues) result calls
  silent : args.geometryOnly = true → calls = []
  fullyExecuted : result.fullyExecuted = true ↔ args.geometryOnly = false ∧
    correlateSlots lib.toLowerCase lib.hypot ctx.doc.blocks args.signatureCues ≠ [] ∧
      ∀ slot ∈ correlateSlots lib.toLowerCase lib.hypot ctx.doc.blocks args.signatureCues,
        slotSigned calls slot = true

theorem assemble_unjudged (slots : List Slot) :
    (assemble (slots.map (toBlock · noJudgment))).fullyExecuted = false := by
  cases slots with
  | nil => rfl
  | cons slot slots => simp [assemble, toBlock, noJudgment]

theorem executeSigning_verdict {lib : Libraries} {ctx : OcrContext} {args : SigningArgs}
    {result : SigningResult} {calls : List JudgmentCall}
    (hindex : (ctx.doc.blocks.map LayoutBlock.index).Pairwise (· < ·))
    (h : executeSigning lib.toLowerCase lib.hypot (signingTools lib ctx) ctx.doc ctx.file args =
      .ok (result, calls)) : SigningVerdict lib ctx args result calls := by
  obtain ⟨geometryOnly, cues⟩ := args
  cases geometryOnly with
  | false =>
    have houtcome := executeSigning_outcome hindex h
    refine ⟨fun _ => houtcome, fun hgeometry => (by cases hgeometry), ?_⟩
    rw [houtcome.fullyExecuted]
    exact (and_iff_right rfl).symm
  | true =>
    simp only [executeSigning, if_true] at h
    cases h
    refine ⟨fun hgeometry => (by cases hgeometry), fun _ => rfl, ?_⟩
    rw [assemble_unjudged]
    simp

theorem signingResultSchema_fullyExecuted {result : SigningResult} {v : JsValue}
    (h : signingResultSchema result.toJs = some v) :
    v.get "fullyExecuted" = .bool result.fullyExecuted := by
  obtain ⟨out, hout, rfl⟩ := Option.map_eq_some_iff.mp h
  have hlook := lookup_zodMembers hout "fullyExecuted"
  simp only [JsValue.get, hlook]
  rfl

theorem checkRequest_buffer {d : AnyOcrFunctionDefinition} {req : OcrRequest}
    {deps : PipelineDeps} {args : JsValue} {input : DocumentInput}
    (h : (checkRequest d req deps).2 = .ok (args, input)) : input.buffer = req.file.buffer := by
  cases hcheck : checkRequest d req deps with
  | mk l r =>
    rw [hcheck] at h
    cases h
    exact (checkRequest_input hcheck).1

namespace Sample

def signingOf (b : UInt8) : Call :=
  ⟨(signingDefinition libraries).untyped,
    { upload [0x89, b] "tenant" with
      args := .obj [("signatureCues", .arr [.str "word"])] }, timings⟩

def twoContracts : List (Move Call Surroundings WorldEvent) :=
  [.spawn (signingOf 1), .spawn (signingOf 2)] ++ List.replicate 9 (.step 0 (readWith true)) ++
    List.replicate 4 (.step 1 (readWith false))

theorem twoContracts_spawn {c : Call} (h : Move.spawn c ∈ twoContracts) :
    c = signingOf 1 ∨ c = signingOf 2 := by
  simpa [twoContracts] using h

theorem twoContracts_sha (c c' : Call) (hc : .spawn c ∈ twoContracts)
    (hc' : .spawn c' ∈ twoContracts)
    (h : digest c.req.file.buffer = digest c'.req.file.buffer) :
    c.req.file.buffer = c'.req.file.buffer := by
  have htext := congrArg Sha256Hex.text h
  obtain rfl | rfl := twoContracts_spawn hc <;> obtain rfl | rfl := twoContracts_spawn hc'
  · rfl
  · exact absurd htext (by decide)
  · exact absurd htext (by decide)
  · rfl

theorem twoContracts_reads (i : Nat) (env : Surroundings) (h : .step i env ∈ twoContracts) :
    env.ReadsAs deps oneWord := by
  have henv : (i = 0 ∧ env = readWith true) ∨ (i = 1 ∧ env = readWith false) := by
    simpa [twoContracts] using h
  obtain ⟨-, rfl⟩ | ⟨-, rfl⟩ := henv
  · exact readWith_readsAs true
  · exact readWith_readsAs false

theorem twoContracts_run : ∃ calls, (concurrently deps).run ⟨{}, []⟩ twoContracts = some calls ∧
    calls.threads.map (fun th => th.prog.result?.map Except.isOk) = [some true, some false] := by
  have hends : ((concurrently deps).run ⟨{}, []⟩ twoContracts).map (fun calls =>
      calls.threads.map fun th => th.prog.result?.map Except.isOk) =
        some [some true, some false] := by decide +kernel
  exact Option.map_eq_some_iff.mp hends

end Sample

end OcrService
