import OcrService.Router

/-! Function definitions (`functions/define.ts`) and the catalog (`functions/registry.ts`). -/
namespace OcrService

inductive Sensitivity where
  | standard | pii | restricted
  deriving DecidableEq

abbrev LogFields := List (String × JsValue)

/-- How a logger was built. Emitting through it has no effect the service reads. -/
inductive Logger where
  | root
  | child (fields : LogFields) (parent : Logger)
  | redacting (inner : Logger)

abbrev Schema (α β : Type) := α → Except JsValue β

/-- Why there are no parsed arguments: `safeParse` found issues, or it threw. -/
inductive ArgsRefusal where
  | issues (issues : JsValue)
  | overflow (err : StackOverflow)

abbrev ArgsSchema (TArgs : Type) := JsValue → Except ArgsRefusal TArgs

def forArgs {TArgs : Type} (schema : Schema JsValue TArgs) : ArgsSchema TArgs :=
  fun raw => (schema raw).mapError .issues

theorem forArgs_ok {TArgs : Type} {schema : Schema JsValue TArgs} {raw : JsValue} {args : TArgs} :
    forArgs schema raw = .ok args ↔ schema raw = .ok args := by
  rw [forArgs]
  cases schema raw <;> simp [Except.mapError]

structure StructuredRequest where
  system : String
  user : String
  images : List String := []
  schema : Schema JsValue JsValue
  jsonSchema : Option JsValue := none
  schemaName : Option String := none

structure StructuredCompletion where
  data : JsValue
  tokensUsed : Nat

/-- A model client: its answer is a function of the request. -/
abbrev LlmClient := StructuredRequest → Except Thrown StructuredCompletion

structure OcrContextFile where
  sha256 : Sha256Hex
  mimeGroup : MimeGroup
  sizeBytes : Nat
  originalName : String
  buffer : Buffer

structure OcrContext where
  doc : RecognizedDocument
  file : OcrContextFile
  requestId : String
  tenantId : String
  llm : LlmClient
  logger : Logger

inductive ResultSchema (TArgs TResult : Type) where
  | static (schema : Schema TResult TResult)
  | dynamic (schema : TArgs → Schema TResult TResult)

structure OcrFunctionDefinition (TArgs TResult : Type) where
  key : OcrFunctionKey
  accepts : List MimeGroup
  requires : List Capability
  sensitivity : Sensitivity
  maxPages : Nat
  skipExtraction : Bool := false
  argsSchema : ArgsSchema TArgs
  resultSchema : ResultSchema TArgs TResult
  execute : OcrContext → TArgs → Except Thrown TResult

def resolveResultSchema {TArgs TResult : Type} (d : OcrFunctionDefinition TArgs TResult)
    (args : TArgs) : Schema TResult TResult :=
  match d.resultSchema with
  | .static schema => schema
  | .dynamic schema => schema args

abbrev AnyOcrFunctionDefinition := OcrFunctionDefinition JsValue JsValue

/-- What a function's own folder supplies: its schemas and its `execute`. -/
structure FunctionBody where
  argsSchema : ArgsSchema JsValue
  resultSchema : ResultSchema JsValue JsValue
  execute : OcrContext → JsValue → Except Thrown JsValue

def defineOcrFunction (key : OcrFunctionKey) (accepts : List MimeGroup)
    (requires : List Capability) (sensitivity : Sensitivity) (maxPages : Nat)
    (body : FunctionBody) (skipExtraction : Bool := false) : AnyOcrFunctionDefinition where
  key := key
  accepts := accepts
  requires := requires
  sensitivity := sensitivity
  maxPages := maxPages
  skipExtraction := skipExtraction
  argsSchema := body.argsSchema
  resultSchema := body.resultSchema
  execute := body.execute

def textExtraction : FunctionBody → AnyOcrFunctionDefinition :=
  (defineOcrFunction .TEXT_EXTRACTION [.pdf, .image, .docx, .text] [.text] .standard 100 ·)

def documentClassification : FunctionBody → AnyOcrFunctionDefinition :=
  (defineOcrFunction .DOCUMENT_CLASSIFICATION [.pdf, .image, .docx] [.text] .standard 100 ·)

def receiptParsing : FunctionBody → AnyOcrFunctionDefinition :=
  (defineOcrFunction .RECEIPT_PARSING [.pdf, .image] [.text, .tables] .standard 5 ·)

def formDataExtraction : FunctionBody → AnyOcrFunctionDefinition :=
  (defineOcrFunction .FORM_DATA_EXTRACTION [.pdf, .image, .docx] [.text] .standard 20 ·)

def resumeParsing : FunctionBody → AnyOcrFunctionDefinition :=
  (defineOcrFunction .RESUME_PARSING [.pdf, .image, .docx] [.text, .layout] .pii 10 ·)

def idVerification : FunctionBody → AnyOcrFunctionDefinition :=
  (defineOcrFunction .ID_VERIFICATION [.pdf, .image] [.text, .layout] .pii 4 ·)

def signing : FunctionBody → AnyOcrFunctionDefinition :=
  (defineOcrFunction .SIGNING [.pdf, .image] [.layout, .seals] .standard 30 ·)

def documentAuthenticity : FunctionBody → AnyOcrFunctionDefinition :=
  (defineOcrFunction .DOCUMENT_AUTHENTICITY [.pdf, .image] [] .standard 1000 · true)

def definitions (bodies : OcrFunctionKey → FunctionBody) : List AnyOcrFunctionDefinition :=
  [textExtraction (bodies .TEXT_EXTRACTION),
    documentClassification (bodies .DOCUMENT_CLASSIFICATION),
    receiptParsing (bodies .RECEIPT_PARSING),
    formDataExtraction (bodies .FORM_DATA_EXTRACTION),
    resumeParsing (bodies .RESUME_PARSING),
    idVerification (bodies .ID_VERIFICATION),
    signing (bodies .SIGNING),
    documentAuthenticity (bodies .DOCUMENT_AUTHENTICITY)]

/-- `getFunction`: the keys of the catalog are distinct, so the `Map` built from it
finds the one definition of that key. -/
def getFunction (bodies : OcrFunctionKey → FunctionBody) (key : String) :
    Option AnyOcrFunctionDefinition :=
  (definitions bodies).find? fun d => d.key.name = key

theorem getFunction_key (bodies : OcrFunctionKey → FunctionBody) {d : AnyOcrFunctionDefinition}
    (h : d ∈ definitions bodies) : getFunction bodies d.key.name = some d := by
  simp only [definitions, List.mem_cons, List.not_mem_nil, or_false] at h
  obtain rfl | rfl | rfl | rfl | rfl | rfl | rfl | rfl := h <;> rfl

end OcrService
