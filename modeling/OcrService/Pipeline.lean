import OcrService.Cache
import OcrService.Service

/-! The per-request pipeline (`pipeline.ts`). Differences of `Date.now()` enter as
`Timings`; nothing but the durations reported depends on them. -/
namespace OcrService
open Interaction

structure OcrResponseMeta where
  provider : String
  fellBackFrom : Option String
  pageCount : Nat
  cached : Bool
  durationMs : Int
  tokensUsed : Option Nat
  deriving DecidableEq

structure OcrOutcome (TResult : Type) where
  result : TResult
  info : OcrResponseMeta

/-- `PipelineDeps` without the cache, which is reached through operations, and with the
modules the pipeline imports. -/
structure PipelineDeps where
  llm : LlmClient
  logger : Logger
  providers : List OcrProvider
  policy : ProviderPolicy
  env : Env
  pkg : Packages

structure ExtractOutput where
  doc : RecognizedDocument
  cached : Bool

structure Timings where
  ingestMs : Int
  interpretMs : Int
  durationMs : Int

section
variable {TArgs TResult : Type}

def emptyDocument : RecognizedDocument where
  markdown := ""
  plainText := ""
  pages := []
  blocks := []
  pageCount := 0
  provider := "none"
  durationMs := 0

def orEmptyObject : JsValue → JsValue
  | .null => .obj []
  | raw => raw

def parseArgs (d : OcrFunctionDefinition TArgs TResult) (raw : JsValue) : Except Thrown TArgs :=
  match d.argsSchema (orEmptyObject raw) with
  | .ok args => .ok args
  | .error (.issues issues) =>
    .error (.ocr { code := .INVALID_ARGS, message := "Invalid function arguments",
                   details := some issues })
  | .error (.overflow err) => .error err.thrown

def ingest (pkg : Packages) (req : OcrRequest) : Except Thrown DocumentInput :=
  match sniff pkg req.file.buffer with
  | none =>
    .error (.ocr { code := .UNSUPPORTED_MEDIA_TYPE,
                   message := "Could not determine a supported file type" })
  | some sniffed =>
    .ok { buffer := req.file.buffer, mimeGroup := sniffed.mimeGroup,
          sha256 := pkg.sha256 req.file.buffer, originalName := req.file.originalName }

def allFailed (chain : List OcrProvider) (lastError : Option Thrown) : Thrown :=
  .ocr { code := .EXTRACTION_FAILED
         message := "All providers failed: " ++ ", ".intercalate (chain.map OcrProvider.name)
         retryable := true
         details := some (.str (match lastError with
           | some err => err.text
           | none => "undefined")) }

/-- The loop of `recognizeWithFallback` from index `i` on. A sink that rejects the
fallback count throws inside the `try`, so the next provider is tried. -/
def tryProviders (primary : OcrProvider) (chain : List OcrProvider) (input : DocumentInput)
    (opts : RecognizeOptions) :
    Nat → List OcrProvider → Option Thrown → Service (Except Thrown RecognizedDocument)
  | _, [], lastError => .ret (.error (allFailed chain lastError))
  | i, provider :: rest, _ => do
    match ← Service.recognize provider input opts with
    | .error err => tryProviders primary chain input opts (i + 1) rest (some err)
    | .ok doc =>
      if i > 0 then
        match ← Service.metric (fallbackSample primary.name provider.name) with
        | .error err => tryProviders primary chain input opts (i + 1) rest (some err)
        | .ok () => .ret (.ok { doc with fellBackFrom := some primary.name })
      else .ret (.ok doc)

def recognizeWithFallback (primary : OcrProvider) (fallbacks : List OcrProvider)
    (input : DocumentInput) (opts : RecognizeOptions) :
    Service (Except Thrown RecognizedDocument) :=
  tryProviders primary (primary :: fallbacks) input opts 0 (primary :: fallbacks) none

def routeInput (d : OcrFunctionDefinition TArgs TResult) (input : DocumentInput)
    (deps : PipelineDeps) : RouteInput where
  group := input.mimeGroup
  required := d.requires
  fn := d.key
  policy := deps.policy

def usesCache (d : OcrFunctionDefinition TArgs TResult) : Bool := d.sensitivity = .standard

/-- `if (usesCache) { const hit = await deps.cache.get(key); ... }`. -/
def cacheLookup (d : OcrFunctionDefinition TArgs TResult) (key : String) :
    Service (Option RecognizedDocument) :=
  if usesCache d then Service.cacheGet key else .ret none

/-- `if (usesCache) await deps.cache.set(...)`: the key names the provider that answered. -/
def cacheStore (d : OcrFunctionDefinition TArgs TResult) (input : DocumentInput)
    (deps : PipelineDeps) (doc : RecognizedDocument) : Service Unit :=
  if usesCache d then
    Service.cacheSet (extractionCacheKey input.sha256 doc.provider) doc
      deps.env.EXTRACTION_CACHE_TTL_SECONDS
  else .ret ()

def recognizeAndStore (d : OcrFunctionDefinition TArgs TResult) (input : DocumentInput)
    (opts : RecognizeOptions) (deps : PipelineDeps) (route : RoutingDecision) :
    Service (Except Thrown ExtractOutput) := do
  match ← recognizeWithFallback route.provider route.fallbacks input opts with
  | .error err => .ret (.error err)
  | .ok doc =>
    cacheStore d input deps doc
    .ret (.ok { doc, cached := false })

/-- Stage 2: route, look up, recognise, store. -/
def extractDocument (d : OcrFunctionDefinition TArgs TResult) (input : DocumentInput)
    (opts : RecognizeOptions) (deps : PipelineDeps) : Service (Except Thrown ExtractOutput) :=
  match routeProvider deps.providers (routeInput d input deps) with
  | .error err => .ret (.error err)
  | .ok route => do
    match ← cacheLookup d (extractionCacheKey input.sha256 route.provider.name) with
    | some hit => .ret (.ok { doc := hit, cached := true })
    | none => recognizeAndStore d input opts deps route

def interpret (d : OcrFunctionDefinition TArgs TResult) (ctx : OcrContext) (args : TArgs) :
    Except Thrown TResult :=
  match d.execute ctx args with
  | .error (.ocr e) => .error (.ocr e)
  | .error err =>
    .error (.ocr { code := .INTERPRETATION_FAILED, message := d.key.name ++ " execution failed",
                   details := some (.str err.text) })
  | .ok raw =>
    match resolveResultSchema d args raw with
    | .ok data => .ok data
    | .error issues =>
      .error (.ocr { code := .SCHEMA_VALIDATION_FAILED,
                     message := d.key.name ++ " produced an invalid result",
                     details := some issues })

def requestLogger (d : OcrFunctionDefinition TArgs TResult) (req : OcrRequest)
    (deps : PipelineDeps) : Logger :=
  let logger :=
    Logger.child [("requestId", .str req.requestId), ("function", .str d.key.name)] deps.logger
  if d.sensitivity ≠ .standard then .redacting logger else logger

def buildContext (d : OcrFunctionDefinition TArgs TResult) (req : OcrRequest)
    (deps : PipelineDeps) (input : DocumentInput) (doc : RecognizedDocument) : OcrContext where
  doc := doc
  file :=
    { sha256 := input.sha256, mimeGroup := input.mimeGroup, sizeBytes := input.buffer.length,
      originalName := input.originalName, buffer := input.buffer }
  requestId := req.requestId
  tenantId := req.tenantId
  llm := deps.llm
  logger := requestLogger d req deps

def recognizeOptions (req : OcrRequest) : RecognizeOptions where
  requestId := some req.requestId
  userIdHash := some req.tenantId

/-- The variables the `catch` of `runPipeline` reads, as the `try` leaves them.
`ingestMs` is set together with `input`. -/
structure Locals where
  input : Option DocumentInput := none
  doc : Option RecognizedDocument := none
  cached : Bool := false

def conclude (d : OcrFunctionDefinition TArgs TResult) (req : OcrRequest) (deps : PipelineDeps)
    (args : TArgs) (input : DocumentInput) (doc : RecognizedDocument) : Except Thrown TResult :=
  if doc.pageCount > d.maxPages then
    .error (.ocr { code := .PAGE_LIMIT_EXCEEDED
                   message := d.key.name ++ " allows " ++ toString d.maxPages ++
                     " pages; got " ++ toString doc.pageCount })
  else interpret d (buildContext d req deps input doc) args

def checkRequest (d : OcrFunctionDefinition TArgs TResult) (req : OcrRequest)
    (deps : PipelineDeps) : Locals × Except Thrown (TArgs × DocumentInput) :=
  match parseArgs d req.args with
  | .error err => ({}, .error err)
  | .ok args =>
    match ingest deps.pkg req with
    | .error err => ({}, .error err)
    | .ok input =>
      if d.accepts.contains input.mimeGroup then ({ input := some input }, .ok (args, input))
      else
        ({ input := some input },
          .error (.ocr { code := .UNSUPPORTED_MEDIA_TYPE
                         message := d.key.name ++ " does not accept " ++ input.mimeGroup.name ++
                           " files" }))

def extraction (d : OcrFunctionDefinition TArgs TResult) (req : OcrRequest) (deps : PipelineDeps)
    (input : DocumentInput) : Service (Except Thrown ExtractOutput) :=
  if d.skipExtraction then .ret (.ok { doc := emptyDocument, cached := false })
  else extractDocument d input (recognizeOptions req) deps

def afterExtraction (d : OcrFunctionDefinition TArgs TResult) (req : OcrRequest)
    (deps : PipelineDeps) (l : Locals) (args : TArgs) (input : DocumentInput) :
    Except Thrown ExtractOutput → Locals × Except Thrown (TResult × RecognizedDocument)
  | .error err => (l, .error err)
  | .ok out =>
    ({ l with doc := some out.doc, cached := out.cached },
      (conclude d req deps args input out.doc).map fun result => (result, out.doc))

def stages (d : OcrFunctionDefinition TArgs TResult) (req : OcrRequest) (deps : PipelineDeps) :
    Service (Locals × Except Thrown (TResult × RecognizedDocument)) :=
  match checkRequest d req deps with
  | (l, .error err) => .ret (l, .error err)
  | (l, .ok (args, input)) => do
    .ret (afterExtraction d req deps l args input (← extraction d req deps input))

def Locals.metrics (l : Locals) (fn : OcrFunctionKey) (t : Timings) (interpretMs : Int)
    (outcome : RequestOutcome) : RequestMetrics where
  function := fn
  mimeGroup := (l.input.map fun i => i.mimeGroup.name).getD "unknown"
  pageCount := (l.doc.map RecognizedDocument.pageCount).getD 0
  provider := (l.doc.map RecognizedDocument.provider).getD "none"
  fellBackFrom := l.doc.bind RecognizedDocument.fellBackFrom
  cached := l.cached
  ingestMs := if l.input.isSome then t.ingestMs else 0
  extractMs := ((l.doc.map RecognizedDocument.durationMs).getD 0 : Nat)
  interpretMs := interpretMs
  tokensUsed := l.doc.bind RecognizedDocument.tokensUsed
  outcome := outcome

def responseMeta (doc : RecognizedDocument) (cached : Bool) (t : Timings) : OcrResponseMeta where
  provider := doc.provider
  fellBackFrom := doc.fellBackFrom
  pageCount := doc.pageCount
  cached := cached
  durationMs := t.durationMs
  tokensUsed := doc.tokensUsed

def fail (d : OcrFunctionDefinition TArgs TResult) (req : OcrRequest) (l : Locals) (t : Timings)
    (interpretMs : Int) (err : Thrown) : Service (Except Thrown (OcrOutcome TResult)) := do
  match ← recordRequest (l.metrics d.key t interpretMs .error) with
  | .error err' => .ret (.error err')
  | .ok () =>
    recordTenantUsage req.tenantId .error (l.doc.bind RecognizedDocument.tokensUsed)
    .ret (.error err)

/-- The rest of `runPipeline`. Success is recorded inside the `try`: a sink that throws
there leads to the `catch` as well. -/
def finish (d : OcrFunctionDefinition TArgs TResult) (req : OcrRequest) (t : Timings) :
    Locals × Except Thrown (TResult × RecognizedDocument) →
      Service (Except Thrown (OcrOutcome TResult))
  | (l, .error err) => fail d req l t 0 err
  | (l, .ok (result, doc)) => do
    match ← recordRequest (l.metrics d.key t t.interpretMs .success) with
    | .error err => fail d req l t t.interpretMs err
    | .ok () =>
      recordTenantUsage req.tenantId .success doc.tokensUsed
      .ret (.ok { result, info := responseMeta doc l.cached t })

def runPipeline (d : OcrFunctionDefinition TArgs TResult) (req : OcrRequest)
    (deps : PipelineDeps) (t : Timings) : Service (Except Thrown (OcrOutcome TResult)) := do
  finish d req t (← stages d req deps)

end
end OcrService
