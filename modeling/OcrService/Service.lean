import OcrService.Functions
import OcrService.Ingest
import OcrService.Interaction.Program

/-! Everything the request path asks of the outside: the extraction cache, the
providers, the metric sinks, the usage table and the job queue. -/
namespace OcrService
open Interaction

structure Env where
  ASYNC_PAGE_THRESHOLD : Nat := 5
  ASYNC_SIZE_THRESHOLD_BYTES : Nat := 5 * 1024 * 1024
  EXTRACTION_CACHE_TTL_SECONDS : Nat := 7 * 24 * 60 * 60
  GLM_API_KEY : Option String := none
  GLM_BASE_URL : String := "https://api.z.ai/api/paas/v4"
  GLM_ENABLED : Bool := false

structure UploadedFile where
  buffer : Buffer
  originalName : String

structure OcrRequest where
  file : UploadedFile
  args : JsValue
  requestId : String
  tenantId : String

structure OcrJobData where
  function : String
  request : OcrRequest

inductive RequestOutcome where
  | success | error
  deriving DecidableEq

def RequestOutcome.name : RequestOutcome → String
  | .success => "success"
  | .error => "error"

structure RequestMetrics where
  function : OcrFunctionKey
  mimeGroup : String
  pageCount : Nat
  provider : String
  fellBackFrom : Option String
  cached : Bool
  ingestMs : Int
  extractMs : Int
  interpretMs : Int
  tokensUsed : Option Nat
  estimatedCostNgn : Option Nat := none
  outcome : RequestOutcome

inductive CounterName where
  | requestsTotal | tokensUsedTotal | estimatedCostNgnTotal | providerFallbackTotal
  deriving DecidableEq

inductive HistogramName where
  | extractDurationMs | interpretDurationMs | pageCount
  deriving DecidableEq

abbrev Labels := List (String × String)

/-- One call of a sink: `counter.inc(labels, value)` or `histogram.observe(labels, value)`. -/
inductive MetricSample where
  | inc (counter : CounterName) (labels : Labels) (value : Nat)
  | observe (histogram : HistogramName) (labels : Labels) (value : Int)
  deriving DecidableEq

/-- `if (n) counter.inc(labels, n)`. -/
def incIfTruthy (counter : CounterName) (labels : Labels) : Option Nat → List MetricSample
  | none | some 0 => []
  | some n => [.inc counter labels n]

def RequestMetrics.samples (m : RequestMetrics) : List MetricSample :=
  let fn := ("function", m.function.name)
  let provider := ("provider", m.provider)
  .inc .requestsTotal [fn, provider, ("mime_group", m.mimeGroup), ("cached", toString m.cached),
      ("outcome", m.outcome.name)] 1 ::
    ((if m.outcome = .success then
        [.observe .extractDurationMs [fn, provider] m.extractMs,
          .observe .interpretDurationMs [fn] m.interpretMs,
          .observe .pageCount [fn] m.pageCount]
      else []) ++
      incIfTruthy .tokensUsedTotal [fn, provider] m.tokensUsed ++
      incIfTruthy .estimatedCostNgnTotal [fn] m.estimatedCostNgn)

def fallbackSample (primary answered : String) : MetricSample :=
  .inc .providerFallbackTotal [("from", primary), ("to", answered)] 1

inductive ServiceOp where
  | cacheGet (key : String)
  | cacheSet (key : String) (doc : RecognizedDocument) (ttlSeconds : Nat)
  | recognize (provider : OcrProvider) (input : DocumentInput) (opts : RecognizeOptions)
  | metric (sample : MetricSample)
  | upsertUsage (tenantId : String) (errorsDelta tokensDelta : Nat)
  | enqueue (data : OcrJobData)

/-- The cache never rejects (`RedisExtractionCache` fails open) and a usage upsert is
not awaited; every other operation may throw. -/
abbrev ServiceOp.Answer : ServiceOp → Type
  | cacheGet _ => Option RecognizedDocument
  | cacheSet _ _ _ => Unit
  | recognize _ _ _ => Except Thrown RecognizedDocument
  | metric _ => Except Thrown Unit
  | upsertUsage _ _ _ => Unit
  | enqueue _ => Except Thrown String

abbrev Service (α : Type) := Prog ServiceOp ServiceOp.Answer α

namespace Service

def cacheGet (key : String) : Service (Option RecognizedDocument) := .ask (.cacheGet key) .ret

def cacheSet (key : String) (doc : RecognizedDocument) (ttlSeconds : Nat) : Service Unit :=
  .ask (.cacheSet key doc ttlSeconds) .ret

def recognize (provider : OcrProvider) (input : DocumentInput) (opts : RecognizeOptions) :
    Service (Except Thrown RecognizedDocument) := .ask (.recognize provider input opts) .ret

def metric (sample : MetricSample) : Service (Except Thrown Unit) := .ask (.metric sample) .ret

def enqueue (data : OcrJobData) : Service (Except Thrown String) := .ask (.enqueue data) .ret

end Service

/-- Sink calls one after another; the first that throws ends it. -/
def emit : List MetricSample → Service (Except Thrown Unit)
  | [] => .ret (.ok ())
  | sample :: rest => do
    match ← Service.metric sample with
    | .ok () => emit rest
    | .error err => .ret (.error err)

def recordRequest (m : RequestMetrics) : Service (Except Thrown Unit) := emit m.samples

/-- `recordTenantUsage`: the upsert is issued and its outcome ignored. -/
def recordTenantUsage (tenantId : String) (outcome : RequestOutcome)
    (tokensUsed : Option Nat) : Service Unit :=
  .ask (.upsertUsage tenantId (if outcome = .error then 1 else 0) (tokensUsed.getD 0)) .ret

end OcrService
