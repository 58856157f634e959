import OcrService.Calls
import OcrService.Jobs

/-! `POST /v1/ocr/:function` from the route body on (`http/routes.ts`, `http/respond.ts`):
the checks, the choice between queue and pipeline, and the response. -/
namespace OcrService
open Interaction

/-- The `args` form field: absent or empty, a string with what `JSON.parse` makes of it
(`none` where it throws), or a value that is no string. -/
inductive ArgsField where
  | missing
  | text (parsed : Option JsValue)
  | value (raw : JsValue)

def parseArgsField : ArgsField → Except Thrown JsValue
  | .missing => .ok (.obj [])
  | .text (some args) => .ok args
  | .text none =>
    .error (.ocr { code := .INVALID_ARGS
                   message := "The 'args' field must be a valid JSON string" })
  | .value raw => .ok raw

/-- A request as it reaches the route body; `function` is the path parameter. -/
structure Post where
  function : String
  file : Option UploadedFile
  args : ArgsField
  requestId : String
  tenantId : String
  timings : Timings

inductive ResponseBody where
  | accepted (jobId statusUrl : String)
  | success (requestId function : String) (result : JsValue) (info : OcrResponseMeta)
  | error (body : ErrorBody)

structure HttpResponse where
  status : Nat
  body : ResponseBody

def sendSuccess (status : Nat) (requestId function : String) (outcome : OcrOutcome JsValue) :
    HttpResponse := ⟨status, .success requestId function outcome.result outcome.info⟩

def sendAccepted (jobId : String) : HttpResponse :=
  ⟨202, .accepted jobId ("/v1/ocr/jobs/" ++ jobId)⟩

def errorResponse (requestId : String) (err : Thrown) : HttpResponse :=
  ⟨(errorHandler requestId err).1, .error (errorHandler requestId err).2⟩

def pdfSignature : Buffer := [0x25, 0x50, 0x44, 0x46, 0x2D]

def pdfPageCount (pkg : Packages) (buffer : Buffer) : Nat :=
  if buffer.take 5 ≠ pdfSignature then 0 else (pkg.pdfLibPageCount buffer).getD 0

def shouldRunAsync (deps : PipelineDeps) (buffer : Buffer) : Bool :=
  if buffer.length > deps.env.ASYNC_SIZE_THRESHOLD_BYTES then true
  else pdfPageCount deps.pkg buffer > deps.env.ASYNC_PAGE_THRESHOLD

def Post.accept (bodies : OcrFunctionKey → FunctionBody) (p : Post) :
    Except Thrown (AnyOcrFunctionDefinition × OcrRequest) :=
  match getFunction bodies p.function with
  | none => .error (unknownFunction p.function)
  | some d =>
    match p.file with
    | none =>
      .error (.ocr { code := .INVALID_ARGS, message := "File is required in the 'file' field" })
    | some file =>
      (parseArgsField p.args).map fun args =>
        (d, { file, args, requestId := p.requestId, tenantId := p.tenantId })

def enqueueJob (d : AnyOcrFunctionDefinition) (request : OcrRequest) :
    Service (Except Thrown HttpResponse) := do
  match ← Service.enqueue { function := d.key.name, request } with
  | .ok jobId => .ret (.ok (sendAccepted jobId))
  | .error err =>
    .ret (.error (.ocr { code := .PROVIDER_UNAVAILABLE
                         message := "Could not enqueue the async job"
                         retryable := true
                         details := some (.str err.text) }))

def respondNow (deps : PipelineDeps) (d : AnyOcrFunctionDefinition) (request : OcrRequest)
    (t : Timings) : Service (Except Thrown HttpResponse) := do
  match ← runPipeline d request deps t with
  | .ok outcome => .ret (.ok (sendSuccess 200 request.requestId d.key.name outcome))
  | .error err => .ret (.error err)

/-- Large jobs of standard functions go to the queue, everything else is processed now. -/
def dispatch (deps : PipelineDeps) (d : AnyOcrFunctionDefinition) (request : OcrRequest)
    (t : Timings) : Service (Except Thrown HttpResponse) :=
  if d.sensitivity = .standard && shouldRunAsync deps request.file.buffer then
    enqueueJob d request
  else respondNow deps d request t

def postFunction (bodies : OcrFunctionKey → FunctionBody) (deps : PipelineDeps) (p : Post) :
    Service HttpResponse :=
  match p.accept bodies with
  | .error err => .ret (errorResponse p.requestId err)
  | .ok (d, request) => do
    match ← dispatch deps d request p.timings with
    | .ok response => .ret response
    | .error err => .ret (errorResponse p.requestId err)

structure Outages where
  cacheReadFails : Bool := false
  cacheWriteFails : Bool := false
  queueDown : Option Thrown := none

/-- Any number of posts over one world, interleaved operation by operation, with providers
whose results depend on what they are asked only. -/
def ocrRouter (bodies : OcrFunctionKey → FunctionBody) (deps : PipelineDeps)
    (recognize : OcrProvider → DocumentInput → RecognizeOptions →
      Except Thrown RecognizedDocument) :
    Machine Post ServiceOp ServiceOp.Answer HttpResponse Outages WorldEvent World where
  start := postFunction bodies deps
  handle outages := World.handle
    { recognize, cacheReadFails := outages.cacheReadFails,
      cacheWriteFails := outages.cacheWriteFails, queueDown := outages.queueDown }
  env := World.happen

end OcrService
