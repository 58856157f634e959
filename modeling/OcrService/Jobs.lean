import OcrService.Pipeline

/-! The asynchronous path (`jobs/queue.ts`, `jobs/worker.ts`): what Redis keeps of a job,
what the worker makes of it, and what the status lookup gives back. -/
namespace OcrService
open Interaction

/-- The `unknown` that `toBuffer` is given: bytes, an object with or without an array
under `data`, or anything else. -/
inductive JobBytes where
  | buffer (b : Buffer)
  | object (data : Option (List Nat))
  | other

/-- `JSON.parse(JSON.stringify(buffer))`, which is `{ type: "Buffer", data: number[] }`. -/
def JobBytes.throughJson : JobBytes → JobBytes
  | buffer b => object (some (b.map UInt8.toNat))
  | bytes => bytes

structure JobRequest where
  bytes : JobBytes
  originalName : String
  args : JsValue
  requestId : String
  tenantId : String

structure JobData where
  function : String
  request : JobRequest

def OcrJobData.toJob (data : OcrJobData) : JobData where
  function := data.function
  request :=
    { bytes := .buffer data.request.file.buffer, originalName := data.request.file.originalName,
      args := data.request.args, requestId := data.request.requestId,
      tenantId := data.request.tenantId }

/-- Job data as BullMQ hands it to the worker: written to Redis and read back. -/
def JobData.throughJson (data : JobData) : JobData :=
  { data with request := { data.request with
      bytes := data.request.bytes.throughJson
      args := data.request.args.throughJson } }

/-- `Buffer.from(array)` keeps the low eight bits of every element. -/
def toBuffer : JobBytes → Except Thrown Buffer
  | .buffer b => .ok b
  | .object (some data) => .ok (data.map UInt8.ofNat)
  | .object none | .other =>
    .error (.ocr { code := .EXTRACTION_FAILED
                   message := "Job payload is missing valid file bytes" })

def reviveRequest (request : JobRequest) : Except Thrown OcrRequest :=
  (toBuffer request.bytes).map fun buffer =>
    { file := { buffer, originalName := request.originalName }, args := request.args,
      requestId := request.requestId, tenantId := request.tenantId }

theorem reviveRequest_throughJson (data : OcrJobData) :
    reviveRequest data.toJob.throughJson.request =
      .ok { data.request with args := data.request.args.throughJson } := by
  have hbytes : (data.request.file.buffer.map UInt8.toNat).map UInt8.ofNat =
      data.request.file.buffer := by
    rw [List.map_map]
    exact (List.map_congr_left fun b _ => UInt8.ofNat_toNat).trans (List.map_id _)
  simp only [reviveRequest, OcrJobData.toJob, JobData.throughJson, JobBytes.throughJson, toBuffer,
    hbytes]
  rfl

def unknownFunction (fnKey : String) : Thrown :=
  .ocr { code := .INVALID_ARGS, message := "Unknown function '" ++ fnKey ++ "'" }

def processJob (bodies : OcrFunctionKey → FunctionBody) (deps : PipelineDeps) (t : Timings)
    (data : JobData) : Service (Except Thrown (OcrOutcome JsValue)) :=
  match getFunction bodies data.function with
  | none => .ret (.error (unknownFunction data.function))
  | some d =>
    match reviveRequest data.request with
    | .error err => .ret (.error err)
    | .ok request => runPipeline d request deps t

def encodeJobError (code : OcrErrorCode) (message : String) : String := code.name ++ ": " ++ message

/-- The `catch` of the worker: what is thrown to BullMQ. -/
def rethrown : Thrown → Thrown
  | .ocr e => .error (encodeJobError e.code e.message)
  | err => err

/-- BullMQ keeps `err?.message` of what the processor threw. -/
def failedReasonOf : Thrown → Option String
  | .ocr e => some e.message
  | .zod _ message => some message
  | .error message => some message
  | .value _ => none

inductive JobState where
  | completed | failed | active | waiting | delayed | prioritized | waitingChildren | unknown
  deriving DecidableEq

inductive JobStatus where
  | queued | active | completed | failed
  deriving DecidableEq

def toStatus : JobState → JobStatus
  | .completed => .completed
  | .failed => .failed
  | .active => .active
  | _ => .queued

structure Job where
  data : JobData
  state : JobState := .waiting
  returnvalue : Option (OcrOutcome JsValue) := none
  failedReason : Option String := none

def OcrOutcome.throughJson (o : OcrOutcome JsValue) : OcrOutcome JsValue :=
  { o with result := o.result.throughJson }

def Job.settle (job : Job) : Except Thrown (OcrOutcome JsValue) → Job
  | .ok o => { job with state := .completed, returnvalue := some o.throughJson }
  | .error err => { job with state := .failed, failedReason := failedReasonOf (rethrown err) }

structure JobRecord where
  jobId : String
  status : JobStatus
  tenantId : String
  result : Option (OcrOutcome JsValue) := none
  error : Option (String × String) := none

def isCodeChar (c : Char) : Bool := c.isUpper || c = '_'

/-- `/^([A-Z_]+): ([\s\S]*)$/`: no code character is a colon, so the first group is all
the code characters the text starts with. -/
def decodeJobError (failedReason : Option String) : String × String :=
  let raw := failedReason.getD "job failed"
  let code := String.ofList (raw.toList.takeWhile isCodeChar)
  match raw.toList.dropWhile isCodeChar with
  | ':' :: ' ' :: message =>
    if (OcrErrorCode.ofName code).isSome then (code, String.ofList message)
    else (OcrErrorCode.EXTRACTION_FAILED.name, raw)
  | _ => (OcrErrorCode.EXTRACTION_FAILED.name, raw)

def getStatus (jobId : String) (job : Job) : JobRecord :=
  let status := toStatus job.state
  { jobId, status, tenantId := job.data.request.tenantId
    result := if status = .completed then job.returnvalue else none
    error := if status = .failed then some (decodeJobError job.failedReason) else none }

theorem isCodeChar_name (code : OcrErrorCode) : ∀ c ∈ code.name.toList, isCodeChar c = true := by
  have hall : code.name.toList.all isCodeChar = true := by cases code <;> rfl
  exact List.all_eq_true.mp hall

/-- The typed code comes back out of the text, with the message behind it. -/
theorem decodeJobError_encodeJobError (code : OcrErrorCode) (message : String) :
    decodeJobError (some (encodeJobError code message)) = (code.name, message) := by
  have hraw : (encodeJobError code message).toList =
      code.name.toList ++ ':' :: ' ' :: message.toList := by
    simp [encodeJobError, String.toList_append]
  have htake : (encodeJobError code message).toList.takeWhile isCodeChar = code.name.toList := by
    rw [hraw, List.takeWhile_append_of_pos (isCodeChar_name code)]
    simp [show isCodeChar ':' = false by decide]
  have hdrop : (encodeJobError code message).toList.dropWhile isCodeChar =
      ':' :: ' ' :: message.toList := by
    rw [hraw, List.dropWhile_append_of_pos (isCodeChar_name code)]
    simp [show isCodeChar ':' = false by decide]
  simp only [decodeJobError, Option.getD_some, htake, hdrop, String.ofList_toList,
    OcrErrorCode.ofName_name, Option.isSome_some, if_true]

theorem encodeJobError_injective {code code' : OcrErrorCode} {message message' : String}
    (h : encodeJobError code message = encodeJobError code' message') :
    code = code' ∧ message = message' := by
  have hdecoded := congrArg (fun raw => decodeJobError (some raw)) h
  simp only [decodeJobError_encodeJobError, Prod.mk.injEq] at hdecoded
  have hcode := congrArg OcrErrorCode.ofName hdecoded.1
  rw [OcrErrorCode.ofName_name, OcrErrorCode.ofName_name] at hcode
  exact ⟨Option.some.inj hcode, hdecoded.2⟩

/-- A text the decoder splits is one the encoder writes. -/
theorem decodeJobError_other {raw : String}
    (h : ∀ code message, raw ≠ encodeJobError code message) :
    decodeJobError (some raw) = (OcrErrorCode.EXTRACTION_FAILED.name, raw) := by
  simp only [decodeJobError, Option.getD_some]
  split
  · rename_i message hrest
    cases hcode : OcrErrorCode.ofName (String.ofList (raw.toList.takeWhile isCodeChar)) with
    | none => rfl
    | some code =>
      refine absurd ?_ (h code (String.ofList message))
      have hname : code.name = String.ofList (raw.toList.takeWhile isCodeChar) := by
        simpa using List.find?_some hcode
      have hsplit := List.takeWhile_append_dropWhile (p := isCodeChar) (l := raw.toList)
      rw [hrest] at hsplit
      rw [encodeJobError, hname, ← String.toList_inj, String.toList_append, String.toList_append,
        String.toList_ofList, List.append_assoc, String.toList_ofList (l := message)]
      exact hsplit.symm
  · rfl

/-- What a job that failed is reported with: the typed error the worker caught, which no other
error is written like, or the reason as it stands. -/
theorem getStatus_failed :
    (∀ (jobId : String) (job : Job) (e : OcrError),
      (getStatus jobId (job.settle (.error (.ocr e)))).status = .failed ∧
      (getStatus jobId (job.settle (.error (.ocr e)))).error = some (e.code.name, e.message)) ∧
    (∀ (code code' : OcrErrorCode) (message message' : String),
      encodeJobError code message = encodeJobError code' message' →
      code = code' ∧ message = message') ∧
    ∀ (jobId : String) (job : Job) (raw : String),
      (∀ code message, raw ≠ encodeJobError code message) →
      (getStatus jobId { job with state := .failed, failedReason := some raw }).error =
        some (OcrErrorCode.EXTRACTION_FAILED.name, raw) := by
  refine ⟨fun jobId job e => ⟨rfl, ?_⟩, fun _ _ _ _ => encodeJobError_injective, ?_⟩
  · exact congrArg some (decodeJobError_encodeJobError e.code e.message)
  · intro jobId job raw h
    exact congrArg some (decodeJobError_other h)

end OcrService
