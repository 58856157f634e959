import OcrService.Jobs
import OcrService.Middleware

/-! `GET /v1/ocr/jobs/:id` (`http/routes.ts`): what a tenant can learn about the queue. -/
namespace OcrService

/-- The queue as one lookup sees it: `getJob` reads the job, `getState` its state a moment
later. -/
structure JobQueue where
  jobs : String → Option Job
  stateLater : String → JobState

def JobQueue.still (jobs : String → Option Job) : JobQueue where
  jobs := jobs
  stateLater jobId := ((jobs jobId).map Job.state).getD .unknown

def JobQueue.getStatus (queue : JobQueue) (jobId : String) : Option JobRecord :=
  (queue.jobs jobId).map fun job =>
    OcrService.getStatus jobId { job with state := queue.stateLater jobId }

structure PublicRecord where
  jobId : String
  status : JobStatus
  result : Option (OcrOutcome JsValue)
  error : Option (String × String)

def stripInternal (record : JobRecord) : PublicRecord where
  jobId := record.jobId
  status := record.status
  result := record.result
  error := record.error

structure JobGet where
  id : Option String
  headers : ApiHeaders
  ip : Option String
  requestId : String

inductive JobBody where
  | found (requestId : String) (record : PublicRecord)
  | error (body : ErrorBody)

structure JobResponse where
  status : Nat
  body : JobBody

structure Gate where
  env : GateEnv
  resolveTenant : String → Except String (Option Tenant)
  underLimit : String → Int → Except String Bool

def Gate.rateLimit (gate : Gate) (caller : Caller) (ip : Option String) : Except Thrown Unit :=
  if gate.env.RATE_LIMIT_ENABLED then
    let max := limitMax gate.env caller
    limitVerdict gate.env max (gate.underLimit (limitId caller ip) max)
  else .ok ()

def Gate.admitted (gate : Gate) (headers : ApiHeaders) (ip : Option String) :
    Except Thrown Caller :=
  match auth gate.env gate.resolveTenant headers with
  | .error err => .error err
  | .ok caller => (gate.rateLimit caller ip).map fun _ => caller

def crossTenant (record : JobRecord) (tenantId : String) : Bool :=
  record.tenantId ≠ "" && tenantId ≠ "" && record.tenantId ≠ tenantId

def jobNotFound (jobId : String) : Thrown :=
  .ocr { code := .NOT_FOUND, message := "Job '" ++ jobId ++ "' not found" }

def jobRecordFor (queue : JobQueue) (tenantId jobId : String) : Except Thrown JobRecord :=
  match queue.getStatus jobId with
  | none => .error (jobNotFound jobId)
  | some record => if crossTenant record tenantId then .error (jobNotFound jobId) else .ok record

def respondWith (requestId : String) : Except Thrown JobRecord → JobResponse
  | .ok record => ⟨200, .found requestId (stripInternal record)⟩
  | .error err => ⟨(errorHandler requestId err).1, .error (errorHandler requestId err).2⟩

def getJob (gate : Gate) (queue : JobQueue) (req : JobGet) : JobResponse :=
  respondWith req.requestId <|
    (gate.admitted req.headers req.ip).bind fun caller =>
      jobRecordFor queue caller.tenantId (req.id.getD "")

def Job.tenantId (job : Job) : String := job.data.request.tenantId

/-- Whatever else the queues hold, `tenantId` has the same jobs in both, in the same states. -/
def AgreeOn (tenantId : String) (queue queue' : JobQueue) : Prop :=
  ∀ jobId job, job.tenantId = tenantId →
    (queue.jobs jobId = some job ↔ queue'.jobs jobId = some job) ∧
    (queue.jobs jobId = some job → queue.stateLater jobId = queue'.stateLater jobId)

def Foreign (queue : JobQueue) (tenantId jobId : String) : Prop :=
  ∀ job, queue.jobs jobId = some job → job.tenantId ≠ tenantId

def TenantsNamed (queue : JobQueue) : Prop :=
  ∀ jobId job, queue.jobs jobId = some job → job.tenantId ≠ ""

theorem AgreeOn.foreign {tenantId jobId : String} {queue queue' : JobQueue}
    (h : AgreeOn tenantId queue queue') (hf : Foreign queue tenantId jobId) :
    Foreign queue' tenantId jobId := fun job hjob ht => hf job ((h jobId job ht).1.mpr hjob) ht

theorem jobRecordFor_foreign {queue : JobQueue} {tenantId jobId : String}
    (hnamed : TenantsNamed queue) (ht : tenantId ≠ "") (hf : Foreign queue tenantId jobId) :
    jobRecordFor queue tenantId jobId = .error (jobNotFound jobId) := by
  unfold jobRecordFor JobQueue.getStatus
  cases hjob : queue.jobs jobId with
  | none => rfl
  | some job =>
    have hcross : crossTenant (getStatus jobId { job with state := queue.stateLater jobId })
        tenantId = true := by
      simp only [crossTenant, getStatus, Bool.and_eq_true, decide_eq_true_eq]
      exact ⟨⟨hnamed jobId job hjob, ht⟩, hf job hjob⟩
    exact if_pos hcross

/-- Nothing but the tenant's own jobs decides what the tenant is told. -/
theorem jobRecordFor_congr {queue queue' : JobQueue} {tenantId : String}
    (hnamed : TenantsNamed queue) (hnamed' : TenantsNamed queue') (ht : tenantId ≠ "")
    (hagree : AgreeOn tenantId queue queue') (jobId : String) :
    jobRecordFor queue tenantId jobId = jobRecordFor queue' tenantId jobId := by
  by_cases hf : Foreign queue tenantId jobId
  · rw [jobRecordFor_foreign hnamed ht hf, jobRecordFor_foreign hnamed' ht (hagree.foreign hf)]
  · simp only [Foreign, not_forall, not_not] at hf
    obtain ⟨job, hjob, hown⟩ := hf
    obtain ⟨hsame, hstate⟩ := hagree jobId job hown
    unfold jobRecordFor JobQueue.getStatus
    rw [hjob, hsame.mp hjob, hstate hjob]

theorem getJob_congr {gate : Gate} {queue queue' : JobQueue} {req : JobGet} {caller : Caller}
    (hcaller : auth gate.env gate.resolveTenant req.headers = .ok caller)
    (h : jobRecordFor queue caller.tenantId (req.id.getD "") =
      jobRecordFor queue' caller.tenantId (req.id.getD "")) :
    getJob gate queue req = getJob gate queue' req := by
  have hadmitted : gate.admitted req.headers req.ip =
      (gate.rateLimit caller req.ip).map fun _ => caller := by
    unfold Gate.admitted
    rw [hcaller]
  unfold getJob
  rw [hadmitted]
  cases gate.rateLimit caller req.ip with
  | error err => rfl
  | ok _ => exact congrArg (respondWith req.requestId) h

/-- A tenant is answered alike by any two queues that agree on the tenant's own jobs, and a
job of somebody else like no job at all. -/
theorem getJob_indistinguishable (gate : Gate) (queue queue' : JobQueue) (req : JobGet)
    (caller : Caller) (hcaller : auth gate.env gate.resolveTenant req.headers = .ok caller)
    (ht : caller.tenantId ≠ "") (hnamed : TenantsNamed queue) (hnamed' : TenantsNamed queue') :
    (AgreeOn caller.tenantId queue queue' → getJob gate queue req = getJob gate queue' req) ∧
    (Foreign queue caller.tenantId (req.id.getD "") →
      getJob gate queue req = getJob gate (.still fun _ => none) req) := by
  constructor
  · intro hagree
    exact getJob_congr hcaller (jobRecordFor_congr hnamed hnamed' ht hagree _)
  · intro hf
    refine getJob_congr hcaller ?_
    rw [jobRecordFor_foreign hnamed ht hf]
    rfl

namespace Sample

def adaGate : Gate where
  env := defaultGateEnv
  resolveTenant key := .ok (if key = "ada-key" then some { tenantId := "ada" } else none)
  underLimit _ _ := .ok true

def bobQueue : JobQueue :=
  .still fun jobId => if jobId = "1" then
    some { data := { function := "language",
                     request := { bytes := .other, originalName := "a.txt", args := .null,
                                  requestId := "req_1", tenantId := "bob" } },
           state := .completed }
  else none

theorem bobQueue_tenantId {jobId : String} {job : Job} (h : bobQueue.jobs jobId = some job) :
    job.tenantId = "bob" := by
  obtain ⟨-, he⟩ : jobId = "1" ∧ _ := by simpa [bobQueue, JobQueue.still] using h
  rw [← he]
  rfl

def adaGet : JobGet where
  id := some "1"
  headers := { authorization := some "Bearer ada-key" }
  ip := none
  requestId := "req_2"

/-- Asked for the job of the other tenant. -/
theorem getJob_indistinguishable_bob :
    getJob adaGate bobQueue adaGet = getJob adaGate (.still fun _ => none) adaGet ∧
      (getJob adaGate bobQueue adaGet).status = 404 := by
  have h := getJob_indistinguishable adaGate bobQueue (.still fun _ => none) adaGet
    { tenantId := "ada", tenant := some { tenantId := "ada" } } (by rfl) (by decide)
    (fun jobId job hjob => by rw [bobQueue_tenantId hjob]; decide)
    (fun jobId job hjob => nomatch hjob)
  have hforeign : Foreign bobQueue "ada" "1" := fun job hjob => by
    rw [bobQueue_tenantId hjob]
    decide
  have hagree : AgreeOn "ada" bobQueue (.still fun _ => none) := fun jobId job ht => by
    have hne : bobQueue.jobs jobId ≠ some job := fun hjob => by
      rw [bobQueue_tenantId hjob] at ht
      exact absurd ht (by decide)
    exact ⟨⟨fun hjob => absurd hjob hne, fun hjob => nomatch hjob⟩, fun hjob => absurd hjob hne⟩
  exact ⟨h.1 hagree, by rw [h.2 hforeign]; rfl⟩

end Sample

end OcrService
