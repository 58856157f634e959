import OcrService.Pipeline
import OcrService.Providers
import Mathlib.Logic.Function.Basic

/-! The world the pipeline runs in: Redis, Postgres, the metric sinks and BullMQ as the
code uses them, with the providers and the outages of each moment left open. -/
namespace OcrService
open Interaction

structure UsageRow where
  requests : Nat
  errors : Nat
  tokens : Nat
  deriving DecidableEq

structure UsageUpsert where
  tenantId : String
  errorsDelta : Nat
  tokensDelta : Nat
  deriving DecidableEq

def UsageUpsert.apply (u : UsageUpsert) : Option UsageRow → UsageRow
  | none => { requests := 1, errors := u.errorsDelta, tokens := u.tokensDelta }
  | some row =>
    { requests := row.requests + 1, errors := row.errors + u.errorsDelta,
      tokens := row.tokens + u.tokensDelta }

structure Recognition where
  provider : OcrProvider
  input : DocumentInput
  opts : RecognizeOptions
  answer : Except Thrown RecognizedDocument

/-- `recognitions`, `cacheWrites` and `samples` record what was done, in order;
`inflight` are the usage upserts issued and not yet applied. -/
structure World where
  cache : String → Option RecognizedDocument := fun _ => none
  cacheWrites : List (String × RecognizedDocument × Nat) := []
  recognitions : List Recognition := []
  samples : List MetricSample := []
  inflight : List UsageUpsert := []
  usage : String → Option UsageRow := fun _ => none
  jobs : List OcrJobData := []

structure Surroundings where
  recognize : OcrProvider → DocumentInput → RecognizeOptions → Except Thrown RecognizedDocument
  cacheReadFails : Bool := false
  cacheWriteFails : Bool := false
  queueDown : Option Thrown := none

/-- One operation. `RedisExtractionCache` turns a failed read into a miss and drops a
failed write, and a document, being plain JSON, reads back as it was stored; the sinks
accept every natural count and finite duration; BullMQ numbers the jobs. -/
def World.handle (env : Surroundings) : (o : ServiceOp) → World → o.Answer × World
  | .cacheGet key, w => (if env.cacheReadFails then none else w.cache key, w)
  | .cacheSet key doc ttl, w =>
    if env.cacheWriteFails then ((), w)
    else ((), { w with cache := Function.update w.cache key (some doc)
                       cacheWrites := w.cacheWrites ++ [(key, doc, ttl)] })
  | .recognize p input opts, w =>
    (env.recognize p input opts,
      { w with recognitions := w.recognitions ++ [⟨p, input, opts, env.recognize p input opts⟩] })
  | .metric sample, w => (.ok (), { w with samples := w.samples ++ [sample] })
  | .upsertUsage tenantId errorsDelta tokensDelta, w =>
    ((), { w with inflight := w.inflight ++ [⟨tenantId, errorsDelta, tokensDelta⟩] })
  | .enqueue data, w =>
    match env.queueDown with
    | some err => (.error err, w)
    | none => (.ok (toString (w.jobs.length + 1)), { w with jobs := w.jobs ++ [data] })

def World.drop (keys : String → Bool) (w : World) : World :=
  { w with cache := fun key => if keys key then none else w.cache key }

/-- Postgres applies the oldest upsert still in flight at position `i`. -/
def World.land (i : Nat) (w : World) : World :=
  match w.inflight[i]? with
  | none => w
  | some u =>
    { w with inflight := w.inflight.eraseIdx i
             usage := Function.update w.usage u.tenantId (some (u.apply (w.usage u.tenantId))) }

theorem World.land_eq (i : Nat) (w : World) :
    ∃ inflight usage, w.land i = { w with inflight, usage } := by
  cases h : w.inflight[i]? with
  | none => exact ⟨_, _, by rw [World.land, h]⟩
  | some u => exact ⟨_, _, by rw [World.land, h]⟩

theorem World.cacheSet_eq (env : Surroundings) (key : String) (doc : RecognizedDocument)
    (ttl : Nat) (w : World) :
    ∃ cache cacheWrites,
      (World.handle env (.cacheSet key doc ttl) w).2 = { w with cache, cacheWrites } := by
  by_cases hfails : env.cacheWriteFails = true
  · exact ⟨_, _, by rw [World.handle, if_pos hfails]⟩
  · exact ⟨_, _, by rw [World.handle, if_neg hfails]⟩

theorem World.enqueue_eq (env : Surroundings) (data : OcrJobData) (w : World) :
    ∃ jobs, (World.handle env (.enqueue data) w).2 = { w with jobs } := by
  cases hdown : env.queueDown with
  | none => exact ⟨_, by rw [World.handle, hdown]⟩
  | some err => exact ⟨_, by rw [World.handle, hdown]⟩

namespace Sample

def hexDigit (n : Nat) : Char := "0123456789abcdef".toList.getD n '0'

theorem hexDigit_mem (n : Nat) : hexDigit n ∈ "0123456789abcdef".toList := by
  rw [hexDigit, List.getD_eq_getElem?_getD]
  cases h : "0123456789abcdef".toList[n]? with
  | none => decide
  | some c => exact List.mem_of_getElem? h

def digest (buffer : Buffer) : Sha256Hex where
  text := String.ofList
    (((buffer.flatMap fun b => [hexDigit (b.toNat / 16), hexDigit (b.toNat % 16)]) ++
      List.replicate 64 '0').take 64)
  length_eq := by simp
  hex := by
    intro c hc
    rw [String.toList_ofList] at hc
    obtain h | h := List.mem_append.mp (List.mem_of_mem_take hc)
    · obtain ⟨b, -, hb⟩ := List.mem_flatMap.mp h
      have hcases : c = hexDigit (b.toNat / 16) ∨ c = hexDigit (b.toNat % 16) := by simpa using hb
      obtain rfl | rfl := hcases <;> exact hexDigit_mem _
    · rw [List.eq_of_mem_replicate h]
      decide

def packages : Packages where
  fromBuffer
    | 0x25 :: _ => some { ext := "pdf", mime := "application/pdf" }
    | 0x89 :: _ => some { ext := "png", mime := "image/png" }
    | 0x50 :: _ => some { ext := "docx", mime := DOCX_MIME }
    | _ => none
  sha256 := digest
  pdfToImg := fun buffer => .ok [buffer]
  pdfLibPageCount := fun _ => some 1

def body : FunctionBody where
  argsSchema := .ok
  resultSchema := .static .ok
  execute := fun ctx _ => .ok (.str ctx.doc.plainText)

def deps : PipelineDeps where
  llm := fun _ => .error (.error "no model")
  logger := .root
  providers := buildProviderRegistry { GLM_ENABLED := true }
  policy := defaultProviderPolicy
  env := { GLM_ENABLED := true }
  pkg := packages

def upload (buffer : Buffer) (tenantId : String) : OcrRequest where
  file := { buffer, originalName := "upload" }
  args := .obj []
  requestId := "request"
  tenantId := tenantId

def surroundings (down : List String) : Surroundings where
  recognize p _ _ :=
    if p.name ∈ down then .error (.error "unreachable")
    else .ok { emptyDocument with
      provider := p.name
      plainText := p.name
      pageCount := 1
      tokensUsed := if p.name = "glm-ocr" then some 7 else none }

def timings : Timings := { ingestMs := 1, interpretMs := 1, durationMs := 2 }

end Sample
end OcrService
