import OcrService.Jobs
import OcrService.TypedErrors

/-! What a client sees of one request on the synchronous path and through the queue. -/
namespace OcrService
open Interaction

/-- The part of a response that both paths have; a success without its durations. -/
inductive ClientView where
  | success (result : JsValue) (info : OcrResponseMeta)
  | failure (code : String) (message : String)

def syncView (requestId : String) : Except Thrown (OcrOutcome JsValue) → ClientView
  | .ok o => .success o.result.throughJson o.info.untimed
  | .error err =>
    let body := (errorHandler requestId err).2
    .failure body.code.name body.message

def JobRecord.view (record : JobRecord) : Option ClientView :=
  match record.result, record.error with
  | some o, _ => some (.success o.result.throughJson o.info.untimed)
  | none, some (code, message) => some (.failure code message)
  | none, none => none

section
variable {σ : Type*} (h : (o : ServiceOp) → σ → o.Answer × σ)
  (bodies : OcrFunctionKey → FunctionBody) (deps : PipelineDeps)

def viaSync (d : AnyOcrFunctionDefinition) (request : OcrRequest) (t : Timings) (s : σ) :
    ClientView :=
  syncView request.requestId ((runPipeline d request deps t).eval h s).1

/-- Enqueued, read back by the worker, processed, settled and looked up. -/
def viaQueue (d : AnyOcrFunctionDefinition) (request : OcrRequest) (t : Timings) (jobId : String)
    (s : σ) : Option ClientView :=
  let data := (OcrJobData.mk d.key.name request).toJob.throughJson
  let job : Job := { data }
  (getStatus jobId (job.settle ((processJob bodies deps t data).eval h s).1)).view

end

/-- The argument schema makes the same of the arguments and of what JSON leaves of them. -/
def ParsesAlike {TArgs TResult : Type} (d : OcrFunctionDefinition TArgs TResult)
    (args : JsValue) : Prop :=
  match d.argsSchema (orEmptyObject args), d.argsSchema (orEmptyObject args.throughJson) with
  | .ok a, .ok a' => a = a'
  | .error (.issues _), .error (.issues _) => True
  | .error (.overflow _), .error (.overflow _) => True
  | _, _ => False

theorem parsesAlike_of_finite {TArgs TResult : Type} (d : OcrFunctionDefinition TArgs TResult)
    {args : JsValue} (h : args.finite = true) : ParsesAlike d args := by
  rw [ParsesAlike, JsValue.throughJson_of_finite args h]
  cases d.argsSchema (orEmptyObject args) with
  | ok a => rfl
  | error refusal => cases refusal <;> trivial

def settledView (r : Except Thrown (OcrOutcome JsValue)) : ClientView :=
  match r with
  | .ok o => .success o.result.throughJson o.info.untimed
  | .error err =>
    let reported := decodeJobError (failedReasonOf (rethrown err))
    .failure reported.1 reported.2

theorem view_settle (jobId : String) (data : JobData) (r : Except Thrown (OcrOutcome JsValue)) :
    (getStatus jobId (Job.settle { data } r)).view = some (settledView r) := by
  cases r with
  | ok o => simp [Job.settle, getStatus, toStatus, JobRecord.view, settledView,
      OcrOutcome.throughJson, JsValue.throughJson_idem]
  | error err => simp [Job.settle, getStatus, toStatus, JobRecord.view, settledView]

theorem settledView_of_typed (requestId : String) {r : Except Thrown (OcrOutcome JsValue)}
    (h : Typed r) : settledView r = syncView requestId r := by
  cases r with
  | ok o => rfl
  | error err =>
    have ht := (typed_error err).mp h
    cases err with
    | ocr e =>
      simp only [settledView, rethrown, failedReasonOf, decodeJobError_encodeJobError]
      rfl
    | zod | error | value => cases ht

/-- A text that starts like no code, and is not the one `errorHandler` gives in its place. -/
def Unencoded (message : String) : Prop :=
  ∃ c c' cs, message.toList = c :: c' :: cs ∧ isCodeChar c = true ∧ isCodeChar c' = false ∧
    c' ≠ ':' ∧ (c = 'I' → c' ≠ 'n')

theorem Unencoded.append {message : String} (h : Unencoded message) (text : String) :
    Unencoded (message ++ text) := by
  obtain ⟨c, c', cs, hchars, hc⟩ := h
  exact ⟨c, c', cs ++ text.toList, by rw [String.toList_append, hchars]; rfl, hc⟩

theorem noProviderMessage_unencoded (input : RouteInput) :
    Unencoded (noProviderMessage input) := by
  have hlit : Unencoded "No provider satisfies " :=
    ⟨'N', 'o', " provider satisfies ".toList, by decide, by decide⟩
  unfold noProviderMessage
  exact (((hlit.append _).append _).append _).append _

theorem overflow_unencoded : Unencoded "Maximum call stack size exceeded" :=
  ⟨'M', 'a', "ximum call stack size exceeded".toList, by decide +kernel, by decide⟩

theorem CounterError.unencoded {err : Thrown} (h : CounterError err) :
    ∃ message, err = .error message ∧ Unencoded message := by
  obtain rfl | ⟨text, rfl⟩ := h
  · exact ⟨_, rfl, 'I', 't', " is not possible to decrease a counter".toList,
      by decide +kernel, by decide⟩
  · have hlit : Unencoded "Value is not a valid number: " :=
      ⟨'V', 'a', "lue is not a valid number: ".toList, by decide +kernel, by decide⟩
    exact ⟨_, rfl, hlit.append text⟩

theorem settledView_plain_ne (requestId : String) {message : String} (h : Unencoded message) :
    settledView (.error (.error message)) ≠ syncView requestId (.error (.error message)) := by
  obtain ⟨c, c', cs, hchars, hc, hc', hcolon, hin⟩ := h
  have hdrop : message.toList.dropWhile isCodeChar = c' :: cs := by
    rw [hchars, List.dropWhile_cons_of_pos hc, List.dropWhile_cons_of_neg (by simp [hc'])]
  have hdecode : decodeJobError (some message) =
      (OcrErrorCode.EXTRACTION_FAILED.name, message) := by
    simp only [decodeJobError, Option.getD_some, hdrop]
    split
    · rename_i heq
      exact absurd (List.cons.inj heq).1 hcolon
    · rfl
  have hne : message ≠ "Internal server error" := by
    intro he
    have hlit : "Internal server error".toList = 'I' :: 'n' :: "ternal server error".toList := by
      decide +kernel
    rw [he, hlit] at hchars
    obtain ⟨rfl, hrest⟩ := List.cons.inj hchars
    exact hin rfl (List.cons.inj hrest).1.symm
  intro h
  simp only [settledView, rethrown, failedReasonOf, hdecode, syncView, errorHandler,
    ClientView.failure.injEq] at h
  exact hne h.2

theorem settledView_outcome (t t' : Timings)
    (v : Locals × Except Thrown (JsValue × RecognizedDocument)) :
    settledView (outcome t v) = settledView (outcome t' v) := by
  obtain ⟨l, r⟩ := v
  cases r <;> rfl

section
variable {d : AnyOcrFunctionDefinition} {request : OcrRequest} {deps : PipelineDeps}

theorem stages_of_parsed_same {args : JsValue} {raw : JsValue}
    (h : parseArgs d request.args = .ok args) (h' : parseArgs d raw = .ok args) :
    stages d { request with args := raw } deps = stages d request deps := by
  have hcheck : checkRequest d { request with args := raw } deps = checkRequest d request deps := by
    simp only [checkRequest, h, h']
    rfl
  rw [stages, stages, hcheck]
  rfl

theorem stages_issues (request : OcrRequest) (deps : PipelineDeps) {raw issues : JsValue}
    (h : d.argsSchema (orEmptyObject raw) = .error (.issues issues)) :
    ∃ e : OcrError, stages d { request with args := raw } deps = .ret ({}, .error (.ocr e)) ∧
      e.code = .INVALID_ARGS ∧ e.message = "Invalid function arguments" :=
  ⟨⟨.INVALID_ARGS, "Invalid function arguments", false, some issues⟩,
    stages_refused (by simp only [checkRequest, parseArgs, h]), rfl, rfl⟩

theorem settledView_ocr (e : OcrError) :
    settledView (.error (.ocr e)) = .failure e.code.name e.message := by
  simp only [settledView, rethrown, failedReasonOf, decodeJobError_encodeJobError]

theorem stages_overflow {raw : JsValue} {err : StackOverflow}
    (h : d.argsSchema (orEmptyObject raw) = .error (.overflow err)) :
    stages d { request with args := raw } deps = .ret ({}, .error err.thrown) :=
  stages_refused (by simp only [checkRequest, parseArgs, h])

end

theorem viaQueue_eq {σ : Type*} {h : (o : ServiceOp) → σ → o.Answer × σ}
    {takes : Nat → Except Thrown Unit} (hsinks : ∀ o s, SinksTake takes o (h o s).1)
    (bodies : OcrFunctionKey → FunctionBody) (deps : PipelineDeps) {d : AnyOcrFunctionDefinition}
    (hd : d ∈ definitions bodies) (request : OcrRequest) (t : Timings) (jobId : String) (s : σ) :
    viaQueue h bodies deps d request t jobId s =
      let v := ((stages d { request with args := request.args.throughJson } deps).eval h s).1
      some (settledView ((countTokens takes (reported v)).bind fun _ => outcome t v)) := by
  have hprocess : processJob bodies deps t (OcrJobData.mk d.key.name request).toJob.throughJson =
      runPipeline d { request with args := request.args.throughJson } deps t := by
    have hfn : (OcrJobData.mk d.key.name request).toJob.throughJson.function = d.key.name := rfl
    simp only [processJob, hfn, getFunction_key bodies hd, reviveRequest_throughJson]
  simp only [viaQueue, view_settle, hprocess, eval_runPipeline_counted hsinks]

/-- Where the two runs have the same stages, the two paths disagree exactly on untyped errors:
they are masked on one and quoted on the other. -/
theorem counted_alike_iff {takes : Nat → Except Thrown Unit}
    (hthrows : ∀ n err, takes n = .error err → CounterError err) (requestId : String)
    (t t' : Timings) (v : Locals × Except Thrown (JsValue × RecognizedDocument))
    (hplain : Typed v.2 ∨ ∃ message, v.2 = .error (.error message) ∧ Unencoded message) :
    settledView ((countTokens takes (reported v)).bind fun _ => outcome t' v) =
        syncView requestId ((countTokens takes (reported v)).bind fun _ => outcome t v) ↔
      countTokens takes (reported v) = .ok () ∧ Typed v.2 := by
  cases hcount : countTokens takes (reported v) with
  | error err =>
    obtain ⟨n, hn⟩ := countTokens_error hcount
    obtain ⟨message, rfl, hmessage⟩ := (hthrows n err hn).unencoded
    exact iff_of_false (settledView_plain_ne requestId hmessage) (by simp)
  | ok _ =>
    simp only [Except.bind, settledView_outcome t' t, true_and]
    obtain htyped | ⟨message, hmessage, hplain⟩ := hplain
    · exact iff_of_true (settledView_of_typed requestId (typed_outcome.mpr htyped)) htyped
    · obtain ⟨l, r⟩ := v
      cases hmessage
      exact iff_of_false (settledView_plain_ne requestId hplain) fun htyped => by
        cases htyped _ rfl

/-- The stages end well, typed or in one of the plain errors. -/
theorem stages_typed_or_plain {d : AnyOcrFunctionDefinition} {request : OcrRequest}
    {deps : PipelineDeps} {σ : Type*} (h : (o : ServiceOp) → σ → o.Answer × σ) (s : σ) :
    Typed ((stages d request deps).eval h s).1.2 ∨
      ∃ message, ((stages d request deps).eval h s).1.2 = .error (.error message) ∧
        Unencoded message := by
  cases hfails : routingFails d request deps with
  | true =>
    obtain ⟨l, input, hst⟩ := stages_of_routingFails hfails
    rw [hst]
    exact .inr ⟨_, rfl, noProviderMessage_unencoded input⟩
  | false =>
    cases hargs : argsOverflow d request with
    | true =>
      rw [stages_of_argsOverflow hargs]
      exact .inr ⟨_, rfl, overflow_unencoded⟩
    | false => exact .inl ((eval_stages_typed_iff s).mpr ⟨hfails, hargs⟩)

end OcrService
