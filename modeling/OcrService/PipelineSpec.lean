import OcrService.World

/-! What each stage of the pipeline does, said once. -/
namespace OcrService
open Interaction

section
variable {TArgs TResult : Type} {σ : Type*}

def SinksAccept : (o : ServiceOp) → o.Answer → Prop
  | .metric _, answer => (answer : Except Thrown Unit) = .ok ()
  | _, _ => True

theorem handle_accepts (env : Surroundings) (o : ServiceOp) (w : World) :
    SinksAccept o (World.handle env o w).1 := by
  cases o with
  | metric sample => exact rfl
  | _ => trivial

def OcrResponseMeta.untimed (info : OcrResponseMeta) : OcrResponseMeta :=
  { info with durationMs := 0 }

def outcome (t : Timings) :
    Locals × Except Thrown (TResult × RecognizedDocument) → Except Thrown (OcrOutcome TResult)
  | (_, .error err) => .error err
  | (l, .ok (result, doc)) => .ok { result, info := responseMeta doc l.cached t }

def closingMetrics (fn : OcrFunctionKey) (t : Timings) :
    Locals × Except Thrown (TResult × RecognizedDocument) → RequestMetrics
  | (l, .error _) => l.metrics fn t 0 .error
  | (l, .ok _) => l.metrics fn t t.interpretMs .success

def closingUpsert (tenantId : String) :
    Locals × Except Thrown (TResult × RecognizedDocument) → UsageUpsert
  | (l, .error _) => ⟨tenantId, 1, (l.doc.bind RecognizedDocument.tokensUsed).getD 0⟩
  | (_, .ok (_, doc)) => ⟨tenantId, 0, doc.tokensUsed.getD 0⟩

def closing (fn : OcrFunctionKey) (tenantId : String) (t : Timings)
    (v : Locals × Except Thrown (TResult × RecognizedDocument)) : List ServiceOp :=
  let u := closingUpsert tenantId v
  (closingMetrics fn t v).samples.map .metric ++
    [.upsertUsage u.tenantId u.errorsDelta u.tokensDelta]

theorem emit_traces (samples : List MetricSample) :
    (emit samples).Traces SinksAccept (fun log => log <+: samples.map .metric)
      fun log r => log = samples.map .metric ∧ r = .ok () := by
  induction samples with
  | nil => exact ⟨rfl, rfl⟩
  | cons sample rest ih =>
    refine ⟨List.nil_prefix, fun x hx => ?_⟩
    have hok : x = Except.ok () := hx
    subst hok
    refine ih.mono ?_ ?_
    · intro log h
      simpa using h
    · rintro log r ⟨rfl, rfl⟩
      exact ⟨rfl, rfl⟩

theorem finish_traces (d : OcrFunctionDefinition TArgs TResult) (req : OcrRequest) (t : Timings)
    (v : Locals × Except Thrown (TResult × RecognizedDocument)) :
    (finish d req t v).Traces SinksAccept
      (fun log => log <+: (closingMetrics d.key t v).samples.map .metric)
      fun log out => log = closing d.key req.tenantId t v ∧ out = outcome t v := by
  obtain ⟨l, r⟩ := v
  cases r with
  | error err =>
    refine Prog.Traces.bind ((emit_traces _).mono (fun log h => h) ?_)
    rintro log r ⟨rfl, rfl⟩
    exact ⟨by simp [closingMetrics], fun _ _ => ⟨rfl, rfl⟩⟩
  | ok rd =>
    refine Prog.Traces.bind ((emit_traces _).mono (fun log h => h) ?_)
    rintro log r ⟨rfl, rfl⟩
    exact ⟨by simp [closingMetrics], fun _ _ => ⟨rfl, rfl⟩⟩

/-- With accepting sinks the answer is decided by the stages alone. -/
theorem eval_runPipeline (h : (o : ServiceOp) → σ → o.Answer × σ)
    (hA : ∀ o s, SinksAccept o (h o s).1) (d : OcrFunctionDefinition TArgs TResult)
    (req : OcrRequest) (deps : PipelineDeps) (t : Timings) (s : σ) :
    ((runPipeline d req deps t).eval h s).1 = outcome t ((stages d req deps).eval h s).1 := by
  rw [runPipeline, Prog.eval_bind]
  obtain ⟨log, -, ho⟩ := (finish_traces d req t _).eval h hA ((stages d req deps).eval h s).2
  exact ho

section
variable {d : OcrFunctionDefinition TArgs TResult} {req : OcrRequest} {deps : PipelineDeps}
  {l : Locals}

theorem parseArgs_eq_ok {raw : JsValue} {args : TArgs} :
    parseArgs d raw = .ok args ↔ d.argsSchema (orEmptyObject raw) = .ok args := by
  rw [parseArgs]
  cases d.argsSchema (orEmptyObject raw) with
  | ok args => simp
  | error refusal => cases refusal <;> simp

inductive Checked (d : OcrFunctionDefinition TArgs TResult) (req : OcrRequest)
    (deps : PipelineDeps) : Locals × Except Thrown (TArgs × DocumentInput) → Prop
  | badArgs (err : Thrown) (hargs : parseArgs d req.args = .error err) :
    Checked d req deps ({}, .error err)
  | badFile (err : Thrown) (hfile : ingest deps.pkg req = .error err) :
    Checked d req deps ({}, .error err)
  | unaccepted (input : DocumentInput) (e : OcrError) :
    Checked d req deps ({ input := some input }, .error (.ocr e))
  | passed (args : TArgs) (input : DocumentInput) (hargs : parseArgs d req.args = .ok args)
      (hfile : ingest deps.pkg req = .ok input) :
    Checked d req deps ({ input := some input }, .ok (args, input))

theorem checkRequest_cases (d : OcrFunctionDefinition TArgs TResult) (req : OcrRequest)
    (deps : PipelineDeps) : Checked d req deps (checkRequest d req deps) := by
  unfold checkRequest
  cases hargs : parseArgs d req.args with
  | error err => exact .badArgs err hargs
  | ok args =>
    cases hfile : ingest deps.pkg req with
    | error err => exact .badFile err hfile
    | ok input =>
      by_cases haccepts : d.accepts.contains input.mimeGroup = true
      · simp only [haccepts, if_true]
        exact .passed args input hargs hfile
      · simp only [haccepts]
        exact .unaccepted input _

theorem checkRequest_doc (d : OcrFunctionDefinition TArgs TResult) (req : OcrRequest)
    (deps : PipelineDeps) : (checkRequest d req deps).1.doc = none := by
  have hcases := checkRequest_cases d req deps
  generalize checkRequest d req deps = v at hcases ⊢
  cases hcases <;> rfl

theorem checkRequest_input {args : TArgs} {input : DocumentInput}
    (h : checkRequest d req deps = (l, .ok (args, input))) :
    input.buffer = req.file.buffer ∧ input.sha256 = deps.pkg.sha256 req.file.buffer := by
  have hcases := checkRequest_cases d req deps
  rw [h] at hcases
  cases hcases with
  | passed _ _ _ hfile =>
    unfold ingest at hfile
    cases hsniff : sniff deps.pkg req.file.buffer with
    | none => simp [hsniff] at hfile
    | some sniffed =>
      simp only [hsniff, Except.ok.injEq] at hfile
      exact ⟨hfile ▸ rfl, hfile ▸ rfl⟩

theorem stages_refused {err : Thrown} (h : checkRequest d req deps = (l, .error err)) :
    stages d req deps = .ret (l, .error err) := by
  rw [stages, h]

theorem stages_admitted {args : TArgs} {input : DocumentInput}
    (h : checkRequest d req deps = (l, .ok (args, input))) :
    stages d req deps = extraction d req deps input >>= fun r =>
      .ret (afterExtraction d req deps l args input r) := by
  rw [stages, h]

theorem extraction_skipped (h : d.skipExtraction = true) (input : DocumentInput) :
    extraction d req deps input = .ret (.ok { doc := emptyDocument, cached := false }) := by
  rw [extraction, if_pos h]

theorem extraction_extracts (h : d.skipExtraction = false) (input : DocumentInput) :
    extraction d req deps input = extractDocument d input (recognizeOptions req) deps := by
  rw [extraction, h, if_neg Bool.false_ne_true]

theorem extractDocument_unrouted {input : DocumentInput} {opts : RecognizeOptions} {err : Thrown}
    (h : routeProvider deps.providers (routeInput d input deps) = .error err) :
    extractDocument d input opts deps = .ret (.error err) := by
  rw [extractDocument, h]

theorem extractDocument_routed {input : DocumentInput} {opts : RecognizeOptions}
    {route : RoutingDecision}
    (h : routeProvider deps.providers (routeInput d input deps) = .ok route) :
    extractDocument d input opts deps =
      cacheLookup d (extractionCacheKey input.sha256 route.provider.name) >>= fun
        | some hit => .ret (.ok { doc := hit, cached := true })
        | none => recognizeAndStore d input opts deps route := by
  unfold extractDocument
  exact h ▸ rfl

theorem cacheLookup_used (h : usesCache d = true) (key : String) :
    cacheLookup d key = Service.cacheGet key := by
  rw [cacheLookup, if_pos h]

theorem cacheLookup_unused (h : usesCache d = false) (key : String) :
    cacheLookup d key = .ret none := by
  rw [cacheLookup, h, if_neg Bool.false_ne_true]

theorem cacheStore_used (h : usesCache d = true) (input : DocumentInput)
    (doc : RecognizedDocument) :
    cacheStore d input deps doc = Service.cacheSet (extractionCacheKey input.sha256 doc.provider)
      doc deps.env.EXTRACTION_CACHE_TTL_SECONDS := by
  rw [cacheStore, if_pos h]

theorem cacheStore_unused (h : usesCache d = false) (input : DocumentInput)
    (doc : RecognizedDocument) : cacheStore d input deps doc = .ret () := by
  rw [cacheStore, h, if_neg Bool.false_ne_true]

end

/-- The operations of the stages: no upsert, no job, of the samples only the fallback
counts, and the cache only where it is used. -/
def StageOp (cached : Bool) : ServiceOp → Prop
  | .metric sample => ∃ primary answered, sample = fallbackSample primary answered
  | .upsertUsage _ _ _ | .enqueue _ => False
  | .cacheGet _ | .cacheSet _ _ _ => cached = true
  | .recognize _ _ _ => True

theorem tryProviders_uses (cached : Bool) (primary : OcrProvider) (chain : List OcrProvider)
    (input : DocumentInput) (opts : RecognizeOptions) (ps : List OcrProvider) (i : Nat)
    (lastError : Option Thrown) :
    (tryProviders primary chain input opts i ps lastError).Uses (StageOp cached) := by
  induction ps generalizing i lastError with
  | nil => exact trivial
  | cons p ps ih =>
    refine ⟨trivial, fun answer => ?_⟩
    cases answer with
    | error err => exact ih (i + 1) (some err)
    | ok doc =>
      by_cases hi : i > 0
      · simp only [hi, if_true]
        refine ⟨⟨_, _, rfl⟩, fun counted => ?_⟩
        cases counted with
        | error err => exact ih (i + 1) (some err)
        | ok _ => exact trivial
      · simp only [hi, if_false]
        exact trivial

theorem cacheLookup_uses (d : OcrFunctionDefinition TArgs TResult) (key : String) :
    (cacheLookup d key).Uses (StageOp (usesCache d)) := by
  cases hcache : usesCache d with
  | true =>
    rw [cacheLookup_used hcache]
    exact ⟨rfl, fun _ => trivial⟩
  | false =>
    rw [cacheLookup_unused hcache]
    exact trivial

theorem recognizeAndStore_uses (d : OcrFunctionDefinition TArgs TResult) (input : DocumentInput)
    (opts : RecognizeOptions) (deps : PipelineDeps) (route : RoutingDecision) :
    (recognizeAndStore d input opts deps route).Uses (StageOp (usesCache d)) := by
  refine Prog.Uses.bind (tryProviders_uses _ _ _ _ _ _ _ _) fun r => ?_
  cases r with
  | error err => exact trivial
  | ok doc =>
    refine Prog.Uses.bind ?_ fun _ => trivial
    cases hcache : usesCache d with
    | true =>
      rw [cacheStore_used hcache]
      exact ⟨rfl, fun _ => trivial⟩
    | false =>
      rw [cacheStore_unused hcache]
      exact trivial

theorem extraction_uses (d : OcrFunctionDefinition TArgs TResult) (req : OcrRequest)
    (deps : PipelineDeps) (input : DocumentInput) :
    (extraction d req deps input).Uses (StageOp (usesCache d)) := by
  cases hskip : d.skipExtraction with
  | true =>
    rw [extraction_skipped hskip]
    exact trivial
  | false =>
    rw [extraction_extracts hskip]
    cases hroute : routeProvider deps.providers (routeInput d input deps) with
    | error err =>
      rw [extractDocument_unrouted hroute]
      exact trivial
    | ok route =>
      rw [extractDocument_routed hroute]
      refine Prog.Uses.bind (cacheLookup_uses d _) fun found => ?_
      cases found with
      | some hit => exact trivial
      | none => exact recognizeAndStore_uses d input _ deps route

theorem stages_uses (d : OcrFunctionDefinition TArgs TResult) (req : OcrRequest)
    (deps : PipelineDeps) : (stages d req deps).Uses (StageOp (usesCache d)) := by
  cases hcheck : checkRequest d req deps with
  | mk l r =>
    cases r with
    | error err =>
      rw [stages_refused hcheck]
      exact trivial
    | ok ai =>
      rw [stages_admitted hcheck]
      exact Prog.Uses.bind (extraction_uses d req deps ai.2) fun _ => trivial

section Finish
variable {R : ServiceOp → Prop} (hmetric : ∀ sample, R (.metric sample))
include hmetric

theorem emit_uses (samples : List MetricSample) : (emit samples).Uses R := by
  induction samples with
  | nil => exact trivial
  | cons sample rest ih =>
    refine ⟨hmetric sample, fun answer => ?_⟩
    cases answer with
    | ok _ => exact ih
    | error err => exact trivial

theorem finish_uses (d : OcrFunctionDefinition TArgs TResult) (req : OcrRequest) (t : Timings)
    (hupsert : ∀ outcome tokens, R (.upsertUsage req.tenantId
      (if outcome = RequestOutcome.error then 1 else 0) tokens))
    (v : Locals × Except Thrown (TResult × RecognizedDocument)) : (finish d req t v).Uses R := by
  have hfail : ∀ l interpretMs err, (fail d req l t interpretMs err).Uses R := by
    intro l interpretMs err
    refine Prog.Uses.bind (emit_uses hmetric _) fun r => ?_
    cases r with
    | error err' => exact trivial
    | ok _ => exact ⟨hupsert .error _, fun _ => trivial⟩
  obtain ⟨l, r⟩ := v
  cases r with
  | error err => exact hfail l 0 err
  | ok rd =>
    refine Prog.Uses.bind (emit_uses hmetric _) fun r => ?_
    cases r with
    | error err => exact hfail l t.interpretMs err
    | ok _ => exact ⟨hupsert .success _, fun _ => trivial⟩

end Finish

end
end OcrService
