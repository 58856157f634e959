import OcrService.PipelineSpec

/-! Which errors leave the pipeline. -/
namespace OcrService
open Interaction

/-- A value, or one of the service's typed errors. -/
def Typed {α : Type} (r : Except Thrown α) : Prop := ∀ err, r = .error err → err.isOcrError = true

@[simp] theorem typed_ok {α : Type} (a : α) : Typed (.ok a : Except Thrown α) :=
  fun _ h => nomatch h

@[simp] theorem typed_error {α : Type} (err : Thrown) :
    Typed (.error err : Except Thrown α) ↔ err.isOcrError = true := by
  simp [Typed]

theorem Typed.map {α β : Type} {r : Except Thrown α} (f : α → β) (h : Typed r) :
    Typed (r.map f) := by
  cases r with
  | ok a => exact typed_ok _
  | error err => exact (typed_error err).mpr ((typed_error err).mp h)

section
variable {TArgs TResult : Type} {d : OcrFunctionDefinition TArgs TResult} {req : OcrRequest}
  {deps : PipelineDeps} {A : (o : ServiceOp) → o.Answer → Prop}

/-- The check of the arguments runs out of stack. -/
def argsOverflow (d : OcrFunctionDefinition TArgs TResult) (req : OcrRequest) : Bool :=
  match d.argsSchema (orEmptyObject req.args) with
  | .error (.overflow _) => true
  | _ => false

theorem parseArgs_typed (h : argsOverflow d req = false) : Typed (parseArgs d req.args) := by
  rw [parseArgs]
  rw [argsOverflow] at h
  cases hargs : d.argsSchema (orEmptyObject req.args) with
  | ok args => exact typed_ok args
  | error refusal =>
    rw [hargs] at h
    cases refusal with
    | issues issues => exact (typed_error _).mpr rfl
    | overflow err => cases h

theorem parseArgs_overflow (h : argsOverflow d req = true) :
    parseArgs d req.args = .error (StackOverflow.thrown .rangeError) := by
  rw [parseArgs]
  rw [argsOverflow] at h
  cases hargs : d.argsSchema (orEmptyObject req.args) with
  | ok args => simp [hargs] at h
  | error refusal =>
    cases refusal with
    | issues issues => simp [hargs] at h
    | overflow err => cases err; rfl

theorem ingest_typed (pkg : Packages) : Typed (ingest pkg req) := by
  rw [ingest]
  cases sniff pkg req.file.buffer with
  | none => exact (typed_error _).mpr rfl
  | some sniffed => exact typed_ok _

theorem checkRequest_typed (h : argsOverflow d req = false) :
    Typed (checkRequest d req deps).2 := by
  have hcases := checkRequest_cases d req deps
  generalize checkRequest d req deps = v at hcases ⊢
  cases hcases with
  | badArgs err hargs => exact (typed_error err).mpr (parseArgs_typed h err hargs)
  | badFile err hfile => exact (typed_error err).mpr (ingest_typed deps.pkg err hfile)
  | unaccepted input e => exact (typed_error _).mpr rfl
  | passed args input => exact typed_ok _

theorem interpret_typed (ctx : OcrContext) (args : TArgs) : Typed (interpret d ctx args) := by
  rw [interpret]
  cases d.execute ctx args with
  | error err => cases err <;> exact (typed_error _).mpr rfl
  | ok raw =>
    simp only
    cases resolveResultSchema d args raw with
    | ok data => exact typed_ok data
    | error issues => exact (typed_error _).mpr rfl

theorem conclude_typed (args : TArgs) (input : DocumentInput) (doc : RecognizedDocument) :
    Typed (conclude d req deps args input doc) := by
  by_cases hpages : doc.pageCount > d.maxPages
  · rw [conclude, if_pos hpages]
    exact (typed_error _).mpr rfl
  · rw [conclude, if_neg hpages]
    exact interpret_typed _ _

theorem tryProviders_typed (primary : OcrProvider) (chain : List OcrProvider)
    (input : DocumentInput) (opts : RecognizeOptions) (ps : List OcrProvider) (i : Nat)
    (lastError : Option Thrown) :
    (tryProviders primary chain input opts i ps lastError).Traces A (fun _ => True)
      fun _ r => Typed r := by
  induction ps generalizing i lastError with
  | nil => exact (typed_error _).mpr rfl
  | cons p ps ih =>
    refine ⟨trivial, fun answer _ => ?_⟩
    cases answer with
    | error err => exact ih (i + 1) (some err)
    | ok doc =>
      by_cases hi : i > 0
      · simp only [hi, if_true]
        refine ⟨trivial, fun counted _ => ?_⟩
        cases counted with
        | error err => exact ih (i + 1) (some err)
        | ok _ => exact typed_ok _
      · simp only [hi, if_false]
        exact typed_ok _

/-- The request is admitted, needs extraction, and no registered provider can do it. -/
def routingFails (d : OcrFunctionDefinition TArgs TResult) (req : OcrRequest)
    (deps : PipelineDeps) : Bool :=
  match checkRequest d req deps with
  | (_, .error _) => false
  | (_, .ok (_, input)) =>
    !d.skipExtraction && deps.providers.all fun p => !providerSatisfies p input.mimeGroup d.requires

theorem recognizeAndStore_typed (input : DocumentInput) (opts : RecognizeOptions)
    (route : RoutingDecision) :
    (recognizeAndStore d input opts deps route).Traces A (fun _ => True) fun _ r => Typed r := by
  refine Prog.Traces.bind ((tryProviders_typed _ _ input opts _ _ _).mono (fun _ _ => trivial) ?_)
  intro log r hr
  cases r with
  | error err => exact (typed_error err).mpr ((typed_error err).mp hr)
  | ok doc =>
    have hany := (Prog.Uses.trivial (cacheStore d input deps doc)).traces (A := A)
    exact Prog.Traces.bind (hany.mono (fun _ _ => trivial) fun _ _ _ => typed_ok _)

theorem extractDocument_typed (input : DocumentInput) (opts : RecognizeOptions)
    {route : RoutingDecision}
    (h : routeProvider deps.providers (routeInput d input deps) = .ok route) :
    (extractDocument d input opts deps).Traces A (fun _ => True) fun _ r => Typed r := by
  rw [extractDocument_routed h]
  have hany := (Prog.Uses.trivial
    (cacheLookup d (extractionCacheKey input.sha256 route.provider.name))).traces (A := A)
  refine Prog.Traces.bind (hany.mono (fun _ _ => trivial) ?_)
  intro log found _
  cases found with
  | some hit => exact typed_ok _
  | none => exact recognizeAndStore_typed input opts route

/-- Unless routing fails or the arguments are too deep, whatever the world answers, the stages
end well or typed. -/
theorem stages_typed (h : routingFails d req deps = false) (hargs : argsOverflow d req = false) :
    (stages d req deps).Traces A (fun _ => True) fun _ v => Typed v.2 := by
  have htyped : Typed (checkRequest d req deps).2 := checkRequest_typed hargs
  cases hcheck : checkRequest d req deps with
  | mk l r =>
    cases r with
    | error err =>
      rw [stages_refused hcheck]
      simpa [hcheck] using htyped
    | ok ai =>
      rw [stages_admitted hcheck]
      refine Prog.Traces.bind (Prog.Traces.mono (P := fun _ => True) (Q := fun _ r => Typed r)
        ?_ (fun _ _ => trivial) ?_)
      · cases hskip : d.skipExtraction with
        | true =>
          rw [extraction_skipped hskip]
          exact typed_ok _
        | false =>
          rw [extraction_extracts hskip]
          cases hroute : routeProvider deps.providers (routeInput d ai.2 deps) with
          | ok route => exact extractDocument_typed ai.2 _ hroute
          | error err =>
            have hall := (routeProvider_error_iff.mp hroute).1
            have hfails : routingFails d req deps = true := by
              simpa [routingFails, hcheck, hskip, routeInput] using hall
            rw [h] at hfails
            cases hfails
      · intro log out hout
        cases out with
        | error err => exact (typed_error err).mpr ((typed_error err).mp hout)
        | ok out => exact (conclude_typed ai.1 ai.2 out.doc).map _

theorem stages_of_routingFails (h : routingFails d req deps = true) :
    ∃ l input, stages d req deps = .ret (l, .error (.error (noProviderMessage input))) := by
  cases hcheck : checkRequest d req deps with
  | mk l r =>
    cases r with
    | error err => simp [routingFails, hcheck] at h
    | ok ai =>
      simp only [routingFails, hcheck, Bool.and_eq_true, Bool.not_eq_true', List.all_eq_true] at h
      have hroute : routeProvider deps.providers (routeInput d ai.2 deps) =
          .error (.error (noProviderMessage (routeInput d ai.2 deps))) :=
        routeProvider_error_iff.mpr ⟨h.2, rfl⟩
      refine ⟨l, routeInput d ai.2 deps, ?_⟩
      rw [stages_admitted hcheck, extraction_extracts h.1, extractDocument_unrouted hroute]
      rfl

theorem stages_of_argsOverflow (h : argsOverflow d req = true) :
    stages d req deps = .ret ({}, .error (StackOverflow.thrown .rangeError)) :=
  stages_refused (by simp only [checkRequest, parseArgs_overflow h])

end

def countTokens (takes : Nat → Except Thrown Unit) : Option Nat → Except Thrown Unit
  | none | some 0 => .ok ()
  | some n => takes n

theorem countTokens_error {takes : Nat → Except Thrown Unit} {tokens : Option Nat} {err : Thrown}
    (h : countTokens takes tokens = .error err) : ∃ n, takes n = .error err := by
  unfold countTokens at h
  split at h
  · cases h
  · cases h
  · exact ⟨_, h⟩

/-- The sinks take every sample but for the tokens of a vendor, which nothing has checked:
`takes` is what comes of adding the number that a count of the model stands for. -/
def SinksTake (takes : Nat → Except Thrown Unit) : (o : ServiceOp) → o.Answer → Prop
  | .metric (.inc .tokensUsedTotal _ n), answer => (answer : Except Thrown Unit) = takes n
  | .metric _, answer => (answer : Except Thrown Unit) = .ok ()
  | _, _ => True

theorem handle_takes (env : Surroundings) (o : ServiceOp) (w : World) :
    SinksTake (fun _ => .ok ()) o (World.handle env o w).1 := by
  cases o with
  | metric sample =>
    cases sample with
    | inc counter labels value => cases counter <;> rfl
    | observe histogram labels value => rfl
  | _ => trivial

def CounterError (err : Thrown) : Prop :=
  err = .error "It is not possible to decrease a counter" ∨
    ∃ text, err = .error ("Value is not a valid number: " ++ text)

/-- A document that the cache or a provider hands over reports tokens the counter takes. -/
def TokensTaken (takes : Nat → Except Thrown Unit) : (o : ServiceOp) → o.Answer → Prop
  | .cacheGet _, answer => ∀ doc, (answer : Option RecognizedDocument) = some doc →
      countTokens takes doc.tokensUsed = .ok ()
  | .recognize _ _ _, answer => ∀ doc, (answer : Except Thrown RecognizedDocument) = .ok doc →
      countTokens takes doc.tokensUsed = .ok ()
  | _, _ => True

section
variable {TArgs TResult : Type} {d : OcrFunctionDefinition TArgs TResult} {req : OcrRequest}
  {deps : PipelineDeps} {σ : Type*} {h : (o : ServiceOp) → σ → o.Answer × σ}
  {takes : Nat → Except Thrown Unit}

def reported (v : Locals × Except Thrown (TResult × RecognizedDocument)) : Option Nat :=
  v.1.doc.bind RecognizedDocument.tokensUsed

theorem eval_emit_append {samples : List MetricSample}
    (hall : ∀ sample ∈ samples, ∀ s, (h (.metric sample) s).1 = .ok ()) (rest : List MetricSample)
    (s : σ) : ∃ s', (emit (samples ++ rest)).eval h s = (emit rest).eval h s' := by
  induction samples generalizing s with
  | nil => exact ⟨s, rfl⟩
  | cons sample samples ih =>
    obtain ⟨s', hs'⟩ := ih (fun other hother => hall other (List.mem_cons_of_mem _ hother))
      (h (.metric sample) s).2
    refine ⟨s', Eq.trans ?_ hs'⟩
    rw [List.cons_append, emit, Service.metric, Prog.ask_bind, Prog.eval_ask,
      hall sample List.mem_cons_self s]
    rfl

variable (hsinks : ∀ o s, SinksTake takes o (h o s).1)
include hsinks

theorem eval_recordRequest {m : RequestMetrics} (hcost : m.estimatedCostNgn = none) (s : σ) :
    ((recordRequest m).eval h s).1 = countTokens takes m.tokensUsed := by
  let others : List MetricSample := .inc .requestsTotal
      [("function", m.function.name), ("provider", m.provider), ("mime_group", m.mimeGroup),
        ("cached", toString m.cached), ("outcome", m.outcome.name)] 1 ::
    (if m.outcome = .success then
      [.observe .extractDurationMs [("function", m.function.name), ("provider", m.provider)]
          m.extractMs,
        .observe .interpretDurationMs [("function", m.function.name)] m.interpretMs,
        .observe .pageCount [("function", m.function.name)] m.pageCount]
    else [])
  have hsamples : m.samples = others ++ incIfTruthy .tokensUsedTotal
      [("function", m.function.name), ("provider", m.provider)] m.tokensUsed := by
    simp only [RequestMetrics.samples, hcost, incIfTruthy, List.append_nil, others,
      List.cons_append]
  have hothers : ∀ sample ∈ others, ∀ s, (h (.metric sample) s).1 = .ok () := by
    intro sample hsample s
    have htaken := hsinks (.metric sample) s
    simp only [others, List.mem_cons] at hsample
    obtain rfl | hsample := hsample
    · exact htaken
    · split at hsample
      · simp only [List.mem_cons, List.not_mem_nil, or_false] at hsample
        obtain rfl | rfl | rfl := hsample <;> exact htaken
      · cases hsample
  obtain ⟨s', hs'⟩ := eval_emit_append hothers (incIfTruthy .tokensUsedTotal
    [("function", m.function.name), ("provider", m.provider)] m.tokensUsed) s
  rw [recordRequest, hsamples, hs']
  match m.tokensUsed with
  | none | some 0 => rfl
  | some (n + 1) =>
    let sample : MetricSample := .inc .tokensUsedTotal
      [("function", m.function.name), ("provider", m.provider)] (n + 1)
    have htaken : (h (.metric sample) s').1 = takes (n + 1) := hsinks (.metric sample) s'
    change ((emit [sample]).eval h s').1 = takes (n + 1)
    rw [emit, Service.metric, Prog.ask_bind, Prog.eval_ask, htaken]
    cases takes (n + 1) <;> rfl

theorem eval_fail (l : Locals) (t : Timings) (interpretMs : Int) (err : Thrown) (s : σ) :
    ((fail d req l t interpretMs err).eval h s).1 =
      (countTokens takes (l.doc.bind RecognizedDocument.tokensUsed)).bind fun _ => .error err := by
  rw [fail, Prog.eval_bind, eval_recordRequest hsinks rfl]
  simp only [Locals.metrics]
  cases countTokens takes (l.doc.bind RecognizedDocument.tokensUsed) <;> rfl

/-- The stages decide the answer, unless the tokens on record cannot be counted. -/
theorem eval_runPipeline_counted (t : Timings) (s : σ) :
    ((runPipeline d req deps t).eval h s).1 =
      (countTokens takes (reported ((stages d req deps).eval h s).1)).bind fun _ =>
        outcome t ((stages d req deps).eval h s).1 := by
  rw [runPipeline, Prog.eval_bind]
  generalize ((stages d req deps).eval h s).1 = v
  obtain ⟨l, r⟩ := v
  cases r with
  | error err => exact eval_fail hsinks l t 0 err _
  | ok rd =>
    rw [finish, Prog.eval_bind, eval_recordRequest hsinks rfl]
    simp only [Locals.metrics, reported]
    cases hcount : countTokens takes (l.doc.bind RecognizedDocument.tokensUsed) with
    | ok _ => rfl
    | error err =>
      refine (eval_fail hsinks l t t.interpretMs err _).trans ?_
      rw [hcount]
      rfl

theorem hears_tryProviders (primary : OcrProvider) (chain : List OcrProvider)
    (input : DocumentInput) (opts : RecognizeOptions) (ps : List OcrProvider) (i : Nat)
    (lastError : Option Thrown) (s : σ) :
    (tryProviders primary chain input opts i ps lastError).Hears h (TokensTaken takes) s ↔
      ∀ doc, ((tryProviders primary chain input opts i ps lastError).eval h s).1 = .ok doc →
        countTokens takes doc.tokensUsed = .ok () := by
  induction ps generalizing i lastError s with
  | nil => simp [tryProviders]
  | cons p ps ih =>
    simp only [tryProviders, Service.recognize, Prog.ask_bind, Prog.hears_ask, Prog.eval_ask,
      Prog.ret_bind, TokensTaken]
    cases h (.recognize p input opts) s with
    | mk answer s' =>
      cases answer with
      | error err => simpa using ih (i + 1) (some err) s'
      | ok doc =>
        by_cases hi : i > 0
        · have hcounted : (h (.metric (fallbackSample primary.name p.name)) s').1 = .ok () :=
            hsinks (.metric (fallbackSample primary.name p.name)) s'
          simp only [hi, if_true, Service.metric, Prog.ask_bind, Prog.hears_ask, Prog.eval_ask,
            Prog.ret_bind, hcounted]
          simp [TokensTaken]
        · simp [hi]

theorem hears_extraction (input : DocumentInput) (s : σ) :
    (extraction d req deps input).Hears h (TokensTaken takes) s ↔
      ∀ out, ((extraction d req deps input).eval h s).1 = .ok out →
        countTokens takes out.doc.tokensUsed = .ok () := by
  cases hskip : d.skipExtraction with
  | true => simp [extraction_skipped hskip, countTokens, emptyDocument]
  | false =>
    rw [extraction_extracts hskip]
    cases hroute : routeProvider deps.providers (routeInput d input deps) with
    | error err => simp [extractDocument_unrouted hroute]
    | ok route =>
      rw [extractDocument_routed hroute, Prog.hears_bind, Prog.eval_bind]
      have hlookup (s : σ) :
          (cacheLookup d (extractionCacheKey input.sha256 route.provider.name)).Hears h
              (TokensTaken takes) s ↔
            ∀ doc, ((cacheLookup d (extractionCacheKey input.sha256 route.provider.name)).eval
              h s).1 = some doc → countTokens takes doc.tokensUsed = .ok () := by
        cases hcache : usesCache d with
        | true => simp [cacheLookup_used hcache, Service.cacheGet, TokensTaken]
        | false => simp [cacheLookup_unused hcache]
      rw [hlookup]
      generalize (cacheLookup d (extractionCacheKey input.sha256 route.provider.name)).eval h s = r
      obtain ⟨found, s'⟩ := r
      cases found with
      | some hit => simp
      | none =>
        simp only [recognizeAndStore, recognizeWithFallback, Prog.hears_bind, Prog.eval_bind,
          hears_tryProviders hsinks]
        generalize Prog.eval h (tryProviders _ _ _ _ _ _ _) s' = r
        obtain ⟨answer, s''⟩ := r
        cases answer with
        | error err => simp
        | ok doc =>
          have hstore : (cacheStore d input deps doc).Hears h (TokensTaken takes) s'' := by
            cases hcache : usesCache d with
            | true =>
              rw [cacheStore_used hcache]
              exact ⟨trivial, trivial⟩
            | false =>
              rw [cacheStore_unused hcache]
              exact trivial
          simp [Prog.hears_bind, Prog.eval_bind, hstore]

theorem hears_runPipeline (t : Timings) (s : σ) :
    (runPipeline d req deps t).Hears h (TokensTaken takes) s ↔
      countTokens takes (reported ((stages d req deps).eval h s).1) = .ok () := by
  have hfinish (v : Locals × Except Thrown (TResult × RecognizedDocument)) (s : σ) :
      (finish d req t v).Hears h (TokensTaken takes) s :=
    (finish_uses (R := fun o => ∀ x, TokensTaken takes o x) (fun _ _ => trivial) d req t
      (fun _ _ _ => trivial) v).hears h (fun _ ho => ho) s
  rw [runPipeline, Prog.hears_bind, and_iff_left (hfinish _ _)]
  cases hcheck : checkRequest d req deps with
  | mk l r =>
    have hdoc : l.doc = none := by simpa [hcheck] using checkRequest_doc d req deps
    cases r with
    | error err =>
      rw [stages_refused hcheck]
      simp [reported, hdoc, countTokens]
    | ok ai =>
      rw [stages_admitted hcheck, Prog.hears_bind, Prog.eval_bind, hears_extraction hsinks]
      generalize (extraction d req deps ai.2).eval h s = r
      obtain ⟨extracted, s'⟩ := r
      cases extracted with
      | error err => simp [afterExtraction, reported, hdoc, countTokens]
      | ok out => simp [afterExtraction, reported]

end

theorem CounterError.untyped {err : Thrown} (h : CounterError err) : err.isOcrError = false := by
  obtain rfl | ⟨text, rfl⟩ := h <;> rfl

section
variable {TArgs TResult : Type} {d : OcrFunctionDefinition TArgs TResult} {req : OcrRequest}
  {deps : PipelineDeps} {σ : Type*} {h : (o : ServiceOp) → σ → o.Answer × σ}

theorem typed_outcome {t : Timings} {v : Locals × Except Thrown (TResult × RecognizedDocument)} :
    Typed (outcome t v) ↔ Typed v.2 := by
  obtain ⟨l, r⟩ := v
  cases r with
  | error err => exact (typed_error err).trans (typed_error err).symm
  | ok rd => exact iff_of_true (typed_ok _) (typed_ok _)

theorem eval_stages_typed_iff (s : σ) : Typed ((stages d req deps).eval h s).1.2 ↔
    routingFails d req deps = false ∧ argsOverflow d req = false := by
  cases hfails : routingFails d req deps with
  | true =>
    obtain ⟨l, input, hst⟩ := stages_of_routingFails hfails
    rw [hst]
    exact iff_of_false (fun htyped => by cases htyped _ rfl) (by simp)
  | false =>
    cases hargs : argsOverflow d req with
    | true =>
      rw [stages_of_argsOverflow hargs]
      exact iff_of_false (fun htyped => by cases htyped _ rfl) (by simp)
    | false =>
      obtain ⟨-, hv⟩ := (stages_typed (A := fun _ _ => True) hfails hargs).eval h
        (fun _ _ => trivial) s
      exact iff_of_true hv ⟨rfl, rfl⟩

end

/-- Three kinds of requests end in an untyped error: those no provider of the registry covers,
those with arguments nested too deep to be measured, and those handed a document whose tokens
cannot be counted. -/
theorem runPipeline_typed_iff {TArgs TResult : Type} {σ : Type*}
    (h : (o : ServiceOp) → σ → o.Answer × σ) (takes : Nat → Except Thrown Unit)
    (hsinks : ∀ o s, SinksTake takes o (h o s).1)
    (hthrows : ∀ n err, takes n = .error err → CounterError err)
    (d : OcrFunctionDefinition TArgs TResult) (req : OcrRequest) (deps : PipelineDeps)
    (t : Timings) (s : σ) :
    Typed ((runPipeline d req deps t).eval h s).1 ↔
      routingFails d req deps = false ∧ argsOverflow d req = false ∧
        (runPipeline d req deps t).Hears h (TokensTaken takes) s := by
  rw [hears_runPipeline hsinks, eval_runPipeline_counted hsinks]
  cases hcount : countTokens takes (reported ((stages d req deps).eval h s).1) with
  | error err =>
    refine iff_of_false (fun htyped => ?_) (by simp)
    have hplain := (countTokens_error hcount).elim fun n hn => (hthrows n err hn).untyped
    rw [(typed_error err).mp htyped] at hplain
    cases hplain
  | ok _ =>
    rw [Except.bind, typed_outcome, eval_stages_typed_iff]
    simp

theorem runPipeline_typed_iff_upload :
    Typed ((runPipeline (textExtraction Sample.body) (Sample.upload [0x89] "tenant") Sample.deps
      Sample.timings).eval (World.handle (Sample.surroundings [])) {}).1 :=
  (runPipeline_typed_iff _ (fun _ => .ok ()) (handle_takes _) (fun _ _ h => by cases h) _ _ _ _
    _).mpr ⟨by decide, rfl, by
      rw [hears_runPipeline (handle_takes _)]
      rfl⟩

namespace Sample

def refusing (o : ServiceOp) (w : World) : o.Answer × World :=
  match o with
  | .metric (.inc .tokensUsedTotal _ _) =>
    (.error (.error "It is not possible to decrease a counter"), w)
  | o => World.handle (surroundings []) o w

end Sample

/-- Word files carry no layout for any provider, and RESUME_PARSING asks for one; GLM-OCR reports
tokens. -/
theorem resumeParsing_docx_untyped :
    (¬ Typed ((runPipeline (resumeParsing Sample.body) (Sample.upload [0x50] "tenant") Sample.deps
      Sample.timings).eval (World.handle (Sample.surroundings [])) {}).1) ∧
    ¬ Typed ((runPipeline (receiptParsing Sample.body) (Sample.upload [0x89] "tenant") Sample.deps
      Sample.timings).eval Sample.refusing {}).1 := by
  refine ⟨fun h => ?_, fun h => ?_⟩
  · exact absurd (h _ rfl) (by decide)
  · exact absurd (h _ rfl) (by decide)

end OcrService
