import OcrService.Interaction.Pool
import OcrService.PipelineSpec

/-! Many requests over one world: interleaved operation by operation, or one after the
other; and what one of them does to the world. -/
namespace OcrService
open Interaction

structure Call where
  d : AnyOcrFunctionDefinition
  req : OcrRequest
  timings : Timings

def Call.program (deps : PipelineDeps) (c : Call) : Service (Except Thrown (OcrOutcome JsValue)) :=
  runPipeline c.d c.req deps c.timings

inductive WorldEvent where
  | drop (keys : String → Bool)
  | land (i : Nat)

def World.happen : WorldEvent → World → World
  | .drop keys, w => w.drop keys
  | .land i, w => w.land i

def concurrently (deps : PipelineDeps) :
    Machine Call ServiceOp ServiceOp.Answer (Except Thrown (OcrOutcome JsValue)) Surroundings
      WorldEvent World where
  start := Call.program deps
  handle := World.handle
  env := World.happen

inductive Turn where
  | serve (c : Call) (env : Surroundings)
  | happen (e : WorldEvent)

/-- A whole request, with what the outside decides while it is served. -/
def World.serve (deps : PipelineDeps) (c : Call) (env : Surroundings) (w : World) :
    Except Thrown (OcrOutcome JsValue) × World :=
  (c.program deps).eval (World.handle env) w

def World.turn (deps : PipelineDeps) (w : World) : Turn → World
  | .serve c env => (w.serve deps c env).2
  | .happen e => w.happen e

def World.session (deps : PipelineDeps) (w : World) (turns : List Turn) : World :=
  turns.foldl (World.turn deps) w

def EachServed (deps : PipelineDeps) (P : World → Call → Surroundings → Prop) :
    World → List Turn → Prop
  | _, [] => True
  | w, .serve c env :: turns => P w c env ∧ EachServed deps P (w.turn deps (.serve c env)) turns
  | w, .happen e :: turns => EachServed deps P (w.turn deps (.happen e)) turns

section
variable {TArgs TResult : Type} {env : Surroundings}

def asked (env : Surroundings) (input : DocumentInput) (opts : RecognizeOptions)
    (ps : List OcrProvider) : List Recognition :=
  ps.map fun p => ⟨p, input, opts, env.recognize p input opts⟩

def answers (env : Surroundings) (input : DocumentInput) (opts : RecognizeOptions)
    (p : OcrProvider) : Bool :=
  match env.recognize p input opts with
  | .ok _ => true
  | .error _ => false

theorem answers_false {input : DocumentInput} {opts : RecognizeOptions} {p : OcrProvider}
    (h : answers env input opts p = false) : ∃ err, env.recognize p input opts = .error err := by
  cases hr : env.recognize p input opts with
  | error err => exact ⟨err, rfl⟩
  | ok doc => simp [answers, hr] at h

theorem answers_true {input : DocumentInput} {opts : RecognizeOptions} {p : OcrProvider}
    (h : answers env input opts p = true) : ∃ doc, env.recognize p input opts = .ok doc := by
  cases hr : env.recognize p input opts with
  | error err => simp [answers, hr] at h
  | ok doc => exact ⟨doc, rfl⟩

def tried (env : Surroundings) (input : DocumentInput) (opts : RecognizeOptions) :
    List OcrProvider → List OcrProvider
  | [] => []
  | p :: ps => p :: if answers env input opts p then [] else tried env input opts ps

theorem tried_subset {input : DocumentInput} {opts : RecognizeOptions} (ps : List OcrProvider) :
    tried env input opts ps ⊆ ps := by
  induction ps with
  | nil => exact fun _ h => h
  | cons p ps ih =>
    rw [tried]
    by_cases hp : answers env input opts p = true
    · simp [hp]
    · rw [if_neg hp]
      exact List.cons_subset_cons p ih

theorem tried_of_fail {input : DocumentInput} {opts : RecognizeOptions} {ps : List OcrProvider}
    (h : ∀ p ∈ ps, answers env input opts p = false) : tried env input opts ps = ps := by
  induction ps with
  | nil => rfl
  | cons p ps ih =>
    have hp := h p (by simp)
    simp [tried, hp, ih fun q hq => h q (by simp [hq])]

theorem tried_of_answer {input : DocumentInput} {opts : RecognizeOptions}
    {before after : List OcrProvider} {p : OcrProvider}
    (h : ∀ q ∈ before, answers env input opts q = false) (hp : answers env input opts p = true) :
    tried env input opts (before ++ p :: after) = before ++ [p] := by
  induction before with
  | nil => simp [tried, hp]
  | cons q before ih =>
    have hq := h q (by simp)
    simp [tried, hq, ih fun r hr => h r (by simp [hr])]

def stamped (primary : OcrProvider) (i : Nat) (doc : RecognizedDocument) : RecognizedDocument :=
  if i > 0 then { doc with fellBackFrom := some primary.name } else doc

def fallbackSamples (primary p : OcrProvider) (i : Nat) : List MetricSample :=
  if i > 0 then [fallbackSample primary.name p.name] else []

theorem eval_tryProviders_fail (primary : OcrProvider) (chain : List OcrProvider)
    {input : DocumentInput} {opts : RecognizeOptions} {ps : List OcrProvider}
    (h : ∀ p ∈ ps, answers env input opts p = false) (i : Nat) (lastError : Option Thrown)
    (w : World) :
    ∃ last, (tryProviders primary chain input opts i ps lastError).eval (World.handle env) w =
      (.error (allFailed chain last),
        { w with recognitions := w.recognitions ++ asked env input opts ps }) := by
  induction ps generalizing i lastError w with
  | nil => exact ⟨lastError, by simp [tryProviders, asked]⟩
  | cons p ps ih =>
    obtain ⟨err, herr⟩ := answers_false (h p (by simp))
    obtain ⟨last, hlast⟩ := ih (fun q hq => h q (by simp [hq])) (i + 1) (some err)
      { w with recognitions := w.recognitions ++ [⟨p, input, opts, .error err⟩] }
    refine ⟨last, ?_⟩
    simp only [tryProviders, Service.recognize, Prog.ask_bind, Prog.ret_bind, Prog.eval_ask,
      World.handle, herr]
    rw [hlast]
    simp [asked, herr]

theorem eval_tryProviders_ok {primary : OcrProvider} {chain : List OcrProvider}
    {input : DocumentInput} {opts : RecognizeOptions} {before after : List OcrProvider}
    {p : OcrProvider} {doc : RecognizedDocument}
    (h : ∀ q ∈ before, answers env input opts q = false)
    (hp : env.recognize p input opts = .ok doc) (i : Nat) (lastError : Option Thrown) (w : World) :
    (tryProviders primary chain input opts i (before ++ p :: after) lastError).eval
        (World.handle env) w =
      (.ok (stamped primary (i + before.length) doc),
        { w with recognitions := w.recognitions ++ asked env input opts (before ++ [p])
                 samples := w.samples ++ fallbackSamples primary p (i + before.length) }) := by
  induction before generalizing i lastError w with
  | nil =>
    by_cases hi : i > 0
    · simp [tryProviders, Service.recognize, Service.metric, World.handle, hp, asked, stamped,
        fallbackSamples, hi]
    · simp [tryProviders, Service.recognize, World.handle, hp, asked, stamped, fallbackSamples, hi]
  | cons q before ih =>
    obtain ⟨err, herr⟩ := answers_false (h q (by simp))
    have hlen : i + (q :: before).length = i + 1 + before.length := by simp; omega
    rw [hlen]
    simp only [List.cons_append, tryProviders, Service.recognize, Prog.ask_bind, Prog.ret_bind,
      Prog.eval_ask, World.handle, herr]
    rw [ih (fun r hr => h r (by simp [hr]))]
    simp [asked, herr]

/-- What the cache gives a request: nothing where it is not asked or cannot be read. -/
def cachedAnswer (d : OcrFunctionDefinition TArgs TResult) (env : Surroundings) (w : World)
    (key : String) : Option RecognizedDocument :=
  if usesCache d && !env.cacheReadFails then w.cache key else none

def World.stored (d : OcrFunctionDefinition TArgs TResult) (input : DocumentInput)
    (deps : PipelineDeps) (env : Surroundings) (doc : RecognizedDocument) (w : World) : World :=
  if usesCache d && !env.cacheWriteFails then
    let key := extractionCacheKey input.sha256 doc.provider
    { w with cache := Function.update w.cache key (some doc)
             cacheWrites := w.cacheWrites ++ [(key, doc, deps.env.EXTRACTION_CACHE_TTL_SECONDS)] }
  else w

theorem World.stored_eq (d : OcrFunctionDefinition TArgs TResult) (input : DocumentInput)
    (deps : PipelineDeps) (env : Surroundings) (doc : RecognizedDocument) (w : World) :
    ∃ cache cacheWrites, w.stored d input deps env doc = { w with cache, cacheWrites } := by
  by_cases hstores : (usesCache d && !env.cacheWriteFails) = true
  · exact ⟨_, _, by rw [World.stored, if_pos hstores]⟩
  · exact ⟨_, _, by rw [World.stored, if_neg hstores]⟩

theorem eval_cacheLookup (d : OcrFunctionDefinition TArgs TResult) (key : String) (w : World) :
    (cacheLookup d key).eval (World.handle env) w = (cachedAnswer d env w key, w) := by
  cases hcache : usesCache d with
  | false => simp [cacheLookup_unused hcache, cachedAnswer, hcache]
  | true =>
    rw [cacheLookup_used hcache]
    cases hr : env.cacheReadFails <;>
      simp [Service.cacheGet, World.handle, cachedAnswer, hcache, hr]

theorem eval_cacheStore (d : OcrFunctionDefinition TArgs TResult) (input : DocumentInput)
    (deps : PipelineDeps) (doc : RecognizedDocument) (w : World) :
    (cacheStore d input deps doc).eval (World.handle env) w =
      ((), w.stored d input deps env doc) := by
  cases hcache : usesCache d with
  | false => simp [cacheStore_unused hcache, World.stored, hcache]
  | true =>
    rw [cacheStore_used hcache]
    cases hw : env.cacheWriteFails <;>
      simp [Service.cacheSet, World.handle, World.stored, hcache, hw]

/-- The ways the extraction of an admitted file can go, and where each leaves the world. -/
inductive Extracted (d : OcrFunctionDefinition TArgs TResult) (req : OcrRequest)
    (deps : PipelineDeps) (input : DocumentInput) (env : Surroundings) (w : World) :
    Except Thrown ExtractOutput → World → Prop
  | skipped (hskip : d.skipExtraction = true) :
    Extracted d req deps input env w (.ok { doc := emptyDocument, cached := false }) w
  | unrouted (err : Thrown) (hskip : d.skipExtraction = false)
      (hroute : routeProvider deps.providers (routeInput d input deps) = .error err) :
    Extracted d req deps input env w (.error err) w
  | hit (route : RoutingDecision) (doc : RecognizedDocument) (hskip : d.skipExtraction = false)
      (hroute : routeProvider deps.providers (routeInput d input deps) = .ok route)
      (hhit : cachedAnswer d env w (extractionCacheKey input.sha256 route.provider.name) =
        some doc) :
    Extracted d req deps input env w (.ok { doc := doc, cached := true }) w
  | failed (route : RoutingDecision) (last : Option Thrown) (hskip : d.skipExtraction = false)
      (hroute : routeProvider deps.providers (routeInput d input deps) = .ok route)
      (hmiss : cachedAnswer d env w (extractionCacheKey input.sha256 route.provider.name) = none)
      (hfail : ∀ p ∈ route.provider :: route.fallbacks,
        answers env input (recognizeOptions req) p = false) :
    Extracted d req deps input env w
      (.error (allFailed (route.provider :: route.fallbacks) last))
      { w with recognitions := w.recognitions ++
                 asked env input (recognizeOptions req) (route.provider :: route.fallbacks) }
  | recognized (route : RoutingDecision) (before after : List OcrProvider) (p : OcrProvider)
      (doc : RecognizedDocument) (hskip : d.skipExtraction = false)
      (hroute : routeProvider deps.providers (routeInput d input deps) = .ok route)
      (hmiss : cachedAnswer d env w (extractionCacheKey input.sha256 route.provider.name) = none)
      (hchain : route.provider :: route.fallbacks = before ++ p :: after)
      (hfail : ∀ q ∈ before, answers env input (recognizeOptions req) q = false)
      (hok : env.recognize p input (recognizeOptions req) = .ok doc) :
    Extracted d req deps input env w
      (.ok { doc := stamped route.provider before.length doc, cached := false })
      (World.stored d input deps env (stamped route.provider before.length doc)
        { w with recognitions := w.recognitions ++
                   asked env input (recognizeOptions req) (before ++ [p])
                 samples := w.samples ++ fallbackSamples route.provider p before.length })

theorem extraction_cases (env : Surroundings) (d : OcrFunctionDefinition TArgs TResult)
    (req : OcrRequest) (deps : PipelineDeps) (input : DocumentInput) (w : World) :
    Extracted d req deps input env w ((extraction d req deps input).eval (World.handle env) w).1
      ((extraction d req deps input).eval (World.handle env) w).2 := by
  cases hskip : d.skipExtraction with
  | true =>
    rw [extraction_skipped hskip]
    exact .skipped hskip
  | false =>
    rw [extraction_extracts hskip]
    cases hroute : routeProvider deps.providers (routeInput d input deps) with
    | error err =>
      rw [extractDocument_unrouted hroute]
      exact .unrouted err hskip hroute
    | ok route =>
      rw [extractDocument_routed hroute, Prog.eval_bind, eval_cacheLookup]
      cases hlook : cachedAnswer d env w
          (extractionCacheKey input.sha256 route.provider.name) with
      | some doc => exact .hit route doc hskip hroute hlook
      | none =>
        simp only [recognizeAndStore, recognizeWithFallback, Prog.eval_bind]
        cases hfind : (route.provider :: route.fallbacks).find?
            (answers env input (recognizeOptions req)) with
        | none =>
          have hfail : ∀ p ∈ route.provider :: route.fallbacks,
              answers env input (recognizeOptions req) p = false := by
            simpa using hfind
          obtain ⟨last, hlast⟩ := eval_tryProviders_fail route.provider
            (route.provider :: route.fallbacks) hfail 0 none w
          rw [hlast]
          exact .failed route last hskip hroute hlook hfail
        | some p =>
          obtain ⟨hp, before, after, hchain, hbefore⟩ := List.find?_eq_some_iff_append.mp hfind
          have hfail : ∀ q ∈ before, answers env input (recognizeOptions req) q = false := by
            simpa using hbefore
          obtain ⟨doc, hok⟩ := answers_true hp
          rw [hchain, eval_tryProviders_ok hfail hok]
          simp only [Nat.zero_add, Prog.eval_bind, eval_cacheStore]
          exact .recognized route before after p doc hskip hroute hlook hchain hfail hok

theorem eval_emit (samples : List MetricSample) (w : World) :
    (emit samples).eval (World.handle env) w =
      (.ok (), { w with samples := w.samples ++ samples }) := by
  induction samples generalizing w with
  | nil => simp [emit]
  | cons sample rest ih =>
    simp only [emit, Service.metric, Prog.ask_bind, Prog.ret_bind, Prog.eval_ask, World.handle]
    rw [ih]
    simp

def World.closed (fn : OcrFunctionKey) (tenantId : String) (t : Timings)
    (v : Locals × Except Thrown (TResult × RecognizedDocument)) (w : World) : World :=
  { w with samples := w.samples ++ (closingMetrics fn t v).samples
           inflight := w.inflight ++ [closingUpsert tenantId v] }

theorem eval_finish (d : OcrFunctionDefinition TArgs TResult) (req : OcrRequest) (t : Timings)
    (v : Locals × Except Thrown (TResult × RecognizedDocument)) (w : World) :
    (finish d req t v).eval (World.handle env) w =
      (outcome t v, w.closed d.key req.tenantId t v) := by
  obtain ⟨l, r⟩ := v
  cases r with
  | error err =>
    rw [finish, fail, recordRequest, Prog.eval_bind, eval_emit]
    rfl
  | ok rd =>
    rw [finish, recordRequest, Prog.eval_bind, eval_emit]
    rfl

end

theorem serve_refused {deps : PipelineDeps} {c : Call} {l : Locals} {err : Thrown}
    (h : checkRequest c.d c.req deps = (l, .error err)) (env : Surroundings) (w : World) :
    w.serve deps c env = (.error err, w.closed c.d.key c.req.tenantId c.timings
      ((l, .error err) : Locals × Except Thrown (JsValue × RecognizedDocument))) := by
  rw [World.serve, Call.program, runPipeline, stages_refused h, Prog.ret_bind, eval_finish]
  rfl

theorem serve_admitted {deps : PipelineDeps} {c : Call} {l : Locals} {args : JsValue}
    {input : DocumentInput} (h : checkRequest c.d c.req deps = (l, .ok (args, input)))
    (env : Surroundings) (w : World) :
    w.serve deps c env =
      (outcome c.timings (afterExtraction c.d c.req deps l args input
          ((extraction c.d c.req deps input).eval (World.handle env) w).1),
        World.closed c.d.key c.req.tenantId c.timings (afterExtraction c.d c.req deps l args input
            ((extraction c.d c.req deps input).eval (World.handle env) w).1)
          ((extraction c.d c.req deps input).eval (World.handle env) w).2) := by
  rw [World.serve, Call.program, runPipeline, stages_admitted h, Prog.eval_bind, Prog.eval_bind,
    Prog.eval_ret, eval_finish]

theorem serve_cases (deps : PipelineDeps) (c : Call) (env : Surroundings) (w : World) :
    (∃ l err, checkRequest c.d c.req deps = (l, .error err) ∧
      w.serve deps c env = (.error err, w.closed c.d.key c.req.tenantId c.timings
        ((l, .error err) : Locals × Except Thrown (JsValue × RecognizedDocument)))) ∨
    ∃ l args input r w', checkRequest c.d c.req deps = (l, .ok (args, input)) ∧
      Extracted c.d c.req deps input env w r w' ∧
      w.serve deps c env =
        (outcome c.timings (afterExtraction c.d c.req deps l args input r),
          w'.closed c.d.key c.req.tenantId c.timings
            (afterExtraction c.d c.req deps l args input r)) := by
  cases hcheck : checkRequest c.d c.req deps with
  | mk l r =>
    cases r with
    | error err => exact .inl ⟨l, err, rfl, serve_refused hcheck env w⟩
    | ok ai =>
      obtain ⟨args, input⟩ := ai
      exact .inr ⟨l, args, input, _, _, rfl, extraction_cases env c.d c.req deps input w,
        serve_admitted hcheck env w⟩

def cacheHit (deps : PipelineDeps) (w : World) (c : Call) (env : Surroundings) :
    Option RecognizedDocument :=
  match (checkRequest c.d c.req deps).2 with
  | .error _ => none
  | .ok (_, input) =>
    if c.d.skipExtraction then none
    else
      match routeProvider deps.providers (routeInput c.d input deps) with
      | .error _ => none
      | .ok route =>
        cachedAnswer c.d env w (extractionCacheKey input.sha256 route.provider.name)

structure Routed (deps : PipelineDeps) (c : Call) (args : JsValue) (input : DocumentInput)
    (route : RoutingDecision) : Prop where
  admitted : (checkRequest c.d c.req deps).2 = .ok (args, input)
  extracts : c.d.skipExtraction = false
  routed : routeProvider deps.providers (routeInput c.d input deps) = .ok route

theorem Routed.route_eq {deps : PipelineDeps} {c : Call} {args : JsValue} {input : DocumentInput}
    {route route' : RoutingDecision} (h : Routed deps c args input route)
    (hroute : routeProvider deps.providers (routeInput c.d input deps) = .ok route') :
    route' = route :=
  Except.ok.inj (hroute.symm.trans h.routed)

theorem serve_routed {deps : PipelineDeps} {c : Call} {args : JsValue} {input : DocumentInput}
    {route : RoutingDecision} (h : Routed deps c args input route) (env : Surroundings)
    (w : World) :
    ∃ l r w', Extracted c.d c.req deps input env w r w' ∧
      w.serve deps c env =
        (outcome c.timings (afterExtraction c.d c.req deps l args input r),
          w'.closed c.d.key c.req.tenantId c.timings
            (afterExtraction c.d c.req deps l args input r)) := by
  have hadmitted := h.admitted
  obtain ⟨l, err, hcheck, -⟩ | ⟨l, args', input', r, w', hcheck, hextracted, hserve⟩ :=
    serve_cases deps c env w
  · simp [hcheck] at hadmitted
  · obtain ⟨rfl, rfl⟩ : args' = args ∧ input' = input := by simpa [hcheck] using hadmitted
    exact ⟨l, r, w', hextracted, hserve⟩

theorem Routed.unique {deps : PipelineDeps} {c : Call} {args args' : JsValue}
    {input input' : DocumentInput} {route route' : RoutingDecision}
    (h : Routed deps c args input route) (h' : Routed deps c args' input' route') :
    args = args' ∧ input = input' ∧ route = route' := by
  have hcheck := h.admitted.symm.trans h'.admitted
  obtain ⟨rfl, rfl⟩ : args = args' ∧ input = input' := by simpa using hcheck
  exact ⟨rfl, rfl, h'.route_eq h.routed⟩

theorem eachServed_congr {deps : PipelineDeps} {I : World → Prop} {K : Turn → Prop}
    {P Q : World → Call → Surroundings → Prop}
    (hI : ∀ w turn, K turn → I w → I (w.turn deps turn))
    (hPQ : ∀ w c env, K (.serve c env) → I w → (P w c env ↔ Q w c env))
    {w : World} (hw : I w) {turns : List Turn} (hK : ∀ turn ∈ turns, K turn) :
    EachServed deps P w turns ↔ EachServed deps Q w turns := by
  induction turns generalizing w with
  | nil => exact Iff.rfl
  | cons turn turns ih =>
    have hturn := hK turn (by simp)
    have hrest := ih (hI w turn hturn hw) fun t ht => hK t (by simp [ht])
    cases turn with
    | serve c env => exact and_congr (hPQ w c env hturn hw) hrest
    | happen e => exact hrest

end OcrService
