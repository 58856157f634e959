import OcrService.Interaction.Purge
import OcrService.Routes

/-! What posts to sensitive functions do to the posts of others, and the cache to them:
nothing, in any interleaving. -/
namespace OcrService
open Interaction

def Post.standard (bodies : OcrFunctionKey → FunctionBody) (p : Post) : Bool :=
  match getFunction bodies p.function with
  | some d => d.sensitivity = .standard
  | none => true

def OcrOutcome.untimed (outcome : OcrOutcome JsValue) : OcrOutcome JsValue :=
  { outcome with info := outcome.info.untimed }

def HttpResponse.untimed : HttpResponse → HttpResponse
  | ⟨status, .success requestId function result info⟩ =>
    ⟨status, .success requestId function result info.untimed⟩
  | response => response

def SameButTimings (r r' : HttpResponse) : Prop := r.untimed = r'.untimed

def SameUnder {α : Type} (f : α → α) (r r' : Except Thrown α) : Prop := r.map f = r'.map f

/-- Operations that differ in the value of a sample at most. -/
def SameButSample (o o' : ServiceOp) : Prop :=
  o = o' ∨ ∃ sample sample', o = .metric sample ∧ o' = .metric sample'

theorem emit_sim {samples samples' : List MetricSample} (h : samples.length = samples'.length) :
    (emit samples).Sim SameButSample Eq (emit samples') := by
  induction samples generalizing samples' with
  | nil =>
    obtain rfl := List.length_eq_zero_iff.mp h.symm
    exact rfl
  | cons sample rest ih =>
    cases samples' with
    | nil => cases h
    | cons sample' rest' =>
      refine ⟨.inr ⟨sample, sample', rfl, rfl⟩, fun x x' hx => ?_⟩
      obtain rfl : x = x' := eq_of_heq hx
      cases x with
      | ok _ => exact ih (by simpa using h)
      | error err => exact rfl

theorem recordRequest_sim (l : Locals) (fn : OcrFunctionKey) (t t' : Timings) (ms ms' : Int)
    (out : RequestOutcome) :
    (recordRequest (l.metrics fn t ms out)).Sim SameButSample Eq
      (recordRequest (l.metrics fn t' ms' out)) :=
  emit_sim (by cases out <;> simp [RequestMetrics.samples, Locals.metrics])

section
variable (d : AnyOcrFunctionDefinition) (req : OcrRequest) (deps : PipelineDeps) (t t' : Timings)

theorem fail_sim (l : Locals) (ms ms' : Int) (err : Thrown) :
    (fail d req l t ms err : Service (Except Thrown (OcrOutcome JsValue))).Sim SameButSample
      (SameUnder OcrOutcome.untimed) (fail d req l t' ms' err) := by
  refine (recordRequest_sim l d.key t t' ms ms' .error).bind fun r r' hr => ?_
  subst hr
  cases r with
  | error err' => exact rfl
  | ok _ => exact ⟨.inl rfl, fun _ _ _ => rfl⟩

theorem finish_sim (v : Locals × Except Thrown (JsValue × RecognizedDocument)) :
    (finish d req t v).Sim SameButSample
      (SameUnder OcrOutcome.untimed) (finish d req t' v) := by
  obtain ⟨l, r⟩ := v
  cases r with
  | error err => exact fail_sim d req t t' l 0 0 err
  | ok rd =>
    refine (recordRequest_sim l d.key t t' t.interpretMs t'.interpretMs .success).bind
      fun r r' hr => ?_
    subst hr
    cases r with
    | error err => exact fail_sim d req t t' l t.interpretMs t'.interpretMs err
    | ok _ => exact ⟨.inl rfl, fun _ _ _ => rfl⟩

theorem runPipeline_sim :
    (runPipeline d req deps t).Sim SameButSample
      (SameUnder OcrOutcome.untimed)
      (runPipeline d req deps t') := by
  have hstages := Prog.Sim.refl (Q := Eq) (E := SameButSample) (fun _ => .inl rfl) (fun _ => rfl)
    (stages d req deps)
  refine hstages.bind fun v v' hv => ?_
  subst hv
  exact finish_sim d req t t' v

theorem respondNow_sim :
    (respondNow deps d req t).Sim SameButSample
      (SameUnder HttpResponse.untimed)
      (respondNow deps d req t') := by
  refine (runPipeline_sim d req deps t t').bind fun r r' hr => ?_
  cases r with
  | error err =>
    cases r' with
    | error err' => cases hr; exact rfl
    | ok o' => cases hr
  | ok o =>
    cases r' with
    | error err' => cases hr
    | ok o' =>
      have ho : o.untimed = o'.untimed := by simpa [SameUnder, Except.map] using hr
      obtain ⟨hresult, hinfo⟩ : o.result = o'.result ∧ o.info.untimed = o'.info.untimed := by
        simpa [OcrOutcome.untimed] using ho
      simp [Prog.Sim, SameUnder, Except.map, sendSuccess, HttpResponse.untimed, hresult, hinfo]

theorem dispatch_sim :
    (dispatch deps d req t).Sim SameButSample
      (SameUnder HttpResponse.untimed)
      (dispatch deps d req t') := by
  by_cases hasync : (d.sensitivity = .standard && shouldRunAsync deps req.file.buffer) = true
  · rw [dispatch, dispatch, if_pos hasync, if_pos hasync]
    exact Prog.Sim.refl (Q := SameUnder HttpResponse.untimed) (E := SameButSample)
      (fun _ => .inl rfl) (fun _ => rfl) _
  · rw [dispatch, dispatch, if_neg hasync, if_neg hasync]
    exact respondNow_sim d req deps t t'

end

theorem postFunction_sim (bodies : OcrFunctionKey → FunctionBody) (deps : PipelineDeps) (p : Post)
    (timings : Timings) :
    (postFunction bodies deps p).Sim SameButSample SameButTimings
      (postFunction bodies deps { p with timings }) := by
  have haccept : Post.accept bodies { p with timings } = p.accept bodies := rfl
  simp only [postFunction, haccept]
  cases p.accept bodies with
  | error err => exact rfl
  | ok dr =>
    refine (dispatch_sim dr.1 dr.2 deps p.timings timings).bind fun r r' hr => ?_
    cases r with
    | error err =>
      cases r' with
      | error err' => cases hr; exact rfl
      | ok o' => cases hr
    | ok o =>
      cases r' with
      | error err' => cases hr
      | ok o' =>
        have ho : o.untimed = o'.untimed := by simpa [SameUnder, Except.map] using hr
        exact ho

def SensitiveOp : ServiceOp → Prop
  | .cacheGet _ | .cacheSet _ _ _ | .enqueue _ => False
  | .recognize _ _ _ | .metric _ | .upsertUsage _ _ _ => True

theorem runPipeline_sensitive {d : AnyOcrFunctionDefinition} (h : d.sensitivity ≠ .standard)
    (req : OcrRequest) (deps : PipelineDeps) (t : Timings) :
    (runPipeline d req deps t).Uses SensitiveOp := by
  have hcache : usesCache d = false := by simp [usesCache, h]
  refine Prog.Uses.bind ((stages_uses d req deps).mono fun o ho => ?_) fun v => ?_
  · rw [hcache] at ho
    cases o with
    | cacheGet | cacheSet => cases ho
    | enqueue | upsertUsage => exact ho.elim
    | recognize | metric => trivial
  · exact finish_uses (fun _ => trivial) d req t (fun _ _ => trivial) v

theorem postFunction_sensitive (bodies : OcrFunctionKey → FunctionBody) (deps : PipelineDeps)
    {p : Post} (h : p.standard bodies = false) :
    (postFunction bodies deps p).Uses SensitiveOp := by
  cases haccept : p.accept bodies with
  | error err => simp [postFunction, haccept]
  | ok dr =>
    obtain ⟨d, request⟩ := dr
    have hd : d.sensitivity ≠ .standard := by
      simp only [Post.accept] at haccept
      simp only [Post.standard] at h
      cases hget : getFunction bodies p.function with
      | none => simp [hget] at haccept
      | some d' =>
        simp only [hget] at haccept h
        cases hfile : p.file with
        | none => simp [hfile] at haccept
        | some file =>
          cases hargs : parseArgsField p.args with
          | error err => simp [hfile, hargs, Except.map] at haccept
          | ok args =>
            obtain ⟨rfl, -⟩ : d' = d ∧ _ := by simpa [hfile, hargs, Except.map] using haccept
            simpa using h
    simp only [postFunction, haccept, dispatch, hd, decide_false, Bool.false_and]
    refine Prog.Uses.bind (Prog.Uses.bind (runPipeline_sensitive hd request deps p.timings) ?_) ?_
    · intro r
      cases r <;> trivial
    · intro r
      cases r <;> trivial

/-- What posts share: the cache, what was written to it, and the queue. -/
structure SameShared (s t : World) : Prop where
  cache : s.cache = t.cache
  cacheWrites : s.cacheWrites = t.cacheWrites
  jobs : s.jobs = t.jobs

theorem handle_sameShared (env : Surroundings) {o o' : ServiceOp} {s t : World}
    (ho : SameButSample o o') (h : SameShared s t) :
    HEq (World.handle env o s).1 (World.handle env o' t).1 ∧
      SameShared (World.handle env o s).2 (World.handle env o' t).2 := by
  obtain rfl | ⟨sample, sample', rfl, rfl⟩ := ho
  · cases o with
    | cacheGet key => exact ⟨by simp [World.handle, h.cache], h⟩
    | cacheSet key doc ttl =>
      by_cases hfails : env.cacheWriteFails = true
      · simp only [World.handle, if_pos hfails]
        exact ⟨HEq.rfl, h⟩
      · simp only [World.handle, if_neg hfails]
        exact ⟨HEq.rfl, by rw [h.cache], by rw [h.cacheWrites], h.jobs⟩
    | recognize | metric | upsertUsage => exact ⟨HEq.rfl, h.cache, h.cacheWrites, h.jobs⟩
    | enqueue data =>
      simp only [World.handle, h.jobs]
      cases env.queueDown with
      | some err => exact ⟨HEq.rfl, h⟩
      | none => exact ⟨HEq.rfl, h.cache, h.cacheWrites, rfl⟩
  · exact ⟨HEq.rfl, h.cache, h.cacheWrites, h.jobs⟩

theorem handle_sensitive (env : Surroundings) {o : ServiceOp} {s t : World} (ho : SensitiveOp o)
    (h : SameShared s t) : SameShared (World.handle env o s).2 t := by
  cases o with
  | cacheGet | cacheSet | enqueue => exact ho.elim
  | recognize | metric | upsertUsage => exact ⟨h.cache, h.cacheWrites, h.jobs⟩

theorem happen_sameShared (e : WorldEvent) {s t : World} (h : SameShared s t) :
    SameShared (s.happen e) (t.happen e) := by
  cases e with
  | drop keys => exact ⟨by simp [World.happen, World.drop, h.cache], h.cacheWrites, h.jobs⟩
  | land i =>
    have hland : ∀ w : World, SameShared (w.land i) w := by
      intro w
      obtain ⟨inflight, usage, hw⟩ := w.land_eq i
      rw [hw]
      exact ⟨rfl, rfl, rfl⟩
    have hs := hland s
    have ht := hland t
    exact ⟨hs.cache.trans (h.cache.trans ht.cache.symm),
      hs.cacheWrites.trans (h.cacheWrites.trans ht.cacheWrites.symm),
      hs.jobs.trans (h.jobs.trans ht.jobs.symm)⟩

def Post.retimed (timings : Nat → Timings) (n : Nat) (p : Post) : Post :=
  { p with timings := timings n }

section
variable (bodies : OcrFunctionKey → FunctionBody) (deps : PipelineDeps)
  (recognize : OcrProvider → DocumentInput → RecognizeOptions → Except Thrown RecognizedDocument)

theorem ocrRouter_unwinding (timings : Nat → Timings) :
    (ocrRouter bodies deps recognize).Unwinding (Post.standard bodies) (Post.retimed timings)
      SameButSample SameButTimings SameShared SensitiveOp where
  kept n p _ := postFunction_sim bodies deps p (timings n)
  dropped _ hp := postFunction_sensitive bodies deps hp
  step_kept _ _ _ _ _ ho h := handle_sameShared _ ho h
  step_dropped _ _ _ _ ho h := handle_sensitive _ ho h
  env e _ _ h := happen_sameShared e h

def fixedAnswer : (o : ServiceOp) → o.Answer
  | .cacheGet _ => none
  | .cacheSet _ _ _ => ()
  | .recognize p input opts => recognize p input opts
  | .metric _ => .ok ()
  | .upsertUsage _ _ _ => ()
  | .enqueue _ => .ok ""

/-- In every interleaving, with any outages: without the posts to functions that are not
`standard` the run goes on, writes the same cache entries, enqueues the same jobs, and
answers every other post alike, timings aside. And each post to such a function has one
answer, whatever the run and the world it starts from, its cache among it. -/
theorem sensitive_posts_invisible :
    (∀ (timings : Nat → Timings) (s : World) moves c,
      (ocrRouter bodies deps recognize).run ⟨s, []⟩ moves = some c →
      ∃ c', (ocrRouter bodies deps recognize).run ⟨s, []⟩
          ((ocrRouter bodies deps recognize).purge (Post.standard bodies) (Post.retimed timings)
            ⟨s, []⟩ moves) = some c' ∧
        c'.world.cacheWrites = c.world.cacheWrites ∧ c'.world.jobs = c.world.jobs ∧
        List.Forall₂ (fun t t' => (∃ n, t'.req = t.req.retimed timings n) ∧
            Option.Rel SameButTimings t.prog.result? t'.prog.result?)
          (c.threads.filter fun t => t.req.standard bodies) c'.threads) ∧
    ∀ p : Post, p.standard bodies = false → ∃ response, ∀ (s : World) moves c,
      (ocrRouter bodies deps recognize).run ⟨s, []⟩ moves = some c →
      ∀ t ∈ c.threads, t.req = p → ∀ r, t.prog = .ret r → r = response := by
  constructor
  · intro timings s moves c hc
    obtain ⟨c', hc', hshadow⟩ := (ocrRouter_unwinding bodies deps recognize timings).run
      (d := ⟨s, []⟩) ⟨⟨rfl, rfl, rfl⟩, .nil, by simp⟩ hc
    exact ⟨c', hc', hshadow.world.cacheWrites.symm, hshadow.world.jobs.symm,
      hshadow.threads.imp fun _ _ h => ⟨h.1, h.2.result⟩⟩
  · intro p hp
    refine ⟨(postFunction bodies deps p).answered (fixedAnswer recognize), ?_⟩
    intro s moves c hc t ht hreq r hr
    have hanswered := Machine.run_answered (f := fixedAnswer recognize) (H := SensitiveOp)
      (D := fun p => p.standard bodies = false)
      (fun _ hp => postFunction_sensitive bodies deps hp) ?_ hc t ht (hreq ▸ hp)
    · rw [hr, hreq] at hanswered
      exact hanswered
    · intro ch o s ho
      cases o with
      | cacheGet | cacheSet | enqueue => exact ho.elim
      | recognize | metric | upsertUsage => rfl

end

namespace Sample

def post (function : OcrFunctionKey) (tenantId : String) : Post where
  function := function.name
  file := some ⟨[0x89], "scan.png"⟩
  args := .missing
  requestId := "r1"
  tenantId := tenantId
  timings := timings

def mixedPosts : List (Move Post Outages WorldEvent) :=
  [.spawn (post .ID_VERIFICATION "acme"), .spawn (post .TEXT_EXTRACTION "umbrella")] ++
    List.replicate 3 (.step 0 {}) ++ List.replicate 4 (.step 1 {}) ++ [.step 0 {}]

def router : Machine Post ServiceOp ServiceOp.Answer HttpResponse Outages WorldEvent World :=
  ocrRouter (fun _ => body) deps (surroundings []).recognize

end Sample

theorem sensitive_posts_invisible_mixed :
    (∃ c c', Sample.router.run ⟨{}, []⟩ Sample.mixedPosts = some c ∧
      Sample.router.run ⟨{}, []⟩ (Sample.router.purge (Post.standard fun _ => Sample.body)
        (Post.retimed fun _ => Sample.timings) ⟨{}, []⟩ Sample.mixedPosts) = some c' ∧
      c'.world.cacheWrites = c.world.cacheWrites ∧ c'.world.jobs = c.world.jobs) ∧
    ∃ response, ∀ (s : World) moves c, Sample.router.run ⟨s, []⟩ moves = some c →
      ∀ t ∈ c.threads, t.req = Sample.post .ID_VERIFICATION "acme" →
        ∀ r, t.prog = .ret r → r = response := by
  have h := sensitive_posts_invisible (fun _ => Sample.body) Sample.deps
    (Sample.surroundings []).recognize
  refine ⟨?_, h.2 (Sample.post .ID_VERIFICATION "acme") (by decide)⟩
  obtain ⟨c', hc', hwrites, hjobs, -⟩ := h.1 (fun _ => Sample.timings) {} Sample.mixedPosts _ rfl
  exact ⟨_, c', rfl, hc', hwrites, hjobs⟩

end OcrService
