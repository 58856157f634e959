import OcrService.Calls

/-! What a response says about the provider that answered. -/
namespace OcrService
open Interaction

/-- Every provider puts its own name on its documents. -/
def Surroundings.Stamps (env : Surroundings) : Prop :=
  ∀ p input opts doc, env.recognize p input opts = .ok doc → doc.provider = p.name

def World.CacheNamed (w : World) : Prop :=
  ∀ sha256 name doc, w.cache (extractionCacheKey sha256 name) = some doc → doc.provider = name

/-- What answers a request in the name of its primary: the entry under the primary's key,
or else the primary itself. -/
def primaryDocument (d : AnyOcrFunctionDefinition) (req : OcrRequest) (env : Surroundings)
    (w : World) (input : DocumentInput) (route : RoutingDecision) : Option RecognizedDocument :=
  match cachedAnswer d env w (extractionCacheKey input.sha256 route.provider.name) with
  | some hit => some hit
  | none => (env.recognize route.provider input (recognizeOptions req)).toOption

/-- `meta.fellBackFrom` is null if `meta.provider` is the primary, and else its name. -/
def FallbackReported (deps : PipelineDeps) (w : World) (c : Call) (env : Surroundings) : Prop :=
  ∀ args input route o, Routed deps c args input route → (w.serve deps c env).1 = .ok o →
    o.info.fellBackFrom =
      if o.info.provider = route.provider.name then none else some route.provider.name

/-- What answers in the primary's name, and satisfies the function, is not marked as a
fallback from somewhere else. -/
def PrimaryUnmarked (deps : PipelineDeps) (w : World) (c : Call) (env : Surroundings) : Prop :=
  ∀ args input route doc result, Routed deps c args input route →
    primaryDocument c.d c.req env w input route = some doc →
    conclude c.d c.req deps args input doc = .ok result → doc.fellBackFrom = none

section
variable {deps : PipelineDeps} {c : Call} {env : Surroundings} {w : World}

theorem World.CacheNamed.stored {d : AnyOcrFunctionDefinition} {input : DocumentInput}
    (h : w.CacheNamed) (doc : RecognizedDocument) : (w.stored d input deps env doc).CacheNamed := by
  by_cases hstores : (usesCache d && !env.cacheWriteFails) = true
  · rw [World.stored, if_pos hstores]
    intro sha256 name hit hget
    by_cases hk : extractionCacheKey sha256 name = extractionCacheKey input.sha256 doc.provider
    · simp only [hk, Function.update_self, Option.some.injEq] at hget
      rw [← hget, (extractionCacheKey_inj hk).2.1]
    · simp only [Function.update_of_ne hk] at hget
      exact h sha256 name hit hget
  · rw [World.stored, if_neg hstores]
    exact h

theorem World.CacheNamed.cachedAnswer {d : AnyOcrFunctionDefinition} {sha256 : Sha256Hex}
    {name : String} {doc : RecognizedDocument} (h : w.CacheNamed)
    (hhit : cachedAnswer d env w (extractionCacheKey sha256 name) = some doc) :
    doc.provider = name := by
  by_cases hread : (usesCache d && !env.cacheReadFails) = true
  · rw [OcrService.cachedAnswer, if_pos hread] at hhit
    exact h _ _ _ hhit
  · rw [OcrService.cachedAnswer, if_neg hread] at hhit
    cases hhit

theorem World.CacheNamed.serve (h : w.CacheNamed) : (w.serve deps c env).2.CacheNamed := by
  obtain ⟨l, err, -, hserve⟩ | ⟨l, args, input, r, w', -, hextracted, hserve⟩ :=
    serve_cases deps c env w
  · rw [hserve]
    exact h
  · have hkept : w'.CacheNamed := by
      cases hextracted with
      | skipped | unrouted | hit | failed => exact h
      | recognized route before after p doc =>
        refine World.CacheNamed.stored ?_ _
        exact h
    rw [hserve]
    exact hkept

theorem World.CacheNamed.turn (h : w.CacheNamed) (turn : Turn) : (w.turn deps turn).CacheNamed := by
  cases turn with
  | serve c env => exact h.serve
  | happen e =>
    cases e with
    | drop keys =>
      intro sha256 name doc hget
      simp only [World.turn, World.happen, World.drop] at hget
      by_cases hdropped : keys (extractionCacheKey sha256 name) = true
      · simp [hdropped] at hget
      · rw [if_neg hdropped] at hget
        exact h sha256 name doc hget
    | land i =>
      obtain ⟨inflight, usage, hland⟩ := w.land_eq i
      rw [World.turn, World.happen, hland]
      exact h

theorem eachServed_congr_named {P Q : World → Call → Surroundings → Prop} {turns : List Turn}
    (hw : w.cache = fun _ => none)
    (hPQ : ∀ w c env, Turn.serve c env ∈ turns → w.CacheNamed → (P w c env ↔ Q w c env)) :
    EachServed deps P w turns ↔ EachServed deps Q w turns := by
  have hnamed : w.CacheNamed := by
    intro sha256 name doc hget
    simp [hw] at hget
  exact eachServed_congr (I := World.CacheNamed) (K := fun turn => turn ∈ turns)
    (fun w turn _ h => h.turn turn) hPQ hnamed fun _ h => h

theorem outcome_afterExtraction {l : Locals} {args : JsValue} {input : DocumentInput}
    {out : ExtractOutput} {t : Timings} {o : OcrOutcome JsValue} :
    outcome t (afterExtraction c.d c.req deps l args input (.ok out)) = .ok o ↔
      ∃ result, conclude c.d c.req deps args input out.doc = .ok result ∧
        o = { result, info := responseMeta out.doc out.cached t } := by
  simp only [afterExtraction]
  cases conclude c.d c.req deps args input out.doc with
  | error err => simp [outcome, Except.map]
  | ok result => simp [outcome, Except.map, eq_comm]

theorem chain_head {route : RoutingDecision} {before after : List OcrProvider} {p q : OcrProvider}
    (h : route.provider :: route.fallbacks = q :: before ++ p :: after) :
    route.provider = q := (List.cons.inj h).1

theorem fallback_name_ne {input : RouteInput} {route : RoutingDecision}
    {before after : List OcrProvider} {p q : OcrProvider}
    (hroute : routeProvider deps.providers input = .ok route)
    (h : route.provider :: route.fallbacks = q :: before ++ p :: after) :
    p.name ≠ route.provider.name := by
  have hnodup := routeProvider_chain_nodup hroute
  rw [h, List.cons_append, List.map_cons, List.nodup_cons] at hnodup
  rw [chain_head h]
  intro he
  exact hnodup.1 (he ▸ List.mem_map_of_mem (by simp))

theorem primaryAnswer_reported_iff {l : Locals} {args : JsValue} {input : DocumentInput}
    {route : RoutingDecision} {doc : RecognizedDocument} {cached : Bool}
    (hname : doc.provider = route.provider.name)
    (hdoc : primaryDocument c.d c.req env w input route = some doc) :
    (∀ o, outcome c.timings (afterExtraction c.d c.req deps l args input
        (.ok { doc, cached })) = .ok o → o.info.fellBackFrom =
      if o.info.provider = route.provider.name then none else some route.provider.name) ↔
      ∀ doc result, primaryDocument c.d c.req env w input route = some doc →
        conclude c.d c.req deps args input doc = .ok result → doc.fellBackFrom = none := by
  constructor
  · intro h doc' result hdoc' hc
    obtain rfl : doc = doc' := by simpa [hdoc] using hdoc'
    have ho := h _ (outcome_afterExtraction.mpr ⟨result, hc, rfl⟩)
    simpa [responseMeta, hname] using ho
  · intro h o ho
    obtain ⟨result, hc, rfl⟩ := outcome_afterExtraction.mp ho
    simpa [responseMeta, hname] using h doc result hdoc hc

/-- One request reports its fallback rightly exactly if what answered as the primary was
not marked. -/
theorem fallbackReported_iff (henv : env.Stamps) (hw : w.CacheNamed) :
    FallbackReported deps w c env ↔ PrimaryUnmarked deps w c env := by
  have hstep : ∀ args input route, Routed deps c args input route →
      ((∀ o, (w.serve deps c env).1 = .ok o → o.info.fellBackFrom =
          if o.info.provider = route.provider.name then none else some route.provider.name) ↔
        ∀ doc result, primaryDocument c.d c.req env w input route = some doc →
          conclude c.d c.req deps args input doc = .ok result → doc.fellBackFrom = none) := by
    intro args input route hrouted
    obtain ⟨l, r, w', hextracted, hserve⟩ := serve_routed hrouted env w
    rw [hserve]
    cases hextracted with
    | skipped hskip => simp [hrouted.extracts] at hskip
    | unrouted err _ hroute => simp [hrouted.routed] at hroute
    | hit route' doc _ hroute hhit =>
      obtain rfl := hrouted.route_eq hroute
      exact primaryAnswer_reported_iff (hw.cachedAnswer hhit) (by simp [primaryDocument, hhit])
    | failed route' last _ hroute hmiss hfail =>
      obtain rfl := hrouted.route_eq hroute
      obtain ⟨err, herr⟩ := answers_false (hfail route'.provider (by simp))
      have hnone : primaryDocument c.d c.req env w input route' = none := by
        simp [primaryDocument, hmiss, herr, Except.toOption]
      simp [hnone, afterExtraction, outcome]
    | recognized route' before after p doc _ hroute hmiss hchain hfail hok =>
      obtain rfl := hrouted.route_eq hroute
      have hstamp := henv _ _ _ _ hok
      cases before with
      | nil =>
        obtain rfl : route'.provider = p := (List.cons.inj hchain).1
        have hdoc : stamped route'.provider ([] : List OcrProvider).length doc = doc := rfl
        rw [hdoc]
        exact primaryAnswer_reported_iff hstamp
          (by simp [primaryDocument, hmiss, hok, Except.toOption])
      | cons q before =>
        have hq := chain_head hchain
        obtain ⟨err, herr⟩ := answers_false (hfail q (by simp))
        have hnone : primaryDocument c.d c.req env w input route' = none := by
          simp only [primaryDocument, hmiss]
          rw [hq, herr]
          rfl
        have hne := fallback_name_ne hroute hchain
        simp only [hnone]
        refine iff_of_true ?_ (fun _ _ h => by cases h)
        intro o ho
        obtain ⟨result, -, rfl⟩ := outcome_afterExtraction.mp ho
        simp [responseMeta, stamped, hstamp, hne]
  constructor
  · exact fun h args input route doc result hr => (hstep args input route hr).mp
      (fun o => h args input route o hr) doc result
  · exact fun h args input route o hr => (hstep args input route hr).mpr
      (fun doc result => h args input route doc result hr) o

end

/-- Over any session from an empty cache: every response reports its fallback rightly if
and only if nothing that answered as a primary was marked as another one's fallback. -/
theorem fallbacks_reported_iff (deps : PipelineDeps) {w : World} (hw : w.cache = fun _ => none)
    {turns : List Turn} (hstamps : ∀ c env, Turn.serve c env ∈ turns → env.Stamps) :
    EachServed deps (FallbackReported deps) w turns ↔
      EachServed deps (PrimaryUnmarked deps) w turns := by
  refine eachServed_congr_named hw ?_
  intro w c env hmem hnamed
  exact fallbackReported_iff (hstamps c env hmem) hnamed

theorem primaryUnmarked_of_routed {deps : PipelineDeps} {c : Call} {env : Surroundings} {w : World}
    {args : JsValue} {input : DocumentInput} {route : RoutingDecision}
    (h : Routed deps c args input route)
    (hdoc : ((primaryDocument c.d c.req env w input route).bind
      RecognizedDocument.fellBackFrom) = none) : PrimaryUnmarked deps w c env := by
  intro args' input' route' doc result h' hdoc' _
  obtain ⟨rfl, rfl, rfl⟩ := h.unique h'
  simpa [hdoc'] using hdoc

def Sample.readThenClassify (down : List String) : List Turn :=
  let call (d : FunctionBody → AnyOcrFunctionDefinition) : Call :=
    ⟨d Sample.body, Sample.upload [0x89] "tenant", Sample.timings⟩
  [.serve (call textExtraction) (Sample.surroundings down),
    .serve (call documentClassification) (Sample.surroundings [])]

theorem Sample.surroundings_stamps (down : List String) : (Sample.surroundings down).Stamps := by
  intro p input opts doc h
  by_cases hdown : p.name ∈ down
  · simp [Sample.surroundings, hdown] at h
  · simp only [Sample.surroundings, if_neg hdown] at h
    cases h
    rfl

theorem fallbacks_reported_iff_sample :
    EachServed Sample.deps (FallbackReported Sample.deps) {} (Sample.readThenClassify []) := by
  refine (fallbacks_reported_iff Sample.deps rfl ?_).mpr ?_
  · intro c env hmem
    simp only [Sample.readThenClassify, List.mem_cons, Turn.serve.injEq, List.not_mem_nil,
      or_false] at hmem
    obtain ⟨-, rfl⟩ | ⟨-, rfl⟩ := hmem <;> exact Sample.surroundings_stamps []
  · exact ⟨primaryUnmarked_of_routed ⟨rfl, rfl, rfl⟩ rfl,
      primaryUnmarked_of_routed ⟨rfl, rfl, rfl⟩ rfl, trivial⟩

/-- With Tesseract down the first request falls back to GLM-OCR; the entry it leaves is
the second request's primary hit, and still says it fell back from Tesseract. -/
theorem readThenClassify_misreported :
    ¬ EachServed Sample.deps (FallbackReported Sample.deps) {}
      (Sample.readThenClassify ["tesseract"]) := by
  intro h
  exact absurd (h.2.1 _ _ _ _ ⟨rfl, rfl, rfl⟩ rfl) (by decide)

end OcrService
