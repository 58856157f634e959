import OcrService.Residency
import OcrService.Fallback

/-! Requests for the same bytes and the same chain, one after the other: which of them pay for
a recognition. -/
namespace OcrService
open Interaction

def Recognizes (deps : PipelineDeps) (w : World) (c : Call) (env : Surroundings) : Prop :=
  ∃ r ∈ (w.serve deps c env).2.recognitions.drop w.recognitions.length, ∃ doc, r.answer = .ok doc

def OnlyFromCache (deps : PipelineDeps) (w : World) (c : Call) (env : Surroundings) : Prop :=
  (cacheHit deps w c env).isSome = true ∧ ¬ Recognizes deps w c env

/-- At most one request performs a recognition that succeeds, and every later one is
answered from the cache. -/
def PaidOnce (deps : PipelineDeps) : World → List Turn → Prop
  | _, [] => True
  | w, .serve c env :: turns =>
    (Recognizes deps w c env →
      EachServed deps (OnlyFromCache deps) (w.turn deps (.serve c env)) turns) ∧
    PaidOnce deps (w.turn deps (.serve c env)) turns
  | w, .happen e :: turns => PaidOnce deps (w.turn deps (.happen e)) turns

/-- A standard request for the bytes that is routed so, with a cache that does not fail. -/
structure RepeatOf (deps : PipelineDeps) (bytes : Buffer) (route : RoutingDecision) (c : Call)
    (env : Surroundings) : Prop where
  same : c.req.file.buffer = bytes
  standard : c.d.sensitivity = .standard
  routed : ∃ args input, Routed deps c args input route
  reads : env.cacheReadFails = false
  writes : env.cacheWriteFails = false

def Repeats (deps : PipelineDeps) (bytes : Buffer) (route : RoutingDecision) : Turn → Prop
  | .serve c env => RepeatOf deps bytes route c env ∧ env.Stamps
  | .happen (.land _) => True
  | .happen (.drop _) => False

def Call.answeredBy (deps : PipelineDeps) (c : Call) (env : Surroundings) (p : OcrProvider) :
    Bool :=
  match (checkRequest c.d c.req deps).2 with
  | .ok (_, input) => answers env input (recognizeOptions c.req) p
  | .error _ => false

/-- The first request that some provider of the chain would answer is answered by the primary,
or is the last one. -/
def PrimaryAnswersFirst (deps : PipelineDeps) (route : RoutingDecision) : List Turn → Prop
  | [] => True
  | .happen _ :: turns => PrimaryAnswersFirst deps route turns
  | .serve c env :: turns =>
    if (route.provider :: route.fallbacks).any (c.answeredBy deps env) then
      c.answeredBy deps env route.provider = true ∨ ∀ c' env', Turn.serve c' env' ∉ turns
    else PrimaryAnswersFirst deps route turns

def primaryKey (deps : PipelineDeps) (bytes : Buffer) (route : RoutingDecision) : String :=
  extractionCacheKey (deps.pkg.sha256 bytes) route.provider.name

section
variable {deps : PipelineDeps} {bytes : Buffer} {route : RoutingDecision} {c : Call}
  {env : Surroundings} {w : World}

theorem RepeatOf.cachedAnswer (h : RepeatOf deps bytes route c env) (w : World) (key : String) :
    cachedAnswer c.d env w key = w.cache key := by
  simp [OcrService.cachedAnswer, usesCache, h.standard, h.reads]

theorem Routed.sha256 {args : JsValue} {input : DocumentInput}
    (h : Routed deps c args input route) : input.sha256 = deps.pkg.sha256 c.req.file.buffer := by
  obtain ⟨l, hcheck⟩ : ∃ l, checkRequest c.d c.req deps = (l, .ok (args, input)) :=
    ⟨_, Prod.ext rfl h.admitted⟩
  exact (checkRequest_input hcheck).2

theorem RepeatOf.key_eq (h : RepeatOf deps bytes route c env) {args : JsValue}
    {input : DocumentInput} (hrouted : Routed deps c args input route) :
    extractionCacheKey input.sha256 route.provider.name = primaryKey deps bytes route := by
  rw [hrouted.sha256, h.same, primaryKey]

theorem RepeatOf.cacheHit_eq (h : RepeatOf deps bytes route c env) (w : World) :
    cacheHit deps w c env = w.cache (primaryKey deps bytes route) := by
  obtain ⟨args, input, hrouted⟩ := h.routed
  simp only [cacheHit, hrouted.admitted, hrouted.extracts, hrouted.routed, h.cachedAnswer,
    h.key_eq hrouted]
  rfl

inductive Repeated (deps : PipelineDeps) (bytes : Buffer) (route : RoutingDecision) (w : World)
    (c : Call) (env : Surroundings) (w' : World) : Prop
  | hit : OnlyFromCache deps w c env → (w.cache (primaryKey deps bytes route)).isSome = true →
      w'.cache = w.cache → Repeated deps bytes route w c env w'
  | failed : w.cache (primaryKey deps bytes route) = none → ¬ Recognizes deps w c env →
      (route.provider :: route.fallbacks).any (c.answeredBy deps env) = false →
      w'.cache (primaryKey deps bytes route) = none → Repeated deps bytes route w c env w'
  | primary : w.cache (primaryKey deps bytes route) = none → Recognizes deps w c env →
      c.answeredBy deps env route.provider = true →
      (w'.cache (primaryKey deps bytes route)).isSome = true → Repeated deps bytes route w c env w'
  | fallback : w.cache (primaryKey deps bytes route) = none → Recognizes deps w c env →
      c.answeredBy deps env route.provider = false →
      (route.provider :: route.fallbacks).any (c.answeredBy deps env) = true →
      w'.cache (primaryKey deps bytes route) = none → Repeated deps bytes route w c env w'

variable (env) in
theorem answeredBy_eq {args : JsValue} {input : DocumentInput}
    (h : Routed deps c args input route) :
    c.answeredBy deps env = answers env input (recognizeOptions c.req) := by
  funext p
  simp [Call.answeredBy, h.admitted]

theorem stored_cache_ne {d : AnyOcrFunctionDefinition} {input : DocumentInput}
    {doc : RecognizedDocument} {key : String}
    (h : key ≠ extractionCacheKey input.sha256 doc.provider) :
    (w.stored d input deps env doc).cache key = w.cache key := by
  by_cases hstores : (usesCache d && !env.cacheWriteFails) = true
  · rw [World.stored, if_pos hstores]
    exact Function.update_of_ne h _ _
  · rw [World.stored, if_neg hstores]

theorem repeated_serve (h : RepeatOf deps bytes route c env) (henv : env.Stamps) (w : World) :
    Repeated deps bytes route w c env (w.serve deps c env).2 := by
  obtain ⟨args, input, hrouted⟩ := h.routed
  have hkey := h.key_eq hrouted
  have hanswered := answeredBy_eq env hrouted
  obtain ⟨l, r, w', hextracted, hserve⟩ := serve_routed hrouted env w
  have hworld : (w.serve deps c env).2.cache = w'.cache ∧
      (w.serve deps c env).2.recognitions = w'.recognitions := by
    rw [hserve]
    exact ⟨rfl, rfl⟩
  obtain ⟨hcache, hrecognitions⟩ := hworld
  cases hextracted with
  | skipped hskip => simp [hrouted.extracts] at hskip
  | unrouted err _ hroute => simp [hrouted.routed] at hroute
  | hit route' doc _ hroute hhit =>
    obtain rfl := hrouted.route_eq hroute
    rw [h.cachedAnswer, hkey] at hhit
    refine .hit ⟨by simp [h.cacheHit_eq, hhit], ?_⟩ (by simp [hhit]) hcache
    rintro ⟨r, hr, -⟩
    simp [hrecognitions] at hr
  | failed route' last _ hroute hmiss hfail =>
    obtain rfl := hrouted.route_eq hroute
    rw [h.cachedAnswer, hkey] at hmiss
    refine .failed hmiss ?_ ?_ (by rw [hcache]; exact hmiss)
    · rintro ⟨r, hr, doc, hdoc⟩
      rw [hrecognitions, List.drop_left] at hr
      obtain ⟨p, hp, rfl⟩ := List.mem_map.mp hr
      obtain ⟨err, herr⟩ := answers_false (hfail p hp)
      simp [herr] at hdoc
    · rw [hanswered, List.any_eq_false]
      intro p hp
      simp [hfail p hp]
  | recognized route' before after p doc _ hroute hmiss hchain hfail hok =>
    obtain rfl := hrouted.route_eq hroute
    rw [h.cachedAnswer, hkey] at hmiss
    have hrecognizes : Recognizes deps w c env := by
      refine ⟨⟨p, input, recognizeOptions c.req, env.recognize p input (recognizeOptions c.req)⟩,
        ?_, doc, hok⟩
      rw [hrecognitions, recognitions_stored, List.drop_left]
      exact List.mem_map_of_mem (by simp)
    have hname : (stamped route'.provider before.length doc).provider = p.name := by
      rw [← henv _ _ _ _ hok, stamped]
      by_cases hlate : before.length > 0
      · rw [if_pos hlate]
      · rw [if_neg hlate]
    have hp : answers env input (recognizeOptions c.req) p = true := by simp [answers, hok]
    cases before with
    | nil =>
      obtain rfl : route'.provider = p := (List.cons.inj hchain).1
      refine .primary hmiss hrecognizes (by rw [hanswered]; exact hp) ?_
      rw [hcache, World.stored, if_pos (by simp [usesCache, h.standard, h.writes])]
      simp only [hname, hkey, Function.update_self, Option.isSome_some]
    | cons q before =>
      have hq : c.answeredBy deps env route'.provider = false := by
        rw [hanswered, chain_head hchain]
        exact hfail q (by simp)
      refine .fallback hmiss hrecognizes hq ?_ ?_
      · rw [hanswered, hchain, List.any_eq_true]
        exact ⟨p, by simp, hp⟩
      · rw [hcache, stored_cache_ne, hmiss]
        rw [hname, ← hkey]
        intro he
        exact fallback_name_ne hrouted.routed hchain (extractionCacheKey_inj he).2.1.symm

theorem land_cache (i : Nat) : (w.turn deps (.happen (.land i))).cache = w.cache := by
  obtain ⟨inflight, usage, hland⟩ := w.land_eq i
  rw [World.turn, World.happen, hland]

/-- Once the primary's entry is there, every request is answered by it. -/
theorem eachServed_of_entry {turns : List Turn} (h : ∀ turn ∈ turns, Repeats deps bytes route turn)
    (hentry : (w.cache (primaryKey deps bytes route)).isSome = true) :
    EachServed deps (OnlyFromCache deps) w turns := by
  induction turns generalizing w with
  | nil => trivial
  | cons turn turns ih =>
    have hrest := fun t ht => h t (List.mem_cons_of_mem turn ht)
    have hturn := h turn (by simp)
    cases turn with
    | happen e =>
      cases e with
      | drop keys => exact hturn.elim
      | land i => exact ih hrest (by rw [land_cache]; exact hentry)
    | serve c env =>
      cases repeated_serve hturn.1 hturn.2 w with
      | hit hfrom _ hcache => exact ⟨hfrom, ih hrest (by rw [World.turn, hcache]; exact hentry)⟩
      | failed hmiss | primary hmiss | fallback hmiss => simp [hmiss] at hentry

/-- Without the primary's entry the next request is not answered from the cache. -/
theorem eachServed_of_miss {turns : List Turn} (h : ∀ turn ∈ turns, Repeats deps bytes route turn)
    (hmiss : w.cache (primaryKey deps bytes route) = none) :
    EachServed deps (OnlyFromCache deps) w turns ↔ ∀ c env, Turn.serve c env ∉ turns := by
  induction turns generalizing w with
  | nil => simp [EachServed]
  | cons turn turns ih =>
    have hrest := fun t ht => h t (List.mem_cons_of_mem turn ht)
    have hturn := h turn (by simp)
    cases turn with
    | happen e =>
      cases e with
      | drop keys => exact hturn.elim
      | land i =>
        refine (ih hrest (by rw [land_cache]; exact hmiss)).trans ?_
        simp
    | serve c env =>
      refine iff_of_false (fun hserved => ?_) fun hnone => hnone c env (by simp)
      have hentry := hserved.1.1
      rw [hturn.1.cacheHit_eq, hmiss] at hentry
      cases hentry

theorem primaryAnswersFirst_of_none {turns : List Turn} (h : ∀ c env, Turn.serve c env ∉ turns) :
    PrimaryAnswersFirst deps route turns := by
  induction turns with
  | nil => trivial
  | cons turn turns ih =>
    cases turn with
    | happen e => exact ih fun c env hmem => h c env (List.mem_cons_of_mem _ hmem)
    | serve c env => exact absurd (by simp) (h c env)

end

/-- Over any session of standard requests for the same bytes and the same chain, with a cache
that neither fails nor loses entries: the recognition is paid for once if and only if the
primary's entry is there already, or the first request that anyone answers is answered by the
primary or the last one. -/
theorem paidOnce_iff (deps : PipelineDeps) (bytes : Buffer) (route : RoutingDecision) (w : World)
    {turns : List Turn} (h : ∀ turn ∈ turns, Repeats deps bytes route turn) :
    PaidOnce deps w turns ↔
      (w.cache (primaryKey deps bytes route)).isSome = true ∨
        PrimaryAnswersFirst deps route turns := by
  induction turns generalizing w with
  | nil => exact iff_of_true trivial (.inr trivial)
  | cons turn turns ih =>
    have hrest := fun t ht => h t (List.mem_cons_of_mem turn ht)
    have hturn := h turn (by simp)
    cases turn with
    | happen e =>
      cases e with
      | drop keys => exact hturn.elim
      | land i =>
        have hstep := ih (w.turn deps (.happen (.land i))) hrest
        rw [land_cache] at hstep
        exact hstep
    | serve c env =>
      have hstep := ih (w.turn deps (.serve c env)) hrest
      cases repeated_serve hturn.1 hturn.2 w with
      | hit hfrom hentry hcache =>
        rw [World.turn, hcache] at hstep
        exact iff_of_true ⟨fun hpaid => absurd hpaid hfrom.2, hstep.mpr (.inl hentry)⟩ (.inl hentry)
      | failed hmiss hfree hnobody hstill =>
        rw [World.turn, hstill] at hstep
        simp only [PaidOnce, PrimaryAnswersFirst, hfree, hnobody, hmiss, World.turn]
        simpa using hstep
      | primary hmiss hpaid hprimary hentry =>
        have hsome : (route.provider :: route.fallbacks).any (c.answeredBy deps env) = true := by
          simp [hprimary]
        refine iff_of_true ⟨fun _ => eachServed_of_entry hrest hentry, hstep.mpr (.inl hentry)⟩
          (.inr ?_)
        rw [PrimaryAnswersFirst, if_pos hsome]
        exact .inl hprimary
      | fallback hmiss hpaid hprimary hsome hstill =>
        have hserved := eachServed_of_miss hrest hstill
        have hnone : PrimaryAnswersFirst deps route (.serve c env :: turns) ↔
            ∀ c' env', Turn.serve c' env' ∉ turns := by
          rw [PrimaryAnswersFirst, if_pos hsome, hprimary]
          simp
        rw [hnone, hmiss]
        constructor
        · intro honce
          exact .inr (hserved.mp (honce.1 hpaid))
        · rintro (hfalse | hlast)
          · cases hfalse
          · exact ⟨fun _ => hserved.mpr hlast,
              hstep.mpr (.inr (primaryAnswersFirst_of_none hlast))⟩

namespace Sample

def classifyThenFill (down : List String) : List Turn :=
  let call (d : FunctionBody → AnyOcrFunctionDefinition) : Call :=
    ⟨d body, upload [0x89] "tenant", timings⟩
  [.serve (call documentClassification) (surroundings down),
    .serve (call formDataExtraction) (surroundings [])]

theorem classifyThenFill_repeats (down : List String) :
    ∀ turn ∈ classifyThenFill down, Repeats deps [0x89] ⟨glmOcr, [tesseract]⟩ turn := by
  intro turn hturn
  obtain rfl | rfl : turn = _ ∨ turn = _ := by simpa [classifyThenFill] using hturn
  · exact ⟨⟨rfl, rfl, ⟨_, _, rfl, rfl, rfl⟩, rfl, rfl⟩, surroundings_stamps down⟩
  · exact ⟨⟨rfl, rfl, ⟨_, _, rfl, rfl, rfl⟩, rfl, rfl⟩, surroundings_stamps []⟩

theorem paidOnce_iff_classifyThenFill : PaidOnce deps {} (classifyThenFill []) :=
  (paidOnce_iff deps [0x89] ⟨glmOcr, [tesseract]⟩ {} (classifyThenFill_repeats [])).mpr
    (.inr (.inl rfl))

/-- With GLM-OCR down the first request is answered by Tesseract, and its entry is stored
where the second request does not look: it pays for a recognition of its own. -/
theorem classifyThenFill_paidTwice :
    (∀ turn ∈ classifyThenFill ["glm-ocr"], Repeats deps [0x89] ⟨glmOcr, [tesseract]⟩ turn) ∧
      ¬ PaidOnce deps {} (classifyThenFill ["glm-ocr"]) ∧
      (World.session deps {} (classifyThenFill ["glm-ocr"])).recognitions.map
        (fun r => (r.provider.name, r.answer.toOption.isSome)) =
          [("glm-ocr", false), ("tesseract", true), ("glm-ocr", true)] := by
  refine ⟨classifyThenFill_repeats _, fun hpaid => ?_, rfl⟩
  have hserved := hpaid.1 ⟨_, List.mem_cons_of_mem _ (.head _), _, rfl⟩
  exact absurd hserved.1.1 (by decide)

end Sample
end OcrService
