import OcrService.Calls

/-! What reaches the vendor of GLM-OCR. -/
namespace OcrService
open Interaction

def Recognition.vendorCalls (deps : PipelineDeps) (r : Recognition) : List LayoutParsingCall :=
  if r.provider.name = glmOcr.name then layoutParsingCalls deps.env deps.pkg r.input r.opts else []

/-- The `layoutParsing` calls made while the request is served; their files are its file. -/
def vendorCalls (deps : PipelineDeps) (w : World) (c : Call) (env : Surroundings) :
    List LayoutParsingCall :=
  ((w.serve deps c env).2.recognitions.drop w.recognitions.length).flatMap
    (Recognition.vendorCalls deps)

/-- No call is made for the file of a sensitive function, and none names the raw tenant. -/
def VendorSafe (deps : PipelineDeps) (w : World) (c : Call) (env : Surroundings) : Prop :=
  ∀ call ∈ vendorCalls deps w c env,
    c.d.sensitivity = .standard ∧ call.body.user_id ≠ some c.req.tenantId

/-- GLM-OCR is asked: no cache entry answers, and the chain gets as far as it. -/
def asksGlm (w : World) (c : Call) (env : Surroundings) (input : DocumentInput)
    (route : RoutingDecision) : Bool :=
  (cachedAnswer c.d env w (extractionCacheKey input.sha256 route.provider.name)).isNone &&
    (tried env input (recognizeOptions c.req) (route.provider :: route.fallbacks)).any fun p =>
      p.name = glmOcr.name

section
variable {deps : PipelineDeps} {w : World} {c : Call} {env : Surroundings}

theorem recognitions_stored {d : AnyOcrFunctionDefinition} {input : DocumentInput}
    {doc : RecognizedDocument} :
    (w.stored d input deps env doc).recognitions = w.recognitions := by
  obtain ⟨cache, cacheWrites, hstored⟩ := w.stored_eq d input deps env doc
  rw [hstored]

theorem serve_recognitions {args : JsValue} {input : DocumentInput} {route : RoutingDecision}
    (h : Routed deps c args input route) (w : World) (env : Surroundings) :
    (w.serve deps c env).2.recognitions = w.recognitions ++
      if (cachedAnswer c.d env w (extractionCacheKey input.sha256 route.provider.name)).isNone then
        asked env input (recognizeOptions c.req)
          (tried env input (recognizeOptions c.req) (route.provider :: route.fallbacks))
      else [] := by
  obtain ⟨l, r, w', hextracted, hserve⟩ := serve_routed h env w
  rw [hserve]
  cases hextracted with
  | skipped hskip => simp [h.extracts] at hskip
  | unrouted err _ hroute => simp [h.routed] at hroute
  | hit route' doc _ hroute hhit =>
    obtain rfl := h.route_eq hroute
    simp [World.closed, hhit]
  | failed route' last _ hroute hmiss hfail =>
    obtain rfl := h.route_eq hroute
    simp [World.closed, hmiss, tried_of_fail hfail]
  | recognized route' before after p doc _ hroute hmiss hchain hfail hok =>
    obtain rfl := h.route_eq hroute
    have hp : answers env input (recognizeOptions c.req) p = true := by simp [answers, hok]
    rw [hchain, tried_of_answer hfail hp]
    simp [World.closed, hmiss, recognitions_stored]

theorem serve_recognitions_unrouted (h : ∀ args input route, ¬ Routed deps c args input route) :
    (w.serve deps c env).2.recognitions = w.recognitions := by
  obtain ⟨l, err, -, hserve⟩ | ⟨l, args, input, r, w', hcheck, hextracted, hserve⟩ :=
    serve_cases deps c env w
  · rw [hserve]
    rfl
  · rw [hserve]
    cases hextracted with
    | skipped | unrouted | hit => rfl
    | failed route last hskip hroute =>
      exact absurd ⟨by simp [hcheck], hskip, hroute⟩ (h args input route)
    | recognized route before after p doc hskip hroute =>
      exact absurd ⟨by simp [hcheck], hskip, hroute⟩ (h args input route)

/-- The vendor is called for a request exactly with the page images of its file, where
GLM-OCR is asked. -/
theorem mem_vendorCalls {call : LayoutParsingCall} :
    call ∈ vendorCalls deps w c env ↔
      ∃ args input route, Routed deps c args input route ∧ asksGlm w c env input route = true ∧
        call ∈ layoutParsingCalls deps.env deps.pkg input (recognizeOptions c.req) := by
  by_cases hr : ∃ args input route, Routed deps c args input route
  · obtain ⟨args, input, route, h⟩ := hr
    have hrec := serve_recognitions h w env
    constructor
    · intro hmem
      obtain ⟨r, hr, hcall⟩ := List.mem_flatMap.mp hmem
      rw [hrec, List.drop_left] at hr
      by_cases hnone : (cachedAnswer c.d env w
          (extractionCacheKey input.sha256 route.provider.name)).isNone = true
      · rw [if_pos hnone] at hr
        obtain ⟨p, hp, rfl⟩ := List.mem_map.mp hr
        by_cases hname : p.name = glmOcr.name
        · rw [Recognition.vendorCalls, if_pos hname] at hcall
          refine ⟨args, input, route, h, ?_, hcall⟩
          simp only [asksGlm, hnone, Bool.true_and, List.any_eq_true]
          exact ⟨p, hp, by simpa using hname⟩
        · rw [Recognition.vendorCalls, if_neg hname] at hcall
          cases hcall
      · rw [if_neg hnone] at hr
        cases hr
    · rintro ⟨args', input', route', h', hasks, hcall⟩
      obtain ⟨rfl, rfl, rfl⟩ := h.unique h'
      simp only [asksGlm, Bool.and_eq_true, List.any_eq_true, decide_eq_true_eq] at hasks
      obtain ⟨hnone, p, hp, hname⟩ := hasks
      refine List.mem_flatMap.mpr ⟨⟨p, input, recognizeOptions c.req,
        env.recognize p input (recognizeOptions c.req)⟩, ?_, ?_⟩
      · rw [hrec, List.drop_left, if_pos hnone]
        exact List.mem_map.mpr ⟨p, hp, rfl⟩
      · simpa [Recognition.vendorCalls, hname] using hcall
  · have hnone : ∀ args input route, ¬ Routed deps c args input route :=
      fun args input route h => hr ⟨args, input, route, h⟩
    constructor
    · intro hmem
      rw [vendorCalls, serve_recognitions_unrouted hnone, List.drop_length] at hmem
      cases hmem
    · rintro ⟨args, input, route, h, -⟩
      exact absurd h (hnone args input route)

/-- GLM-OCR switched on, at the vendor's own address, under the default policy. -/
structure Hosted (deps : PipelineDeps) : Prop where
  enabled : deps.env.GLM_ENABLED = true
  baseUrl : deps.env.GLM_BASE_URL = "https://api.z.ai/api/paas/v4"
  registry : deps.providers = buildProviderRegistry deps.env
  policy : deps.policy = defaultProviderPolicy

def Sendable (deps : PipelineDeps) (c : Call) : Prop :=
  ∃ args input, (checkRequest c.d c.req deps).2 = .ok (args, input) ∧
    input.mimeGroup ∈ glmOcr.accepts ∧
    layoutParsingCalls deps.env deps.pkg input (recognizeOptions c.req) ≠ []

theorem sensitive_primary (hosted : Hosted deps) {bodies : OcrFunctionKey → FunctionBody}
    {d : AnyOcrFunctionDefinition} (hd : d ∈ definitions bodies) (hs : d.sensitivity ≠ .standard)
    {input : DocumentInput} (hg : input.mimeGroup ∈ glmOcr.accepts) :
    d.skipExtraction = false ∧ ∃ route,
      routeProvider deps.providers (routeInput d input deps) = .ok route ∧
        route.provider = glmOcr := by
  have hregistry : deps.providers = [plainText, pdfText, mammoth, tesseract, glmOcr] := by
    rw [hosted.registry, buildProviderRegistry, hosted.enabled]
    rfl
  have hgroup : input.mimeGroup = .pdf ∨ input.mimeGroup = .image := by
    simpa [glmOcr] using hg
  have hroute : ∀ fn : OcrFunctionKey, fn = .RESUME_PARSING ∨ fn = .ID_VERIFICATION →
      ∃ route, routeProvider deps.providers
        { group := input.mimeGroup, required := [.text, .layout], fn, policy := deps.policy } =
          .ok route ∧ route.provider = glmOcr := by
    intro fn hfn
    rw [hregistry, hosted.policy]
    obtain hg | hg := hgroup <;> obtain rfl | rfl := hfn <;> rw [hg] <;> exact ⟨_, rfl, rfl⟩
  simp only [definitions, List.mem_cons, List.not_mem_nil, or_false] at hd
  obtain rfl | rfl | rfl | rfl | rfl | rfl | rfl | rfl := hd
  case inr.inr.inr.inr.inl => exact ⟨rfl, hroute _ (.inl rfl)⟩
  case inr.inr.inr.inr.inr.inl => exact ⟨rfl, hroute _ (.inr rfl)⟩
  all_goals exact absurd rfl hs

theorem asksGlm_accepts (hosted : Hosted deps) {input : DocumentInput} {route : RoutingDecision}
    (hroute : routeProvider deps.providers (routeInput c.d input deps) = .ok route)
    (hasks : asksGlm w c env input route = true) : input.mimeGroup ∈ glmOcr.accepts := by
  simp only [asksGlm, Bool.and_eq_true, List.any_eq_true, decide_eq_true_eq] at hasks
  obtain ⟨-, p, hp, hname⟩ := hasks
  have hchain := orderedProviders_admissible deps.providers (routeInput c.d input deps)
  rw [routeProvider_eq_ok.mp hroute] at hchain
  have hmem := tried_subset _ hp
  have hregistered : p ∈ [plainText, pdfText, mammoth, tesseract, glmOcr] := by
    have hin := hchain.registered p hmem
    rw [hosted.registry, buildProviderRegistry, hosted.enabled] at hin
    exact hin
  have hglm : p = glmOcr := by
    simp only [List.mem_cons, List.not_mem_nil, or_false] at hregistered
    obtain rfl | rfl | rfl | rfl | rfl := hregistered
    case inr.inr.inr.inr => rfl
    all_goals exact absurd hname (by decide)
  have hsat := hchain.satisfying p hmem
  rw [hglm, providerSatisfies, Bool.and_eq_true] at hsat
  simpa [routeInput] using hsat.1

/-- One request leaks nothing exactly if its file is not a sensitive one that can be sent
and, where GLM-OCR is asked, the tenant's id has a length the API does not take. -/
theorem vendorSafe_iff (hosted : Hosted deps) {bodies : OcrFunctionKey → FunctionBody}
    (hd : c.d ∈ definitions bodies) :
    VendorSafe deps w c env ↔
      (c.d.sensitivity ≠ .standard → ¬ Sendable deps c) ∧
      ∀ args input route, Routed deps c args input route → asksGlm w c env input route = true →
        layoutParsingCalls deps.env deps.pkg input (recognizeOptions c.req) ≠ [] →
        ¬ (6 ≤ jsLength c.req.tenantId ∧ jsLength c.req.tenantId ≤ 128) := by
  constructor
  · intro hsafe
    refine ⟨?_, ?_⟩
    · rintro hs ⟨args, input, hcheck, hg, hcalls⟩
      obtain ⟨hskip, route, hroute, hprimary⟩ := sensitive_primary hosted hd hs hg
      obtain ⟨call, hcall⟩ := List.exists_mem_of_ne_nil _ hcalls
      have hmiss : ∀ key, cachedAnswer c.d env w key = none := by
        simp [cachedAnswer, usesCache, hs]
      have hasks : asksGlm w c env input route = true := by
        simp [asksGlm, hmiss, tried, hprimary]
      exact hs (hsafe call (mem_vendorCalls.mpr
        ⟨args, input, route, ⟨hcheck, hskip, hroute⟩, hasks, hcall⟩)).1
    · rintro args input route hrouted hasks hcalls ⟨hlow, hhigh⟩
      obtain ⟨call, hcall⟩ := List.exists_mem_of_ne_nil _ hcalls
      have huser := (hsafe call (mem_vendorCalls.mpr
        ⟨args, input, route, hrouted, hasks, hcall⟩)).2
      obtain ⟨chunk, rfl⟩ := mem_layoutParsingCalls hcall
      exact huser (by simp [buildRequest, inRange, recognizeOptions, hlow, hhigh])
  · rintro ⟨hsensitive, hlength⟩ call hmem
    obtain ⟨args, input, route, hrouted, hasks, hcall⟩ := mem_vendorCalls.mp hmem
    have hcalls : layoutParsingCalls deps.env deps.pkg input (recognizeOptions c.req) ≠ [] :=
      List.ne_nil_of_mem hcall
    constructor
    · by_contra hs
      exact hsensitive hs ⟨args, input, hrouted.admitted,
        asksGlm_accepts hosted hrouted.routed hasks, hcalls⟩
    · obtain ⟨chunk, rfl⟩ := mem_layoutParsingCalls hcall
      have hout := hlength args input route hrouted hasks hcalls
      simp only [buildRequest, inRange, recognizeOptions]
      intro huser
      have hrange := (Option.filter_eq_some_iff.mp huser).2
      exact hout (by simpa using hrange)

end

/-- In the hosted configuration, over any session of registered functions: nothing
sensitive and no raw tenant id reaches the vendor if and only if no sensitive request
brings a file GLM-OCR can be sent, and no tenant whose id has 6 to 128 characters gets as
far as GLM-OCR. -/
theorem vendor_safe_iff (deps : PipelineDeps) (hosted : Hosted deps)
    (bodies : OcrFunctionKey → FunctionBody) (w : World) {turns : List Turn}
    (hregistered : ∀ c env, Turn.serve c env ∈ turns → c.d ∈ definitions bodies) :
    EachServed deps (VendorSafe deps) w turns ↔
      EachServed deps (fun w c env =>
        (c.d.sensitivity ≠ .standard → ¬ Sendable deps c) ∧
        ∀ args input route, Routed deps c args input route → asksGlm w c env input route = true →
          layoutParsingCalls deps.env deps.pkg input (recognizeOptions c.req) ≠ [] →
          ¬ (6 ≤ jsLength c.req.tenantId ∧ jsLength c.req.tenantId ≤ 128)) w turns :=
  eachServed_congr (I := fun _ => True) (K := fun turn => turn ∈ turns) (fun _ _ _ _ => trivial)
    (fun _ c env hmem _ => vendorSafe_iff hosted (hregistered c env hmem)) trivial fun _ h => h

def Sample.imageOf (tenantId : String) (d : FunctionBody → AnyOcrFunctionDefinition) : List Turn :=
  [.serve ⟨d Sample.body, Sample.upload [0x89] tenantId, Sample.timings⟩ (Sample.surroundings [])]

theorem Sample.hosted : Hosted Sample.deps := ⟨rfl, rfl, rfl, rfl⟩

theorem vendor_safe_iff_textExtraction :
    EachServed Sample.deps (VendorSafe Sample.deps) {} (Sample.imageOf "acme" textExtraction) := by
  refine (vendor_safe_iff Sample.deps Sample.hosted (fun _ => Sample.body) {} ?_).mpr ?_
  · intro c env hmem
    obtain ⟨rfl, -⟩ : c = _ ∧ env = _ := by simpa [Sample.imageOf] using hmem
    simp [definitions]
  · exact ⟨⟨fun h => absurd rfl h, fun _ _ _ _ _ _ h => absurd h.1 (by decide)⟩, trivial⟩

/-- The image of an identity card goes to the vendor as it is, under the tenant's own id. -/
theorem idVerification_leaks :
    ¬ EachServed Sample.deps (VendorSafe Sample.deps) {}
      (Sample.imageOf "anonymous" idVerification) ∧
    (vendorCalls Sample.deps {} ⟨idVerification Sample.body, Sample.upload [0x89] "anonymous",
      Sample.timings⟩ (Sample.surroundings [])).map (fun call => (call.url, call.body.file.bytes,
        call.body.user_id)) =
      [("https://api.z.ai/api/paas/v4/layout_parsing", [0x89], some "anonymous")] := by
  refine ⟨fun h => ?_, by decide⟩
  exact absurd (h.1 _ (List.mem_singleton.mpr rfl)).1 (by decide)

end OcrService
