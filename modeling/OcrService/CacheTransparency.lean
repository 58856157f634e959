import OcrService.Calls
import Mathlib.Data.List.Nodup

/-! The extraction cache changes no outcome: an entry is what the provider it names would
have answered for exactly those bytes. -/
namespace OcrService
open Interaction

def RecognizedDocument.untimed (doc : RecognizedDocument) : RecognizedDocument :=
  { doc with durationMs := 0 }

def RecognizedDocument.content (doc : RecognizedDocument) : RecognizedDocument :=
  { doc with provider := "", fellBackFrom := none, tokensUsed := none, durationMs := 0 }

abbrev Readings := OcrProvider → Buffer → Option RecognizedDocument

/-- In these surroundings the providers answer as `readings` says, durations aside. -/
def Surroundings.Follows (env : Surroundings) (readings : Readings) : Prop :=
  ∀ p input opts,
    match readings p input.buffer with
    | none => ∃ err, env.recognize p input opts = .error err
    | some reading => ∃ doc, env.recognize p input opts = .ok doc ∧ doc.untimed = reading.untimed

/-- `execute` sees no difference between documents of the same content. -/
def ReadsContent (d : AnyOcrFunctionDefinition) : Prop :=
  ∀ ctx doc args, doc.content = ctx.doc.content →
    d.execute { ctx with doc := doc } args = d.execute ctx args

def noopCache (env : Surroundings) : Surroundings :=
  { env with cacheReadFails := true, cacheWriteFails := true }

def SameEnd (out out' : Except Thrown (OcrOutcome JsValue)) : Prop :=
  match out, out' with
  | .ok o, .ok o' => o.result = o'.result
  | .error err, .error err' => (errorHandler "" err).2.code = (errorHandler "" err').2.code
  | _, _ => False

theorem content_of_untimed {doc doc' : RecognizedDocument} (h : doc.untimed = doc'.untimed) :
    doc.content = doc'.content ∧ doc.provider = doc'.provider := by
  simp only [RecognizedDocument.untimed, RecognizedDocument.mk.injEq] at h
  simp [RecognizedDocument.content, h]

theorem conclude_of_content {d : AnyOcrFunctionDefinition} (hd : ReadsContent d) (req : OcrRequest)
    (deps : PipelineDeps) (args : JsValue) (input : DocumentInput) {doc doc' : RecognizedDocument}
    (h : doc.content = doc'.content) :
    conclude d req deps args input doc = conclude d req deps args input doc' := by
  have hpages : doc.pageCount = doc'.pageCount := by
    have hp := congrArg RecognizedDocument.pageCount h
    simpa [RecognizedDocument.content] using hp
  have hrun : d.execute (buildContext d req deps input doc) args =
      d.execute (buildContext d req deps input doc') args :=
    hd (buildContext d req deps input doc') doc args h
  simp only [conclude, interpret, hpages, hrun]

inductive Expected where
  | result (value : JsValue)
  | code (c : OcrErrorCode)

def Expected.ofExcept : Except Thrown JsValue → Expected
  | .ok value => .result value
  | .error err => .code (errorHandler "" err).2.code

def expected (deps : PipelineDeps) (readings : Readings) (c : Call) : Expected :=
  match (checkRequest c.d c.req deps).2 with
  | .error err => .ofExcept (.error err)
  | .ok (args, input) =>
    if c.d.skipExtraction then .ofExcept (conclude c.d c.req deps args input emptyDocument)
    else
      match routeProvider deps.providers (routeInput c.d input deps) with
      | .error err => .ofExcept (.error err)
      | .ok route =>
        match (route.provider :: route.fallbacks).findSome? fun p => readings p input.buffer with
        | none => .code .EXTRACTION_FAILED
        | some reading => .ofExcept (conclude c.d c.req deps args input reading)

def EndsAs (e : Expected) (v : Locals × Except Thrown (JsValue × RecognizedDocument)) : Prop :=
  e = .ofExcept (v.2.map Prod.fst)

theorem sameEnd_of_endsAs {e : Expected}
    {v v' : Locals × Except Thrown (JsValue × RecognizedDocument)} (h : EndsAs e v)
    (h' : EndsAs e v') (t t' : Timings) : SameEnd (outcome t v) (outcome t' v') := by
  obtain ⟨l, r⟩ := v
  obtain ⟨l', r'⟩ := v'
  rw [EndsAs, h] at h'
  cases r with
  | ok rd =>
    cases r' with
    | ok rd' => simpa [Expected.ofExcept, Except.map, outcome, SameEnd] using h'
    | error err' => simp [Expected.ofExcept, Except.map] at h'
  | error err =>
    cases r' with
    | ok rd' => simp [Expected.ofExcept, Except.map] at h'
    | error err' => simpa [Expected.ofExcept, Except.map, outcome, SameEnd] using h'

section
variable {deps : PipelineDeps} {readings : Readings} {B : Buffer → Prop}
  {L : Surroundings → Prop} {I : World → Prop}

/-- The entry is a registered provider's reading of bytes in `B`, under their key. -/
def Vouched (deps : PipelineDeps) (readings : Readings) (B : Buffer → Prop) (key : String)
    (doc : RecognizedDocument) : Prop :=
  ∃ p ∈ deps.providers, ∃ b, B b ∧ key = extractionCacheKey (deps.pkg.sha256 b) p.name ∧
    ∃ reading, readings p b = some reading ∧ doc.content = reading.content

def StoresVouched (deps : PipelineDeps) (readings : Readings) (B : Buffer → Prop) :
    ServiceOp → Prop
  | .cacheSet key doc _ => Vouched deps readings B key doc
  | _ => True

/-- Under choices in `L` a world in `I` hands out vouched entries only, and stays in `I`
as long as only such entries are stored. -/
structure SoundCache (deps : PipelineDeps) (readings : Readings) (B : Buffer → Prop)
    (L : Surroundings → Prop) (I : World → Prop) : Prop where
  follows : ∀ env, L env → env.Follows readings
  handsOut : ∀ env w key doc, L env → I w →
    (World.handle env (.cacheGet key) w).1 = some doc → Vouched deps readings B key doc
  keeps : ∀ env w o, L env → I w → StoresVouched deps readings B o → I (World.handle env o w).2

def ReadBy (readings : Readings) (b : Buffer) (ps : List OcrProvider) :
    Except Thrown RecognizedDocument → Prop
  | .error err => ps.findSome? (fun p => readings p b) = none ∧
      (errorHandler "" err).2.code = .EXTRACTION_FAILED
  | .ok doc => ∃ p ∈ ps, ∃ reading, ps.findSome? (fun p => readings p b) = some reading ∧
      readings p b = some reading ∧ doc.content = reading.content ∧ doc.provider = p.name

theorem ReadBy.skip {b : Buffer} {p : OcrProvider} {ps : List OcrProvider}
    {r : Except Thrown RecognizedDocument} (hp : readings p b = none) (h : ReadBy readings b ps r) :
    ReadBy readings b (p :: ps) r := by
  cases r with
  | error err => exact ⟨by simpa [hp] using h.1, h.2⟩
  | ok doc =>
    obtain ⟨q, hq, reading, hfind, hrest⟩ := h
    exact ⟨q, List.mem_cons_of_mem _ hq, reading, by simpa [hp] using hfind, hrest⟩

theorem tryProviders_keeps (hcache : SoundCache deps readings B L I)
    (hstamps : ∀ p b reading, readings p b = some reading → reading.provider = p.name)
    (primary : OcrProvider) (chain : List OcrProvider) (input : DocumentInput)
    (opts : RecognizeOptions) (ps : List OcrProvider) (i : Nat) (lastError : Option Thrown) :
    (tryProviders primary chain input opts i ps lastError).Keeps World.handle L I
      (ReadBy readings input.buffer ps) := by
  induction ps generalizing i lastError with
  | nil => exact ⟨rfl, rfl⟩
  | cons p ps ih =>
    intro env w henv hw
    refine ⟨hcache.keeps env w (.recognize p input opts) henv hw trivial, ?_⟩
    have hfollows := hcache.follows env henv p input opts
    simp only [World.handle]
    cases hread : readings p input.buffer with
    | none =>
      obtain ⟨err, herr⟩ : ∃ err, env.recognize p input opts = .error err := by
        simpa [hread] using hfollows
      rw [herr]
      exact (ih (i + 1) (some err)).mono fun r hr => hr.skip hread
    | some reading =>
      obtain ⟨doc, hdoc, huntimed⟩ : ∃ doc, env.recognize p input opts = .ok doc ∧
          doc.untimed = reading.untimed := by
        simpa [hread] using hfollows
      obtain ⟨hcontent, hname⟩ := content_of_untimed huntimed
      have hfound : ∀ doc' : RecognizedDocument, doc'.content = doc.content →
          doc'.provider = doc.provider → ReadBy readings input.buffer (p :: ps) (.ok doc') :=
        fun doc' hc hp => ⟨p, by simp, reading, by simp [hread], hread, hc.trans hcontent,
          hp.trans (hname.trans (hstamps p _ reading hread))⟩
      rw [hdoc]
      by_cases hi : i > 0
      · simp only [hi, if_true]
        intro env' w' henv' hw'
        exact ⟨hcache.keeps env' w' (.metric _) henv' hw' trivial, hfound _ rfl rfl⟩
      · simp only [hi, if_false]
        exact hfound doc rfl rfl

/-- A vouched entry under a provider's key is that provider's reading of those bytes:
keys do not clash, digests do not collide in `B`, names are distinct. -/
theorem Vouched.reading {p : OcrProvider} {b : Buffer} {doc : RecognizedDocument}
    (hnames : (deps.providers.map OcrProvider.name).Nodup)
    (hsha : ∀ b b', B b → B b' → deps.pkg.sha256 b = deps.pkg.sha256 b' → b = b')
    (hp : p ∈ deps.providers) (hb : B b)
    (h : Vouched deps readings B (extractionCacheKey (deps.pkg.sha256 b) p.name) doc) :
    ∃ reading, readings p b = some reading ∧ doc.content = reading.content := by
  obtain ⟨q, hq, b', hb', hkey, hreading⟩ := h
  obtain ⟨htext, hname, -⟩ := extractionCacheKey_inj hkey
  have hdigest : deps.pkg.sha256 b = deps.pkg.sha256 b' := by
    cases hs : deps.pkg.sha256 b
    cases hs' : deps.pkg.sha256 b'
    simpa [hs, hs'] using htext
  obtain rfl : b = b' := hsha b b' hb hb' hdigest
  obtain rfl : p = q := List.inj_on_of_nodup_map hnames hp hq hname
  exact hreading

theorem cacheLookup_keeps (hcache : SoundCache deps readings B L I)
    (d : OcrFunctionDefinition JsValue JsValue) (key : String) :
    (cacheLookup d key).Keeps World.handle L I fun found => ∀ hit, found = some hit →
      Vouched deps readings B key hit := by
  cases hused : usesCache d with
  | true =>
    rw [cacheLookup_used hused]
    intro env w henv hw
    exact ⟨hcache.keeps env w (.cacheGet _) henv hw trivial,
      fun hit hhit => hcache.handsOut env w _ hit henv hw hhit⟩
  | false =>
    rw [cacheLookup_unused hused]
    exact fun hit hhit => nomatch hhit

theorem cacheStore_keeps (hcache : SoundCache deps readings B L I)
    (d : OcrFunctionDefinition JsValue JsValue) {input : DocumentInput} {doc : RecognizedDocument}
    (hvouched : Vouched deps readings B (extractionCacheKey input.sha256 doc.provider) doc) :
    (cacheStore d input deps doc).Keeps World.handle L I fun _ => True := by
  cases hused : usesCache d with
  | true =>
    rw [cacheStore_used hused]
    intro env w henv hw
    exact ⟨hcache.keeps env w (.cacheSet _ _ _) henv hw hvouched, trivial⟩
  | false =>
    rw [cacheStore_unused hused]
    exact trivial

/-- Extraction keeps the cache sound and ends as if there were none. -/
theorem extraction_keeps (hcache : SoundCache deps readings B L I)
    (hstamps : ∀ p b reading, readings p b = some reading → reading.provider = p.name)
    (hnames : (deps.providers.map OcrProvider.name).Nodup)
    (hsha : ∀ b b', B b → B b' → deps.pkg.sha256 b = deps.pkg.sha256 b' → b = b')
    {c : Call} (hb : B c.req.file.buffer) (hd : ReadsContent c.d) {l : Locals} {args : JsValue}
    {input : DocumentInput} (hcheck : checkRequest c.d c.req deps = (l, .ok (args, input))) :
    (extraction c.d c.req deps input).Keeps World.handle L I fun r =>
      EndsAs (expected deps readings c) (afterExtraction c.d c.req deps l args input r) := by
  obtain ⟨hbuffer, hsha256⟩ := checkRequest_input hcheck
  have hafter : ∀ out : ExtractOutput,
      ((afterExtraction c.d c.req deps l args input (.ok out)).2.map Prod.fst) =
        conclude c.d c.req deps args input out.doc := by
    intro out
    simp only [afterExtraction]
    cases conclude c.d c.req deps args input out.doc <;> rfl
  cases hskip : c.d.skipExtraction with
  | true =>
    rw [extraction_skipped hskip]
    simp [EndsAs, hafter, expected, hcheck, hskip]
  | false =>
    rw [extraction_extracts hskip]
    cases hroute : routeProvider deps.providers (routeInput c.d input deps) with
    | error err =>
      rw [extractDocument_unrouted hroute]
      simp [EndsAs, expected, hcheck, hskip, hroute, afterExtraction, Except.map]
    | ok route =>
      have hchain := orderedProviders_admissible deps.providers (routeInput c.d input deps)
      rw [routeProvider_eq_ok.mp hroute] at hchain
      -- A document with the content of the chain's reading ends the call as expected.
      have hends : ∀ out : ExtractOutput, ∀ reading,
          (route.provider :: route.fallbacks).findSome? (fun p => readings p input.buffer) =
            some reading → out.doc.content = reading.content →
          EndsAs (expected deps readings c)
            (afterExtraction c.d c.req deps l args input (.ok out)) := by
        intro out reading hfind hcontent
        rw [EndsAs, hafter, conclude_of_content hd c.req deps args input hcontent]
        simp [expected, hcheck, hskip, hroute, hfind]
      rw [extractDocument_routed hroute]
      refine Prog.Keeps.bind (cacheLookup_keeps hcache c.d _) ?_
      intro found hfound
      cases found with
      | some hit =>
        have hvouched := hfound hit rfl
        rw [hsha256] at hvouched
        obtain ⟨reading, hread, hcontent⟩ := hvouched.reading hnames hsha
          (hchain.registered route.provider (by simp)) hb
        exact hends _ reading (by simp [hbuffer, hread]) hcontent
      | none =>
        refine Prog.Keeps.bind (tryProviders_keeps hcache hstamps _ _ input _ _ 0 none) ?_
        intro r hr
        cases r with
        | error err =>
          have hcode : (errorHandler "" err).2.code = .EXTRACTION_FAILED := hr.2
          simp [EndsAs, expected, hcheck, hskip, hroute, hr.1, afterExtraction, Except.map,
            Expected.ofExcept, hcode]
        | ok doc =>
          obtain ⟨p, hp, reading, hfind, hread, hcontent, hname⟩ := hr
          have hdone := hends { doc, cached := false } reading hfind hcontent
          refine Prog.Keeps.bind (cacheStore_keeps hcache c.d ?_) fun _ _ => hdone
          exact ⟨p, hchain.registered p hp, c.req.file.buffer, hb, by rw [hsha256, hname],
            reading, hbuffer ▸ hread, hcontent⟩

theorem program_keeps (hcache : SoundCache deps readings B L I)
    (hstamps : ∀ p b reading, readings p b = some reading → reading.provider = p.name)
    (hnames : (deps.providers.map OcrProvider.name).Nodup)
    (hsha : ∀ b b', B b → B b' → deps.pkg.sha256 b = deps.pkg.sha256 b' → b = b')
    {c : Call} (hb : B c.req.file.buffer) (hd : ReadsContent c.d) :
    (c.program deps).Keeps World.handle L I fun out =>
      ∃ t v, EndsAs (expected deps readings c) v ∧ out = outcome t v := by
  refine Prog.Keeps.bind (Q := EndsAs (expected deps readings c)) ?_ ?_
  · cases hcheck : checkRequest c.d c.req deps with
    | mk l r =>
      cases r with
      | error err =>
        rw [stages_refused hcheck]
        simp [EndsAs, expected, hcheck, Except.map]
      | ok ai =>
        obtain ⟨args, input⟩ := ai
        rw [stages_admitted hcheck]
        exact Prog.Keeps.bind (extraction_keeps hcache hstamps hnames hsha hb hd hcheck)
          fun r hr => hr
  · intro v hv
    have huses : (finish c.d c.req c.timings v).Uses (StoresVouched deps readings B) :=
      finish_uses (fun _ => trivial) c.d c.req c.timings (fun _ _ => trivial) v
    refine ((finish_traces c.d c.req c.timings v).keeps huses
      (fun o env w _ _ => handle_accepts env o w)
      (fun o ho env w henv hw => hcache.keeps env w o henv hw ho)).mono ?_
    rintro out ⟨log, -, rfl⟩
    exact ⟨c.timings, v, hv, rfl⟩

def World.AllVouched (deps : PipelineDeps) (readings : Readings) (B : Buffer → Prop) (w : World) :
    Prop :=
  ∀ key doc, w.cache key = some doc → Vouched deps readings B key doc

theorem soundCache_service (deps : PipelineDeps) (readings : Readings) (B : Buffer → Prop) :
    SoundCache deps readings B (fun env => env.Follows readings)
      (World.AllVouched deps readings B) where
  follows _ h := h
  handsOut env w key doc _ hw h := by
    by_cases hfails : env.cacheReadFails = true
    · simp [World.handle, hfails] at h
    · simp only [World.handle, hfails] at h
      exact hw key doc h
  keeps env w o _ hw ho := by
    cases o with
    | cacheSet key doc ttl =>
      by_cases hfails : env.cacheWriteFails = true
      · rw [World.handle, if_pos hfails]
        exact hw
      · rw [World.handle, if_neg hfails]
        intro key' doc' h
        by_cases hk : key' = key
        · simp only [hk, Function.update_self, Option.some.injEq] at h
          rw [hk, ← h]
          exact ho
        · simp only [Function.update_of_ne hk] at h
          exact hw key' doc' h
    | enqueue data =>
      obtain ⟨jobs, hjobs⟩ := w.enqueue_eq env data
      rw [hjobs]
      exact hw
    | cacheGet | recognize | metric | upsertUsage => exact hw

theorem soundCache_noop (deps : PipelineDeps) (readings : Readings) (B : Buffer → Prop) :
    SoundCache deps readings B (fun env => ∃ env', env'.Follows readings ∧ env = noopCache env')
      fun _ => True where
  follows := by
    rintro _ ⟨env', h, rfl⟩
    exact h
  handsOut := by
    rintro _ w key doc ⟨env', -, rfl⟩ _ h
    simp [World.handle, noopCache] at h
  keeps _ _ _ _ _ _ := trivial

theorem World.AllVouched.happen {w : World} (h : w.AllVouched deps readings B) (e : WorldEvent) :
    (w.happen e).AllVouched deps readings B := by
  cases e with
  | drop keys =>
    intro key doc hget
    simp only [World.happen, World.drop] at hget
    by_cases hdropped : keys key = true
    · simp [hdropped] at hget
    · rw [if_neg hdropped] at hget
      exact h key doc hget
  | land i =>
    obtain ⟨inflight, usage, hland⟩ := w.land_eq i
    rw [World.happen, hland]
    exact h

end

/-- Whatever is interleaved, dropped or lost, every call ends with the result, or the error
code, with which it ends alone and without a cache. -/
theorem cache_transparent (deps : PipelineDeps) (readings : Readings)
    (hstamps : ∀ p b reading, readings p b = some reading → reading.provider = p.name)
    (hnames : (deps.providers.map OcrProvider.name).Nodup)
    {moves : List (Move Call Surroundings WorldEvent)}
    (hsha : ∀ c c', Move.spawn c ∈ moves → Move.spawn c' ∈ moves →
      deps.pkg.sha256 c.req.file.buffer = deps.pkg.sha256 c'.req.file.buffer →
      c.req.file.buffer = c'.req.file.buffer)
    (hreads : ∀ c, Move.spawn c ∈ moves → ReadsContent c.d)
    (hfollows : ∀ i env, Move.step i env ∈ moves → env.Follows readings)
    {w : World} (hw : w.cache = fun _ => none)
    {calls : Conf Call ServiceOp ServiceOp.Answer (Except Thrown (OcrOutcome JsValue)) World}
    (hrun : (concurrently deps).run ⟨w, []⟩ moves = some calls) :
    ∀ th ∈ calls.threads, ∀ out, th.prog = .ret out →
      ∀ env, env.Follows readings → ∀ w' : World,
        SameEnd out (w'.serve deps th.req (noopCache env)).1 := by
  let B : Buffer → Prop := fun b => ∃ c, Move.spawn c ∈ moves ∧ c.req.file.buffer = b
  have hB : ∀ b b', B b → B b' → deps.pkg.sha256 b = deps.pkg.sha256 b' → b = b' := by
    rintro _ _ ⟨c, hc, rfl⟩ ⟨c', hc', rfl⟩ h
    exact hsha c c' hc hc' h
  have hkept := Machine.run_keeps (m := concurrently deps)
    (R := fun c => Move.spawn c ∈ moves) (L := fun env => env.Follows readings)
    (K := fun _ => True) (I := World.AllVouched deps readings B)
    (Q := fun c out => Move.spawn c ∈ moves ∧
      ∃ t v, EndsAs (expected deps readings c) v ∧ out = outcome t v)
    (fun e w _ h => h.happen e)
    (fun c hc => (program_keeps (soundCache_service deps readings B) hstamps hnames hB
      ⟨c, hc, rfl⟩ (hreads c hc)).mono fun out hout => ⟨hc, hout⟩)
    (fun key doc h => by simp [hw] at h)
    (fun mv hmv => by cases mv with
      | spawn c => exact hmv
      | step i env => exact hfollows i env hmv
      | env e => exact trivial) hrun
  intro th hmem out hret env henv w'
  have hth := hkept.2 th hmem
  rw [hret] at hth
  obtain ⟨hspawned, t, v, hv, rfl⟩ := hth
  -- The reference run, against a cache that never answers.
  have hnoop := program_keeps (soundCache_noop deps readings B) hstamps hnames hB
    ⟨th.req, hspawned, rfl⟩ (hreads th.req hspawned)
  obtain ⟨⟨t', v', hv', hout⟩, -⟩ := hnoop.eval (noopCache env) ⟨env, henv, rfl⟩ w' trivial
  rw [World.serve, hout]
  exact sameEnd_of_endsAs hv hv' t t'

def Sample.readings : Readings := fun p _ =>
  some { emptyDocument with
    provider := p.name
    plainText := p.name
    pageCount := 1
    tokensUsed := if p.name = "glm-ocr" then some 7 else none }

/-- Two classifications of one image, the second of which finds what the first stored. -/
def Sample.classifyTogether : List (Move Call Surroundings WorldEvent) :=
  let c : Call :=
    ⟨documentClassification Sample.body, Sample.upload [0x89] "tenant", Sample.timings⟩
  let up := Sample.surroundings []
  [.spawn c, .spawn c, .step 0 up, .step 0 up, .step 0 up, .step 1 up, .step 1 up, .step 1 up,
    .step 1 up, .step 1 up, .step 1 up, .step 1 up]

theorem cache_transparent_pair :
    ∃ calls, (concurrently Sample.deps).run ⟨{}, []⟩ Sample.classifyTogether = some calls ∧
      calls.threads.map (fun th => th.prog.result?.isSome) = [false, true] ∧
      ∀ th ∈ calls.threads, ∀ out, th.prog = .ret out → ∀ env, env.Follows Sample.readings →
        ∀ w' : World, SameEnd out (w'.serve Sample.deps th.req (noopCache env)).1 := by
  have hspawn : ∀ c, Move.spawn c ∈ Sample.classifyTogether →
      c = ⟨documentClassification Sample.body, Sample.upload [0x89] "tenant", Sample.timings⟩ := by
    intro c h
    simpa [Sample.classifyTogether] using h
  have hstep : ∀ i env, Move.step i env ∈ Sample.classifyTogether →
      env = Sample.surroundings [] := by
    intro i env h
    have hcases : (i = 0 ∧ env = Sample.surroundings []) ∨
        (i = 1 ∧ env = Sample.surroundings []) := by
      simpa [Sample.classifyTogether] using h
    exact hcases.elim And.right And.right
  have hstamps : ∀ p b reading, Sample.readings p b = some reading → reading.provider = p.name := by
    rintro p b _ ⟨⟩
    rfl
  have hreads : ∀ c, Move.spawn c ∈ Sample.classifyTogether → ReadsContent c.d := by
    intro c h ctx doc args hdoc
    rw [hspawn c h]
    have htext := congrArg RecognizedDocument.plainText hdoc
    exact congrArg (fun text => Except.ok (JsValue.str text)) htext
  have hfollows : ∀ i env, Move.step i env ∈ Sample.classifyTogether →
      env.Follows Sample.readings := by
    intro i env h p input opts
    rw [hstep i env h]
    exact ⟨_, rfl, rfl⟩
  refine ⟨_, rfl, rfl, ?_⟩
  exact cache_transparent Sample.deps Sample.readings hstamps
    (buildProviderRegistry_names_nodup _) (fun c c' h h' _ => by rw [hspawn c h, hspawn c' h'])
    hreads hfollows (w := {}) rfl rfl

end OcrService
