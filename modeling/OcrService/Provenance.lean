import OcrService.Calls
import Mathlib.Data.List.Nodup

/-! Where the documents come from that functions work on: out of the cache or from a provider,
they are what a registered provider has made of exactly those bytes. -/
namespace OcrService
open Interaction

/-- What each provider may answer on given bytes; more than one answer may be possible. -/
abbrev Makes := OcrProvider → Buffer → Except Thrown RecognizedDocument → Prop

/-- A document names the provider it is from; what that one fell back from, the pipeline adds. -/
structure Makes.Stamped (makes : Makes) : Prop where
  provider : ∀ p b doc, makes p b (.ok doc) → doc.provider = p.name
  fellBack : ∀ p b doc primary, makes p b (.ok doc) →
    makes p b (.ok { doc with fellBackFrom := primary })

def Sniffed (pkg : Packages) (input : DocumentInput) : Prop :=
  (sniff pkg input.buffer).map SniffResult.mimeGroup = some input.mimeGroup

/-- Asked for all pages of a sniffed input, the registered providers answer as `makes` says. -/
def Surroundings.Answers (env : Surroundings) (deps : PipelineDeps) (makes : Makes) : Prop :=
  ∀ p ∈ deps.providers, ∀ input opts, opts.pageRange = none → Sniffed deps.pkg input →
    makes p input.buffer (env.recognize p input opts)

section
variable (deps : PipelineDeps) (makes : Makes)

/-- What a function is given to work on: a document that one of the providers the router allows
has made of the bytes, or an empty one where it needs none. -/
inductive WorksOn (c : Call) (input : DocumentInput) : RecognizedDocument → Prop
  | nothing (hskip : c.d.skipExtraction = true) : WorksOn c input emptyDocument
  | made {p : OcrProvider} {doc : RecognizedDocument} (hskip : c.d.skipExtraction = false)
    (hp : p ∈ orderedProviders deps.providers (routeInput c.d input deps))
    (hdoc : makes p c.req.file.buffer (.ok doc)) : WorksOn c input doc

inductive Ends (c : Call) : Except Thrown (OcrOutcome JsValue) → Prop
  | refused {err : Thrown} (hcheck : (checkRequest c.d c.req deps).2 = .error err) :
    Ends c (.error err)
  | unrouted {args : JsValue} {input : DocumentInput} {err : Thrown}
    (hcheck : (checkRequest c.d c.req deps).2 = .ok (args, input))
    (hskip : c.d.skipExtraction = false)
    (hroute : routeProvider deps.providers (routeInput c.d input deps) = .error err) :
    Ends c (.error err)
  | unread {args : JsValue} {input : DocumentInput} {err : Thrown}
    (hcheck : (checkRequest c.d c.req deps).2 = .ok (args, input))
    (hskip : c.d.skipExtraction = false)
    (hfailed : ∀ p ∈ orderedProviders deps.providers (routeInput c.d input deps),
      ∃ err, makes p c.req.file.buffer (.error err)) : Ends c (.error err)
  | concluded {args : JsValue} {input : DocumentInput} {doc : RecognizedDocument} (cached : Bool)
    (hcheck : (checkRequest c.d c.req deps).2 = .ok (args, input))
    (hdoc : WorksOn deps makes c input doc) :
    Ends c ((conclude c.d c.req deps args input doc).map fun result =>
      { result, info := responseMeta doc cached c.timings })

variable {deps makes} in
/-- A call that is answered has concluded from the document it was given to work on. -/
theorem Ends.answered {c : Call} {outcome : OcrOutcome JsValue}
    (h : Ends deps makes c (.ok outcome)) :
    ∃ args input doc, (checkRequest c.d c.req deps).2 = .ok (args, input) ∧
      WorksOn deps makes c input doc ∧
      conclude c.d c.req deps args input doc = .ok outcome.result := by
  generalize hout : (Except.ok outcome : Except Thrown (OcrOutcome JsValue)) = out at h
  cases h with
  | refused | unrouted | unread => cases hout
  | @concluded args input doc cached hcheck hdoc =>
    cases hconclude : conclude c.d c.req deps args input doc with
    | error err =>
      rw [hconclude] at hout
      cases hout
    | ok result =>
      rw [hconclude] at hout
      cases hout
      exact ⟨args, input, doc, hcheck, hdoc, hconclude⟩

/-- The entry is a document that a registered provider has made of bytes in `B`, under the key
of both. -/
def Genuine (B : Buffer → Prop) (key : String) (doc : RecognizedDocument) : Prop :=
  ∃ p ∈ deps.providers, ∃ b, B b ∧ key = extractionCacheKey (deps.pkg.sha256 b) p.name ∧
    makes p b (.ok doc)

def World.AllGenuine (B : Buffer → Prop) (w : World) : Prop :=
  ∀ key doc, w.cache key = some doc → Genuine deps makes B key doc

end

section Keeps
variable {deps : PipelineDeps} {makes : Makes} {B : Buffer → Prop}

def StoresGenuine (deps : PipelineDeps) (makes : Makes) (B : Buffer → Prop) : ServiceOp → Prop
  | .cacheSet key doc _ => Genuine deps makes B key doc
  | _ => True

theorem World.AllGenuine.handle {w : World} (hw : w.AllGenuine deps makes B) (env : Surroundings)
    {o : ServiceOp} (ho : StoresGenuine deps makes B o) :
    (World.handle env o w).2.AllGenuine deps makes B := by
  cases o with
  | cacheSet key doc ttl =>
    by_cases hfails : env.cacheWriteFails = true
    · rw [World.handle, if_pos hfails]
      exact hw
    · rw [World.handle, if_neg hfails]
      intro key' doc' h
      by_cases hk : key' = key
      · simp only [hk, Function.update_self, Option.some.injEq] at h
        rw [hk, ← h]
        exact ho
      · simp only [Function.update_of_ne hk] at h
        exact hw key' doc' h
  | enqueue data =>
    obtain ⟨jobs, hjobs⟩ := w.enqueue_eq env data
    rw [hjobs]
    exact hw
  | cacheGet | recognize | metric | upsertUsage => exact hw

theorem World.AllGenuine.happen {w : World} (hw : w.AllGenuine deps makes B) (e : WorldEvent) :
    (w.happen e).AllGenuine deps makes B := by
  cases e with
  | drop keys =>
    intro key doc hget
    simp only [World.happen, World.drop] at hget
    by_cases hdropped : keys key = true
    · simp [hdropped] at hget
    · rw [if_neg hdropped] at hget
      exact hw key doc hget
  | land i =>
    obtain ⟨inflight, usage, hland⟩ := w.land_eq i
    rw [World.happen, hland]
    exact hw

/-- A genuine entry under a registered provider's key is from that provider, and of those bytes:
keys do not clash, digests do not collide in `B`, names are distinct. -/
theorem Genuine.of_key {p : OcrProvider} {b : Buffer} {doc : RecognizedDocument}
    (hnames : (deps.providers.map OcrProvider.name).Nodup)
    (hsha : ∀ b b', B b → B b' → deps.pkg.sha256 b = deps.pkg.sha256 b' → b = b')
    (hp : p ∈ deps.providers) (hb : B b)
    (h : Genuine deps makes B (extractionCacheKey (deps.pkg.sha256 b) p.name) doc) :
    makes p b (.ok doc) := by
  obtain ⟨q, hq, b', hb', hkey, hmade⟩ := h
  obtain ⟨htext, hname, -⟩ := extractionCacheKey_inj hkey
  have hdigest : deps.pkg.sha256 b = deps.pkg.sha256 b' := by
    cases hs : deps.pkg.sha256 b
    cases hs' : deps.pkg.sha256 b'
    simpa [hs, hs'] using htext
  obtain rfl : b = b' := hsha b b' hb hb' hdigest
  obtain rfl : p = q := List.inj_on_of_nodup_map hnames hp hq hname
  exact hmade

def MadeBy (makes : Makes) (b : Buffer) (ps : List OcrProvider) :
    Except Thrown RecognizedDocument → Prop
  | .error _ => ∀ p ∈ ps, ∃ err, makes p b (.error err)
  | .ok doc => ∃ p ∈ ps, makes p b (.ok doc)

theorem MadeBy.skip {b : Buffer} {p : OcrProvider} {ps : List OcrProvider} {err : Thrown}
    {r : Except Thrown RecognizedDocument} (hp : makes p b (.error err))
    (h : MadeBy makes b ps r) : MadeBy makes b (p :: ps) r := by
  cases r with
  | error err' => exact List.forall_mem_cons.mpr ⟨⟨err, hp⟩, h⟩
  | ok doc =>
    obtain ⟨q, hq, hdoc⟩ := h
    exact ⟨q, List.mem_cons_of_mem _ hq, hdoc⟩

theorem tryProviders_made (hstamped : makes.Stamped) {input : DocumentInput}
    (hsniffed : Sniffed deps.pkg input) {opts : RecognizeOptions} (hopts : opts.pageRange = none)
    (primary : OcrProvider) (chain ps : List OcrProvider) (hps : ∀ p ∈ ps, p ∈ deps.providers)
    (i : Nat) (lastError : Option Thrown) :
    (tryProviders primary chain input opts i ps lastError).Keeps World.handle
      (fun env => env.Answers deps makes) (World.AllGenuine deps makes B)
      (MadeBy makes input.buffer ps) := by
  induction ps generalizing i lastError with
  | nil => exact fun p hp => absurd hp List.not_mem_nil
  | cons p ps ih =>
    intro env w henv hw
    refine ⟨hw.handle env (o := .recognize p input opts) trivial, ?_⟩
    obtain ⟨hp, hrest⟩ := List.forall_mem_cons.mp hps
    have hanswer := henv p hp input opts hopts hsniffed
    simp only [World.handle]
    cases hread : env.recognize p input opts with
    | error err =>
      rw [hread] at hanswer
      exact (ih hrest (i + 1) (some err)).mono fun r hr => hr.skip hanswer
    | ok doc =>
      rw [hread] at hanswer
      by_cases hi : i > 0
      · simp only [hi, if_true]
        intro env' w' henv' hw'
        refine ⟨hw'.handle env' (o := .metric _) trivial, ?_⟩
        exact ⟨p, List.mem_cons_self, hstamped.fellBack p _ doc _ hanswer⟩
      · simp only [hi, if_false]
        exact ⟨p, List.mem_cons_self, hanswer⟩

theorem cacheLookup_genuine (d : AnyOcrFunctionDefinition) (key : String) :
    (cacheLookup d key).Keeps World.handle (fun env => env.Answers deps makes)
      (World.AllGenuine deps makes B) fun found => ∀ hit, found = some hit →
        Genuine deps makes B key hit := by
  cases hused : usesCache d with
  | true =>
    rw [cacheLookup_used hused]
    intro env w _ hw
    refine ⟨hw.handle env (o := .cacheGet key) trivial, fun hit hhit => ?_⟩
    by_cases hfails : env.cacheReadFails = true
    · simp [World.handle, hfails] at hhit
    · simp only [World.handle, hfails] at hhit
      exact hw key hit hhit
  | false =>
    rw [cacheLookup_unused hused]
    intro hit hhit
    cases hhit

theorem cacheStore_genuine (d : AnyOcrFunctionDefinition) {input : DocumentInput}
    {doc : RecognizedDocument}
    (hdoc : Genuine deps makes B (extractionCacheKey input.sha256 doc.provider) doc) :
    (cacheStore d input deps doc).Keeps World.handle (fun env => env.Answers deps makes)
      (World.AllGenuine deps makes B) fun _ => True := by
  cases hused : usesCache d with
  | true =>
    rw [cacheStore_used hused]
    intro env w _ hw
    exact ⟨hw.handle env (o := .cacheSet _ _ _) hdoc, trivial⟩
  | false =>
    rw [cacheStore_unused hused]
    exact trivial

theorem checkRequest_sniffed {d : AnyOcrFunctionDefinition} {req : OcrRequest} {l : Locals}
    {args : JsValue} {input : DocumentInput}
    (h : checkRequest d req deps = (l, .ok (args, input))) : Sniffed deps.pkg input := by
  have hcases := checkRequest_cases d req deps
  rw [h] at hcases
  cases hcases with
  | passed _ _ _ hfile =>
    unfold ingest at hfile
    cases hsniff : sniff deps.pkg req.file.buffer with
    | none => simp [hsniff] at hfile
    | some sniffed =>
      simp only [hsniff, Except.ok.injEq] at hfile
      rw [← hfile, Sniffed, hsniff]
      rfl

/-- Extraction leaves the cache genuine, and ends with a document to work on or none at all. -/
theorem extraction_made (hstamped : makes.Stamped)
    (hnames : (deps.providers.map OcrProvider.name).Nodup)
    (hsha : ∀ b b', B b → B b' → deps.pkg.sha256 b = deps.pkg.sha256 b' → b = b')
    {c : Call} (hb : B c.req.file.buffer) {l : Locals} {args : JsValue} {input : DocumentInput}
    (hcheck : checkRequest c.d c.req deps = (l, .ok (args, input))) :
    (extraction c.d c.req deps input).Keeps World.handle (fun env => env.Answers deps makes)
      (World.AllGenuine deps makes B) fun r =>
        Ends deps makes c (outcome c.timings (afterExtraction c.d c.req deps l args input r)) := by
  obtain ⟨hbuffer, hsha256⟩ := checkRequest_input hcheck
  have hcheck' : (checkRequest c.d c.req deps).2 = .ok (args, input) := congrArg Prod.snd hcheck
  have hdone : ∀ out : ExtractOutput, WorksOn deps makes c input out.doc →
      Ends deps makes c
        (outcome c.timings (afterExtraction c.d c.req deps l args input (.ok out))) := by
    intro out hdoc
    have hends := Ends.concluded out.cached hcheck' hdoc
    simp only [afterExtraction]
    cases hconclude : conclude c.d c.req deps args input out.doc with
    | error err => simpa [hconclude, Except.map, outcome] using hends
    | ok result => simpa [hconclude, Except.map, outcome] using hends
  cases hskip : c.d.skipExtraction with
  | true =>
    rw [extraction_skipped hskip]
    exact hdone _ (.nothing hskip)
  | false =>
    rw [extraction_extracts hskip]
    cases hroute : routeProvider deps.providers (routeInput c.d input deps) with
    | error err =>
      rw [extractDocument_unrouted hroute]
      exact .unrouted hcheck' hskip hroute
    | ok route =>
      have hordered := routeProvider_eq_ok.mp hroute
      have hchain := orderedProviders_admissible deps.providers (routeInput c.d input deps)
      have hmade : ∀ p doc, p ∈ route.provider :: route.fallbacks →
          makes p c.req.file.buffer (.ok doc) → WorksOn deps makes c input doc :=
        fun p doc hp hdoc => .made hskip (hordered ▸ hp) hdoc
      rw [extractDocument_routed hroute]
      refine Prog.Keeps.bind (cacheLookup_genuine c.d _) fun found hfound => ?_
      cases found with
      | some hit =>
        have hgenuine := hfound hit rfl
        rw [hsha256] at hgenuine
        have hregistered := hchain.registered route.provider (hordered ▸ List.mem_cons_self)
        exact hdone _ (hmade _ hit List.mem_cons_self
          (hgenuine.of_key hnames hsha hregistered hb))
      | none =>
        have hsniffed : Sniffed deps.pkg input := checkRequest_sniffed hcheck
        refine Prog.Keeps.bind (tryProviders_made hstamped hsniffed rfl _ _ _
          (fun p hp => hchain.registered p (hordered ▸ hp)) 0 none) fun r hr => ?_
        rw [hbuffer] at hr
        cases r with
        | error err => exact .unread hcheck' hskip (hordered ▸ hr)
        | ok doc =>
          obtain ⟨p, hp, hdoc⟩ := hr
          have hstore :
              Genuine deps makes B (extractionCacheKey input.sha256 doc.provider) doc := by
            refine ⟨p, hchain.registered p (hordered ▸ hp), c.req.file.buffer, hb, ?_, hdoc⟩
            rw [hsha256, hstamped.provider p _ doc hdoc]
          exact Prog.Keeps.bind (cacheStore_genuine c.d hstore) fun _ _ =>
            hdone _ (hmade p doc hp hdoc)

theorem program_ends (hstamped : makes.Stamped)
    (hnames : (deps.providers.map OcrProvider.name).Nodup)
    (hsha : ∀ b b', B b → B b' → deps.pkg.sha256 b = deps.pkg.sha256 b' → b = b')
    {c : Call} (hb : B c.req.file.buffer) :
    (c.program deps).Keeps World.handle (fun env => env.Answers deps makes)
      (World.AllGenuine deps makes B) (Ends deps makes c) := by
  refine Prog.Keeps.bind (Q := fun v => Ends deps makes c (outcome c.timings v)) ?_ fun v hv => ?_
  · cases hcheck : checkRequest c.d c.req deps with
    | mk l r =>
      cases r with
      | error err =>
        rw [stages_refused hcheck]
        exact .refused (congrArg Prod.snd hcheck)
      | ok ai =>
        rw [stages_admitted hcheck]
        exact Prog.Keeps.bind (extraction_made hstamped hnames hsha hb hcheck) fun r hr => hr
  · have huses : (finish c.d c.req c.timings v).Uses (StoresGenuine deps makes B) :=
      finish_uses (fun _ => trivial) c.d c.req c.timings (fun _ _ => trivial) v
    refine ((finish_traces c.d c.req c.timings v).keeps huses
      (fun o env w _ _ => handle_accepts env o w)
      (fun o ho env w _ hw => hw.handle env ho)).mono ?_
    rintro out ⟨log, -, rfl⟩
    exact hv

end Keeps

/-- Whatever is interleaved, dropped or lost: every call that has ended was refused, or found no
provider that answered, or ended with what its function concludes from a document that one of
the providers routed to has made of the bytes of this very request. -/
theorem run_ends (deps : PipelineDeps) {makes : Makes} (hstamped : makes.Stamped)
    (hnames : (deps.providers.map OcrProvider.name).Nodup)
    {moves : List (Move Call Surroundings WorldEvent)}
    (hsha : ∀ c c', .spawn c ∈ moves → .spawn c' ∈ moves →
      deps.pkg.sha256 c.req.file.buffer = deps.pkg.sha256 c'.req.file.buffer →
      c.req.file.buffer = c'.req.file.buffer)
    (hanswers : ∀ i env, .step i env ∈ moves → env.Answers deps makes)
    {w : World} (hw : w.cache = fun _ => none)
    {calls : Conf Call ServiceOp ServiceOp.Answer (Except Thrown (OcrOutcome JsValue)) World}
    (hrun : (concurrently deps).run ⟨w, []⟩ moves = some calls) :
    ∀ th ∈ calls.threads, ∀ out, th.prog = .ret out → Ends deps makes th.req out := by
  let B : Buffer → Prop := fun b => ∃ c, Move.spawn c ∈ moves ∧ c.req.file.buffer = b
  have hB : ∀ b b', B b → B b' → deps.pkg.sha256 b = deps.pkg.sha256 b' → b = b' := by
    rintro _ _ ⟨c, hc, rfl⟩ ⟨c', hc', rfl⟩ h
    exact hsha c c' hc hc' h
  have hkept := Machine.run_keeps (m := concurrently deps)
    (R := fun c => .spawn c ∈ moves) (L := fun env => env.Answers deps makes)
    (K := fun _ => True) (I := World.AllGenuine deps makes B) (Q := Ends deps makes)
    (fun e w _ h => h.happen e) (fun c hc => program_ends hstamped hnames hB ⟨c, hc, rfl⟩)
    (fun key doc h => by simp [hw] at h)
    (fun mv hmv => by
      cases mv with
      | spawn c => exact hmv
      | step i env => exact hanswers i env hmv
      | env e => exact trivial) hrun
  intro th hmem out hret
  have hth := hkept.2 th hmem
  rw [hret] at hth
  exact hth

def Sample.signedBy : Makes := fun p _ r => ∀ doc, r = .ok doc → doc.provider = p.name

theorem Sample.signedBy_stamped : Makes.Stamped Sample.signedBy where
  provider _ _ doc h := h doc rfl
  fellBack p b doc primary h := by
    rintro _ ⟨⟩
    exact h doc rfl

def Sample.reading (b : UInt8) : Call :=
  ⟨textExtraction Sample.body, Sample.upload [0x89, b] "tenant", Sample.timings⟩

def Sample.readImages : List (Move Call Surroundings WorldEvent) :=
  let up := Sample.surroundings []
  let down := Sample.surroundings ["glm-ocr"]
  [.spawn (reading 1), .spawn (reading 2), .step 0 up, .step 1 down, .step 0 up, .step 1 down,
    .step 0 up, .step 1 up, .step 1 up, .env (.drop fun _ => true), .spawn (reading 1)] ++
    List.replicate 8 (.step 2 up)

theorem run_ends_images :
    ∃ calls, (concurrently Sample.deps).run ⟨{}, []⟩ Sample.readImages = some calls ∧
      calls.threads.map (fun th => th.prog.result?.isSome) = [false, false, true] ∧
      ∀ th ∈ calls.threads, ∀ out, th.prog = .ret out →
        Ends Sample.deps Sample.signedBy th.req out := by
  have hspawn : ∀ c, Move.spawn c ∈ Sample.readImages →
      c = Sample.reading 1 ∨ c = Sample.reading 2 := by
    intro c h
    simp [Sample.readImages] at h
    tauto
  have hsha : ∀ c c', .spawn c ∈ Sample.readImages → .spawn c' ∈ Sample.readImages →
      Sample.digest c.req.file.buffer = Sample.digest c'.req.file.buffer →
      c.req.file.buffer = c'.req.file.buffer := by
    intro c c' hc hc' h
    have htext := congrArg Sha256Hex.text h
    obtain rfl | rfl := hspawn c hc <;> obtain rfl | rfl := hspawn c' hc'
    · rfl
    · exact absurd htext (by decide)
    · exact absurd htext (by decide)
    · rfl
  have hanswers : ∀ i env, Move.step i env ∈ Sample.readImages →
      env.Answers Sample.deps Sample.signedBy := by
    intro i env h p _ input opts _ _ doc hdoc
    have henv : ∃ down, env = Sample.surroundings down := by
      simp [Sample.readImages] at h
      grind
    obtain ⟨down, rfl⟩ := henv
    by_cases hdown : p.name ∈ down
    · simp [Sample.surroundings, hdown] at hdoc
    · simp only [Sample.surroundings, if_neg hdown] at hdoc
      cases hdoc
      rfl
  refine ⟨_, rfl, rfl, ?_⟩
  exact run_ends Sample.deps Sample.signedBy_stamped (buildProviderRegistry_names_nodup _)
    hsha hanswers (w := {}) rfl rfl

end OcrService
