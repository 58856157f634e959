import OcrService.Interaction.Lockstep
import OcrService.Registered

/-! The service under other names of its tenants: nothing but the usage table can tell. In
particular no metric does ("labels carry no tenant data", `main.ts`). -/
namespace OcrService
open Interaction

section Renaming
variable (f : String → String)

def OcrRequest.renamed (req : OcrRequest) : OcrRequest := { req with tenantId := f req.tenantId }

def Call.renamed (c : Call) : Call := { c with req := c.req.renamed f }

def RecognizeOptions.renamed (opts : RecognizeOptions) : RecognizeOptions :=
  { opts with userIdHash := opts.userIdHash.map f }

def Recognition.renamed (r : Recognition) : Recognition := { r with opts := r.opts.renamed f }

def UsageUpsert.renamed (u : UsageUpsert) : UsageUpsert := { u with tenantId := f u.tenantId }

inductive ServiceOp.Renamed : ServiceOp → ServiceOp → Prop
  | cacheGet (key : String) : Renamed (.cacheGet key) (.cacheGet key)
  | cacheSet (key : String) (doc : RecognizedDocument) (ttlSeconds : Nat) :
    Renamed (.cacheSet key doc ttlSeconds) (.cacheSet key doc ttlSeconds)
  | recognize (p : OcrProvider) (input : DocumentInput) (opts : RecognizeOptions) :
    Renamed (.recognize p input opts) (.recognize p input (opts.renamed f))
  | metric (sample : MetricSample) : Renamed (.metric sample) (.metric sample)
  | upsertUsage (tenantId : String) (errorsDelta tokensDelta : Nat) :
    Renamed (.upsertUsage tenantId errorsDelta tokensDelta)
      (.upsertUsage (f tenantId) errorsDelta tokensDelta)

abbrev SameAnswer (o o' : ServiceOp) (x : o.Answer) (x' : o'.Answer) : Prop := HEq x x'

/-- The same outages, and providers that answer alike under either name. -/
structure Surroundings.Renamed (env env' : Surroundings) : Prop where
  recognize : ∀ p input opts, env'.recognize p input (opts.renamed f) = env.recognize p input opts
  cacheReadFails : env'.cacheReadFails = env.cacheReadFails
  cacheWriteFails : env'.cacheWriteFails = env.cacheWriteFails

/-- The same world but for the names; if no two tenants are called the same, each of them has
used the same. -/
structure World.Renamed (w w' : World) : Prop where
  cache : w'.cache = w.cache
  cacheWrites : w'.cacheWrites = w.cacheWrites
  samples : w'.samples = w.samples
  recognitions : w'.recognitions = w.recognitions.map (Recognition.renamed f)
  inflight : w'.inflight = w.inflight.map (UsageUpsert.renamed f)
  usage : Function.Injective f → ∀ tenantId, w'.usage (f tenantId) = w.usage tenantId

end Renaming

variable {f : String → String}

section Step
variable {w w' : World} {env env' : Surroundings} {o o' : ServiceOp}

theorem World.Renamed.answer (hw : w.Renamed f w') (henv : env.Renamed f env')
    (ho : o.Renamed f o') : HEq (World.handle env o w).1 (World.handle env' o' w').1 := by
  cases ho with
  | cacheGet key => simp [World.handle, henv.cacheReadFails, hw.cache]
  | recognize p input opts => simp [World.handle, henv.recognize]
  | cacheSet | metric | upsertUsage => exact HEq.rfl

theorem World.Renamed.handle (hw : w.Renamed f w') (henv : env.Renamed f env')
    (ho : o.Renamed f o') : (World.handle env o w).2.Renamed f (World.handle env' o' w').2 := by
  obtain ⟨hcache, hwrites, hsamples, hrecognitions, hinflight, husage⟩ := hw
  cases ho with
  | cacheGet key => exact ⟨hcache, hwrites, hsamples, hrecognitions, hinflight, husage⟩
  | cacheSet key doc ttl =>
    simp only [World.handle, henv.cacheWriteFails]
    by_cases hfails : env.cacheWriteFails = true
    · simp only [hfails, if_true]
      exact ⟨hcache, hwrites, hsamples, hrecognitions, hinflight, husage⟩
    · simp only [hfails]
      exact ⟨by simp [hcache], by simp [hwrites], hsamples, hrecognitions, hinflight, husage⟩
  | recognize p input opts =>
    refine ⟨hcache, hwrites, hsamples, ?_, hinflight, husage⟩
    simp [World.handle, hrecognitions, Recognition.renamed, henv.recognize]
  | metric sample =>
    exact ⟨hcache, hwrites, by simp [World.handle, hsamples], hrecognitions, hinflight, husage⟩
  | upsertUsage tenantId errorsDelta tokensDelta =>
    refine ⟨hcache, hwrites, hsamples, hrecognitions, ?_, husage⟩
    simp [World.handle, hinflight, UsageUpsert.renamed]

theorem World.Renamed.land (hw : w.Renamed f w') (i : Nat) : (w.land i).Renamed f (w'.land i) := by
  obtain ⟨hcache, hwrites, hsamples, hrecognitions, hinflight, husage⟩ := hw
  have hget : w'.inflight[i]? = w.inflight[i]?.map (UsageUpsert.renamed f) := by
    rw [hinflight, List.getElem?_map]
  cases hi : w.inflight[i]? with
  | none =>
    simp only [World.land, hget, hi]
    exact ⟨hcache, hwrites, hsamples, hrecognitions, hinflight, husage⟩
  | some u =>
    simp only [World.land, hget, hi, Option.map_some]
    refine ⟨hcache, hwrites, hsamples, hrecognitions, ?_, fun hf tenantId => ?_⟩
    · simp [hinflight, List.eraseIdx_map]
    · -- The row is that of the tenant whose upsert it is, under its other name.
      by_cases htenant : tenantId = u.tenantId
      · subst htenant
        simp [UsageUpsert.renamed, husage hf, UsageUpsert.apply]
      · have hne : f tenantId ≠ f u.tenantId := fun h => htenant (hf h)
        simp [UsageUpsert.renamed, Function.update_of_ne hne, Function.update_of_ne htenant,
          husage hf]

theorem World.Renamed.happen (hw : w.Renamed f w') (e : WorldEvent) :
    (w.happen e).Renamed f (w'.happen e) := by
  cases e with
  | land i => exact hw.land i
  | drop keys =>
    refine ⟨?_, hw.cacheWrites, hw.samples, hw.recognitions, hw.inflight, hw.usage⟩
    simp [World.happen, World.drop, hw.cache]

end Step

section Pipeline
variable {d : AnyOcrFunctionDefinition} {deps : PipelineDeps}

theorem sameAnswer_eq (o : ServiceOp) (x x' : o.Answer) (h : SameAnswer o o x x') : x = x' :=
  eq_of_heq h

theorem conclude_renamed (hblind : d.Blind) (req : OcrRequest) (args : JsValue)
    (input : DocumentInput) (doc : RecognizedDocument) :
    conclude d (req.renamed f) deps args input doc = conclude d req deps args input doc := by
  have hexecute : d.execute (buildContext d (req.renamed f) deps input doc) args =
      d.execute (buildContext d req deps input doc) args :=
    hblind (buildContext d req deps input doc) (f req.tenantId) args
  simp only [conclude, interpret, hexecute]

theorem tryProviders_lockstep (primary : OcrProvider) (chain : List OcrProvider)
    (input : DocumentInput) (opts : RecognizeOptions) (i : Nat) (ps : List OcrProvider)
    (lastError : Option Thrown) :
    (tryProviders primary chain input opts i ps lastError).Lockstep (ServiceOp.Renamed f) SameAnswer
      Eq (tryProviders primary chain input (opts.renamed f) i ps lastError) := by
  induction ps generalizing i lastError with
  | nil => exact rfl
  | cons p ps ih =>
    refine ⟨.recognize p input opts, fun x x' hx => ?_⟩
    obtain rfl : x = x' := eq_of_heq hx
    cases x with
    | error err => exact ih (i + 1) (some err)
    | ok doc =>
      by_cases hi : i > 0
      · simp only [hi, if_true]
        refine ⟨.metric _, fun x x' hx => ?_⟩
        obtain rfl : x = x' := eq_of_heq hx
        cases x with
        | error err => exact ih (i + 1) (some err)
        | ok _ => exact rfl
      · simp only [hi, if_false]
        exact rfl

theorem cacheLookup_lockstep (key : String) :
    (cacheLookup d key).Lockstep (ServiceOp.Renamed f) SameAnswer Eq (cacheLookup d key) := by
  cases hcache : usesCache d with
  | true =>
    rw [cacheLookup_used hcache]
    exact ⟨.cacheGet key, fun _ _ => eq_of_heq⟩
  | false =>
    rw [cacheLookup_unused hcache]
    exact rfl

theorem cacheStore_lockstep (input : DocumentInput) (doc : RecognizedDocument) :
    (cacheStore d input deps doc).Lockstep (ServiceOp.Renamed f) SameAnswer Eq
      (cacheStore d input deps doc) := by
  cases hcache : usesCache d with
  | true =>
    rw [cacheStore_used hcache]
    exact ⟨.cacheSet _ _ _, fun _ _ => eq_of_heq⟩
  | false =>
    rw [cacheStore_unused hcache]
    exact rfl

theorem extraction_lockstep (req : OcrRequest) (input : DocumentInput) :
    (extraction d req deps input).Lockstep (ServiceOp.Renamed f) SameAnswer Eq
      (extraction d (req.renamed f) deps input) := by
  cases hskip : d.skipExtraction with
  | true =>
    rw [extraction_skipped hskip, extraction_skipped hskip]
    exact rfl
  | false =>
    rw [extraction_extracts hskip, extraction_extracts hskip]
    cases hroute : routeProvider deps.providers (routeInput d input deps) with
    | error err =>
      rw [extractDocument_unrouted hroute, extractDocument_unrouted hroute]
      exact rfl
    | ok route =>
      rw [extractDocument_routed hroute, extractDocument_routed hroute]
      refine (cacheLookup_lockstep _).bind fun found found' hfound => ?_
      obtain rfl : found = found' := hfound
      cases found with
      | some hit => exact rfl
      | none =>
        refine (tryProviders_lockstep _ _ _ _ _ _ _).bind fun r r' hr => ?_
        obtain rfl : r = r' := hr
        cases r with
        | error err => exact rfl
        | ok doc => exact (cacheStore_lockstep input doc).bind fun _ _ _ => rfl

theorem recordRequest_lockstep (m : RequestMetrics) :
    (recordRequest m).Lockstep (ServiceOp.Renamed f) SameAnswer Eq (recordRequest m) :=
  (emit_uses (R := fun o => ServiceOp.Renamed f o o) (fun sample => .metric sample) _).lockstep
    sameAnswer_eq

theorem fail_lockstep (req : OcrRequest) (l : Locals) (t : Timings) (interpretMs : Int)
    (err : Thrown) :
    (fail d req l t interpretMs err).Lockstep (ServiceOp.Renamed f) SameAnswer Eq
      (fail d (req.renamed f) l t interpretMs err) := by
  refine (recordRequest_lockstep _).bind fun r r' hr => ?_
  obtain rfl : r = r' := hr
  cases r with
  | error err' => exact rfl
  | ok _ => exact ⟨.upsertUsage _ _ _, fun _ _ _ => rfl⟩

theorem runPipeline_lockstep (hblind : d.Blind) (req : OcrRequest) (t : Timings) :
    (runPipeline d req deps t).Lockstep (ServiceOp.Renamed f) SameAnswer Eq
      (runPipeline d (req.renamed f) deps t) := by
  have hstages : (stages d req deps).Lockstep (ServiceOp.Renamed f) SameAnswer Eq
      (stages d (req.renamed f) deps) := by
    have hsame : checkRequest d (req.renamed f) deps = checkRequest d req deps := rfl
    cases hcheck : checkRequest d req deps with
    | mk l r =>
      cases r with
      | error err =>
        rw [stages_refused hcheck, stages_refused (hsame.trans hcheck)]
        exact rfl
      | ok ai =>
        obtain ⟨args, input⟩ := ai
        rw [stages_admitted hcheck, stages_admitted (hsame.trans hcheck)]
        refine (extraction_lockstep req input).bind fun r r' hr => ?_
        obtain rfl : r = r' := hr
        cases r with
        | error err => exact rfl
        | ok out =>
          simp only [afterExtraction, conclude_renamed hblind]
          exact rfl
  refine hstages.bind fun v v' hv => ?_
  obtain rfl : v = v' := hv
  obtain ⟨l, r⟩ := v
  cases r with
  | error err => exact fail_lockstep req l t 0 err
  | ok rd =>
    obtain ⟨result, doc⟩ := rd
    refine (recordRequest_lockstep _).bind fun r r' hr => ?_
    obtain rfl : r = r' := hr
    cases r with
    | error err => exact fail_lockstep req l t t.interpretMs err
    | ok _ => exact ⟨.upsertUsage _ _ _, fun _ _ _ => rfl⟩

end Pipeline

def Call.Renamed (lib : Libraries) (f : String → String) (c c' : Call) : Prop :=
  c.Registered lib ∧ c' = c.renamed f

theorem concurrently_lockstep (lib : Libraries) (deps : PipelineDeps) (f : String → String) :
    Lockstep (concurrently deps) (concurrently deps) (Call.Renamed lib f) (Surroundings.Renamed f)
      Eq (ServiceOp.Renamed f) SameAnswer Eq (World.Renamed f) where
  start := by
    rintro c _ ⟨⟨now, hd⟩, rfl⟩
    exact runPipeline_lockstep (registered_blind hd) c.req c.timings
  answer _ _ _ _ _ _ henv ho hw := hw.answer henv ho
  handle _ _ _ _ _ _ henv ho hw := hw.handle henv ho
  env := by
    rintro e _ w w' rfl hw
    exact hw.happen e

/-- In whatever way calls are interleaved: had their tenants other names, or even all the same
one, the run would have gone the same. The same samples would have been taken and the same
documents cached, and every caller would have been told the same; only the usage would be another
tenant's. -/
theorem tenants_unseen (lib : Libraries) (deps : PipelineDeps) (f : String → String)
    {moves moves' : List (Move Call Surroundings WorldEvent)}
    (hmoves : List.Forall₂ (Move.Related (Call.Renamed lib f) (Surroundings.Renamed f) Eq) moves
      moves')
    {calls : Conf Call ServiceOp ServiceOp.Answer (Except Thrown (OcrOutcome JsValue)) World}
    (hrun : (concurrently deps).run ⟨{}, []⟩ moves = some calls) :
    ∃ calls', (concurrently deps).run ⟨{}, []⟩ moves' = some calls' ∧
      calls.world.Renamed f calls'.world ∧
      calls'.threads.map (fun th => th.prog.result?) =
        calls.threads.map fun th => th.prog.result? := by
  have hstart : Conf.Abreast (ServiceOp.Renamed f) SameAnswer Eq (World.Renamed f)
      (⟨{}, []⟩ :
        Conf Call ServiceOp ServiceOp.Answer (Except Thrown (OcrOutcome JsValue)) World)
      (⟨{}, []⟩ :
        Conf Call ServiceOp ServiceOp.Answer (Except Thrown (OcrOutcome JsValue)) World) :=
    ⟨⟨rfl, rfl, rfl, rfl, rfl, fun _ _ => rfl⟩, .nil⟩
  obtain ⟨calls', hrun', hworld, hthreads⟩ :=
    (concurrently_lockstep lib deps f).run hstart hmoves hrun
  refine ⟨calls', hrun', hworld, ?_⟩
  generalize calls.threads = threads at hthreads
  generalize calls'.threads = threads' at hthreads
  induction hthreads with
  | nil => rfl
  | cons hth _ ih =>
    rw [List.map_cons, List.map_cons, ih, Prog.Lockstep.result?_eq hth]

namespace Sample

def parseReceiptsOf (first second : String) : List (Move Call Surroundings WorldEvent) :=
  [.spawn (parsing.renamed fun _ => first), .spawn (parsing.renamed fun _ => second)] ++
    (List.replicate 9 (.step 0 (surroundings [])) ++ List.replicate 7 (.step 1 (surroundings [])))

theorem parseReceiptsOf_renamed (first second name : String) :
    List.Forall₂ (Move.Related (Call.Renamed libraries fun _ => name)
        (Surroundings.Renamed fun _ => name) Eq)
      (parseReceiptsOf first second) (parseReceiptsOf name name) := by
  have hregistered : ∀ tenantId : String,
      (parsing.renamed fun _ => tenantId).Registered libraries :=
    fun tenantId => ⟨0, by rw [definitions_registered]; simp [parsing, Call.renamed]⟩
  refine List.rel_append (.cons (.spawn ⟨hregistered first, rfl⟩)
    (.cons (.spawn ⟨hregistered second, rfl⟩) .nil)) (List.forall₂_same.mpr fun mv hmv => ?_)
  have hsteps : ∃ i, mv = .step i (surroundings []) := by
    simp at hmv
    tauto
  obtain ⟨i, rfl⟩ := hsteps
  exact .step i ⟨fun _ _ _ => rfl, rfl, rfl⟩

theorem parseReceiptsOf_run : ∃ calls,
    (concurrently gullible).run ⟨{}, []⟩ (parseReceiptsOf "first" "second") = some calls ∧
      calls.threads.map (fun th => th.prog.result?.map Except.isOk) = [some true, some true] := by
  have hends : ((concurrently gullible).run ⟨{}, []⟩ (parseReceiptsOf "first" "second")).map
      (fun calls => calls.threads.map fun th => th.prog.result?.map Except.isOk) =
        some [some true, some true] := by decide +kernel
  exact Option.map_eq_some_iff.mp hends

end Sample

theorem tenants_unseen_one : ∃ calls calls',
    (concurrently Sample.gullible).run ⟨{}, []⟩ (Sample.parseReceiptsOf "first" "second") =
        some calls ∧
      (concurrently Sample.gullible).run ⟨{}, []⟩ (Sample.parseReceiptsOf "one" "one") =
        some calls' ∧
      calls.threads.map (fun th => th.prog.result?.map Except.isOk) = [some true, some true] ∧
      calls'.world.samples = calls.world.samples ∧
      calls'.threads.map (fun th => th.prog.result?) =
        calls.threads.map fun th => th.prog.result? := by
  obtain ⟨calls, hrun, hended⟩ := Sample.parseReceiptsOf_run
  obtain ⟨calls', hrun', hworld, hresults⟩ := tenants_unseen Sample.libraries Sample.gullible
    (fun _ => "one") (Sample.parseReceiptsOf_renamed "first" "second" "one") hrun
  exact ⟨calls, calls', hrun, hrun', hended, hworld.samples, hresults⟩

end OcrService
