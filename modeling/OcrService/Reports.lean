import OcrService.MetricsSummary
import OcrService.TokenLedger

/-! The two reports of the admin console, the metrics summary and the usage table, over any
interleaving of calls. -/
namespace OcrService
open Interaction Counting Sorting

abbrev Closed := Locals × Except Thrown (JsValue × RecognizedDocument)

def DocumentKept (v : Closed) : Prop :=
  ∀ result doc, v.2 = .ok (result, doc) → v.1.doc = some doc

theorem stages_keep (d : AnyOcrFunctionDefinition) (req : OcrRequest) (deps : PipelineDeps) :
    (stages d req deps).Traces SinksAccept (fun log => ∀ o ∈ log, StageOp (usesCache d) o)
      fun log v => (∀ o ∈ log, StageOp (usesCache d) o) ∧ DocumentKept v := by
  cases hcheck : checkRequest d req deps with
  | mk l r =>
    cases r with
    | error err =>
      rw [stages_refused hcheck]
      exact ⟨by simp, fun _ _ h => by cases h⟩
    | ok ai =>
      rw [stages_admitted hcheck]
      refine Prog.Traces.bind ((extraction_uses d req deps ai.2).traces.mono (fun _ h => h) ?_)
      intro log extracted hlog
      refine ⟨by simpa using hlog, ?_⟩
      intro result doc hok
      cases extracted with
      | error err => cases hok
      | ok out =>
        cases hconclude : conclude d req deps ai.1 ai.2 out.doc with
        | error err =>
          simp only [afterExtraction, hconclude] at hok
          cases hok
        | ok concluded =>
          simp only [afterExtraction, hconclude] at hok
          cases hok
          rfl

def Underway (c : Call) (log : List ServiceOp) : Prop :=
  ∃ st front v, (∀ o ∈ st, StageOp (usesCache c.d) o) ∧ log = st ++ front ∧
    front <+: (closingMetrics c.d.key c.timings (v : Closed)).samples.map .metric

def ClosedBy (c : Call) (v : Closed) (log : List ServiceOp) : Prop :=
  DocumentKept v ∧ ∃ st, (∀ o ∈ st, StageOp (usesCache c.d) o) ∧
    log = st ++ closing c.d.key c.req.tenantId c.timings v

theorem program_closes (deps : PipelineDeps) (c : Call) :
    (c.program deps).Traces SinksAccept (Underway c)
      fun log out => ∃ v, ClosedBy c v log ∧ out = outcome c.timings v := by
  refine Prog.Traces.bind ((stages_keep c.d c.req deps).mono ?_ ?_)
  · intro log hlog
    exact ⟨log, [], ({}, .error (.error "")), hlog, by simp, List.nil_prefix⟩
  · rintro log v ⟨hlog, hkept⟩
    refine (finish_traces c.d c.req c.timings v).mono ?_ ?_
    · intro log' hfronted
      exact ⟨log, log', v, hlog, rfl, hfronted⟩
    · rintro log' out ⟨rfl, rfl⟩
      exact ⟨v, ⟨hkept, log, hlog, rfl⟩, rfl⟩

def incrementsOf (log : List ServiceOp) : List Increment :=
  (samplesOf log).flatMap MetricSample.increments

@[simp] theorem incrementsOf_append (log log' : List ServiceOp) :
    incrementsOf (log ++ log') = incrementsOf log ++ incrementsOf log' := by
  simp [incrementsOf]

section
variable {name : CounterSeries} (hname : name ≠ .of .providerFallbackTotal)
include hname

theorem amountOf_stages {cached : Bool} {st : List ServiceOp} (h : ∀ o ∈ st, StageOp cached o)
    (p : Labels → Bool) : amountOf name p (incrementsOf st) = 0 := by
  rw [incrementsOf, amountOf_flatMap]
  refine List.sum_eq_zero fun n hn => ?_
  obtain ⟨sample, hsample, rfl⟩ := List.mem_map.mp hn
  obtain ⟨primary, answered, rfl⟩ := samplesOf_stages h sample hsample
  simp [amountOf, fallbackSample, MetricSample.increments, Ne.symm hname]

theorem amountOf_closed {c : Call} {v : Closed} {log : List ServiceOp} (h : ClosedBy c v log)
    (p : Labels → Bool) : amountOf name p (incrementsOf log) = amountOf name p
      ((closingMetrics c.d.key c.timings v).samples.flatMap MetricSample.increments) := by
  obtain ⟨-, st, hst, rfl⟩ := h
  rw [incrementsOf_append, amountOf_append, amountOf_stages hname hst, Nat.zero_add]
  simp [incrementsOf, closing]

theorem amountOf_underway {c : Call} {log : List ServiceOp} (h : Underway c log)
    (p : Labels → Bool) : ∃ v : Closed, amountOf name p (incrementsOf log) ≤ amountOf name p
      ((closingMetrics c.d.key c.timings v).samples.flatMap MetricSample.increments) := by
  obtain ⟨st, front, v, hst, rfl, rest, hrest⟩ := h
  refine ⟨v, ?_⟩
  have hall : incrementsOf (front ++ rest) =
      (closingMetrics c.d.key c.timings v).samples.flatMap MetricSample.increments := by
    rw [hrest]
    simp [incrementsOf]
  rw [← hall, incrementsOf_append, incrementsOf_append, amountOf_append, amountOf_append,
    amountOf_stages hname hst, Nat.zero_add]
  exact Nat.le_add_right _ _

end

@[simp] theorem closingMetrics_function (fn : OcrFunctionKey) (t : Timings) (v : Closed) :
    (closingMetrics fn t v).function = fn := by
  obtain ⟨l, r⟩ := v
  cases r <;> rfl

theorem closingMetrics_tokens {fn : OcrFunctionKey} {t : Timings} {tenantId : String} {v : Closed}
    (h : DocumentKept v) : (closingMetrics fn t v).tokensUsed.getD 0 =
      (closingUpsert tenantId v).tokensDelta := by
  obtain ⟨l, r⟩ := v
  cases r with
  | error err => rfl
  | ok rd =>
    obtain ⟨result, doc⟩ := rd
    have hdoc : l.doc = some doc := h result doc rfl
    simp [closingMetrics, closingUpsert, Locals.metrics, hdoc]

def World.metricsSummary (w : World) : MetricsSummary :=
  getMetricsSummary (registry (w.samples.flatMap MetricSample.increments))

def Calls.endedIn (calls : Calls) (q : OcrFunctionKey → Bool)
    (ends : Except Thrown (OcrOutcome JsValue) → Bool) : Nat :=
  calls.threads.countP fun th => q th.req.d.key && th.prog.result?.any ends

def Calls.running (calls : Calls) (q : OcrFunctionKey → Bool) : Nat :=
  calls.threads.countP fun th => q th.req.d.key && th.prog.result?.isNone

/-- Counts that hold the ended calls, and beyond them at most the running ones. -/
structure Calls.Counted (calls : Calls) (q : OcrFunctionKey → Bool) (requests errors : Nat) :
    Prop where
  ended_le : calls.endedIn q (fun _ => true) ≤ requests
  le_begun : requests ≤ calls.endedIn q (fun _ => true) + calls.running q
  failed_le : calls.endedIn q (fun out => outcomeOf out = .error) ≤ errors
  errors_le : errors ≤ calls.endedIn q (fun out => outcomeOf out = .error) + calls.running q

abbrev CallThread :=
  Thread Call ServiceOp ServiceOp.Answer (Except Thrown (OcrOutcome JsValue))

structure Tracked (th : CallThread) : Prop where
  waiting : th.prog.result? = none → Underway th.req th.log
  ended : ∀ out, th.prog.result? = some out →
    ∃ v, ClosedBy th.req v th.log ∧ out = outcome th.req.timings v

section
variable {deps : PipelineDeps} {w : World} {moves : List (Move Call Surroundings WorldEvent)}
variable {calls : Calls} (hrun : (concurrently deps).run ⟨w, []⟩ moves = some calls)
include hrun

theorem run_tracked : ∀ th ∈ calls.threads, Tracked th := by
  have hlogs := Machine.run_logs (m := concurrently deps) (fun env o w => handle_accepts env o w)
    (program_closes deps) hrun
  rintro ⟨c, prog, log⟩ hmem
  have htraces := hlogs _ hmem
  cases prog with
  | ret out =>
    refine ⟨fun h => by simp at h, fun out' h => ?_⟩
    cases h
    simpa using htraces
  | ask o k =>
    refine ⟨fun _ => ?_, fun out h => by cases h⟩
    simpa using htraces.1

theorem amountOf_run (name : CounterSeries) (p : Labels → Bool) :
    amountOf name p (calls.world.samples.flatMap MetricSample.increments) =
      amountOf name p (w.samples.flatMap MetricSample.increments) +
        (calls.threads.map fun th => amountOf name p (incrementsOf th.log)).sum := by
  have hmeasure := Machine.run_measure (m := concurrently deps)
    (fun w : World => amountOf name p (w.samples.flatMap MetricSample.increments))
    (fun o => amountOf name p (o.sample?.toList.flatMap MetricSample.increments))
    (fun env o w => by
      have hsamples : ((concurrently deps).handle env o w).2.samples =
        w.samples ++ o.sample?.toList := World.samples_handle env o w
      rw [hsamples, List.flatMap_append, amountOf_append])
    (fun e w => by cases e with
      | drop keys => rfl
      | land i =>
        obtain ⟨inflight, usage, hland⟩ := w.land_eq i
        simp only [concurrently, World.happen, hland]) hrun
  have hlog : ∀ log : List ServiceOp,
      (log.map fun o => amountOf name p (o.sample?.toList.flatMap MetricSample.increments)).sum =
        amountOf name p (incrementsOf log) := by
    intro log
    induction log with
    | nil => rfl
    | cons o log ih =>
      rw [List.map_cons, List.sum_cons, ih, incrementsOf, incrementsOf, samplesOf_cons,
        List.flatMap_append, amountOf_append]
  simpa only [hlog] using hmeasure

end

section
variable {p : Labels → Bool} {q : RequestMetrics → Bool} {k : OcrFunctionKey → Bool}
  {ends : Except Thrown (OcrOutcome JsValue) → Bool}
  (hp : ∀ m : RequestMetrics, p m.requestLabels = q m)
  (hends : ∀ (c : Call) (v : Closed), q (closingMetrics c.d.key c.timings v) =
    (k c.d.key && ends (outcome c.timings v)))
include hp hends

theorem amountOf_closing (c : Call) (v : Closed) : amountOf (.of .requestsTotal) p
    ((closingMetrics c.d.key c.timings v).samples.flatMap MetricSample.increments) =
      if k c.d.key && ends (outcome c.timings v) then 1 else 0 := by
  have hclosing := amountOf_requests p (.recordRequest (closingMetrics c.d.key c.timings v))
  simp only [MetricsCall.isRequest, hp, hends] at hclosing
  exact hclosing

theorem Tracked.requests {th : CallThread} (h : Tracked th) :
    (if k th.req.d.key && th.prog.result?.any ends then 1 else 0) ≤
        amountOf (.of .requestsTotal) p (incrementsOf th.log) ∧
      amountOf (.of .requestsTotal) p (incrementsOf th.log) ≤
        (if k th.req.d.key && th.prog.result?.any ends then 1 else 0) +
          if k th.req.d.key && th.prog.result?.isNone then 1 else 0 := by
  cases hres : th.prog.result? with
  | none =>
    have hname : CounterSeries.of .requestsTotal ≠ .of .providerFallbackTotal := by decide
    obtain ⟨v, hle⟩ := amountOf_underway hname (h.waiting hres) p
    rw [amountOf_closing hp hends] at hle
    refine ⟨by simp, hle.trans ?_⟩
    by_cases hk : k th.req.d.key = true
    · by_cases hout : ends (outcome th.req.timings v) = true <;> simp [hk, hout]
    · simp [hk]
  | some out =>
    obtain ⟨v, hv, rfl⟩ := h.ended out hres
    rw [amountOf_closed (by decide) hv p, amountOf_closing hp hends]
    simp

variable (p q k ends) in
/-- The requests under labels of one kind: the ended calls, and at most the running ones. -/
theorem requests_within {deps : PipelineDeps} {w : World}
    {moves : List (Move Call Surroundings WorldEvent)} {calls : Calls}
    (hrun : (concurrently deps).run ⟨w, []⟩ moves = some calls) (hfresh : w.samples = []) :
    let n := amountOf (.of .requestsTotal) p
      (calls.world.samples.flatMap MetricSample.increments)
    calls.endedIn k ends ≤ n ∧ n ≤ calls.endedIn k ends + calls.running k := by
  have hkept := run_tracked hrun
  have hsum := amountOf_run hrun (.of .requestsTotal) p
  rw [hfresh, List.flatMap_nil] at hsum
  have hzero : amountOf (.of .requestsTotal) p [] = 0 := rfl
  rw [hzero, Nat.zero_add] at hsum
  simp only [hsum, Calls.endedIn, Calls.running, ← sum_countP, ← List.sum_map_add]
  refine ⟨List.sum_le_sum fun th hmem => ?_, List.sum_le_sum fun th hmem => ?_⟩
  · exact ((hkept th hmem).requests hp hends).1
  · exact ((hkept th hmem).requests hp hends).2

end

section
variable {deps : PipelineDeps} {w : World} {moves : List (Move Call Surroundings WorldEvent)}
variable {calls : Calls} (hrun : (concurrently deps).run ⟨w, []⟩ moves = some calls)
  (hfresh : w.samples = [])
include hrun hfresh

theorem counted_of_run (p : Labels → Bool) (k : OcrFunctionKey → Bool)
    (hp : ∀ m : RequestMetrics, p m.requestLabels = k m.function) :
    let r := registry (calls.world.samples.flatMap MetricSample.increments)
    calls.Counted k (sumValues r (.of .requestsTotal) p)
      (sumValues r (.of .requestsTotal) fun labels => p labels && hasError labels) := by
  have hall := requests_within p (fun m => k m.function) k (fun _ => true) hp
    (fun c v => by simp) hrun hfresh
  have hfailed := requests_within (fun labels => p labels && hasError labels)
    (fun m => k m.function && m.outcome = .error) k (fun out => outcomeOf out = .error)
    (fun m => by rw [hp, hasError_requestLabels])
    (fun c v => by rw [closingMetrics_function, outcomeOf_outcome c.d.key]) hrun hfresh
  simp only [sumValues_registry]
  exact ⟨hall.1, hall.2, hfailed.1, hfailed.2⟩

end

theorem confidence_zero (samples : List MetricSample) {name : CounterSeries}
    (hname : ∀ counter, name ≠ .of counter) (p : Labels → Bool) :
    amountOf name p (samples.flatMap MetricSample.increments) = 0 := by
  rw [amountOf_flatMap]
  refine List.sum_eq_zero fun n hn => ?_
  obtain ⟨sample, -, rfl⟩ := List.mem_map.mp hn
  cases sample with
  | observe histogram labels value => rfl
  | inc counter labels value => simp [amountOf, MetricSample.increments, Ne.symm (hname counter)]

def Sampled (sample : MetricSample) : Prop :=
  (∃ primary answered, sample = fallbackSample primary answered) ∨
    ∃ m : RequestMetrics, sample ∈ m.samples

theorem Tracked.sampled {th : CallThread} (h : Tracked th) :
    ∀ sample ∈ samplesOf th.log, Sampled sample := by
  have hfront : ∀ {st front v}, (∀ o ∈ st, StageOp (usesCache th.req.d) o) →
      front <+: (closingMetrics th.req.d.key th.req.timings (v : Closed)).samples.map .metric →
      ∀ sample ∈ samplesOf (st ++ front), Sampled sample := by
    intro st front v hst hfronted sample hsample
    rw [samplesOf_append, List.mem_append] at hsample
    obtain hsample | hsample := hsample
    · exact .inl (samplesOf_stages hst sample hsample)
    · obtain ⟨o, ho, hsample⟩ := List.mem_filterMap.mp hsample
      obtain ⟨sample', hmem, rfl⟩ := List.mem_map.mp (hfronted.subset ho)
      cases hsample
      exact .inr ⟨_, hmem⟩
  cases hres : th.prog.result? with
  | none =>
    obtain ⟨st, front, v, hst, hlog, hfronted⟩ := h.waiting hres
    rw [hlog]
    exact hfront hst hfronted
  | some out =>
    obtain ⟨v, ⟨-, st, hst, hlog⟩, -⟩ := h.ended out hres
    have hupsert : samplesOf th.log = samplesOf (st ++
        (closingMetrics th.req.d.key th.req.timings v).samples.map .metric) := by
      rw [hlog, closing, ← List.append_assoc, samplesOf_append]
      simp
    rw [hupsert]
    exact hfront hst (List.prefix_refl _)

open Classical in
theorem sampled_of_run {deps : PipelineDeps} {w : World}
    {moves : List (Move Call Surroundings WorldEvent)} {calls : Calls}
    (hrun : (concurrently deps).run ⟨w, []⟩ moves = some calls) (hfresh : w.samples = []) :
    ∀ sample ∈ calls.world.samples, Sampled sample := by
  have hcount := samples_of_run hrun fun sample => decide ¬Sampled sample
  have hzero : ∀ n ∈ calls.threads.map (fun th =>
      (samplesOf th.log).countP fun sample => decide ¬Sampled sample), n = 0 := by
    intro n hn
    obtain ⟨th, hmem, rfl⟩ := List.mem_map.mp hn
    exact List.countP_eq_zero.mpr fun sample hsample => by
      simpa using (run_tracked hrun th hmem).sampled sample hsample
  rw [hfresh, List.countP_nil, Nat.zero_add, List.sum_eq_zero hzero] at hcount
  intro sample hsample
  simpa using List.countP_eq_zero.mp hcount sample hsample

theorem byFunction_sampled {samples : List MetricSample} (h : ∀ sample ∈ samples, Sampled sample) :
    ByFunction (samples.flatMap MetricSample.increments) where
  labelled i hi hne := by
    obtain ⟨sample, hsample, hi⟩ := List.mem_flatMap.mp hi
    obtain ⟨primary, answered, rfl⟩ | ⟨m, hm⟩ := h sample hsample
    · rw [List.mem_singleton.mp hi] at hne
      exact absurd rfl hne
    · have hcall : i ∈ (MetricsCall.recordRequest m).increments :=
        List.mem_flatMap.mpr ⟨sample, hm, hi⟩
      obtain ⟨fn, -, hlabel⟩ := label_of_increment hcall hne
      exact ⟨fn, hlabel⟩
  low p := by
    rw [confidence_zero samples (by simp) p]
    exact Nat.zero_le _

theorem exists_of_amountOf {name : CounterSeries} {p : Labels → Bool} {l : List Increment}
    (h : amountOf name p l ≠ 0) : ∃ i ∈ l, i.series = name ∧ p i.labels = true := by
  by_contra hnone
  refine h (List.sum_eq_zero fun n hn => ?_)
  obtain ⟨i, hi, rfl⟩ := List.mem_map.mp hn
  refine if_neg fun hboth => hnone ⟨i, hi, ?_⟩
  simpa using hboth

/-- The metrics summary of any reachable state does not contradict itself; its counts, in all
and for each function, hold every call that has ended and at most the running ones beside them.
A function some call of which has ended has its row, and none has a low-confidence ratio. -/
theorem summary_of_run (deps : PipelineDeps) {w : World} (hfresh : w.samples = [])
    {moves : List (Move Call Surroundings WorldEvent)} {calls : Calls}
    (hrun : (concurrently deps).run ⟨w, []⟩ moves = some calls) :
    let s := calls.world.metricsSummary
    s.Coherent ∧ calls.Counted (fun _ => true) s.totalRequests s.errorRequests ∧
      (∀ row ∈ s.byFunction, row.lowConfidenceRatio = 0 ∧ ∃ fn : OcrFunctionKey,
        row.function = fn.name ∧ calls.Counted (fun key => key = fn) row.requests row.errors) ∧
      ∀ th ∈ calls.threads, th.prog.result?.isSome →
        ∃ row ∈ s.byFunction, row.function = th.req.d.key.name := by
  have hby := byFunction_sampled (sampled_of_run hrun hfresh)
  have hfn : ∀ (fn : OcrFunctionKey) (m : RequestMetrics),
      hasFunction fn.name m.requestLabels = decide (m.function = fn) :=
    fun fn m => hasFunction_iff fn m.function _
  refine ⟨hby.coherent, ?_, ?_, ?_⟩
  · have hcounted := counted_of_run hrun hfresh (fun _ => true) (fun _ => true) fun _ => rfl
    simp only [Bool.true_and] at hcounted
    exact hcounted
  · intro row hrow
    obtain ⟨name, hname, rfl⟩ := List.mem_map.mp (mem_stableSort.mp hrow)
    obtain ⟨-, series, hlisted, labels, hlabels, hlabel⟩ := mem_functions.mp hname
    obtain ⟨i, hi, rfl, rfl⟩ := (mem_keys_registry _ series).mp hlabels
    have hne : i.series ≠ .of .providerFallbackTotal := by
      intro hseries
      rw [hseries] at hlisted
      simp [listed] at hlisted
    obtain ⟨fn, hfunction⟩ := hby.labelled i hi hne
    have heq : name = fn.name := Option.some.inj (hlabel.symm.trans hfunction)
    subst heq
    refine ⟨?_, fn, rfl, counted_of_run hrun hfresh _ _ (hfn fn)⟩
    simp [functionSummary, sumValues_registry, ratio, confidence_zero]
  · intro th hmem hended
    obtain ⟨out, hout⟩ := Option.isSome_iff_exists.mp hended
    have hcounted := (counted_of_run hrun hfresh _ (fun key => key = th.req.d.key)
      (hfn th.req.d.key)).ended_le
    have hpos : 0 < calls.endedIn (fun key => key = th.req.d.key) fun _ => true :=
      List.countP_pos_iff.mpr ⟨th, hmem, by simp [hout]⟩
    rw [sumValues_registry] at hcounted
    obtain ⟨i, hi, hseries, hlabel⟩ := exists_of_amountOf (Nat.ne_of_gt (hpos.trans_le hcounted))
    refine ⟨_, mem_stableSort.mpr (List.mem_map.mpr ⟨th.req.d.key.name, ?_, rfl⟩), rfl⟩
    exact mem_functions.mpr ⟨th.req.d.key.name_ne, _, .inl rfl, i.labels,
      (mem_keys_registry _ _).mpr ⟨i, hi, hseries, rfl⟩, by simpa [hasFunction] using hlabel⟩

structure TenantUsage where
  tenantId : String
  requests : Nat
  errors : Nat
  tokens : Nat
  deriving DecidableEq

/-- What `SELECT tenant_id, requests, errors, tokens FROM tenant_usage` may return: every row of
the table once, in any order. -/
structure UsageRows (w : World) where
  tenants : List String
  nodup : tenants.Nodup
  complete : ∀ tenantId, tenantId ∈ tenants ↔ (w.usage tenantId).isSome = true

def toTenantUsage (tenantId : String) (row : UsageRow) : TenantUsage :=
  { tenantId, requests := row.requests, errors := row.errors, tokens := row.tokens }

def getAllTenantUsage {w : World} (rows : UsageRows w) : List TenantUsage :=
  stableSort (fun u => OrderDual.toDual u.requests)
    (rows.tenants.filterMap fun tenantId => (w.usage tenantId).map (toTenantUsage tenantId))

structure ReportColumn extends Column where
  report : TenantUsage → Nat
  same : ∀ tenantId row, report (toTenantUsage tenantId row) = read row

namespace ReportColumn

def requests : ReportColumn := ⟨Column.requests, TenantUsage.requests, fun _ _ => rfl⟩

def errors : ReportColumn := ⟨Column.errors, TenantUsage.errors, fun _ _ => rfl⟩

def tokens : ReportColumn := ⟨Column.tokens, TenantUsage.tokens, fun _ _ => rfl⟩

end ReportColumn

theorem sum_getAllTenantUsage {w : World} (rows : UsageRows w) (col : ReportColumn) :
    ((getAllTenantUsage rows).map col.report).sum =
      (rows.tenants.map (w.recorded col.toColumn)).sum := by
  have hperm := stableSort_perm (fun u : TenantUsage => OrderDual.toDual u.requests)
    (rows.tenants.filterMap fun tenantId => (w.usage tenantId).map (toTenantUsage tenantId))
  refine (hperm.map col.report).sum_eq.trans ?_
  induction rows.tenants with
  | nil => rfl
  | cons tenantId tenants ih =>
    rw [List.map_cons, List.sum_cons, ← ih, List.filterMap_cons, World.recorded]
    cases w.usage tenantId with
    | none => simp
    | some row => simp [col.same]

theorem getAllTenantUsage_sorted {w : World} (rows : UsageRows w) :
    (getAllTenantUsage rows).Pairwise fun a b => b.requests ≤ a.requests :=
  List.pairwise_insertionSort _ _

section
variable {deps : PipelineDeps} {w : World} {moves : List (Move Call Surroundings WorldEvent)}
variable {calls : Calls} (hrun : (concurrently deps).run ⟨w, []⟩ moves = some calls)
include hrun

theorem ledger_threads (col : Column) (tenantId : String) :
    calls.world.ledger col tenantId = w.ledger col tenantId + (calls.threads.map fun th =>
      ((upsertsOf th.log).map (col.addsTo tenantId)).sum).sum := by
  have hmeasure := Machine.run_measure (m := concurrently deps)
    (fun w : World => w.ledger col tenantId) (fun o => o.upsert?.elim 0 (col.addsTo tenantId))
    (fun env o w => World.ledger_handle env o w col tenantId)
    (fun e w => by cases e with
      | drop keys => rfl
      | land i => exact w.ledger_land i col tenantId) hrun
  simpa only [sum_upserts] using hmeasure

end

theorem upsertsOf_closed {c : Call} {v : Closed} {log : List ServiceOp} (h : ClosedBy c v log) :
    upsertsOf log = [closingUpsert c.req.tenantId v] := by
  obtain ⟨-, st, hst, rfl⟩ := h
  simp [closing, upsertsOf_stages hst]

def World.Used (w : World) : Prop := ∀ tenantId row, w.usage tenantId = some row → row.requests ≠ 0

theorem World.Used.land {w : World} (h : w.Used) (i : Nat) : (w.land i).Used := by
  intro tenantId row hrow
  cases hu : w.inflight[i]? with
  | none =>
    rw [World.land, hu] at hrow
    exact h tenantId row hrow
  | some u =>
    rw [World.land, hu] at hrow
    by_cases ht : tenantId = u.tenantId
    · subst ht
      simp only [Function.update_self, Option.some.injEq] at hrow
      subst hrow
      cases w.usage u.tenantId <;> simp [UsageUpsert.apply]
    · simp only [Function.update_of_ne ht] at hrow
      exact h tenantId row hrow

theorem World.usage_handle (env : Surroundings) (o : ServiceOp) (w : World) :
    (World.handle env o w).2.usage = w.usage := by
  cases o with
  | cacheSet key doc ttl =>
    obtain ⟨cache, cacheWrites, hset⟩ := w.cacheSet_eq env key doc ttl
    rw [hset]
  | enqueue data =>
    obtain ⟨jobs, hjobs⟩ := w.enqueue_eq env data
    rw [hjobs]
  | cacheGet | recognize | metric | upsertUsage => rfl

theorem used_of_run {deps : PipelineDeps} {w : World} (hw : w.Used)
    {moves : List (Move Call Surroundings WorldEvent)} {calls : Calls}
    (hrun : (concurrently deps).run ⟨w, []⟩ moves = some calls) : calls.world.Used := by
  refine Machine.run_last (m := concurrently deps) (fun c => c.world.Used) ?_ hw hrun
  intro c mv c' h hn
  cases mv with
  | spawn r =>
    cases hn
    exact h
  | step i env =>
    obtain ⟨r, o, k, log, -, rfl⟩ := (concurrently deps).next_step hn
    intro tenantId row hrow
    have husage : ((concurrently deps).handle env o c.world).2.usage = c.world.usage :=
      World.usage_handle env o c.world
    exact h tenantId row (husage ▸ hrow)
  | env e =>
    cases hn
    cases e with
    | drop keys => exact h
    | land i => exact h.land i

structure World.Fresh (w : World) : Prop where
  samples : w.samples = []
  inflight : w.inflight = []
  usage : ∀ tenantId, w.usage tenantId = none

theorem World.Fresh.ledger {w : World} (h : w.Fresh) (col : Column) (tenantId : String) :
    w.ledger col tenantId = 0 := by
  simp [World.ledger, World.recorded, World.pending, h.usage, h.inflight]

structure Calls.Settled (calls : Calls) : Prop where
  ended : ∀ th ∈ calls.threads, ∃ out, th.prog.result? = some out
  landed : calls.world.inflight = []

section
variable {deps : PipelineDeps} {w : World} {moves : List (Move Call Surroundings WorldEvent)}
variable {calls : Calls} (hw : w.Fresh)
  (hrun : (concurrently deps).run ⟨w, []⟩ moves = some calls) (hsettled : calls.Settled)
include hw hrun hsettled

theorem recorded_of_run (col : Column) (tenantId : String) :
    calls.world.recorded col tenantId = (calls.threads.map fun th =>
      if th.req.req.tenantId = tenantId then ((upsertsOf th.log).map col.delta).sum
      else 0).sum := by
  have hledger := ledger_threads hrun col tenantId
  have hpending : calls.world.pending col tenantId = 0 := by
    rw [World.pending, hsettled.landed]
    rfl
  rw [hw.ledger, Nat.zero_add, World.ledger, hpending, Nat.add_zero] at hledger
  rw [hledger]
  refine congrArg List.sum (List.map_congr_left fun th hmem => ?_)
  obtain ⟨out, hout⟩ := hsettled.ended th hmem
  obtain ⟨v, hv, -⟩ := (run_tracked hrun th hmem).ended out hout
  rw [upsertsOf_closed hv]
  simp [Column.addsTo, closingUpsert_tenantId]

theorem row_of_run {th : CallThread} (hmem : th ∈ calls.threads) :
    (calls.world.usage th.req.req.tenantId).isSome = true := by
  have hrecorded := recorded_of_run hw hrun hsettled .requests th.req.req.tenantId
  cases hrow : calls.world.usage th.req.req.tenantId with
  | some row => rfl
  | none =>
    obtain ⟨out, hout⟩ := hsettled.ended th hmem
    obtain ⟨v, hv, -⟩ := (run_tracked hrun th hmem).ended out hout
    have hone : ((upsertsOf th.log).map Column.requests.delta).sum = 1 := by
      rw [upsertsOf_closed hv]
      rfl
    rw [World.recorded, hrow] at hrecorded
    have hzero := List.sum_eq_zero_iff.mp hrecorded.symm _ (List.mem_map_of_mem hmem)
    rw [if_pos rfl, hone] at hzero
    cases hzero

theorem usage_of_run (tenantId : String) : (calls.world.usage tenantId).isSome = true ↔
    ∃ th ∈ calls.threads, th.req.req.tenantId = tenantId := by
  constructor
  · intro hsome
    obtain ⟨row, hrow⟩ := Option.isSome_iff_exists.mp hsome
    have hused : row.requests ≠ 0 :=
      used_of_run (fun t r h => by simp [hw.usage] at h) hrun _ _ hrow
    by_contra hnone
    have hrecorded := recorded_of_run hw hrun hsettled .requests tenantId
    rw [World.recorded, hrow, List.sum_eq_zero fun n hn => ?_] at hrecorded
    · exact hused hrecorded
    · obtain ⟨th, hmem, rfl⟩ := List.mem_map.mp hn
      exact if_neg fun h => hnone ⟨th, hmem, h⟩
  · rintro ⟨th, hmem, rfl⟩
    exact row_of_run hw hrun hsettled hmem

def usageRows : UsageRows calls.world where
  tenants := (calls.threads.map fun th => th.req.req.tenantId).eraseDups
  nodup := nodup_eraseDups _
  complete tenantId := by
    rw [List.mem_eraseDups, List.mem_map, usage_of_run hw hrun hsettled]

/-- A column of the report and a counter that the closing of a call moves alike. -/
theorem report_of_run (rows : UsageRows calls.world) (col : ReportColumn) {name : CounterSeries}
    (hname : name ≠ .of .providerFallbackTotal) (p : Labels → Bool)
    (halike : ∀ (c : Call) (v : Closed), DocumentKept v → amountOf name p
      ((closingMetrics c.d.key c.timings v).samples.flatMap MetricSample.increments) =
        col.delta (closingUpsert c.req.tenantId v)) :
    ((getAllTenantUsage rows).map col.report).sum =
      amountOf name p (calls.world.samples.flatMap MetricSample.increments) := by
  have hsum := amountOf_run hrun name p
  have hzero : amountOf name p [] = 0 := rfl
  rw [hw.samples, List.flatMap_nil, hzero, Nat.zero_add] at hsum
  rw [sum_getAllTenantUsage, hsum,
    List.map_congr_left fun t _ => recorded_of_run hw hrun hsettled col.toColumn t]
  refine (sum_groups rows.nodup (fun th : CallThread => th.req.req.tenantId) _ calls.threads
    fun th hmem _ => (rows.complete _).mpr (row_of_run hw hrun hsettled hmem)).trans ?_
  refine congrArg List.sum (List.map_congr_left fun th hmem => ?_)
  obtain ⟨out, hout⟩ := hsettled.ended th hmem
  obtain ⟨v, hv, -⟩ := (run_tracked hrun th hmem).ended out hout
  rw [upsertsOf_closed hv, amountOf_closed hname hv p, halike th.req v hv.1]
  simp

end

theorem tenants_getAllTenantUsage {w : World} (rows : UsageRows w) :
    ((getAllTenantUsage rows).map TenantUsage.tenantId).Perm rows.tenants := by
  have hperm := stableSort_perm (fun u : TenantUsage => OrderDual.toDual u.requests)
    (rows.tenants.filterMap fun tenantId => (w.usage tenantId).map (toTenantUsage tenantId))
  refine (hperm.map TenantUsage.tenantId).trans (.of_eq ?_)
  have hall : ∀ tenants : List String, (∀ t ∈ tenants, (w.usage t).isSome = true) →
      (tenants.filterMap fun t => (w.usage t).map (toTenantUsage t)).map TenantUsage.tenantId =
        tenants := by
    intro tenants hsome
    induction tenants with
    | nil => rfl
    | cons t tenants ih =>
      obtain ⟨row, hrow⟩ := Option.isSome_iff_exists.mp (hsome t (by simp))
      have hrest := ih fun t' ht => hsome t' (by simp [ht])
      rw [List.filterMap_cons, hrow]
      exact congrArg (t :: ·) hrest
  exact hall rows.tenants fun t ht => (rows.complete t).mp ht

/-- Once every call has ended and every upsert has landed, the two reports agree, though they
are kept apart: in whatever order Postgres returns its rows, the tenants' requests, errors and
tokens add up to the totals of the metrics summary. Each tenant of a call has one row, nobody
else has, and the rows come most requests first. -/
theorem reports_agree (deps : PipelineDeps) {w : World} (hw : w.Fresh)
    {moves : List (Move Call Surroundings WorldEvent)} {calls : Calls}
    (hrun : (concurrently deps).run ⟨w, []⟩ moves = some calls) (hsettled : calls.Settled)
    (rows : UsageRows calls.world) :
    let u := getAllTenantUsage rows
    let s := calls.world.metricsSummary
    (u.map TenantUsage.requests).sum = s.totalRequests ∧
      (u.map TenantUsage.errors).sum = s.errorRequests ∧
      (u.map TenantUsage.tokens).sum = s.totalTokens ∧
      (u.map TenantUsage.tenantId).Nodup ∧
      (∀ tenantId, tenantId ∈ u.map TenantUsage.tenantId ↔
        ∃ th ∈ calls.threads, th.req.req.tenantId = tenantId) ∧
      u.Pairwise fun a b => b.requests ≤ a.requests := by
  have hrequest : ∀ (p : Labels → Bool) (c : Call) (v : Closed),
      amountOf (.of .requestsTotal) p ((closingMetrics c.d.key c.timings v).samples.flatMap
        MetricSample.increments) =
          if p (closingMetrics c.d.key c.timings v).requestLabels then 1 else 0 :=
    fun p c v => amountOf_requests p (.recordRequest _)
  have htenants := tenants_getAllTenantUsage rows
  refine ⟨?_, ?_, ?_, htenants.nodup_iff.mpr rows.nodup, fun tenantId => ?_,
    getAllTenantUsage_sorted rows⟩
  · refine (report_of_run hw hrun hsettled rows .requests (by decide) (fun _ => true)
      fun c v _ => ?_).trans (sumValues_registry _ _ _).symm
    exact hrequest _ c v
  · refine (report_of_run hw hrun hsettled rows .errors (by decide) hasError
      fun c v _ => ?_).trans (sumValues_registry _ _ _).symm
    obtain ⟨tokens, hupsert⟩ := closingUpsert_eq c.timings c.req.tenantId v
    rw [hrequest, hasError_requestLabels, hupsert, ← outcomeOf_outcome c.d.key]
    simp [ReportColumn.errors, Column.errors]
  · refine (report_of_run hw hrun hsettled rows .tokens (by decide) (fun _ => true)
      fun c v hkept => ?_).trans (sumValues_registry _ _ _).symm
    have htokens := amountOf_tokens (fun _ => true)
      (.recordRequest (closingMetrics c.d.key c.timings v))
    exact htokens.trans (closingMetrics_tokens hkept)
  · rw [htenants.mem_iff, rows.complete, usage_of_run hw hrun hsettled]

theorem summary_of_run_pair :
    ∃ calls, (concurrently Sample.deps).run ⟨{}, []⟩ Sample.goodAndBad = some calls ∧
      calls.world.metricsSummary.Coherent ∧
      Calls.Counted calls (fun _ => true) 2 1 ∧
      calls.world.metricsSummary.byFunction.map
        (fun row => (row.function, row.requests, row.errors)) = [("TEXT_EXTRACTION", 2, 1)] := by
  refine ⟨_, rfl, ?_⟩
  have hsummary := summary_of_run Sample.deps rfl
    (rfl : (concurrently Sample.deps).run ⟨{}, []⟩ Sample.goodAndBad = some _)
  exact ⟨hsummary.1, hsummary.2.1, rfl⟩

theorem Sample.goodAndBad_settled {calls : Calls}
    (hrun : (concurrently Sample.deps).run ⟨{}, []⟩ Sample.goodAndBad = some calls) :
    calls.Settled := by
  have hcalls : some _ = some calls := hrun
  obtain rfl := Option.some.inj hcalls
  refine ⟨fun th hth => ?_, rfl⟩
  let ended : CallThread → Bool := fun th => th.prog.result?.isSome
  have hended : ended th = true := (List.all_eq_true (p := ended)).mp rfl th hth
  exact Option.isSome_iff_exists.mp hended

theorem reports_agree_pair :
    ∃ calls, (concurrently Sample.deps).run ⟨{}, []⟩ Sample.goodAndBad = some calls ∧
      ∃ rows : UsageRows calls.world,
        ((getAllTenantUsage rows).map TenantUsage.requests).sum =
          calls.world.metricsSummary.totalRequests ∧
        (getAllTenantUsage rows).map TenantUsage.tenantId = ["tenant"] := by
  have hrun : (concurrently Sample.deps).run ⟨{}, []⟩ Sample.goodAndBad = some _ := rfl
  have hfresh : ({} : World).Fresh := ⟨rfl, rfl, fun _ => rfl⟩
  have hsettled := Sample.goodAndBad_settled hrun
  refine ⟨_, hrun, usageRows hfresh hrun hsettled, ?_, rfl⟩
  exact (reports_agree Sample.deps hfresh hrun hsettled _).1

end OcrService
