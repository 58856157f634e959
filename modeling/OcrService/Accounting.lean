import OcrService.Calls
import OcrService.Usage

/-! Every finished call is counted once, however the calls are interleaved. -/
namespace OcrService
open Interaction

def samplesOf (log : List ServiceOp) : List MetricSample := log.filterMap ServiceOp.sample?

def upsertsOf (log : List ServiceOp) : List UsageUpsert := log.filterMap ServiceOp.upsert?

def isRequestCount : MetricSample → Bool
  | .inc .requestsTotal _ _ => true
  | _ => false

def isObservation (histogram : HistogramName) : MetricSample → Bool
  | .observe h _ _ => h = histogram
  | _ => false

def outcomeOf (out : Except Thrown (OcrOutcome JsValue)) : RequestOutcome :=
  match out with
  | .ok _ => .success
  | .error _ => .error

structure CountedOnce (c : Call) (log : List ServiceOp)
    (out : Except Thrown (OcrOutcome JsValue)) : Prop where
  usage : ∃ tokens, upsertsOf log =
    [⟨c.req.tenantId, if outcomeOf out = .error then 1 else 0, tokens⟩]
  total : ∃ labels, (samplesOf log).filter isRequestCount = [.inc .requestsTotal labels 1] ∧
    ("outcome", (outcomeOf out).name) ∈ labels
  observed : ∀ histogram, (samplesOf log).countP (isObservation histogram) =
    if outcomeOf out = .success then 1 else 0

section
variable {log log' : List ServiceOp}

@[simp] theorem samplesOf_append : samplesOf (log ++ log') = samplesOf log ++ samplesOf log' :=
  List.filterMap_append

@[simp] theorem upsertsOf_append : upsertsOf (log ++ log') = upsertsOf log ++ upsertsOf log' :=
  List.filterMap_append

@[simp] theorem samplesOf_metrics (samples : List MetricSample) :
    samplesOf (samples.map .metric) = samples := by
  induction samples with
  | nil => rfl
  | cons sample rest ih => exact congrArg (sample :: ·) ih

@[simp] theorem upsertsOf_metrics (samples : List MetricSample) :
    upsertsOf (samples.map .metric) = [] := by
  induction samples with
  | nil => rfl
  | cons sample rest ih => exact ih

@[simp] theorem samplesOf_upsert (u : UsageUpsert) :
    samplesOf [.upsertUsage u.tenantId u.errorsDelta u.tokensDelta] = [] := rfl

@[simp] theorem upsertsOf_upsert (u : UsageUpsert) :
    upsertsOf [.upsertUsage u.tenantId u.errorsDelta u.tokensDelta] = [u] := rfl

theorem upsertsOf_cons (o : ServiceOp) :
    upsertsOf (o :: log) = o.upsert?.toList ++ upsertsOf log := by
  cases o <;> rfl

theorem samplesOf_cons (o : ServiceOp) :
    samplesOf (o :: log) = o.sample?.toList ++ samplesOf log := by
  cases o <;> rfl

theorem upsertsOf_prefix_metrics {samples : List MetricSample} (h : log <+: samples.map .metric) :
    upsertsOf log = [] := by
  obtain ⟨rest, hrest⟩ := h
  have happ : upsertsOf (log ++ rest) = upsertsOf log ++ upsertsOf rest := upsertsOf_append
  rw [hrest, upsertsOf_metrics] at happ
  exact (List.append_eq_nil_iff.mp happ.symm).1

theorem upsertsOf_stages {cached : Bool} (h : ∀ o ∈ log, StageOp cached o) :
    upsertsOf log = [] := by
  refine List.filterMap_eq_nil_iff.mpr fun o ho => ?_
  have hop := h o ho
  cases o with
  | upsertUsage => cases hop
  | _ => rfl

theorem samplesOf_stages {cached : Bool} (h : ∀ o ∈ log, StageOp cached o) :
    ∀ sample ∈ samplesOf log, ∃ primary answered, sample = fallbackSample primary answered := by
  intro sample hs
  obtain ⟨o, ho, hsample⟩ := List.mem_filterMap.mp hs
  have hop := h o ho
  cases o with
  | metric s =>
    cases hsample
    exact hop
  | _ => cases hsample

theorem requestCounts_stages {cached : Bool} (h : ∀ o ∈ log, StageOp cached o) :
    (samplesOf log).filter isRequestCount = [] := by
  refine List.filter_eq_nil_iff.mpr fun sample hs => ?_
  obtain ⟨primary, answered, rfl⟩ := samplesOf_stages h sample hs
  exact Bool.false_ne_true

theorem observations_stages {cached : Bool} (h : ∀ o ∈ log, StageOp cached o)
    (histogram : HistogramName) :
    (samplesOf log).countP (isObservation histogram) = 0 := by
  refine List.countP_eq_zero.mpr fun sample hs => ?_
  obtain ⟨primary, answered, rfl⟩ := samplesOf_stages h sample hs
  exact Bool.false_ne_true

end

theorem filter_incIfTruthy (labels : Labels) (counter : CounterName) (n : Option Nat)
    (hc : counter ≠ .requestsTotal) :
    (incIfTruthy counter labels n).filter isRequestCount = [] := by
  have hcount : ∀ k, isRequestCount (.inc counter labels k) = false := by
    intro k
    cases counter with
    | requestsTotal => exact absurd rfl hc
    | tokensUsedTotal | estimatedCostNgnTotal | providerFallbackTotal => rfl
  match n with
  | none | some 0 => rfl
  | some (k + 1) => simp [incIfTruthy, hcount]

theorem countP_incIfTruthy (labels : Labels) (counter : CounterName) (n : Option Nat)
    (histogram : HistogramName) :
    (incIfTruthy counter labels n).countP (isObservation histogram) = 0 := by
  match n with
  | none | some 0 => rfl
  | some (k + 1) => rfl

theorem samples_requestCount (m : RequestMetrics) :
    ∃ labels, m.samples.filter isRequestCount = [.inc .requestsTotal labels 1] ∧
      ("outcome", m.outcome.name) ∈ labels := by
  refine ⟨[("function", m.function.name), ("provider", m.provider), ("mime_group", m.mimeGroup),
    ("cached", toString m.cached), ("outcome", m.outcome.name)], ?_, by simp⟩
  have htokens := filter_incIfTruthy [("function", m.function.name), ("provider", m.provider)]
    .tokensUsedTotal m.tokensUsed (by decide)
  have hcost := filter_incIfTruthy [("function", m.function.name)] .estimatedCostNgnTotal
    m.estimatedCostNgn (by decide)
  by_cases hs : m.outcome = .success
  · simp [RequestMetrics.samples, List.filter_cons, isRequestCount, hs, htokens, hcost]
  · simp [RequestMetrics.samples, List.filter_cons, isRequestCount, hs, htokens, hcost]

theorem samples_observed (m : RequestMetrics) (histogram : HistogramName) :
    m.samples.countP (isObservation histogram) = if m.outcome = .success then 1 else 0 := by
  by_cases hs : m.outcome = .success
  · cases histogram <;>
      simp [RequestMetrics.samples, isObservation, hs, countP_incIfTruthy]
  · simp [RequestMetrics.samples, isObservation, hs, countP_incIfTruthy]

theorem outcomeOf_outcome (fn : OcrFunctionKey) (t : Timings)
    (v : Locals × Except Thrown (JsValue × RecognizedDocument)) :
    outcomeOf (outcome t v) = (closingMetrics fn t v).outcome := by
  obtain ⟨l, r⟩ := v
  cases r <;> rfl

theorem closingUpsert_eq (t : Timings) (tenantId : String)
    (v : Locals × Except Thrown (JsValue × RecognizedDocument)) :
    ∃ tokens, closingUpsert tenantId v =
      ⟨tenantId, if outcomeOf (outcome t v) = .error then 1 else 0, tokens⟩ := by
  obtain ⟨l, r⟩ := v
  cases r <;> exact ⟨_, rfl⟩

theorem closing_countedOnce (c : Call) {log : List ServiceOp} {cached : Bool}
    (h : ∀ o ∈ log, StageOp cached o) (v : Locals × Except Thrown (JsValue × RecognizedDocument)) :
    CountedOnce c (log ++ closing c.d.key c.req.tenantId c.timings v)
      (outcome c.timings v) where
  usage := by
    obtain ⟨tokens, hu⟩ := closingUpsert_eq c.timings c.req.tenantId v
    refine ⟨tokens, ?_⟩
    rw [← hu]
    simp [closing, upsertsOf_stages h]
  total := by
    obtain ⟨labels, hfilter, hlabel⟩ := samples_requestCount (closingMetrics c.d.key c.timings v)
    refine ⟨labels, ?_, outcomeOf_outcome c.d.key c.timings v ▸ hlabel⟩
    simp [closing, requestCounts_stages h, hfilter]
  observed histogram := by
    have hobs := samples_observed (closingMetrics c.d.key c.timings v) histogram
    simp [closing, observations_stages h, hobs, outcomeOf_outcome c.d.key]

theorem program_traces (deps : PipelineDeps) (c : Call) :
    (c.program deps).Traces SinksAccept (fun log => upsertsOf log = []) (CountedOnce c) := by
  refine Prog.Traces.bind ((stages_uses c.d c.req deps).traces.mono ?_ ?_)
  · exact fun log h => upsertsOf_stages h
  · intro log v h
    refine (finish_traces c.d c.req c.timings v).mono ?_ ?_
    · intro log' hpre
      simp [upsertsOf_stages h, upsertsOf_prefix_metrics hpre]
    · rintro log' out ⟨rfl, rfl⟩
      exact closing_countedOnce c h v

def CountsOne (o : ServiceOp) : Prop := ∀ u, o.upsert? = some u → u.errorsDelta ≤ 1

theorem program_countsOne (deps : PipelineDeps) (c : Call) : (c.program deps).Uses CountsOne := by
  refine Prog.Uses.bind ((stages_uses c.d c.req deps).mono ?_) fun v => ?_
  · intro o ho u hu
    cases o with
    | upsertUsage => cases ho
    | _ => cases hu
  · refine finish_uses ?_ c.d c.req c.timings ?_ v
    · intro sample u hu
      cases hu
    · intro outcome tokens u hu
      cases hu
      cases outcome <;> simp

abbrev Calls := Conf Call ServiceOp ServiceOp.Answer (Except Thrown (OcrOutcome JsValue)) World

def Calls.ended (calls : Calls) (tenantId : String)
    (ends : Except Thrown (OcrOutcome JsValue) → Bool) : Nat :=
  calls.threads.countP fun th =>
    th.prog.result?.any ends && decide (th.req.req.tenantId = tenantId)

theorem sum_upserts (log : List ServiceOp) (col : Column) (tenantId : String) :
    (log.map fun o => o.upsert?.elim 0 (col.addsTo tenantId)).sum =
      ((upsertsOf log).map (col.addsTo tenantId)).sum := by
  induction log with
  | nil => rfl
  | cons o log ih =>
    rw [List.map_cons, List.sum_cons, ih, upsertsOf_cons]
    cases o.upsert? <;> simp

/-- A thread has issued its upsert exactly if it has ended. -/
structure LogKept (th : Thread Call ServiceOp ServiceOp.Answer
    (Except Thrown (OcrOutcome JsValue))) : Prop where
  waiting : th.prog.result? = none → upsertsOf th.log = []
  ended : ∀ out, th.prog = .ret out → CountedOnce th.req th.log out

theorem run_logKept {deps : PipelineDeps} {w : World}
    {moves : List (Move Call Surroundings WorldEvent)} {calls : Calls}
    (hrun : (concurrently deps).run ⟨w, []⟩ moves = some calls) :
    ∀ th ∈ calls.threads, LogKept th := by
  have hlogs := Machine.run_logs (m := concurrently deps) (fun env o w => handle_accepts env o w)
    (program_traces deps) hrun
  rintro ⟨c, prog, log⟩ hmem
  have htraces := hlogs _ hmem
  cases prog with
  | ret out =>
    refine ⟨fun h => by simp at h, fun out' h => ?_⟩
    cases h
    simpa using htraces
  | ask o k =>
    refine ⟨fun _ => ?_, fun out h => by cases h⟩
    simpa using htraces.1

theorem thread_adds {th : Thread Call ServiceOp ServiceOp.Answer
      (Except Thrown (OcrOutcome JsValue))} (h : LogKept th) {col : Column}
    {ends : Except Thrown (OcrOutcome JsValue) → Bool}
    (hcol : ∀ tenantId out tokens, col.delta
      ⟨tenantId, if outcomeOf out = .error then 1 else 0, tokens⟩ = if ends out then 1 else 0)
    (tenantId : String) :
    ((upsertsOf th.log).map (col.addsTo tenantId)).sum =
      if th.prog.result?.any ends && decide (th.req.req.tenantId = tenantId) then 1 else 0 := by
  cases hres : th.prog.result? with
  | none => simp [h.waiting hres]
  | some out =>
    have hret : th.prog = .ret out := by
      cases hp : th.prog with
      | ret a => simpa [hp] using hres
      | ask o k => simp [hp] at hres
    obtain ⟨tokens, hu⟩ := (h.ended out hret).usage
    by_cases ht : th.req.req.tenantId = tenantId
    · simp [hu, Column.addsTo, hcol, ht]
    · simp [hu, Column.addsTo, ht]

theorem sum_countP {α : Type*} (p : α → Bool) (l : List α) :
    (l.map fun a => if p a then 1 else 0).sum = l.countP p := by
  induction l with
  | nil => rfl
  | cons a l ih => rw [List.map_cons, List.sum_cons, ih, List.countP_cons, Nat.add_comm]

/-- The ledger of a column that counts the calls ended in one of `ends`, after any run. -/
theorem ledger_of_run {deps : PipelineDeps} {w : World}
    {moves : List (Move Call Surroundings WorldEvent)} {calls : Calls}
    (hrun : (concurrently deps).run ⟨w, []⟩ moves = some calls) {col : Column}
    {ends : Except Thrown (OcrOutcome JsValue) → Bool}
    (hcol : ∀ tenantId out tokens, col.delta
      ⟨tenantId, if outcomeOf out = .error then 1 else 0, tokens⟩ = if ends out then 1 else 0)
    (tenantId : String) :
    calls.world.ledger col tenantId = w.ledger col tenantId + calls.ended tenantId ends := by
  have hmeasure := Machine.run_measure (m := concurrently deps)
    (fun w : World => w.ledger col tenantId) (fun o => o.upsert?.elim 0 (col.addsTo tenantId))
    (fun env o w => World.ledger_handle env o w col tenantId)
    (fun e w => by cases e with
      | drop keys => rfl
      | land i => exact w.ledger_land i col tenantId) hrun
  have hkept := run_logKept hrun
  have hthreads : calls.threads.map (fun th =>
        (th.log.map fun o => o.upsert?.elim 0 (col.addsTo tenantId)).sum) =
      calls.threads.map fun th =>
        if th.prog.result?.any ends && decide (th.req.req.tenantId = tenantId) then 1 else 0 :=
    List.map_congr_left fun th hmem => by
      rw [sum_upserts, thread_adds (hkept th hmem) hcol tenantId]
  rw [hthreads, sum_countP] at hmeasure
  exact hmeasure

theorem plausible_of_run {deps : PipelineDeps} {w : World} (hw : w.Plausible)
    {moves : List (Move Call Surroundings WorldEvent)} {calls : Calls}
    (hrun : (concurrently deps).run ⟨w, []⟩ moves = some calls) : calls.world.Plausible := by
  refine (Machine.run_keeps (m := concurrently deps) (R := fun _ => True) (L := fun _ => True)
    (K := fun _ => True) (Q := fun _ _ => True) ?_ ?_ hw ?_ hrun).1
  · intro e w _ h
    cases e with
    | drop keys => exact ⟨h.rows, h.upserts⟩
    | land i => exact h.land i
  · intro c _
    refine (program_countsOne deps c).keeps fun o ho env w _ h => ?_
    exact h.handle env o ho
  · intro mv _
    cases mv <;> exact trivial

theorem sum_samples (log : List ServiceOp) (p : MetricSample → Bool) :
    (log.map fun o => o.sample?.toList.countP p).sum = (samplesOf log).countP p := by
  induction log with
  | nil => rfl
  | cons o log ih =>
    rw [List.map_cons, List.sum_cons, ih, samplesOf_cons, List.countP_append]

theorem samples_of_run {deps : PipelineDeps} {w : World}
    {moves : List (Move Call Surroundings WorldEvent)} {calls : Calls}
    (hrun : (concurrently deps).run ⟨w, []⟩ moves = some calls) (p : MetricSample → Bool) :
    calls.world.samples.countP p =
      w.samples.countP p + (calls.threads.map fun th => (samplesOf th.log).countP p).sum := by
  have hmeasure := Machine.run_measure (m := concurrently deps)
    (fun w : World => w.samples.countP p) (fun o => o.sample?.toList.countP p)
    (fun env o w => (congrArg (List.countP p) (World.samples_handle env o w)).trans
      List.countP_append)
    (fun e w => by cases e with
      | drop keys => rfl
      | land i =>
        obtain ⟨inflight, usage, hland⟩ := w.land_eq i
        simp only [concurrently, World.happen, hland]) hrun
  simpa only [sum_samples] using hmeasure

/-- Counting is exact in every reachable state: each finished call has added one upsert,
one request sample and, if it succeeded, one observation to each histogram; nothing else
was added, and what is not yet in the table is on its way there. -/
theorem calls_counted_once (deps : PipelineDeps) {w : World} (hw : w.Plausible)
    {moves : List (Move Call Surroundings WorldEvent)} {calls : Calls}
    (hrun : (concurrently deps).run ⟨w, []⟩ moves = some calls) :
    (∀ th ∈ calls.threads, ∀ out, th.prog = .ret out → CountedOnce th.req th.log out) ∧
    (∀ tenantId, calls.world.ledger .requests tenantId =
      w.ledger .requests tenantId + calls.ended tenantId fun _ => true) ∧
    (∀ tenantId, calls.world.ledger .errors tenantId =
      w.ledger .errors tenantId + calls.ended tenantId fun out => outcomeOf out = .error) ∧
    (∀ p : MetricSample → Bool, calls.world.samples.countP p =
      w.samples.countP p + (calls.threads.map fun th => (samplesOf th.log).countP p).sum) ∧
    ∀ tenantId row, calls.world.usage tenantId = some row → row.errors ≤ row.requests := by
  refine ⟨fun th hmem out => (run_logKept hrun th hmem).ended out,
    ledger_of_run hrun fun _ _ _ => rfl, ledger_of_run hrun fun _ out _ => ?_,
    samples_of_run hrun, (plausible_of_run hw hrun).rows⟩
  cases out <;> simp [outcomeOf, Column.errors]

def Sample.goodAndBad : List (Move Call Surroundings WorldEvent) :=
  let good : Call := ⟨textExtraction Sample.body, Sample.upload [0x89] "tenant", Sample.timings⟩
  let bad : Call := ⟨textExtraction Sample.body, Sample.upload [] "tenant", Sample.timings⟩
  let up := Sample.surroundings []
  [.spawn good, .step 0 up, .spawn bad, .step 1 up, .step 0 up, .step 0 up, .step 1 up,
    .env (.land 0), .step 0 up, .step 0 up, .step 0 up, .step 0 up, .step 0 up, .env (.land 0)]

theorem calls_counted_once_pair :
    ∃ calls, (concurrently Sample.deps).run ⟨{}, []⟩ Sample.goodAndBad = some calls ∧
      calls.threads.map (fun th => th.prog.result?.isSome) = [true, true] ∧
      (∀ th ∈ calls.threads, ∀ out, th.prog = .ret out → CountedOnce th.req th.log out) ∧
      calls.world.ledger .requests "tenant" = 2 ∧ calls.world.ledger .errors "tenant" = 1 := by
  refine ⟨_, rfl, rfl, ?_⟩
  have hcounted := calls_counted_once Sample.deps World.Plausible.empty
    (rfl : (concurrently Sample.deps).run ⟨{}, []⟩ Sample.goodAndBad = some _)
  exact ⟨hcounted.1, hcounted.2.1 "tenant", hcounted.2.2.1 "tenant"⟩

end OcrService
