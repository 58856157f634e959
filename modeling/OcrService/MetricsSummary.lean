import OcrService.Accounting
import OcrService.Counting.Tally
import OcrService.Sorting.Stable
import Mathlib.Algebra.Order.Field.Rat
import Mathlib.Tactic.Positivity

/-! The registry's counters and their summary for the admin console
(`observability/metrics.ts`). -/
namespace OcrService
open Counting Sorting

/-- A counter of the registry: one the pipeline counts in, or one of `recordConfidence`. -/
inductive CounterSeries where
  | of (counter : CounterName)
  | confidenceObservationsTotal
  | lowConfidenceTotal
  deriving DecidableEq

structure Increment where
  series : CounterSeries
  labels : Labels
  value : Nat

def MetricSample.increments : MetricSample → List Increment
  | .inc counter labels value => [⟨.of counter, labels, value⟩]
  | .observe _ _ _ => []

def recordConfidence (fn : OcrFunctionKey) (low : Bool) : List Increment :=
  ⟨.confidenceObservationsTotal, [("function", fn.name)], 1⟩ ::
    if low then [⟨.lowConfidenceTotal, [("function", fn.name)], 1⟩] else []

inductive MetricsCall where
  | recordRequest (m : RequestMetrics)
  | incrementFallback (primary answered : String)
  | recordConfidence (fn : OcrFunctionKey) (low : Bool)

def MetricsCall.increments : MetricsCall → List Increment
  | .recordRequest m => m.samples.flatMap MetricSample.increments
  | .incrementFallback primary answered => (fallbackSample primary answered).increments
  | .recordConfidence fn low => OcrService.recordConfidence fn low

/-- Each counter has one sample for each set of labels it was incremented with. -/
abbrev Registry := CounterSeries → Tally Labels

def Registry.inc (r : Registry) (i : Increment) : Registry := fun name =>
  if i.series = name then (r name).inc i.labels i.value else r name

def registry (l : List Increment) : Registry := l.foldl Registry.inc fun _ => .empty

structure FunctionSummary where
  function : String
  requests : Nat
  errors : Nat
  tokens : Nat
  lowConfidenceRatio : ℚ
  deriving DecidableEq

structure MetricsSummary where
  totalRequests : Nat
  errorRequests : Nat
  errorRate : ℚ
  totalTokens : Nat
  providerFallbacks : Nat
  byFunction : List FunctionSummary
  deriving DecidableEq

def sumValues (r : Registry) (name : CounterSeries) (pred : Labels → Bool := fun _ => true) : Nat :=
  (r name).entries.foldl (fun acc s => if pred s.1 then acc + s.2 else acc) 0

def label (name : String) (labels : Labels) : Option String := labels.lookup name

def hasFunction (fn : String) (labels : Labels) : Bool := label "function" labels = some fn

def hasError (labels : Labels) : Bool := label "outcome" labels = some "error"

def ratio (n d : Nat) : ℚ := if d = 0 then 0 else n / d

def functions (r : Registry) : List String :=
  ([.of .requestsTotal, .of .tokensUsedTotal, .confidenceObservationsTotal].flatMap fun name =>
    (r name).keys.filterMap fun labels => (label "function" labels).filter (· ≠ "")).eraseDups

def functionSummary (r : Registry) (fn : String) : FunctionSummary where
  function := fn
  requests := sumValues r (.of .requestsTotal) (hasFunction fn)
  errors := sumValues r (.of .requestsTotal) fun l => hasFunction fn l && hasError l
  tokens := sumValues r (.of .tokensUsedTotal) (hasFunction fn)
  lowConfidenceRatio := ratio (sumValues r .lowConfidenceTotal (hasFunction fn))
    (sumValues r .confidenceObservationsTotal (hasFunction fn))

def mostRequestsFirst (rows : List FunctionSummary) : List FunctionSummary :=
  stableSort (fun row => OrderDual.toDual row.requests) rows

def getMetricsSummary (r : Registry) : MetricsSummary :=
  let totalRequests := sumValues r (.of .requestsTotal)
  let errorRequests := sumValues r (.of .requestsTotal) hasError
  { totalRequests, errorRequests
    errorRate := ratio errorRequests totalRequests
    totalTokens := sumValues r (.of .tokensUsedTotal)
    providerFallbacks := sumValues r (.of .providerFallbackTotal)
    byFunction := mostRequestsFirst ((functions r).map (functionSummary r)) }

def amountOf (name : CounterSeries) (p : Labels → Bool) (l : List Increment) : Nat :=
  (l.map fun i => if i.series = name && p i.labels then i.value else 0).sum

@[simp] theorem amountOf_append (name : CounterSeries) (p : Labels → Bool)
    (l l' : List Increment) :
    amountOf name p (l ++ l') = amountOf name p l + amountOf name p l' := by
  simp [amountOf]

theorem amountOf_flatMap {α : Type*} (name : CounterSeries) (p : Labels → Bool)
    (f : α → List Increment) (l : List α) :
    amountOf name p (l.flatMap f) = (l.map fun a => amountOf name p (f a)).sum := by
  induction l with
  | nil => rfl
  | cons a l ih => rw [List.flatMap_cons, amountOf_append, ih, List.map_cons, List.sum_cons]

theorem sumValues_eq_total (r : Registry) (name : CounterSeries) (p : Labels → Bool) :
    sumValues r name p = (r name).total p := by
  have hfold : ∀ (entries : List (Labels × Nat)) (acc : Nat),
      entries.foldl (fun acc s => if p s.1 then acc + s.2 else acc) acc =
        acc + (entries.map fun e => if p e.1 then e.2 else 0).sum := by
    intro entries
    induction entries with
    | nil => simp
    | cons e entries ih =>
      intro acc
      rw [List.foldl_cons, ih, List.map_cons, List.sum_cons]
      by_cases hp : p e.1 = true <;> simp [hp, Nat.add_assoc]
  rw [sumValues, hfold, Nat.zero_add, Tally.total]

theorem total_inc (r : Registry) (i : Increment) (name : CounterSeries) (p : Labels → Bool) :
    (r.inc i name).total p = (r name).total p + amountOf name p [i] := by
  by_cases hname : i.series = name
  · rw [Registry.inc, if_pos hname, Tally.total_inc]
    simp [amountOf, hname]
  · rw [Registry.inc, if_neg hname]
    simp [amountOf, hname]

theorem mem_keys_inc (r : Registry) (i : Increment) (name : CounterSeries) {k : Labels} :
    k ∈ (r.inc i name).keys ↔ k ∈ (r name).keys ∨ i.series = name ∧ i.labels = k := by
  by_cases hname : i.series = name
  · rw [Registry.inc, if_pos hname, Tally.mem_keys_inc, or_comm]
    simp [hname, eq_comm]
  · rw [Registry.inc, if_neg hname]
    simp [hname]

theorem sumValues_registry (l : List Increment) (name : CounterSeries) (p : Labels → Bool) :
    sumValues (registry l) name p = amountOf name p l := by
  have hfold : ∀ r : Registry,
      (l.foldl Registry.inc r name).total p = (r name).total p + amountOf name p l := by
    induction l with
    | nil => exact fun _ => rfl
    | cons i l ih =>
      intro r
      rw [List.foldl_cons, ih, total_inc, Nat.add_assoc, ← amountOf_append]
      rfl
  rw [sumValues_eq_total, registry, hfold, Tally.total_empty, Nat.zero_add]

theorem mem_keys_registry (l : List Increment) (name : CounterSeries) {k : Labels} :
    k ∈ (registry l name).keys ↔ ∃ i ∈ l, i.series = name ∧ i.labels = k := by
  have hfold : ∀ r : Registry, k ∈ (l.foldl Registry.inc r name).keys ↔
      k ∈ (r name).keys ∨ ∃ i ∈ l, i.series = name ∧ i.labels = k := by
    induction l with
    | nil => simp
    | cons i l ih =>
      intro r
      rw [List.foldl_cons, ih, mem_keys_inc, or_assoc]
      simp
  rw [registry, hfold]
  simp

/-- A summary that does not contradict itself. -/
structure MetricsSummary.Coherent (s : MetricsSummary) : Prop where
  functions : (s.byFunction.map FunctionSummary.function).Nodup
  sorted : s.byFunction.Pairwise fun a b => b.requests ≤ a.requests
  requests : (s.byFunction.map FunctionSummary.requests).sum = s.totalRequests
  errors : (s.byFunction.map FunctionSummary.errors).sum = s.errorRequests
  tokens : (s.byFunction.map FunctionSummary.tokens).sum = s.totalTokens
  rows : ∀ row ∈ s.byFunction, row.errors ≤ row.requests ∧
    0 ≤ row.lowConfidenceRatio ∧ row.lowConfidenceRatio ≤ 1
  errorRate : 0 ≤ s.errorRate ∧ s.errorRate ≤ 1

/-- The increments of the counters that are summed by function carry one, and each low
confidence is an observation. -/
structure ByFunction (l : List Increment) : Prop where
  labelled : ∀ i ∈ l, i.series ≠ .of .providerFallbackTotal →
    ∃ fn : OcrFunctionKey, label "function" i.labels = some fn.name
  low : ∀ p, amountOf .lowConfidenceTotal p l ≤ amountOf .confidenceObservationsTotal p l

theorem OcrFunctionKey.name_ne (fn : OcrFunctionKey) : fn.name ≠ "" := by
  cases fn <;> decide

theorem OcrFunctionKey.name_injective : Function.Injective OcrFunctionKey.name := by
  intro a b h
  cases a <;> cases b <;> first | rfl | exact absurd h (by decide)

theorem ratio_bounds {n d : Nat} (h : n ≤ d) : 0 ≤ ratio n d ∧ ratio n d ≤ 1 := by
  by_cases hd : d = 0
  · simp [ratio, hd]
  · have hpos : (0 : ℚ) < d := by exact_mod_cast Nat.pos_of_ne_zero hd
    have hle : (n : ℚ) ≤ d := by exact_mod_cast h
    rw [ratio, if_neg hd]
    exact ⟨by positivity, (div_le_one hpos).mpr hle⟩

def listed (name : CounterSeries) : Prop :=
  name = .of .requestsTotal ∨ name = .of .tokensUsedTotal ∨ name = .confidenceObservationsTotal

theorem mem_functions {r : Registry} {fn : String} :
    fn ∈ functions r ↔ fn ≠ "" ∧ ∃ name, listed name ∧
      ∃ labels ∈ (r name).keys, label "function" labels = some fn := by
  rw [functions, List.mem_eraseDups, List.mem_flatMap]
  constructor
  · rintro ⟨name, hname, hfn⟩
    obtain ⟨labels, hlabels, hfn⟩ := List.mem_filterMap.mp hfn
    obtain ⟨hlabel, hne⟩ := Option.filter_eq_some_iff.mp hfn
    exact ⟨by simpa using hne, name, by simpa [listed] using hname, labels, hlabels, hlabel⟩
  · rintro ⟨hne, name, hname, labels, hlabels, hlabel⟩
    refine ⟨name, by simpa [listed] using hname, List.mem_filterMap.mpr ⟨labels, hlabels, ?_⟩⟩
    simp [hlabel, hne]

section
variable {l : List Increment} (hl : ByFunction l)
include hl

theorem ByFunction.mem {name : CounterSeries} (hname : listed name) {labels : Labels}
    (hlabels : labels ∈ (registry l name).keys) :
    label "function" labels ∈ (functions (registry l)).map some := by
  obtain ⟨i, hi, hseries, rfl⟩ := (mem_keys_registry l name).mp hlabels
  have hne : i.series ≠ .of .providerFallbackTotal := by
    rw [hseries]
    rintro rfl
    simp [listed] at hname
  obtain ⟨fn, hfn⟩ := hl.labelled i hi hne
  rw [hfn, List.mem_map]
  exact ⟨fn.name, mem_functions.mpr ⟨fn.name_ne, name, hname, _, hlabels, hfn⟩, rfl⟩

theorem ByFunction.sum {name : CounterSeries} (hname : listed name) (p : Labels → Bool) :
    ((functions (registry l)).map fun fn =>
      sumValues (registry l) name fun labels => hasFunction fn labels && p labels).sum =
        sumValues (registry l) name p := by
  have hnodup : ((functions (registry l)).map some).Nodup :=
    (nodup_eraseDups _).map (Option.some_injective _)
  have hgroups := Tally.total_groups (registry l name) p (label "function") hnodup
    fun k hk => hl.mem hname hk
  rw [List.map_map] at hgroups
  rw [sumValues_eq_total, ← hgroups]
  refine congrArg List.sum (List.map_congr_left fun fn _ => ?_)
  rw [sumValues_eq_total]
  exact congrArg _ (funext fun labels => Bool.and_comm _ _)

theorem ByFunction.coherent : (getMetricsSummary (registry l)).Coherent := by
  have hperm := stableSort_perm (fun row : FunctionSummary => OrderDual.toDual row.requests)
    ((functions (registry l)).map (functionSummary (registry l)))
  have hsum : ∀ f : FunctionSummary → Nat, ((getMetricsSummary (registry l)).byFunction.map f).sum =
      ((functions (registry l)).map fun fn => f (functionSummary (registry l) fn)).sum := by
    intro f
    have hmap := (hperm.map f).sum_eq
    rw [List.map_map] at hmap
    exact hmap
  have hwhole : ∀ {name}, listed name → ((functions (registry l)).map fun fn =>
      sumValues (registry l) name (hasFunction fn)).sum = sumValues (registry l) name := by
    intro name hname
    have hall := hl.sum hname fun _ => true
    simp only [Bool.and_true] at hall
    exact hall
  have hlow : ∀ p, sumValues (registry l) .lowConfidenceTotal p ≤
      sumValues (registry l) .confidenceObservationsTotal p := by
    intro p
    rw [sumValues_registry, sumValues_registry]
    exact hl.low p
  refine ⟨?_, ?_, ?_, ?_, ?_, ?_, ?_⟩
  · have hnames := hperm.map FunctionSummary.function
    rw [List.map_map] at hnames
    refine hnames.nodup_iff.mpr ?_
    have hid : (functions (registry l)).map
        (FunctionSummary.function ∘ functionSummary (registry l)) = functions (registry l) :=
      List.map_id _
    rw [hid]
    exact nodup_eraseDups _
  · exact List.pairwise_insertionSort _ _
  · exact (hsum _).trans (hwhole (.inl rfl))
  · exact (hsum _).trans (hl.sum (.inl rfl) hasError)
  · exact (hsum _).trans (hwhole (.inr (.inl rfl)))
  · intro row hrow
    obtain ⟨fn, -, rfl⟩ := List.mem_map.mp (mem_stableSort.mp hrow)
    refine ⟨?_, ratio_bounds (hlow _)⟩
    simp only [functionSummary, sumValues_eq_total]
    exact Tally.total_mono _ fun k hk => (Bool.and_eq_true_iff.mp hk).1
  · refine ratio_bounds ?_
    rw [sumValues_eq_total, sumValues_eq_total]
    exact Tally.total_mono _ fun _ _ => rfl

end

def RequestMetrics.requestLabels (m : RequestMetrics) : Labels :=
  [("function", m.function.name), ("provider", m.provider), ("mime_group", m.mimeGroup),
    ("cached", toString m.cached), ("outcome", m.outcome.name)]

def RequestMetrics.tokenLabels (m : RequestMetrics) : Labels :=
  [("function", m.function.name), ("provider", m.provider)]

theorem amountOf_incIfTruthy (name : CounterSeries) (p : Labels → Bool) (counter : CounterName)
    (labels : Labels) (n : Option Nat) :
    amountOf name p ((incIfTruthy counter labels n).flatMap MetricSample.increments) =
      if .of counter = name && p labels then n.getD 0 else 0 := by
  match n with
  | none | some 0 => simp [incIfTruthy, amountOf]
  | some (k + 1) => simp [incIfTruthy, amountOf, MetricSample.increments]

theorem amountOf_samples (name : CounterSeries) (p : Labels → Bool) (m : RequestMetrics) :
    amountOf name p (m.samples.flatMap MetricSample.increments) =
      (if .of .requestsTotal = name && p m.requestLabels then 1 else 0) +
        (if .of .tokensUsedTotal = name && p m.tokenLabels then m.tokensUsed.getD 0 else 0) +
        if .of .estimatedCostNgnTotal = name && p [("function", m.function.name)] then
          m.estimatedCostNgn.getD 0 else 0 := by
  have hobserved : amountOf name p ((if m.outcome = .success then
      [MetricSample.observe .extractDurationMs m.tokenLabels m.extractMs,
        .observe .interpretDurationMs [("function", m.function.name)] m.interpretMs,
        .observe .pageCount [("function", m.function.name)] m.pageCount]
      else []).flatMap MetricSample.increments) = 0 := by
    by_cases hs : m.outcome = .success
    · rw [if_pos hs]
      rfl
    · rw [if_neg hs]
      rfl
  have hcons : m.samples.flatMap MetricSample.increments =
      [⟨.of .requestsTotal, m.requestLabels, 1⟩] ++ (((if m.outcome = .success then
      [MetricSample.observe .extractDurationMs m.tokenLabels m.extractMs,
        .observe .interpretDurationMs [("function", m.function.name)] m.interpretMs,
        .observe .pageCount [("function", m.function.name)] m.pageCount]
      else []) ++ incIfTruthy .tokensUsedTotal m.tokenLabels m.tokensUsed ++
      incIfTruthy .estimatedCostNgnTotal [("function", m.function.name)]
        m.estimatedCostNgn).flatMap MetricSample.increments) := rfl
  rw [hcons, List.flatMap_append, List.flatMap_append, amountOf_append, amountOf_append,
    amountOf_append, hobserved, amountOf_incIfTruthy, amountOf_incIfTruthy, Nat.zero_add,
    ← Nat.add_assoc]
  simp [amountOf]

theorem labels_of_mem {m : RequestMetrics} {counter : CounterName} {labels : Labels} {value : Nat}
    (h : .inc counter labels value ∈ m.samples) :
    ∃ rest, labels = ("function", m.function.name) :: rest := by
  have htruthy : ∀ (counter' : CounterName) (labels' : Labels) (n : Option Nat),
      MetricSample.inc counter labels value ∈ incIfTruthy counter' labels' n →
        labels = labels' := by
    intro counter' labels' n hmem
    match n with
    | none | some 0 => cases hmem
    | some (k + 1) =>
      have heq := List.mem_singleton.mp hmem
      cases heq
      rfl
  rw [RequestMetrics.samples, List.mem_cons, List.mem_append, List.mem_append] at h
  obtain h | (h | h) | h := h
  · cases h
    exact ⟨_, rfl⟩
  · by_cases hs : m.outcome = .success <;> simp [hs] at h
  · exact ⟨_, htruthy _ _ _ h⟩
  · exact ⟨_, htruthy _ _ _ h⟩

theorem hasFunction_iff (fn g : OcrFunctionKey) (labels : Labels) :
    hasFunction fn.name (("function", g.name) :: labels) = decide (g = fn) := by
  simp [hasFunction, label, OcrFunctionKey.name_injective.eq_iff]

theorem hasError_requestLabels (m : RequestMetrics) :
    hasError m.requestLabels = decide (m.outcome = .error) := by
  have hlabel : label "outcome" m.requestLabels = some m.outcome.name := rfl
  rw [hasError, hlabel]
  cases m.outcome <;> decide

namespace MetricsCall

def isRequest (q : RequestMetrics → Bool) : MetricsCall → Bool
  | .recordRequest m => q m
  | _ => false

def isConfidence (q : OcrFunctionKey → Bool → Bool) : MetricsCall → Bool
  | .recordConfidence fn low => q fn low
  | _ => false

def isFallback : MetricsCall → Bool
  | .incrementFallback _ _ => true
  | _ => false

def tokens (q : RequestMetrics → Bool) : MetricsCall → Nat
  | .recordRequest m => if q m then m.tokensUsed.getD 0 else 0
  | _ => 0

def function? : MetricsCall → Option OcrFunctionKey
  | .recordRequest m => some m.function
  | .recordConfidence fn _ => some fn
  | .incrementFallback _ _ => none

end MetricsCall

section
variable (p : Labels → Bool)

theorem amountOf_requests (c : MetricsCall) : amountOf (.of .requestsTotal) p c.increments =
    if c.isRequest fun m => p m.requestLabels then 1 else 0 := by
  cases c with
  | recordRequest m =>
    by_cases hp : p m.requestLabels = true <;>
      simp [MetricsCall.increments, MetricsCall.isRequest, amountOf_samples, hp]
  | incrementFallback primary answered => rfl
  | recordConfidence fn low => cases low <;> rfl

theorem amountOf_tokens (c : MetricsCall) : amountOf (.of .tokensUsedTotal) p c.increments =
    c.tokens fun m => p m.tokenLabels := by
  cases c with
  | recordRequest m => simp [MetricsCall.increments, MetricsCall.tokens, amountOf_samples]
  | incrementFallback primary answered => rfl
  | recordConfidence fn low => cases low <;> rfl

theorem amountOf_fallbacks (c : MetricsCall) :
    amountOf (.of .providerFallbackTotal) (fun _ => true) c.increments =
      if c.isFallback then 1 else 0 := by
  cases c with
  | recordRequest m => simp [MetricsCall.increments, MetricsCall.isFallback, amountOf_samples]
  | incrementFallback primary answered => rfl
  | recordConfidence fn low => cases low <;> rfl

theorem amountOf_observations (c : MetricsCall) :
    amountOf .confidenceObservationsTotal p c.increments =
      if c.isConfidence fun fn _ => p [("function", fn.name)] then 1 else 0 := by
  cases c with
  | recordRequest m => simp [MetricsCall.increments, MetricsCall.isConfidence, amountOf_samples]
  | incrementFallback primary answered => rfl
  | recordConfidence fn low =>
    by_cases hp : p [("function", fn.name)] = true <;> cases low <;>
      simp [MetricsCall.increments, recordConfidence, amountOf, MetricsCall.isConfidence, hp]

theorem amountOf_low (c : MetricsCall) :
    amountOf .lowConfidenceTotal p c.increments =
      if c.isConfidence fun fn low => low && p [("function", fn.name)] then 1 else 0 := by
  cases c with
  | recordRequest m => simp [MetricsCall.increments, MetricsCall.isConfidence, amountOf_samples]
  | incrementFallback primary answered => rfl
  | recordConfidence fn low =>
    cases low <;>
      simp [MetricsCall.increments, recordConfidence, amountOf, MetricsCall.isConfidence]

theorem amountOf_calls {name : CounterSeries} {q : MetricsCall → Bool}
    (h : ∀ c : MetricsCall, amountOf name p c.increments = if q c then 1 else 0)
    (calls : List MetricsCall) :
    amountOf name p (calls.flatMap MetricsCall.increments) = calls.countP q := by
  rw [amountOf_flatMap, List.map_congr_left fun c _ => h c, sum_countP]

end

theorem label_of_increment {c : MetricsCall} {i : Increment} (hi : i ∈ c.increments)
    (hne : i.series ≠ .of .providerFallbackTotal) :
    ∃ fn, c.function? = some fn ∧ label "function" i.labels = some fn.name := by
  cases c with
  | incrementFallback primary answered =>
    rw [List.mem_singleton.mp hi] at hne
    exact absurd rfl hne
  | recordConfidence fn low =>
    refine ⟨fn, rfl, ?_⟩
    obtain rfl | hlow := List.mem_cons.mp hi
    · rfl
    · cases low with
      | false => cases hlow
      | true =>
        rw [List.mem_singleton.mp hlow]
        rfl
  | recordRequest m =>
    refine ⟨m.function, rfl, ?_⟩
    obtain ⟨sample, hsample, hi⟩ := List.mem_flatMap.mp hi
    cases sample with
    | observe histogram labels value => cases hi
    | inc counter labels value =>
      rw [List.mem_singleton.mp hi]
      obtain ⟨rest, rfl⟩ := labels_of_mem hsample
      rfl

theorem byFunction_calls (calls : List MetricsCall) :
    ByFunction (calls.flatMap MetricsCall.increments) where
  labelled i hi hne := by
    obtain ⟨c, -, hi⟩ := List.mem_flatMap.mp hi
    obtain ⟨fn, -, hlabel⟩ := label_of_increment hi hne
    exact ⟨fn, hlabel⟩
  low p := by
    rw [amountOf_calls p (amountOf_low p), amountOf_calls p (amountOf_observations p)]
    refine List.countP_mono_left fun c _ hc => ?_
    cases c with
    | recordConfidence fn low => exact (Bool.and_eq_true_iff.mp hc).2
    | recordRequest m => cases hc
    | incrementFallback primary answered => cases hc

structure FunctionSummary.Tells (row : FunctionSummary) (calls : List MetricsCall)
    (fn : OcrFunctionKey) : Prop where
  function : row.function = fn.name
  requests : row.requests = calls.countP (MetricsCall.isRequest fun m => m.function = fn)
  errors : row.errors = calls.countP (MetricsCall.isRequest fun m =>
    m.function = fn && m.outcome = .error)
  tokens : row.tokens = (calls.map (MetricsCall.tokens fun m => m.function = fn)).sum
  confidence : row.lowConfidenceRatio =
    ratio (calls.countP (MetricsCall.isConfidence fun g low => low && g = fn))
      (calls.countP (MetricsCall.isConfidence fun g _ => g = fn))

section
variable (calls : List MetricsCall)

theorem sumValues_requests (p : Labels → Bool) :
    sumValues (registry (calls.flatMap MetricsCall.increments)) (.of .requestsTotal) p =
      calls.countP (MetricsCall.isRequest fun m => p m.requestLabels) := by
  rw [sumValues_registry, amountOf_calls p (amountOf_requests p)]

theorem sumValues_tokens (p : Labels → Bool) :
    sumValues (registry (calls.flatMap MetricsCall.increments)) (.of .tokensUsedTotal) p =
      (calls.map (MetricsCall.tokens fun m => p m.tokenLabels)).sum := by
  rw [sumValues_registry, amountOf_flatMap]
  exact congrArg List.sum (List.map_congr_left fun c _ => amountOf_tokens p c)

theorem functionSummary_tells (fn : OcrFunctionKey) :
    (functionSummary (registry (calls.flatMap MetricsCall.increments)) fn.name).Tells calls fn := by
  have hrequest : ∀ m : RequestMetrics,
      hasFunction fn.name m.requestLabels = decide (m.function = fn) :=
    fun m => hasFunction_iff fn m.function _
  have htokens : ∀ m : RequestMetrics,
      hasFunction fn.name m.tokenLabels = decide (m.function = fn) :=
    fun m => hasFunction_iff fn m.function _
  have hconfidence : ∀ g : OcrFunctionKey,
      hasFunction fn.name [("function", g.name)] = decide (g = fn) :=
    fun g => hasFunction_iff fn g []
  refine ⟨rfl, ?_, ?_, ?_, ?_⟩
  · simp only [functionSummary, sumValues_requests, hrequest]
  · simp only [functionSummary, sumValues_requests, hrequest, hasError_requestLabels]
  · simp only [functionSummary, sumValues_tokens, htokens]
  · simp only [functionSummary, sumValues_registry]
    rw [amountOf_calls _ (amountOf_low _), amountOf_calls _ (amountOf_observations _)]
    simp only [hconfidence]

/-- A function is listed if a call is counted under it, and under no other circumstances. -/
theorem mem_functions_calls {name : String} :
    name ∈ functions (registry (calls.flatMap MetricsCall.increments)) ↔
      ∃ fn, name = fn.name ∧ ∃ c ∈ calls, c.function? = some fn := by
  rw [mem_functions]
  constructor
  · rintro ⟨-, series, hlisted, labels, hlabels, hname⟩
    obtain ⟨i, hi, rfl, rfl⟩ := (mem_keys_registry _ series).mp hlabels
    obtain ⟨c, hc, hi⟩ := List.mem_flatMap.mp hi
    have hne : i.series ≠ .of .providerFallbackTotal := by
      intro hseries
      rw [hseries] at hlisted
      simp [listed] at hlisted
    obtain ⟨fn, hfn, hlabel⟩ := label_of_increment hi hne
    exact ⟨fn, Option.some.inj (hname.symm.trans hlabel), c, hc, hfn⟩
  · rintro ⟨fn, rfl, c, hc, hfn⟩
    refine ⟨fn.name_ne, ?_⟩
    cases c with
    | incrementFallback primary answered => cases hfn
    | recordConfidence g low =>
      cases hfn
      refine ⟨.confidenceObservationsTotal, by simp [listed], _,
        (mem_keys_registry _ _).mpr ⟨_, List.mem_flatMap.mpr ⟨_, hc, List.mem_cons_self⟩, rfl, rfl⟩,
        rfl⟩
    | recordRequest m =>
      cases hfn
      have hsample : MetricSample.inc .requestsTotal m.requestLabels 1 ∈ m.samples :=
        List.mem_cons_self
      refine ⟨.of .requestsTotal, by simp [listed], m.requestLabels,
        (mem_keys_registry _ _).mpr ⟨⟨.of .requestsTotal, m.requestLabels, 1⟩, ?_, rfl, rfl⟩, rfl⟩
      exact List.mem_flatMap.mpr ⟨_, hc, List.mem_flatMap.mpr ⟨_, hsample, List.mem_cons_self⟩⟩

end

/-- Whatever calls the sinks have taken, in whatever order: the summary's totals are exact and
its rows add up to them, it has one row for each function some call was about and no other,
each row is exact for its function, and the rows come most requests first. -/
theorem metricsSummary_exact (calls : List MetricsCall) :
    let s := getMetricsSummary (registry (calls.flatMap MetricsCall.increments))
    s.Coherent ∧ s.totalRequests = calls.countP (MetricsCall.isRequest fun _ => true) ∧
      s.errorRequests = calls.countP (MetricsCall.isRequest fun m => m.outcome = .error) ∧
      s.totalTokens = (calls.map (MetricsCall.tokens fun _ => true)).sum ∧
      s.providerFallbacks = calls.countP MetricsCall.isFallback ∧
      (∀ row ∈ s.byFunction, ∃ fn, row.Tells calls fn) ∧
      ∀ fn, (∃ row ∈ s.byFunction, row.Tells calls fn) ↔ ∃ c ∈ calls, c.function? = some fn := by
  have hrow : ∀ row, row ∈ (getMetricsSummary (registry
      (calls.flatMap MetricsCall.increments))).byFunction ↔ ∃ fn : OcrFunctionKey,
        (∃ c ∈ calls, c.function? = some fn) ∧ functionSummary (registry
          (calls.flatMap MetricsCall.increments)) fn.name = row := by
    intro row
    simp only [getMetricsSummary, mostRequestsFirst, mem_stableSort, List.mem_map,
      mem_functions_calls]
    constructor
    · rintro ⟨name, ⟨fn, rfl, hc⟩, hrow⟩
      exact ⟨fn, hc, hrow⟩
    · rintro ⟨fn, hc, hrow⟩
      exact ⟨_, ⟨fn, rfl, hc⟩, hrow⟩
  refine ⟨(byFunction_calls calls).coherent, sumValues_requests calls fun _ => true, ?_,
    sumValues_tokens calls fun _ => true, ?_, ?_, ?_⟩
  · have herrors := sumValues_requests calls hasError
    simp only [hasError_requestLabels] at herrors
    exact herrors
  · exact (sumValues_registry _ _ _).trans (amountOf_calls _ amountOf_fallbacks calls)
  · intro row hmem
    obtain ⟨fn, -, rfl⟩ := (hrow row).mp hmem
    exact ⟨fn, functionSummary_tells calls fn⟩
  · intro fn
    constructor
    · rintro ⟨row, hmem, htells⟩
      obtain ⟨g, hc, rfl⟩ := (hrow row).mp hmem
      have hfn : g = fn := OcrFunctionKey.name_injective htells.function
      exact hfn ▸ hc
    · intro hc
      exact ⟨_, (hrow _).mpr ⟨fn, hc, rfl⟩, functionSummary_tells calls fn⟩

end OcrService
