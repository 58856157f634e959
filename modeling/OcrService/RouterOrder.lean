import Mathlib.Data.List.Nodup
import Mathlib.Data.List.Perm.Basic
import OcrService.Router

/-! The chain the router assembles (`providers/router.ts`): first what the preference order
names, then a sweep over the registry. -/
namespace OcrService

section Chain
variable {registry : List OcrProvider} {input : RouteInput}

def serves (input : RouteInput) (p : OcrProvider) : Bool :=
  providerSatisfies p input.group input.required

theorem byName_eq_some (hnames : (registry.map OcrProvider.name).Nodup) {name : String}
    {p : OcrProvider} : byName registry name = some p ↔ p ∈ registry ∧ p.name = name := by
  constructor
  · intro h
    exact ⟨byName_mem h, byName_name h⟩
  · intro h
    obtain ⟨hp, rfl⟩ := h
    cases hfind : byName registry p.name with
    | none =>
      have hnone := List.find?_eq_none.mp hfind p (List.mem_reverse.mpr hp)
      simp at hnone
    | some q =>
      have hq := List.inj_on_of_nodup_map hnames (byName_mem hfind) hp (byName_name hfind)
      rw [hq]

/-- The providers found under `names`, in the order of the first mention of each. -/
structure NamedBy (registry : List OcrProvider) (input : RouteInput) (names : List String)
    (chain : List OcrProvider) : Prop where
  mem : ∀ p, p ∈ chain ↔ p ∈ registry ∧ serves input p = true ∧ p.name ∈ names
  order : chain.Pairwise fun p q => names.idxOf p.name < names.idxOf q.name

theorem NamedBy.mentioned {names : List String} {chain : List OcrProvider}
    (h : NamedBy registry input names chain) {name : String}
    (hno : ∀ p ∈ registry, serves input p = true → p.name = name → p ∈ chain) :
    NamedBy registry input (names ++ [name]) chain := by
  constructor
  · intro p
    rw [h.mem, List.mem_append, List.mem_singleton]
    constructor
    · intro hp
      exact ⟨hp.1, hp.2.1, Or.inl hp.2.2⟩
    · intro hp
      obtain ⟨hreg, hserves, hname | hname⟩ := hp
      · exact ⟨hreg, hserves, hname⟩
      · exact (h.mem p).mp (hno p hreg hserves hname)
  · refine h.order.imp_of_mem fun hp hq hlt => ?_
    have hpmem := ((h.mem _).mp hp).2.2
    have hqmem := ((h.mem _).mp hq).2.2
    rwa [List.idxOf_append_of_mem hpmem, List.idxOf_append_of_mem hqmem]

theorem NamedBy.pushed (hnames : (registry.map OcrProvider.name).Nodup) {names : List String}
    {chain : List OcrProvider} (h : NamedBy registry input names chain) {p : OcrProvider}
    (hp : p ∈ registry) (hserves : serves input p = true) (hnew : p.name ∉ names) :
    NamedBy registry input (names ++ [p.name]) (chain ++ [p]) := by
  have hmem : ∀ q ∈ chain, q.name ∈ names := fun q hq => ((h.mem q).mp hq).2.2
  constructor
  · intro q
    rw [List.mem_append, List.mem_singleton, h.mem, List.mem_append, List.mem_singleton]
    constructor
    · intro hq
      obtain ⟨hreg, hs, hname⟩ | rfl := hq
      · exact ⟨hreg, hs, Or.inl hname⟩
      · exact ⟨hp, hserves, Or.inr rfl⟩
    · intro hq
      obtain ⟨hreg, hs, hname | hname⟩ := hq
      · exact Or.inl ⟨hreg, hs, hname⟩
      · exact Or.inr (List.inj_on_of_nodup_map hnames hreg hp hname)
  · rw [List.pairwise_append]
    refine ⟨?_, List.pairwise_singleton _ _, ?_⟩
    · refine h.order.imp_of_mem fun hq hr hlt => ?_
      rwa [List.idxOf_append_of_mem (hmem _ hq), List.idxOf_append_of_mem (hmem _ hr)]
    · intro q hq r hr
      obtain rfl := List.mem_singleton.mp hr
      rw [List.idxOf_append_of_mem (hmem q hq), List.idxOf_append_of_notMem hnew]
      have := List.idxOf_lt_length_of_mem (hmem q hq)
      omega

theorem push_some_neg {ordered : List OcrProvider} {p : OcrProvider}
    (h : ¬(serves input p = true ∧ p.name ∉ ordered.map OcrProvider.name)) :
    push input ordered (some p) = ordered := if_neg h

theorem push_some_pos {ordered : List OcrProvider} {p : OcrProvider}
    (hserves : serves input p = true) (hnew : p.name ∉ ordered.map OcrProvider.name) :
    push input ordered (some p) = ordered ++ [p] := if_pos ⟨hserves, hnew⟩

theorem NamedBy.push (hnames : (registry.map OcrProvider.name).Nodup) {names : List String}
    {chain : List OcrProvider} (h : NamedBy registry input names chain) (name : String) :
    NamedBy registry input (names ++ [name]) (push input chain (byName registry name)) := by
  cases hfind : byName registry name with
  | none =>
    refine h.mentioned fun p hp _ hname => ?_
    rw [(byName_eq_some hnames).mpr ⟨hp, hname⟩] at hfind
    cases hfind
  | some p =>
    obtain ⟨hp, rfl⟩ := (byName_eq_some hnames).mp hfind
    have hsame : ∀ q ∈ registry, q.name = p.name → q = p := fun q hq hname =>
      List.inj_on_of_nodup_map hnames hq hp hname
    by_cases hserves : serves input p = true
    · by_cases hseen : p.name ∈ names
      · have hin : p ∈ chain := (h.mem p).mpr ⟨hp, hserves, hseen⟩
        rw [push_some_neg fun hpush => hpush.2 (List.mem_map_of_mem hin)]
        exact h.mentioned fun q hq _ hname => hsame q hq hname ▸ hin
      · have hout : p.name ∉ chain.map OcrProvider.name := by
          intro hmem
          obtain ⟨q, hq, hname⟩ := List.mem_map.mp hmem
          exact hseen (hname ▸ ((h.mem q).mp hq).2.2)
        rw [push_some_pos hserves hout]
        exact h.pushed hnames hp hserves hseen
    · rw [push_some_neg fun hpush => hserves hpush.1]
      refine h.mentioned fun q hq hs hname => ?_
      rw [hsame q hq hname] at hs
      exact absurd hs hserves

theorem namedBy_foldl (hnames : (registry.map OcrProvider.name).Nodup) (names : List String) :
    NamedBy registry input names
      ((names.map (byName registry)).foldl (OcrService.push input) []) := by
  induction names using List.reverseRecOn with
  | nil => exact ⟨by simp, List.Pairwise.nil⟩
  | append_singleton names name ih =>
    rw [List.map_append, List.foldl_append]
    exact ih.push hnames name

theorem foldl_push_registry {rest chain : List OcrProvider}
    (hnames : (rest.map OcrProvider.name).Nodup) :
    (rest.map some).foldl (push input) chain =
      chain ++ rest.filter fun p => serves input p ∧ p.name ∉ chain.map OcrProvider.name := by
  induction rest generalizing chain with
  | nil => simp
  | cons p rest ih =>
    rw [List.map_cons, List.nodup_cons] at hnames
    rw [List.map_cons, List.foldl_cons, List.filter_cons]
    by_cases hpush : serves input p = true ∧ p.name ∉ chain.map OcrProvider.name
    · have hrest : ∀ q ∈ rest, q.name ≠ p.name := fun q hq hname =>
        hnames.1 (hname ▸ List.mem_map_of_mem hq)
      rw [push_some_pos hpush.1 hpush.2, ih hnames.2, if_pos (decide_eq_true hpush),
        List.append_assoc, List.singleton_append]
      congr 2
      refine List.filter_congr fun q hq => ?_
      simp [hrest q hq]
    · rw [push_some_neg hpush, ih hnames.2, if_neg (by simpa using hpush)]

theorem sat_not_named {names : List String} {named : List OcrProvider}
    (h : NamedBy registry input names named) :
    (registry.filter fun p => serves input p ∧ p.name ∉ named.map OcrProvider.name) =
      registry.filter fun p => serves input p ∧ p.name ∉ names := by
  refine List.filter_congr fun p hp => ?_
  by_cases hserves : serves input p = true
  · have hiff : p.name ∈ named.map OcrProvider.name ↔ p.name ∈ names := by
      constructor
      · intro hmem
        obtain ⟨q, hq, hname⟩ := List.mem_map.mp hmem
        exact hname ▸ ((h.mem q).mp hq).2.2
      · intro hmem
        exact List.mem_map_of_mem ((h.mem p).mpr ⟨hp, hserves, hmem⟩)
    simp only [hiff]
  · simp [hserves]

/-- The whole chain: the named providers, then the rest of the registry. -/
theorem orderedProviders_split (hnames : (registry.map OcrProvider.name).Nodup) :
    ∃ named, NamedBy registry input
        (preferenceOrder input (policyForFunction input.policy input.fn)) named ∧
      orderedProviders registry input = named ++ registry.filter fun p => serves input p ∧
        p.name ∉ preferenceOrder input (policyForFunction input.policy input.fn) := by
  have hnamed := @namedBy_foldl registry input hnames
    (preferenceOrder input (policyForFunction input.policy input.fn))
  refine ⟨_, hnamed, ?_⟩
  rw [← sat_not_named hnamed, ← foldl_push_registry hnames, ← List.foldl_append]
  rfl

theorem mem_orderedProviders (hnames : (registry.map OcrProvider.name).Nodup) {p : OcrProvider} :
    p ∈ orderedProviders registry input ↔ p ∈ registry ∧ serves input p = true := by
  obtain ⟨named, hnamed, hsplit⟩ := @orderedProviders_split registry input hnames
  rw [hsplit, List.mem_append, hnamed.mem, List.mem_filter, decide_eq_true_eq]
  constructor
  · intro h
    obtain ⟨hp, hserves, -⟩ | ⟨hp, hserves, -⟩ := h
    · exact ⟨hp, hserves⟩
    · exact ⟨hp, hserves⟩
  · intro h
    by_cases hname : p.name ∈ preferenceOrder input (policyForFunction input.policy input.fn)
    · exact Or.inl ⟨h.1, h.2, hname⟩
    · exact Or.inr ⟨h.1, h.2, hname⟩

/-- When the router throws, and what its chain is when it does not. -/
theorem routeProvider_spec (registry : List OcrProvider) (input : RouteInput)
    (hnames : (registry.map OcrProvider.name).Nodup) :
    ((∃ e, routeProvider registry input = .error e) ↔
      ∀ p ∈ registry, providerSatisfies p input.group input.required = false) ∧
    ∀ d, routeProvider registry input = .ok d →
      (d.provider :: d.fallbacks).Nodup ∧
      (∀ p, p ∈ d.provider :: d.fallbacks ↔
        p ∈ registry ∧ providerSatisfies p input.group input.required = true) ∧
      ∃ order named, order = preferenceOrder input (policyForFunction input.policy input.fn) ∧
        d.provider :: d.fallbacks = named ++ registry.filter (fun p =>
          providerSatisfies p input.group input.required ∧ p.name ∉ order) ∧
        (∀ p ∈ named, p.name ∈ order) ∧
        named.Pairwise fun p q => order.idxOf p.name < order.idxOf q.name := by
  constructor
  · constructor
    · intro h
      obtain ⟨e, he⟩ := h
      exact (routeProvider_error_iff.mp he).1
    · intro h
      exact ⟨_, routeProvider_error_iff.mpr ⟨h, rfl⟩⟩
  · intro d hd
    have hchain := routeProvider_eq_ok.mp hd
    obtain ⟨named, hnamed, hsplit⟩ := @orderedProviders_split registry input hnames
    refine ⟨(routeProvider_chain_nodup hd).of_map _, fun p => ?_, _, named, rfl, ?_, ?_,
      hnamed.order⟩
    · rw [← hchain]
      exact mem_orderedProviders hnames
    · rw [← hchain]
      exact hsplit
    · intro p hp
      exact ((hnamed.mem p).mp hp).2.2

namespace Sample

def tesseractAndGlm : List OcrProvider := [
  { name := "tesseract", accepts := [.image, .pdf], capabilities := [.text, .layout] },
  { name := "glm-ocr", accepts := [.pdf, .image], capabilities := [.text, .layout, .seals] }]

def imageInput : RouteInput where
  group := .image
  required := [.text]
  fn := .SIGNING
  policy :=
    { image := { primary := "glm-ocr", fallbacks := ["other", "glm-ocr"] }
      scannedPdf := { primary := "glm-ocr", fallbacks := [] } }

end Sample

theorem routeProvider_spec_builtin :
    ∃ d, routeProvider Sample.tesseractAndGlm Sample.imageInput = .ok d ∧
      d.fallbacks.map OcrProvider.name = ["tesseract"] ∧
      (d.provider :: d.fallbacks).Nodup ∧
      ∃ order named, order = preferenceOrder Sample.imageInput
          (policyForFunction Sample.imageInput.policy Sample.imageInput.fn) ∧
        d.provider :: d.fallbacks = named ++ Sample.tesseractAndGlm.filter (fun p =>
          providerSatisfies p Sample.imageInput.group Sample.imageInput.required ∧ p.name ∉ order) ∧
        (∀ p ∈ named, p.name ∈ order) ∧
        named.Pairwise fun p q => order.idxOf p.name < order.idxOf q.name := by
  have hnames : (Sample.tesseractAndGlm.map OcrProvider.name).Nodup := by decide
  obtain ⟨herror, hchain⟩ := routeProvider_spec Sample.tesseractAndGlm Sample.imageInput hnames
  cases hroute : routeProvider Sample.tesseractAndGlm Sample.imageInput with
  | error e => exact absurd (herror.mp ⟨e, hroute⟩) (by decide)
  | ok d =>
    obtain ⟨hnodup, -, hsplit⟩ := hchain d hroute
    have hfallbacks : (routeProvider Sample.tesseractAndGlm Sample.imageInput).toOption.map
        (fun d => d.fallbacks.map OcrProvider.name) = some ["tesseract"] := by decide
    rw [hroute] at hfallbacks
    exact ⟨d, rfl, Option.some.inj hfallbacks, hnodup, hsplit⟩

end Chain
end OcrService
