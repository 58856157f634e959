import OcrService.Documents
import OcrService.Errors

/-! Provider policy (`config/providers.ts`) and routing (`providers/router.ts`). -/
namespace OcrService

inductive OcrFunctionKey where
  | SIGNING | ID_VERIFICATION | DOCUMENT_CLASSIFICATION | FORM_DATA_EXTRACTION
  | RECEIPT_PARSING | TEXT_EXTRACTION | RESUME_PARSING | DOCUMENT_AUTHENTICITY
  deriving DecidableEq

def OcrFunctionKey.name : OcrFunctionKey → String
  | SIGNING => "SIGNING"
  | ID_VERIFICATION => "ID_VERIFICATION"
  | DOCUMENT_CLASSIFICATION => "DOCUMENT_CLASSIFICATION"
  | FORM_DATA_EXTRACTION => "FORM_DATA_EXTRACTION"
  | RECEIPT_PARSING => "RECEIPT_PARSING"
  | TEXT_EXTRACTION => "TEXT_EXTRACTION"
  | RESUME_PARSING => "RESUME_PARSING"
  | DOCUMENT_AUTHENTICITY => "DOCUMENT_AUTHENTICITY"

structure FallbackChain where
  primary : String
  fallbacks : List String

/-- `Partial<ProviderPolicy>` of an override; its own `overrides` are never read. -/
structure PolicyOverride where
  image : Option FallbackChain := none
  scannedPdf : Option FallbackChain := none

structure ProviderPolicy where
  image : FallbackChain
  scannedPdf : FallbackChain
  overrides : List (OcrFunctionKey × PolicyOverride) := []

def defaultProviderPolicy : ProviderPolicy where
  image := { primary := "glm-ocr", fallbacks := ["tesseract"] }
  scannedPdf := { primary := "glm-ocr", fallbacks := ["tesseract"] }
  overrides :=
    [(.TEXT_EXTRACTION, { image := some { primary := "tesseract", fallbacks := ["glm-ocr"] } })]

def policyForFunction (policy : ProviderPolicy) (fn : OcrFunctionKey) : ProviderPolicy :=
  match policy.overrides.lookup fn with
  | none => policy
  | some override =>
    { image := override.image.getD policy.image
      scannedPdf := override.scannedPdf.getD policy.scannedPdf
      overrides := policy.overrides }

structure RoutingDecision where
  provider : OcrProvider
  fallbacks : List OcrProvider

structure RouteInput where
  group : MimeGroup
  required : List Capability
  fn : OcrFunctionKey
  policy : ProviderPolicy

def providerSatisfies (provider : OcrProvider) (group : MimeGroup)
    (required : List Capability) : Bool :=
  provider.accepts.contains group && required.all fun cap => provider.capabilities.contains cap

def preferenceOrder (input : RouteInput) (policy : ProviderPolicy) : List String :=
  match input.group with
  | .docx => ["mammoth"]
  | .text => ["plain-text"]
  | .image => policy.image.primary :: policy.image.fallbacks
  | .pdf =>
    let scanned := policy.scannedPdf.primary :: policy.scannedPdf.fallbacks
    if input.required.all fun c => c = .text then "pdf-text" :: scanned else scanned

/-- `new Map(registry.map((p) => [p.name, p])).get(name)`: the last of a name wins. -/
def byName (registry : List OcrProvider) (name : String) : Option OcrProvider :=
  registry.reverse.find? fun p => p.name = name

def push (input : RouteInput) (ordered : List OcrProvider) : Option OcrProvider → List OcrProvider
  | none => ordered
  | some p =>
    if providerSatisfies p input.group input.required ∧ p.name ∉ ordered.map OcrProvider.name then
      ordered ++ [p]
    else ordered

def orderedProviders (registry : List OcrProvider) (input : RouteInput) : List OcrProvider :=
  let order := preferenceOrder input (policyForFunction input.policy input.fn)
  (order.map (byName registry) ++ registry.map some).foldl (push input) []

def noProviderMessage (input : RouteInput) : String :=
  "No provider satisfies " ++ input.group.name ++ " with capabilities [" ++
    ", ".intercalate (input.required.map Capability.name) ++ "]"

/-- The primary provider and its fallbacks, or the plain `Error` of the source. -/
def routeProvider (registry : List OcrProvider) (input : RouteInput) :
    Except Thrown RoutingDecision :=
  match orderedProviders registry input with
  | [] => .error (.error (noProviderMessage input))
  | provider :: fallbacks => .ok { provider, fallbacks }

section Ordered
variable {registry : List OcrProvider} {input : RouteInput}

structure Admissible (registry : List OcrProvider) (input : RouteInput)
    (ordered : List OcrProvider) : Prop where
  registered : ∀ p ∈ ordered, p ∈ registry
  satisfying : ∀ p ∈ ordered, providerSatisfies p input.group input.required = true
  distinct : (ordered.map OcrProvider.name).Nodup

theorem byName_mem {name : String} {p : OcrProvider} (h : byName registry name = some p) :
    p ∈ registry :=
  List.mem_reverse.mp (List.mem_of_find?_eq_some h)

theorem push_extends (ordered : List OcrProvider) (p : Option OcrProvider) :
    ordered <+: push input ordered p := by
  cases p with
  | none => exact List.prefix_refl _
  | some p =>
    by_cases h : providerSatisfies p input.group input.required = true ∧
        p.name ∉ ordered.map OcrProvider.name
    · rw [push, if_pos h]
      exact List.prefix_append _ _
    · have hsame : push input ordered (some p) = ordered := if_neg h
      simp only [hsame, List.prefix_refl]

theorem foldl_push_extends (ps : List (Option OcrProvider)) (ordered : List OcrProvider) :
    ordered <+: ps.foldl (push input) ordered := by
  induction ps generalizing ordered with
  | nil => exact List.prefix_refl _
  | cons p ps ih => exact (push_extends ordered p).trans (ih _)

theorem push_admissible {ordered : List OcrProvider} (ha : Admissible registry input ordered)
    {p : Option OcrProvider} (hp : ∀ q, p = some q → q ∈ registry) :
    Admissible registry input (push input ordered p) := by
  cases p with
  | none => exact ha
  | some q =>
    by_cases h : providerSatisfies q input.group input.required = true ∧
        q.name ∉ ordered.map OcrProvider.name
    · rw [push, if_pos h]
      have hmem : ∀ r ∈ ordered ++ [q], r ∈ ordered ∨ r = q := by simp
      refine ⟨fun r hr => ?_, fun r hr => ?_, ?_⟩
      · exact (hmem r hr).elim (ha.registered r) fun he => he ▸ hp q rfl
      · exact (hmem r hr).elim (ha.satisfying r) fun he => he ▸ h.1
      · rw [List.map_append, List.map_singleton]
        exact List.nodup_append.mpr ⟨ha.distinct, by simp, by
          intro a hma b hb he
          rw [List.mem_singleton] at hb
          exact h.2 (hb ▸ he ▸ hma)⟩
    · rw [push, if_neg h]
      exact ha

theorem foldl_push_admissible {ps : List (Option OcrProvider)} {ordered : List OcrProvider}
    (ha : Admissible registry input ordered) (hps : ∀ q, some q ∈ ps → q ∈ registry) :
    Admissible registry input (ps.foldl (push input) ordered) := by
  induction ps generalizing ordered with
  | nil => exact ha
  | cons p ps ih =>
    have hp : ∀ q, p = some q → q ∈ registry := fun q he => hps q (by simp [he])
    exact ih (push_admissible ha hp) fun q hq => hps q (List.mem_cons_of_mem p hq)

theorem orderedProviders_admissible (registry : List OcrProvider) (input : RouteInput) :
    Admissible registry input (orderedProviders registry input) := by
  refine foldl_push_admissible ⟨by simp, by simp, by simp⟩ fun q hq => ?_
  rw [List.mem_append] at hq
  cases hq with
  | inl h =>
    obtain ⟨name, -, hn⟩ := List.mem_map.mp h
    exact byName_mem hn
  | inr h => simpa using h

theorem name_mem_foldl_push {ps : List (Option OcrProvider)} {ordered : List OcrProvider}
    {p : OcrProvider} (hp : some p ∈ ps)
    (hs : providerSatisfies p input.group input.required = true) :
    p.name ∈ (ps.foldl (push input) ordered).map OcrProvider.name := by
  induction ps generalizing ordered with
  | nil => simp at hp
  | cons q ps ih =>
    by_cases h : some p ∈ ps
    · exact ih h
    · have hq : q = some p := by simpa [h, eq_comm] using hp
      have hin : p.name ∈ (push input ordered q).map OcrProvider.name := by
        by_cases hseen : p.name ∈ ordered.map OcrProvider.name
        · exact List.map_subset _ (push_extends ordered q).subset hseen
        · subst hq
          rw [push, if_pos ⟨hs, hseen⟩]
          simp
      exact List.map_subset _ (foldl_push_extends ps _).subset hin

theorem name_mem_orderedProviders {p : OcrProvider} (hp : p ∈ registry)
    (hs : providerSatisfies p input.group input.required = true) :
    p.name ∈ (orderedProviders registry input).map OcrProvider.name :=
  name_mem_foldl_push (by simp [hp]) hs

theorem orderedProviders_eq_nil_iff :
    orderedProviders registry input = [] ↔
      ∀ p ∈ registry, providerSatisfies p input.group input.required = false := by
  constructor
  · intro h p hp
    cases hs : providerSatisfies p input.group input.required with
    | false => rfl
    | true => simpa [h] using name_mem_orderedProviders hp hs
  · intro h
    have ha := orderedProviders_admissible registry input
    cases ho : orderedProviders registry input with
    | nil => rfl
    | cons p ps =>
      have hmem : p ∈ orderedProviders registry input := by simp [ho]
      have hs := ha.satisfying p hmem
      rw [h p (ha.registered p hmem)] at hs
      cases hs

theorem routeProvider_eq_ok {d : RoutingDecision} :
    routeProvider registry input = .ok d ↔
      orderedProviders registry input = d.provider :: d.fallbacks := by
  unfold routeProvider
  cases h : orderedProviders registry input with
  | nil => simp
  | cons p ps =>
    cases d
    simp

theorem routeProvider_chain_nodup {d : RoutingDecision} (h : routeProvider registry input = .ok d) :
    ((d.provider :: d.fallbacks).map OcrProvider.name).Nodup := by
  rw [← routeProvider_eq_ok.mp h]
  exact (orderedProviders_admissible registry input).distinct

/-- The first preference is the primary if it satisfies the request. -/
theorem provider_of_preferred {d : RoutingDecision} {name : String} {names : List String}
    {p : OcrProvider}
    (horder : preferenceOrder input (policyForFunction input.policy input.fn) = name :: names)
    (hp : byName registry name = some p)
    (hs : providerSatisfies p input.group input.required = true)
    (h : routeProvider registry input = .ok d) : d.provider = p := by
  have hordered := routeProvider_eq_ok.mp h
  have hpush : push input [] (some p) = [p] := by simp [push, hs]
  simp only [orderedProviders, horder, List.map_cons, hp, List.cons_append, List.foldl_cons,
    hpush] at hordered
  have hprefix : [p] <+: d.provider :: d.fallbacks :=
    hordered ▸ foldl_push_extends (names.map (byName registry) ++ registry.map some) [p]
  exact (List.cons_prefix_cons.mp hprefix).1.symm

theorem byName_name {name : String} {p : OcrProvider} (h : byName registry name = some p) :
    p.name = name := by simpa using List.find?_some h

/-- The only error of the router, and exactly when it is raised. -/
theorem routeProvider_error_iff {e : Thrown} :
    routeProvider registry input = .error e ↔
      (∀ p ∈ registry, providerSatisfies p input.group input.required = false) ∧
        e = .error (noProviderMessage input) := by
  rw [← orderedProviders_eq_nil_iff]
  unfold routeProvider
  cases orderedProviders registry input with
  | nil => simp [eq_comm]
  | cons p ps => simp

end Ordered
end OcrService
