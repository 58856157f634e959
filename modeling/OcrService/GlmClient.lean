import Mathlib.Tactic.Linarith
import OcrService.Providers
import OcrService.Signing

/-! The client of GLM-OCR (`providers/glm/client.ts`): the attempts of one call, and the backoff
between them. -/
namespace OcrService

def DEFAULT_MAX_RETRIES : Nat := 3

def DEFAULT_TIMEOUT_MS : Nat := 60000

/-- Worth retrying: the rate limit, and what is transient upstream. -/
def RETRYABLE_STATUS : List Nat := [429, 500, 502, 503, 504]

def BACKOFF_BASE_MS : ℚ := 500

def BACKOFF_MAX_MS : ℚ := 8000

structure GlmClientOptions where
  apiKey : String
  baseUrl : String
  maxRetries : Option Nat := none
  timeoutMs : Option Nat := none

def GlmClientOptions.retries (opts : GlmClientOptions) : Nat :=
  opts.maxRetries.getD DEFAULT_MAX_RETRIES

/-- What one `fetch` is given; the signal is that of the caller and of a timeout. -/
structure GlmFetch where
  url : String
  method : String := "POST"
  headers : List (String × String)
  body : LayoutParsingRequest
  timeoutMs : Nat

/-- How `res.json()` ends. Without an abort it fails with an `Error`. -/
inductive BodyRead where
  | complete (body : LayoutParsingResponse)
  | malformed (message : String)
  /-- A network error, or the timeout of the attempt. -/
  | dropped (message : String)
  | aborted (reason : Thrown)

structure GlmResponse where
  status : Nat
  statusText : String := ""
  retryAfter : Option String := none
  json : BodyRead
  /-- `res.text()`, where that does not fail. -/
  text : Option String := none

def GlmResponse.ok (res : GlmResponse) : Bool := 200 ≤ res.status && res.status ≤ 299

/-- How `fetch` ends. An abort before the call ends the first one. -/
inductive Fetched where
  /-- A network error, or the timeout of the attempt. -/
  | failed (message : String)
  /-- The caller has aborted. -/
  | aborted (err : Thrown)
  | answered (res : GlmResponse)

structure Backoff where
  /-- `Math.random()`. -/
  random : ℚ := 0
  aborted : Option Thrown := none

structure Attempt where
  fetched : Fetched
  /-- The sleep after the attempt, if there is one. -/
  backoff : Backoff := {}

structure GlmRun where
  fetches : List GlmFetch
  delays : List ℚ
  result : Except Thrown LayoutParsingResponse

section Client
variable (number : String → Option ℚ)

/-- `number` is what `Number` makes of a text, where that is finite. -/
def backoffMs (attempt : Nat) (retryAfter : Option String) (random : ℚ) : ℚ :=
  let ceiling := min (BACKOFF_BASE_MS * 2 ^ attempt) BACKOFF_MAX_MS
  let jittered := ceiling / 2 + random * (ceiling / 2)
  match (truthy retryAfter).bind number with
  | some secs => if 0 ≤ secs then min (secs * 1000) BACKOFF_MAX_MS else jittered
  | none => jittered

def safeText (res : GlmResponse) : String := (res.text.map (jsTake 500)).getD ""

def statusLine (res : GlmResponse) : String := toString res.status ++ " " ++ res.statusText

def failedWith (res : GlmResponse) : Thrown :=
  .error ("GLM layout_parsing failed: " ++ statusLine res ++
    (if safeText res = "" then "" else " — " ++ safeText res))

/-- `lastError`, as what is thrown after the loop. -/
def thrownAfterLoop : Option Thrown → Thrown
  | none => .error "GLM layout_parsing failed: undefined"
  | some (.value text) => .error ("GLM layout_parsing failed: " ++ text)
  | some err => err

def BodyRead.settled : BodyRead → Except Thrown LayoutParsingResponse
  | .complete body => .ok body
  | .malformed message | .dropped message => .error (.error message)
  | .aborted reason => .error reason

def GlmRun.last (request : GlmFetch) (result : Except Thrown LayoutParsingResponse) : GlmRun where
  fetches := [request]
  delays := []
  result := result

def GlmRun.sleep (request : GlmFetch) (ms : ℚ) (backoff : Backoff) (rest : GlmRun) : GlmRun :=
  match backoff.aborted with
  | some reason => { fetches := [request], delays := [ms], result := .error reason }
  | none =>
    { fetches := request :: rest.fetches, delays := ms :: rest.delays, result := rest.result }

def glmFetch (opts : GlmClientOptions) (req : LayoutParsingRequest) : GlmFetch where
  url := opts.baseUrl ++ "/layout_parsing"
  headers := [("Content-Type", "application/json"), ("Authorization", "Bearer " ++ opts.apiKey)]
  body := req
  timeoutMs := opts.timeoutMs.getD DEFAULT_TIMEOUT_MS

def layoutParsingFrom (opts : GlmClientOptions) (req : LayoutParsingRequest)
    (net : Nat → Attempt) : (left attempt : Nat) → (lastError : Option Thrown) → GlmRun
  | 0, _, lastError => { fetches := [], delays := [], result := .error (thrownAfterLoop lastError) }
  | left + 1, attempt, _ =>
    let request := glmFetch opts req
    let backoff := (net attempt).backoff
    match (net attempt).fetched with
    | .aborted err => .last request (.error err)
    | .failed message =>
      let lastError := some (Thrown.error message)
      if attempt ≥ opts.retries then .last request (.error (thrownAfterLoop lastError))
      else
        .sleep request (backoffMs number attempt none backoff.random) backoff
          (layoutParsingFrom opts req net left (attempt + 1) lastError)
    | .answered res =>
      if res.ok then .last request res.json.settled
      else if RETRYABLE_STATUS.contains res.status && attempt < opts.retries then
        let lastError := some (Thrown.error ("GLM layout_parsing " ++ statusLine res))
        .sleep request (backoffMs number attempt res.retryAfter backoff.random) backoff
          (layoutParsingFrom opts req net left (attempt + 1) lastError)
      else .last request (.error (failedWith res))

/-- `GlmClient.layoutParsing`; attempt `k` meets `net k`. -/
def layoutParsing (opts : GlmClientOptions) (req : LayoutParsingRequest) (net : Nat → Attempt) :
    GlmRun :=
  layoutParsingFrom number opts req net (opts.retries + 1) 0 none

end Client

namespace Attempt

def Transient (a : Attempt) : Prop :=
  match a.fetched with
  | .failed _ => True
  | .aborted _ => False
  | .answered res =>
    if res.ok then ∃ message, res.json = .dropped message else res.status ∈ RETRYABLE_STATUS

def abortReason (a : Attempt) : Option Thrown :=
  match a.fetched with
  | .failed _ => a.backoff.aborted
  | .aborted err => some err
  | .answered res =>
    if res.ok then
      match res.json with
      | .aborted reason => some reason
      | _ => none
    else if res.status ∈ RETRYABLE_STATUS then a.backoff.aborted
    else none

def Refused (a : Attempt) : Prop :=
  ∃ res, a.fetched = .answered res ∧ res.ok = false ∧ res.status ∉ RETRYABLE_STATUS

def body (a : Attempt) : Option LayoutParsingResponse :=
  match a.fetched with
  | .answered res =>
    if res.ok then
      match res.json with
      | .complete body => some body
      | _ => none
    else none
  | _ => none

def error (a : Attempt) : Option Thrown :=
  match a.fetched with
  | .failed message => some (.error message)
  | .aborted err => some err
  | .answered res =>
    if res.ok then
      match res.json with
      | .complete _ => none
      | .malformed message | .dropped message => some (.error message)
      | .aborted reason => some reason
    else some (failedWith res)

def BodyDropped (a : Attempt) : Prop :=
  ∃ res message, a.fetched = .answered res ∧ res.ok = true ∧ res.json = .dropped message

/-- The attempt fails before it has a success, and the sleep after it is not cut short. -/
def GoesOn (a : Attempt) : Prop :=
  a.backoff.aborted = none ∧
    ((∃ message, a.fetched = .failed message) ∨
      ∃ res, a.fetched = .answered res ∧ res.ok = false ∧ res.status ∈ RETRYABLE_STATUS)

/-- A call whose last attempt this is settles with its body, or with its error or the abort. -/
def SettlesAs (a : Attempt) (result : Except Thrown LayoutParsingResponse) : Prop :=
  match a.body with
  | some body => result = .ok body
  | none => ∃ err, result = .error err ∧ (a.error = some err ∨ a.abortReason = some err)

end Attempt

structure PolicyKept (maxRetries : Nat) (net : Nat → Attempt) (run : GlmRun) : Prop where
  bounded : run.fetches.length ≤ maxRetries + 1
  noneAfterAbort : ∀ k, k + 1 < run.fetches.length → (net k).abortReason = none
  noneAfterRefusal : ∀ k, k + 1 < run.fetches.length → ¬(net k).Refused
  retried : ∀ k < maxRetries, k < run.fetches.length → (net k).Transient →
    (net k).abortReason = none → k + 1 < run.fetches.length
  /-- The attempts before the last have no body to return. -/
  settled : ∃ last, run.fetches.length = last + 1 ∧ (∀ j < last, (net j).body = none) ∧
    (net last).SettlesAs run.result

namespace Attempt

theorem GoesOn.body {a : Attempt} (h : a.GoesOn) : a.body = none := by
  obtain ⟨-, ⟨message, hfetched⟩ | ⟨res, hfetched, hok, -⟩⟩ := h
  · rw [Attempt.body, hfetched]
  · rw [Attempt.body, hfetched]
    simp [hok]

theorem GoesOn.abortReason {a : Attempt} (h : a.GoesOn) : a.abortReason = none := by
  obtain ⟨hslept, ⟨message, hfetched⟩ | ⟨res, hfetched, hok, hstatus⟩⟩ := h
  · rw [Attempt.abortReason, hfetched]
    exact hslept
  · rw [Attempt.abortReason, hfetched]
    simp [hok, hslept]

theorem BodyDropped.transient {a : Attempt} (h : a.BodyDropped) : a.Transient := by
  obtain ⟨res, message, hres, hok, hjson⟩ := h
  rw [Transient, hres]
  simp [hok, hjson]

theorem BodyDropped.abortReason {a : Attempt} (h : a.BodyDropped) : a.abortReason = none := by
  obtain ⟨res, message, hres, hok, hjson⟩ := h
  rw [Attempt.abortReason, hres]
  simp [hok, hjson]

theorem goesOn_or_bodyDropped {a : Attempt} (h : a.Transient) (habort : a.abortReason = none) :
    a.GoesOn ∨ a.BodyDropped := by
  rw [Transient] at h
  rw [Attempt.abortReason] at habort
  cases hfetched : a.fetched with
  | failed message =>
    rw [hfetched] at habort
    exact Or.inl ⟨habort, Or.inl ⟨message, hfetched⟩⟩
  | aborted err =>
    rw [hfetched] at h
    exact h.elim
  | answered res =>
    rw [hfetched] at h habort
    cases hok : res.ok with
    | true =>
      obtain ⟨message, hjson⟩ : ∃ message, res.json = .dropped message := by simpa [hok] using h
      exact Or.inr ⟨res, message, hfetched, hok, hjson⟩
    | false =>
      have hstatus : res.status ∈ RETRYABLE_STATUS := by simpa [hok] using h
      have hslept : a.backoff.aborted = none := by simpa [hok, hstatus] using habort
      exact Or.inl ⟨hslept, Or.inr ⟨res, hfetched, hok, hstatus⟩⟩

theorem not_goesOn_aborted {a : Attempt} {err : Thrown} (hfetched : a.fetched = .aborted err) :
    ¬a.GoesOn := by
  intro h
  obtain ⟨-, ⟨message, h⟩ | ⟨res, h, -⟩⟩ := h
  · rw [hfetched] at h
    cases h
  · rw [hfetched] at h
    cases h

theorem answered_of_goesOn {a : Attempt} {res : GlmResponse} (hfetched : a.fetched = .answered res)
    (h : a.GoesOn) : res.ok = false ∧ res.status ∈ RETRYABLE_STATUS := by
  obtain ⟨-, ⟨message, h⟩ | ⟨res', h, hcases⟩⟩ := h
  · rw [hfetched] at h
    cases h
  · rw [hfetched] at h
    cases h
    exact hcases

theorem GoesOn.not_refused {a : Attempt} (h : a.GoesOn) : ¬a.Refused := by
  intro hrefused
  obtain ⟨res, hfetched, -, hstatus⟩ := hrefused
  exact hstatus (answered_of_goesOn hfetched h).2

theorem BodyDropped.not_goesOn {a : Attempt} (h : a.BodyDropped) : ¬a.GoesOn := by
  intro hgoes
  obtain ⟨res, message, hfetched, hok, -⟩ := h
  rw [(answered_of_goesOn hfetched hgoes).1] at hok
  cases hok

theorem settlesAs_aborted {a : Attempt} {err : Thrown} (hfetched : a.fetched = .aborted err) :
    a.SettlesAs (.error err) := by
  rw [SettlesAs, body, error, hfetched]
  exact ⟨err, rfl, Or.inl rfl⟩

theorem settlesAs_failed {a : Attempt} {message : String} (hfetched : a.fetched = .failed message) :
    a.SettlesAs (.error (.error message)) := by
  rw [SettlesAs, body, error, hfetched]
  exact ⟨.error message, rfl, Or.inl rfl⟩

theorem settlesAs_ok {a : Attempt} {res : GlmResponse} (hfetched : a.fetched = .answered res)
    (hok : res.ok = true) : a.SettlesAs res.json.settled := by
  rw [SettlesAs, body, error, hfetched]
  simp only [hok, if_true]
  cases res.json with
  | complete body => rfl
  | malformed message | dropped message => exact ⟨.error message, rfl, Or.inl rfl⟩
  | aborted reason => exact ⟨reason, rfl, Or.inl rfl⟩

theorem settlesAs_status {a : Attempt} {res : GlmResponse} (hfetched : a.fetched = .answered res)
    (hok : res.ok = false) : a.SettlesAs (.error (failedWith res)) := by
  rw [SettlesAs, body, error, hfetched]
  simp only [hok]
  exact ⟨failedWith res, rfl, Or.inl rfl⟩

end Attempt

theorem backoffMs_within (number : String → Option ℚ) (attempt : Nat)
    (retryAfter : Option String) {random : ℚ} (h0 : 0 ≤ random) (h1 : random ≤ 1) :
    0 ≤ backoffMs number attempt retryAfter random ∧
      backoffMs number attempt retryAfter random ≤ BACKOFF_MAX_MS := by
  have hpow : (0 : ℚ) < 2 ^ attempt := Rat.pow_pos (by norm_num)
  have hceiling : 0 ≤ min (BACKOFF_BASE_MS * 2 ^ attempt) BACKOFF_MAX_MS := by
    refine le_min ?_ (by norm_num [BACKOFF_MAX_MS])
    exact mul_nonneg (by norm_num [BACKOFF_BASE_MS]) hpow.le
  have hmax : min (BACKOFF_BASE_MS * 2 ^ attempt) BACKOFF_MAX_MS ≤ BACKOFF_MAX_MS :=
    min_le_right _ _
  rw [backoffMs]
  generalize min (BACKOFF_BASE_MS * 2 ^ attempt) BACKOFF_MAX_MS = ceiling at *
  have hjitter : 0 ≤ ceiling / 2 + random * (ceiling / 2) ∧
      ceiling / 2 + random * (ceiling / 2) ≤ BACKOFF_MAX_MS := by
    constructor
    · nlinarith
    · nlinarith
  split
  · split
    · rename_i secs _ hsecs
      exact ⟨le_min (by linarith) (by norm_num [BACKOFF_MAX_MS]), min_le_right _ _⟩
    · exact hjitter
  · exact hjitter

section Runs
variable {number : String → Option ℚ} {opts : GlmClientOptions} {req : LayoutParsingRequest}
  {net : Nat → Attempt}

/-- A call that settles with attempt `last`. -/
structure EndsAt (maxRetries : Nat) (net : Nat → Attempt) (first last : Nat) (run : GlmRun) :
    Prop where
  ordered : first ≤ last
  within : last ≤ maxRetries
  before : ∀ k, first ≤ k → k < last → (net k).GoesOn
  exhausted : (net last).GoesOn → last = maxRetries
  fetches : run.fetches.length = last + 1 - first
  settles : (net last).SettlesAs run.result

theorem endsAt_last {maxRetries attempt : Nat} {request : GlmFetch}
    {result : Except Thrown LayoutParsingResponse} (hwithin : attempt ≤ maxRetries)
    (hexhausted : (net attempt).GoesOn → attempt = maxRetries)
    (hsettles : (net attempt).SettlesAs result) :
    EndsAt maxRetries net attempt attempt (.last request result) where
  ordered := Nat.le_refl attempt
  within := hwithin
  before k hk hlt := absurd hlt (Nat.not_lt.mpr hk)
  exhausted := hexhausted
  fetches := by simp [GlmRun.last]
  settles := hsettles

theorem endsAt_sleep {maxRetries attempt : Nat} {request : GlmFetch} {ms : ℚ} {rest : GlmRun}
    (hwithin : attempt ≤ maxRetries)
    (hgoes : (net attempt).backoff.aborted = none → (net attempt).GoesOn)
    (hbody : (net attempt).body = none)
    (habort : (net attempt).abortReason = (net attempt).backoff.aborted)
    (hrest : ∃ last, EndsAt maxRetries net (attempt + 1) last rest) :
    ∃ last, EndsAt maxRetries net attempt last (.sleep request ms (net attempt).backoff rest) := by
  cases hslept : (net attempt).backoff.aborted with
  | some reason =>
    refine ⟨attempt, Nat.le_refl attempt, hwithin, fun k hk hlt => absurd hlt (Nat.not_lt.mpr hk),
      fun h => ?_, ?_, ?_⟩
    · have hnone := h.1
      rw [hslept] at hnone
      cases hnone
    · simp [GlmRun.sleep, hslept]
    · rw [Attempt.SettlesAs, hbody, GlmRun.sleep, hslept]
      exact ⟨reason, rfl, Or.inr (habort.trans hslept)⟩
  | none =>
    obtain ⟨last, h⟩ := hrest
    have hordered := h.ordered
    refine ⟨last, by omega, h.within, ?_, h.exhausted, ?_, ?_⟩
    · intro k hk hlt
      obtain heq | hlater := Nat.eq_or_lt_of_le hk
      · rw [← heq]
        exact hgoes hslept
      · exact h.before k hlater hlt
    · rw [GlmRun.sleep, hslept]
      have hfetches := h.fetches
      simp only [List.length_cons]
      omega
    · rw [GlmRun.sleep, hslept]
      exact h.settles

theorem layoutParsingFrom_step {left attempt : Nat} (hwithin : attempt ≤ opts.retries)
    (hnext : attempt < opts.retries → ∀ lastError, ∃ last,
      EndsAt opts.retries net (attempt + 1) last
        (layoutParsingFrom number opts req net left (attempt + 1) lastError))
    (lastError : Option Thrown) :
    ∃ last, EndsAt opts.retries net attempt last
      (layoutParsingFrom number opts req net (left + 1) attempt lastError) := by
  rw [layoutParsingFrom]
  cases hfetched : (net attempt).fetched with
  | aborted err =>
    refine ⟨attempt, endsAt_last hwithin (fun h => ?_) (Attempt.settlesAs_aborted hfetched)⟩
    exact absurd h (Attempt.not_goesOn_aborted hfetched)
  | failed message =>
    by_cases hlast : attempt ≥ opts.retries
    · simp only [if_pos hlast]
      exact ⟨attempt, endsAt_last hwithin (fun _ => Nat.le_antisymm hwithin hlast)
        (Attempt.settlesAs_failed hfetched)⟩
    · simp only [if_neg hlast]
      refine endsAt_sleep hwithin (fun hslept => ⟨hslept, Or.inl ⟨message, hfetched⟩⟩) ?_ ?_
        (hnext (by omega) _)
      · rw [Attempt.body, hfetched]
      · rw [Attempt.abortReason, hfetched]
  | answered res =>
    cases hok : res.ok with
    | true =>
      simp only [if_pos hok]
      refine ⟨attempt, endsAt_last hwithin (fun h => ?_) (Attempt.settlesAs_ok hfetched hok)⟩
      rw [(Attempt.answered_of_goesOn hfetched h).1] at hok
      cases hok
    | false =>
      simp only [hok, Bool.false_eq_true, if_false]
      by_cases hretry : RETRYABLE_STATUS.contains res.status && attempt < opts.retries
      · simp only [if_pos hretry]
        rw [Bool.and_eq_true, List.contains_iff_mem, decide_eq_true_eq] at hretry
        refine endsAt_sleep hwithin
          (fun hslept => ⟨hslept, Or.inr ⟨res, hfetched, hok, hretry.1⟩⟩) ?_ ?_ (hnext hretry.2 _)
        · rw [Attempt.body, hfetched]
          simp [hok]
        · rw [Attempt.abortReason, hfetched]
          simp [hok, hretry.1]
      · simp only [if_neg hretry]
        refine ⟨attempt, endsAt_last hwithin (fun h => ?_) (Attempt.settlesAs_status hfetched hok)⟩
        have hstatus := (Attempt.answered_of_goesOn hfetched h).2
        rw [Bool.and_eq_true, List.contains_iff_mem, decide_eq_true_eq] at hretry
        have hlast : ¬attempt < opts.retries := fun hlt => hretry ⟨hstatus, hlt⟩
        omega

/-- The calls still to come after an attempt; the induction is on how many there may be. -/
theorem layoutParsingFrom_endsAt (left attempt : Nat) (h : attempt + left = opts.retries)
    (lastError : Option Thrown) :
    ∃ last, EndsAt opts.retries net attempt last
      (layoutParsingFrom number opts req net (left + 1) attempt lastError) := by
  induction left generalizing attempt lastError with
  | zero => exact layoutParsingFrom_step (by omega) (fun hlt => by omega) lastError
  | succ left ih =>
    exact layoutParsingFrom_step (by omega) (fun _ => ih (attempt + 1) (by omega)) lastError

/-- What holds of a run that ends at once and is kept by a sleep holds of every run. -/
theorem layoutParsingFrom_induct {P : GlmRun → Prop}
    (hover : ∀ err, P { fetches := [], delays := [], result := .error err })
    (hlast : ∀ result, P (.last (glmFetch opts req) result))
    (hsleep : ∀ attempt retryAfter rest, P rest →
      P (.sleep (glmFetch opts req)
        (backoffMs number attempt retryAfter (net attempt).backoff.random)
        (net attempt).backoff rest))
    (left attempt : Nat) (lastError : Option Thrown) :
    P (layoutParsingFrom number opts req net left attempt lastError) := by
  induction left generalizing attempt lastError with
  | zero => exact hover _
  | succ left ih =>
    rw [layoutParsingFrom]
    cases (net attempt).fetched with
    | aborted err => exact hlast _
    | failed message =>
      dsimp only
      split
      · exact hlast _
      · exact hsleep attempt none _ (ih _ _)
    | answered res =>
      dsimp only
      split
      · exact hlast _
      · split
        · exact hsleep attempt res.retryAfter _ (ih _ _)
        · exact hlast _

theorem layoutParsing_fetches :
    ∀ f ∈ (layoutParsing number opts req net).fetches, f = glmFetch opts req := by
  refine layoutParsingFrom_induct (P := fun run => ∀ f ∈ run.fetches, f = glmFetch opts req)
    ?_ ?_ ?_ _ _ _
  · simp
  · simp [GlmRun.last]
  · intro attempt retryAfter rest hrest
    rw [GlmRun.sleep]
    split
    · simp
    · simpa using hrest

theorem layoutParsing_delays
    (hrandom : ∀ k, 0 ≤ (net k).backoff.random ∧ (net k).backoff.random ≤ 1) :
    ∀ ms ∈ (layoutParsing number opts req net).delays, 0 ≤ ms ∧ ms ≤ BACKOFF_MAX_MS := by
  refine layoutParsingFrom_induct (P := fun run => ∀ ms ∈ run.delays, 0 ≤ ms ∧ ms ≤ BACKOFF_MAX_MS)
    ?_ ?_ ?_ _ _ _
  · simp
  · simp [GlmRun.last]
  · intro attempt retryAfter rest hrest
    have hms := backoffMs_within number attempt retryAfter (hrandom attempt).1 (hrandom attempt).2
    rw [GlmRun.sleep]
    split
    · simpa using hms
    · simpa using ⟨hms, hrest⟩

/-- A call keeps to its policy exactly when no attempt before the last it may make is a success
whose body is lost: such an attempt is not made again. -/
theorem layoutParsing_policy_iff :
    PolicyKept opts.retries net (layoutParsing number opts req net) ↔
      ∀ k < opts.retries, (∀ j < k, (net j).GoesOn) → ¬(net k).BodyDropped := by
  have hcall : ∃ last, EndsAt opts.retries net 0 last (layoutParsing number opts req net) :=
    layoutParsingFrom_endsAt opts.retries 0 (Nat.zero_add opts.retries) none
  obtain ⟨last, hends⟩ := hcall
  have hfetches := hends.fetches
  have hwithin := hends.within
  have hbefore : ∀ k < last, (net k).GoesOn := fun k => hends.before k (Nat.zero_le k)
  rw [Nat.sub_zero] at hfetches
  constructor
  · intro h k hk hreached hdropped
    have hle : k ≤ last := by
      by_contra hlt
      have hlast := hends.exhausted (hreached last (by omega))
      omega
    have heq : k = last := by
      by_contra hne
      exact hdropped.not_goesOn (hbefore k (by omega))
    have hmore := h.retried k hk (by omega) hdropped.transient hdropped.abortReason
    omega
  · intro h
    refine ⟨by omega, ?_, ?_, ?_, last, hfetches, ?_, hends.settles⟩
    · intro k hk
      exact (hbefore k (by omega)).abortReason
    · intro k hk
      exact (hbefore k (by omega)).not_refused
    · intro k hk hmade htransient habort
      by_contra hmore
      have heq : k = last := by omega
      obtain hgoes | hdropped := Attempt.goesOn_or_bodyDropped htransient habort
      · have hlast := hends.exhausted (heq ▸ hgoes)
        omega
      · exact h k hk (fun j hj => hbefore j (by omega)) hdropped
    · intro j hj
      exact (hbefore j hj).body

end Runs

namespace Sample

def twoRetries : GlmClientOptions where
  apiKey := "k"
  baseUrl := "https://glm.test/api"
  maxRetries := some 2

def page : LayoutParsingResponse where
  md_results := some "# page"
  layout_details := none
  pages := none
  total_tokens := none

def cutOffFirst : Nat → Attempt
  | 0 => { fetched := .answered { status := 200, json := .dropped "terminated" } }
  | _ => { fetched := .answered { status := 200, json := .complete page } }

def cutOffRun : GlmRun :=
  layoutParsing (fun _ => none) twoRetries
    { file := { mime := "image/png", bytes := [] }, return_crop_images := none,
      request_id := none, user_id := none } cutOffFirst

end Sample

/-- A network error while the body is read ends the call, whatever is left of its attempts. -/
theorem cutOff_not_retried :
    Sample.cutOffRun.result = .error (.error "terminated") ∧
      ¬PolicyKept Sample.twoRetries.retries Sample.cutOffFirst Sample.cutOffRun := by
  refine ⟨rfl, fun h => ?_⟩
  have hmore : 0 + 1 < Sample.cutOffRun.fetches.length :=
    h.retried 0 (by decide) (by decide) ⟨"terminated", rfl⟩ rfl
  revert hmore
  decide

end OcrService
