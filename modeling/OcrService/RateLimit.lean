import OcrService.Cache
import OcrService.Interaction.History
import OcrService.Middleware

/-! The fixed-window counter of the rate limiter (`http/middleware/rate-limit.ts`): how many
requests of one window it lets pass. -/
namespace OcrService
open Interaction

inductive RateOp where
  | now
  | incr (key : String)
  | expire (key : String) (seconds : Nat)
  deriving DecidableEq

abbrev RateOp.Answer : RateOp → Type
  | now => Nat
  | incr _ => Except String Nat
  | expire _ _ => Except String Unit

/-- A counter, and the instant from which on it does not exist. -/
structure Counter where
  value : Nat
  deadline : Option Nat := none

structure RateStore where
  counters : String → Option Counter := fun _ => none
  clock : Nat := 0

namespace RateStore

/-- The key is still there by name, but its time is over. -/
def Lapsed (s : RateStore) (key : String) : Bool :=
  (s.counters key).any fun counter => counter.deadline.any fun deadline => deadline ≤ s.clock

def live (s : RateStore) (key : String) : Option Counter :=
  (s.counters key).filter fun counter => counter.deadline.all fun deadline => s.clock < deadline

def incremented (s : RateStore) (key : String) : Counter :=
  match s.live key with
  | some counter => { counter with value := counter.value + 1 }
  | none => { value := 1 }

def setCounter (s : RateStore) (key : String) (counter : Counter) : RateStore :=
  { s with counters := Function.update s.counters key (some counter) }

def handle (fate : Fate) : (o : RateOp) → RateStore → o.Answer × RateStore
  | .now, s => (s.clock, s)
  | .incr key, s =>
    fate.settle .error s
      (.ok (s.incremented key).value, s.setCounter key (s.incremented key))
  | .expire key seconds, s =>
    fate.settle .error s (.ok (), match s.live key with
      | some counter => s.setCounter key { counter with deadline := s.clock + seconds * 1000 }
      | none => s)

end RateStore

abbrev RateProg := Prog RateOp RateOp.Answer

def rateBucket (env : GateEnv) (now : Nat) : Nat := now / (1000 * env.RATE_LIMIT_WINDOW_SECONDS)

def rateKey (id : String) (bucket : Nat) : String :=
  "ratelimit:" ++ id ++ ":" ++ toString bucket

def underLimit (env : GateEnv) (id : String) (max : Int) : RateProg (Except String Bool) :=
  .ask .now fun now =>
    let key := rateKey id (rateBucket env now)
    .ask (.incr key) fun
    | .error message => .ret (.error message)
    | .ok count =>
      if count = 1 then
        .ask (.expire key env.RATE_LIMIT_WINDOW_SECONDS) fun answer =>
          .ret (answer.map fun _ => decide (count ≤ max))
      else .ret (.ok (decide (count ≤ max)))

structure RateRequest where
  caller : Caller
  ip : Option String := none

def rateLimit (env : GateEnv) (r : RateRequest) : RateProg (Except Thrown Unit) :=
  if env.RATE_LIMIT_ENABLED then do
    let max := limitMax env r.caller
    return limitVerdict env max (← underLimit env (limitId r.caller r.ip) max)
  else .ret (.ok ())

/-- Requests of any number of processes over one Redis; time goes on at any moment. -/
def rateLimiter (env : GateEnv) :
    Machine RateRequest RateOp RateOp.Answer (Except Thrown Unit) Fate Nat RateStore where
  start := rateLimit env
  handle := RateStore.handle
  env elapsed s := { s with clock := s.clock + elapsed }

abbrev RateConf := Conf RateRequest RateOp RateOp.Answer (Except Thrown Unit) RateStore

abbrev RateMove := Move RateRequest Fate Nat

abbrev RateThread := Thread RateRequest RateOp RateOp.Answer (Except Thrown Unit)

theorem rateKey_inj {id id' : String} {bucket bucket' : Nat}
    (h : rateKey id bucket = rateKey id' bucket') : id = id' ∧ bucket = bucket' := by
  have hl : id.toList ++ ':' :: Nat.toDigits 10 bucket =
      id'.toList ++ ':' :: Nat.toDigits 10 bucket' := by
    have hchars := congrArg String.toList h
    unfold rateKey at hchars
    have hcolon : ":".toList = [':'] := rfl
    simp only [String.toList_append, List.append_assoc, hcolon] at hchars
    have htail := List.append_cancel_left hchars
    simpa using htail
  obtain ⟨hid, hbucket⟩ := Decimals.split_at_last (Decimals.not_mem_toDigits (by decide))
    (Decimals.not_mem_toDigits (by decide)) hl
  exact ⟨String.toList_inj.mp hid, Decimals.toDigits_inj hbucket⟩

def requestKey (env : GateEnv) (r : RateRequest) (now : Nat) : String :=
  rateKey (limitId r.caller r.ip) (rateBucket env now)

namespace RateStore
variable {s : RateStore} {key : String}

def value (s : RateStore) (key : String) : Nat := (s.counters key).elim 0 Counter.value

theorem value_setCounter_self (s : RateStore) (key : String) (counter : Counter) :
    (s.setCounter key counter).value key = counter.value := by
  simp [value, setCounter]

theorem value_setCounter_ne {key' : String} (h : key ≠ key') (s : RateStore) (counter : Counter) :
    (s.setCounter key' counter).value key = s.value key := by
  simp [value, setCounter, Function.update_of_ne h]

theorem live_eq_some {counter : Counter} (h : s.live key = some counter) :
    s.counters key = some counter := (Option.filter_eq_some_iff.mp h).1

theorem live_of_not_lapsed (h : ¬ s.Lapsed key) : s.live key = s.counters key := by
  unfold live
  cases hc : s.counters key with
  | none => rfl
  | some counter =>
    rw [Option.filter_eq_some_iff]
    refine ⟨rfl, ?_⟩
    cases hd : counter.deadline with
    | none => rfl
    | some deadline => simpa [Lapsed, hc, hd] using h

theorem value_incremented (h : ¬ s.Lapsed key) :
    (s.incremented key).value = s.value key + 1 := by
  unfold incremented value
  rw [live_of_not_lapsed h]
  cases s.counters key <;> rfl

theorem value_incremented_le (s : RateStore) (key : String) :
    (s.incremented key).value ≤ s.value key + 1 := by
  unfold incremented
  cases hlive : s.live key with
  | none => exact Nat.le_add_left 1 _
  | some counter => simp [value, live_eq_some hlive]

theorem value_expire (s : RateStore) (key key' : String) (seconds : Nat) :
    (RateStore.handle .done (.expire key' seconds) s).2.value key = s.value key := by
  simp only [handle, Fate.settle]
  cases hlive : s.live key' with
  | none => rfl
  | some counter =>
    by_cases hk : key = key'
    · subst hk
      rw [value_setCounter_self]
      simp [value, live_eq_some hlive]
    · rw [value_setCounter_ne hk]

end RateStore

section Request
variable (env : GateEnv) (r : RateRequest)

def afterIncr (key : String) : Except String Nat → RateProg (Except Thrown Unit)
  | .error message => .ret (limitVerdict env (limitMax env r.caller) (.error message))
  | .ok count =>
    if count = 1 then
      .ask (.expire key env.RATE_LIMIT_WINDOW_SECONDS) fun answer =>
        .ret (limitVerdict env (limitMax env r.caller)
          (answer.map fun _ => decide (count ≤ limitMax env r.caller)))
    else .ret (limitVerdict env (limitMax env r.caller)
      (.ok (decide (count ≤ limitMax env r.caller))))

theorem rateLimit_program (h : env.RATE_LIMIT_ENABLED = true) :
    rateLimit env r = .ask .now fun now =>
      .ask (.incr (requestKey env r now)) (afterIncr env r (requestKey env r now)) := by
  unfold rateLimit
  rw [if_pos h]
  refine congrArg (Prog.ask _) (funext fun now => congrArg (Prog.ask _) (funext fun answer => ?_))
  cases answer with
  | error message => rfl
  | ok count =>
    unfold afterIncr
    by_cases hc : count = 1
    · simp only [hc, if_true]
      rfl
    · simp only [hc, if_false]
      rfl

inductive RateStage : RateProg (Except Thrown Unit) → List RateOp → Prop
  | start : RateStage (.ask .now fun now =>
      .ask (.incr (requestKey env r now)) (afterIncr env r (requestKey env r now))) []
  | timed (now : Nat) :
      RateStage (.ask (.incr (requestKey env r now)) (afterIncr env r (requestKey env r now)))
        [.now]
  | counted (now : Nat) (answer : Except String Nat) :
      RateStage (afterIncr env r (requestKey env r now) answer)
        [.now, .incr (requestKey env r now)]
  | expiring (now : Nat) (result : Except Thrown Unit) :
      RateStage (.ret result) [.now, .incr (requestKey env r now),
        .expire (requestKey env r now) env.RATE_LIMIT_WINDOW_SECONDS]
  | unlimited (result : Except Thrown Unit) : RateStage (.ret result) []

variable {env r}

theorem RateStage.step {o : RateOp} {k : o.Answer → RateProg (Except Thrown Unit)}
    {log : List RateOp} (h : RateStage env r (.ask o k) log) (x : o.Answer) :
    RateStage env r (k x) (log ++ [o]) := by
  generalize hp : Prog.ask o k = p at h
  cases h with
  | start =>
    cases hp
    exact .timed x
  | timed now =>
    cases hp
    exact .counted now x
  | counted now answer =>
    unfold afterIncr at hp
    cases answer with
    | error message => cases hp
    | ok count =>
      by_cases hc : count = 1
      · simp only [hc, if_true] at hp
        cases hp
        exact .expiring now _
      · simp only [hc, if_false] at hp
        cases hp
  | expiring now result => cases hp
  | unlimited result => cases hp

end Request

section Moves
variable (key : String)

def countedUnder (t : RateThread) : Bool := decide (.incr key ∈ t.log)

def passes : RateProg (Except Thrown Unit) → Bool
  | .ret result => result.toOption.isSome
  | .ask (.expire _ _) k =>
    match k (.ok ()) with
    | .ret result => result.toOption.isSome
    | .ask _ _ => false
  | .ask _ _ => false

def admittedUnder (t : RateThread) : Bool :=
  countedUnder key t && (t.prog.result?.any fun result => result.toOption.isSome)

def refusedUnder (t : RateThread) : Bool :=
  countedUnder key t && (t.prog.result?.any fun result => !result.toOption.isSome)

def madeUnder (t : RateThread) : Bool :=
  countedUnder key t ||
    match t.prog with
    | .ask (.incr key') _ => decide (key' = key)
    | _ => false

theorem passes_afterIncr (env : GateEnv) (r : RateRequest) (key : String) (count : Nat) :
    passes (afterIncr env r key (.ok count)) = decide (count ≤ limitMax env r.caller) := by
  have hverdict : ∀ b, (limitVerdict env (limitMax env r.caller) (.ok b)).toOption.isSome = b := by
    intro b
    cases b <;> rfl
  unfold afterIncr
  by_cases hc : count = 1
  · simp only [hc, if_true]
    exact hverdict _
  · simp only [hc, if_false]
    exact hverdict _

inductive RateEffect (env : GateEnv) (s s' : RateStore) (t t' : RateThread) : Prop
  | other : countedUnder key t' = countedUnder key t →
      (countedUnder key t = true → passes t'.prog = passes t.prog) →
      s'.value key = s.value key → RateEffect env s s' t t'
  | counts (now : Nat) : key = requestKey env t.req now → countedUnder key t = false →
      countedUnder key t' = true → s'.value key = (s.incremented key).value →
      passes t'.prog = decide (((s.incremented key).value : Int) ≤ limitMax env t.req.caller) →
      RateEffect env s s' t t'

theorem rateEffect {env : GateEnv} {s : RateStore} {r : RateRequest} {o : RateOp}
    {k : o.Answer → RateProg (Except Thrown Unit)} {log : List RateOp}
    (h : RateStage env r (.ask o k) log) :
    RateEffect key env s (RateStore.handle .done o s).2 ⟨r, .ask o k, log⟩
      ⟨r, k (RateStore.handle .done o s).1, log ++ [o]⟩ := by
  generalize hp : Prog.ask o k = p at h
  cases h with
  | start =>
    cases hp
    exact .other (by simp [countedUnder]) (fun h => by simp [countedUnder] at h) rfl
  | timed now =>
    cases hp
    by_cases hk : key = requestKey env r now
    · subst hk
      exact .counts now rfl (by simp [countedUnder]) (by simp [countedUnder])
        (RateStore.value_setCounter_self s _ _) (passes_afterIncr env r _ _)
    · exact .other (by simp [countedUnder, hk]) (fun h => by simp [countedUnder] at h)
        (RateStore.value_setCounter_ne hk s _)
  | counted now answer =>
    cases answer with
    | error message => cases hp
    | ok count =>
      by_cases hc : count = 1
      · subst hc
        cases hp
        exact .other (by simp [countedUnder]) (fun _ => rfl) (RateStore.value_expire s key _ _)
      · simp only [afterIncr, hc, if_false] at hp
        cases hp
  | expiring now result => cases hp
  | unlimited result => cases hp

end Moves

section Bound
variable {env : GateEnv} {key : String} {max : Int}

structure Counts (key : String) (max : Int) (c : RateConf) : Prop where
  value : c.world.value key = c.threads.countP (countedUnder key)
  passing : c.threads.countP (fun t => countedUnder key t && passes t.prog) ≤ max.toNat

structure Bounded (key : String) (max : Int) (c : RateConf) : Prop where
  value : c.world.value key ≤ c.threads.countP (countedUnder key)
  refused : ∀ t ∈ c.threads, countedUnder key t = true → passes t.prog = false →
    max.toNat < c.threads.countP (countedUnder key)

/-- No `INCR` finds that the counter of its window has lapsed. -/
def InTime (c : RateConf) : RateMove → Prop
  | .step i _ => ∀ o ∈ c.waiting i, ∀ key, o = .incr key → ¬ c.world.Lapsed key
  | .spawn _ | .env _ => True

section Effect
variable {c : RateConf} {i : Nat} {t t' : RateThread} {s' : RateStore}

theorem Counts.step (hi : c.threads[i]? = some t) (he : RateEffect key env c.world s' t t')
    (hmax : ∀ now, key = requestKey env t.req now → limitMax env t.req.caller = max)
    (htime : countedUnder key t = false → countedUnder key t' = true → ¬ c.world.Lapsed key)
    (hc : Counts key max c) : Counts key max ⟨s', c.threads.set i t'⟩ := by
  have hcounted := countP_set_add (b := t') hi (countedUnder key)
  have hpassing := countP_set_add (b := t') hi fun t => countedUnder key t && passes t.prog
  obtain ⟨hvalue, hpass⟩ := hc
  cases he with
  | other hsame hprog hkeep =>
    have hsame' : (countedUnder key t' && passes t'.prog) =
        (countedUnder key t && passes t.prog) := by
      rw [hsame]
      cases hk : countedUnder key t with
      | false => rfl
      | true => rw [hprog hk]
    rw [hsame] at hcounted
    rw [hsame'] at hpassing
    have hn := Nat.add_right_cancel hcounted
    have hp := Nat.add_right_cancel hpassing
    exact ⟨by rw [hkeep, hvalue, hn], by rw [hp]; exact hpass⟩
  | counts now hkey hbefore hafter hone hprog =>
    have hvalue' : s'.value key = c.threads.countP (countedUnder key) + 1 := by
      rw [hone, RateStore.value_incremented (htime hbefore hafter), hvalue]
    rw [hbefore, hafter] at hcounted
    rw [hbefore, hafter, hprog, ← hone, hvalue', hmax now hkey] at hpassing
    have hn : (c.threads.set i t').countP (countedUnder key) =
        c.threads.countP (countedUnder key) + 1 := by simpa using hcounted
    refine ⟨by rw [hvalue', hn], ?_⟩
    change (c.threads.set i t').countP (fun t => countedUnder key t && passes t.prog) ≤ _
    have hle : c.threads.countP (fun t => countedUnder key t && passes t.prog) ≤
        c.threads.countP (countedUnder key) :=
      List.countP_mono_left fun t _ h => (Bool.and_eq_true _ _ ▸ h).1
    by_cases hroom : ((c.threads.countP (countedUnder key) + 1 : Nat) : Int) ≤ max
    · simp only [hroom, Bool.false_and, Bool.true_and, Bool.toNat_false, Bool.toNat_true,
        decide_true] at hpassing
      omega
    · simp only [hroom, Bool.false_and, Bool.true_and, Bool.toNat_false, decide_false] at hpassing
      omega

theorem Bounded.step (hi : c.threads[i]? = some t) (he : RateEffect key env c.world s' t t')
    (hmax : ∀ now, key = requestKey env t.req now → limitMax env t.req.caller = max)
    (hc : Bounded key max c) : Bounded key max ⟨s', c.threads.set i t'⟩ := by
  have hcounted := countP_set_add (b := t') hi (countedUnder key)
  obtain ⟨hvalue, hrefused⟩ := hc
  cases he with
  | other hsame hprog hkeep =>
    rw [hsame] at hcounted
    have hn := Nat.add_right_cancel hcounted
    refine ⟨by rw [hkeep, hn]; exact hvalue, fun u hu hcount hpass => ?_⟩
    rw [hn]
    obtain hu | rfl := List.mem_or_eq_of_mem_set hu
    · exact hrefused u hu hcount hpass
    · rw [hsame] at hcount
      exact hrefused t (List.mem_of_getElem? hi) hcount (hprog hcount ▸ hpass)
  | counts now hkey hbefore hafter hone hprog =>
    rw [hbefore, hafter] at hcounted
    have hn : (c.threads.set i t').countP (countedUnder key) =
        c.threads.countP (countedUnder key) + 1 := by simpa using hcounted
    have hle := RateStore.value_incremented_le c.world key
    refine ⟨by rw [hone, hn]; omega, fun u hu hcount hpass => ?_⟩
    rw [hn]
    obtain hu | rfl := List.mem_or_eq_of_mem_set hu
    · exact Nat.lt_succ_of_lt (hrefused u hu hcount hpass)
    · rw [hprog, hmax now hkey, decide_eq_false_iff_not] at hpass
      omega

instance (c : RateConf) : (mv : RateMove) → Decidable (InTime c mv)
  | .step i _ =>
    match h : c.waiting i with
    | some (.incr key) =>
      decidable_of_iff (c.world.Lapsed key = false) (by simp [InTime, h])
    | some .now => isTrue (by simp [InTime, h])
    | some (.expire _ _) => isTrue (by simp [InTime, h])
    | none => isTrue (by simp [InTime, h])
  | .spawn _ | .env _ => isTrue True.intro

end Effect

def Plain (env : GateEnv) (id : String) (max : Int) : RateMove → Prop
  | .spawn r => limitId r.caller r.ip = id → limitMax env r.caller = max
  | .step _ fate => fate = .done
  | .env _ => True

def Regular (env : GateEnv) (id : String) (max : Int) (c : RateConf) : Prop :=
  ∀ t ∈ c.threads, RateStage env t.req t.prog t.log ∧
    (limitId t.req.caller t.req.ip = id → limitMax env t.req.caller = max)

theorem start_rateStage (env : GateEnv) (r : RateRequest) :
    RateStage env r ((rateLimiter env).start r) [] := by
  change RateStage env r (rateLimit env r) []
  cases h : env.RATE_LIMIT_ENABLED with
  | true =>
    rw [rateLimit_program env r h]
    exact .start
  | false =>
    simp only [rateLimit, h]
    exact .unlimited _

theorem regular_next {id : String} {c c' : RateConf} {mv : RateMove}
    (hc : Regular env id max c) (hplain : Plain env id max mv)
    (hn : (rateLimiter env).next c mv = some c') : Regular env id max c' := by
  cases mv with
  | spawn r =>
    cases hn
    intro t ht
    obtain ht | ht := List.mem_append.mp ht
    · exact hc t ht
    · rw [List.mem_singleton] at ht
      subst ht
      exact ⟨start_rateStage env r, hplain⟩
  | env elapsed =>
    cases hn
    exact hc
  | step i fate =>
    obtain ⟨r, o, k, log, hi, rfl⟩ := (rateLimiter env).next_step hn
    obtain ⟨hstage, hmax⟩ := hc _ (List.mem_of_getElem? hi)
    intro t ht
    obtain ht | rfl := List.mem_or_eq_of_mem_set ht
    · exact hc t ht
    · exact ⟨hstage.step _, hmax⟩

/-- How a move bears on the count of one window, by its step if it is one. -/
theorem next_induct {id : String} (bucket : Nat) {c c' : RateConf} {mv : RateMove}
    {P : RateConf → Prop} (hregular : Regular env id max c) (hplain : Plain env id max mv)
    (hn : (rateLimiter env).next c mv = some c')
    (hspawn : ∀ r, P ⟨c.world, c.threads ++ [⟨r, (rateLimiter env).start r, []⟩]⟩)
    (helapse : ∀ elapsed, P ⟨{ c.world with clock := c.world.clock + elapsed }, c.threads⟩)
    (hstep : ∀ i t t' s', c.threads[i]? = some t →
      RateEffect (rateKey id bucket) env c.world s' t t' →
      (∀ now, rateKey id bucket = requestKey env t.req now → limitMax env t.req.caller = max) →
      (countedUnder (rateKey id bucket) t = false → countedUnder (rateKey id bucket) t' = true →
        mv = .step i .done ∧ c.waiting i = some (.incr (rateKey id bucket))) →
      P ⟨s', c.threads.set i t'⟩) : P c' := by
  cases mv with
  | spawn r =>
    cases hn
    exact hspawn r
  | env elapsed =>
    cases hn
    exact helapse elapsed
  | step i fate =>
    obtain rfl : fate = .done := hplain
    obtain ⟨r, o, k, log, hi, rfl⟩ := (rateLimiter env).next_step hn
    obtain ⟨hstage, hmax⟩ := hregular _ (List.mem_of_getElem? hi)
    refine hstep i _ _ _ hi (rateEffect (rateKey id bucket) hstage) ?_ ?_
    · intro now hkey
      exact hmax (rateKey_inj hkey).1.symm
    · intro hbefore hafter
      have ho : o = .incr (rateKey id bucket) := by
        simp only [countedUnder, decide_eq_false_iff_not, decide_eq_true_eq,
          List.mem_append, List.mem_singleton] at hbefore hafter
        exact (hafter.resolve_left hbefore).symm
      exact ⟨rfl, ho ▸ Conf.waiting_of_get hi⟩

theorem counts_next {id : String} {bucket : Nat} {c c' : RateConf} {mv : RateMove}
    (hregular : Regular env id max c) (hplain : Plain env id max mv) (htime : InTime c mv)
    (hn : (rateLimiter env).next c mv = some c') (hc : Counts (rateKey id bucket) max c) :
    Counts (rateKey id bucket) max c' := by
  refine next_induct bucket hregular hplain hn ?_ (fun _ => ⟨hc.value, hc.passing⟩) ?_
  · intro r
    exact ⟨by simpa [countedUnder] using hc.value, by simpa [countedUnder] using hc.passing⟩
  · intro i t t' s' hi he hmax hincr
    refine Counts.step hi he hmax (fun hbefore hafter => ?_) hc
    obtain ⟨rfl, hwaiting⟩ := hincr hbefore hafter
    exact htime _ hwaiting _ rfl

theorem bounded_next {id : String} {bucket : Nat} {c c' : RateConf} {mv : RateMove}
    (hregular : Regular env id max c) (hplain : Plain env id max mv)
    (hn : (rateLimiter env).next c mv = some c') (hc : Bounded (rateKey id bucket) max c) :
    Bounded (rateKey id bucket) max c' := by
  refine next_induct bucket hregular hplain hn ?_ (fun _ => ⟨hc.value, hc.refused⟩) ?_
  · intro r
    refine ⟨by simpa [countedUnder] using hc.value, fun t ht hcount hpass => ?_⟩
    obtain ht | ht := List.mem_append.mp ht
    · simpa [countedUnder] using hc.refused t ht hcount hpass
    · rw [List.mem_singleton] at ht
      subst ht
      simp [countedUnder] at hcount
  · intro i t t' s' hi he hmax _
    exact Bounded.step hi he hmax hc

theorem passes_of_admitted {t : RateThread} (h : admittedUnder key t = true) :
    (countedUnder key t && passes t.prog) = true := by
  obtain ⟨r, p, log⟩ := t
  cases p with
  | ret result => exact h
  | ask o k => simp [admittedUnder] at h

theorem not_passes_of_refused {t : RateThread} (h : refusedUnder key t = true) :
    countedUnder key t = true ∧ passes t.prog = false := by
  obtain ⟨r, p, log⟩ := t
  cases p with
  | ret result => simpa [refusedUnder, passes] using h
  | ask o k => simp [refusedUnder] at h

/-- Of the requests of one id that read one window, no more than the limit are let pass as
long as no `INCR` finds the window's counter lapsed; and if no more than the limit are made,
none is refused. -/
theorem rateLimit_bound (env : GateEnv) (clock : Nat) (id : String) (max : Int) (bucket : Nat)
    (moves : List RateMove) (hplain : ∀ mv ∈ moves, Plain env id max mv) :
    ((rateLimiter env).Always InTime ⟨{ clock }, []⟩ moves →
      (rateLimiter env).Visits
        (fun c => c.threads.countP (admittedUnder (rateKey id bucket)) ≤ max.toNat)
        ⟨{ clock }, []⟩ moves) ∧
    (rateLimiter env).Visits
      (fun c => c.threads.countP (madeUnder (rateKey id bucket)) ≤ max.toNat →
        ∀ t ∈ c.threads, refusedUnder (rateKey id bucket) t = false) ⟨{ clock }, []⟩ moves := by
  have hregular : Regular env id max ⟨{ clock }, []⟩ := fun t ht => nomatch ht
  constructor
  · intro htime
    have hall : (rateLimiter env).Always (fun c mv => Plain env id max mv ∧ InTime c mv)
        ⟨{ clock }, []⟩ moves :=
      fun pre mv post he c hr => ⟨hplain mv (by simp [he]), htime pre mv post he c hr⟩
    have hv := Machine.run_inv (fun c => Regular env id max c ∧ Counts (rateKey id bucket) max c)
      (fun c mv => Plain env id max mv ∧ InTime c mv)
      (fun c mv c' hc hg hn => ⟨regular_next hc.1 hg.1 hn, counts_next hc.1 hg.1 hg.2 hn hc.2⟩)
      ⟨hregular, rfl, Nat.zero_le _⟩ hall
    intro pre post he c hr
    exact Nat.le_trans (List.countP_mono_left fun t _ h => passes_of_admitted h)
      (hv pre post he c hr).2.passing
  · have hall : (rateLimiter env).Always (fun _ mv => Plain env id max mv) ⟨{ clock }, []⟩ moves :=
      fun pre mv post he c hr => hplain mv (by simp [he])
    have hv := Machine.run_inv (fun c => Regular env id max c ∧ Bounded (rateKey id bucket) max c)
      (fun _ mv => Plain env id max mv)
      (fun c mv c' hc hg hn => ⟨regular_next hc.1 hg hn, bounded_next hc.1 hg hn hc.2⟩)
      ⟨hregular, Nat.le_refl _, fun t ht => nomatch ht⟩ hall
    intro pre post he c hr hmade t ht
    cases hrefused : refusedUnder (rateKey id bucket) t with
    | false => rfl
    | true =>
      obtain ⟨hcounted, hpass⟩ := not_passes_of_refused hrefused
      have hfull := (hv pre post he c hr).2.refused t ht hcounted hpass
      have hle : c.threads.countP (countedUnder (rateKey id bucket)) ≤
          c.threads.countP (madeUnder (rateKey id bucket)) :=
        List.countP_mono_left fun t _ h => by simp [madeUnder, h]
      omega

end Bound

section InTime
variable {env : GateEnv}

/-- Every `INCR` is carried out in the window whose counter it raises. -/
def Promptly (env : GateEnv) (c : RateConf) : RateMove → Prop
  | .step i _ => ∀ key, c.waiting i = some (.incr key) → ∀ t, c.threads[i]? = some t →
      key = requestKey env t.req c.world.clock
  | .spawn _ | .env _ => True

instance (c : RateConf) : (mv : RateMove) → Decidable (Promptly env c mv)
  | .step i _ =>
    match h : c.waiting i, ht : c.threads[i]? with
    | some (.incr key), some t =>
      decidable_of_iff (key = requestKey env t.req c.world.clock) (by simp [Promptly, h, ht])
    | some (.incr _), none => isTrue (by simp [Promptly, ht])
    | some .now, _ => isTrue (by simp [Promptly, h])
    | some (.expire _ _), _ => isTrue (by simp [Promptly, h])
    | none, _ => isTrue (by simp [Promptly, h])
  | .spawn _ | .env _ => isTrue True.intro

def windowStart (env : GateEnv) (bucket : Nat) : Nat :=
  bucket * (1000 * env.RATE_LIMIT_WINDOW_SECONDS)

structure Timed (env : GateEnv) (c : RateConf) : Prop where
  stages : ∀ t ∈ c.threads, RateStage env t.req t.prog t.log
  begun : ∀ t ∈ c.threads, ∀ id bucket, madeUnder (rateKey id bucket) t = true →
    windowStart env bucket ≤ c.world.clock
  outlives : ∀ id bucket counter deadline, c.world.counters (rateKey id bucket) = some counter →
    counter.deadline = some deadline → windowStart env (bucket + 1) ≤ deadline

theorem not_lapsed_of_prompt {s : RateStore} {id : String} (bucket : Nat)
    (h : ∀ counter deadline, s.counters (rateKey id bucket) = some counter →
      counter.deadline = some deadline → windowStart env (bucket + 1) ≤ deadline)
    (hclock : rateBucket env s.clock = bucket) : s.Lapsed (rateKey id bucket) = false := by
  have hpos : 0 < 1000 * env.RATE_LIMIT_WINDOW_SECONDS := by
    have := env.window_pos
    omega
  have hend : s.clock < windowStart env (bucket + 1) := by
    rw [← hclock]
    exact Nat.lt_mul_of_div_lt (Nat.lt_succ_self _) hpos
  unfold RateStore.Lapsed
  cases hc : s.counters (rateKey id bucket) with
  | none => rfl
  | some counter =>
    cases hd : counter.deadline with
    | none => simp [hd]
    | some deadline =>
      have := h counter deadline hc hd
      simp only [hd, Option.any_some, decide_eq_false_iff_not]
      omega

theorem madeUnder_afterIncr (key key' : String) (r : RateRequest) (answer : Except String Nat)
    (log : List RateOp) :
    madeUnder key ⟨r, afterIncr env r key' answer, log⟩ = decide (.incr key ∈ log) := by
  cases answer with
  | error message => simp [madeUnder, countedUnder, afterIncr]
  | ok count =>
    by_cases hone : count = 1
    · simp [madeUnder, countedUnder, afterIncr, hone]
    · simp [madeUnder, countedUnder, afterIncr, hone]

theorem deadline_incremented {s : RateStore} {key : String} {deadline : Nat}
    (h : (s.incremented key).deadline = some deadline) :
    ∃ counter, s.counters key = some counter ∧ counter.deadline = some deadline := by
  unfold RateStore.incremented at h
  cases hlive : s.live key with
  | none =>
    rw [hlive] at h
    cases h
  | some counter =>
    rw [hlive] at h
    exact ⟨counter, RateStore.live_eq_some hlive, h⟩

theorem clock_handle (fate : Fate) (o : RateOp) (s : RateStore) :
    (RateStore.handle fate o s).2.clock = s.clock := by
  cases o with
  | now => rfl
  | incr key => cases fate <;> rfl
  | expire key seconds =>
    cases hlive : s.live key <;> cases fate <;> simp [RateStore.handle, Fate.settle, hlive] <;> rfl

theorem deadline_handle {o : RateOp} {s : RateStore} {key : String} {counter : Counter}
    {deadline : Nat} (h : (RateStore.handle .done o s).2.counters key = some counter)
    (hd : counter.deadline = some deadline) :
    (∃ old, s.counters key = some old ∧ old.deadline = some deadline) ∨
      ∃ seconds, o = .expire key seconds ∧ deadline = s.clock + seconds * 1000 := by
  cases o with
  | now => exact .inl ⟨counter, h, hd⟩
  | incr key' =>
    have hset : (s.setCounter key' (s.incremented key')).counters key = some counter := h
    by_cases hkey : key = key'
    · subst hkey
      simp only [RateStore.setCounter, Function.update_self, Option.some.injEq] at hset
      subst hset
      exact .inl (deadline_incremented hd)
    · simp only [RateStore.setCounter, Function.update_of_ne hkey] at hset
      exact .inl ⟨counter, hset, hd⟩
  | expire key' seconds =>
    simp only [RateStore.handle, Fate.settle] at h
    cases hlive : s.live key' with
    | none =>
      rw [hlive] at h
      exact .inl ⟨counter, h, hd⟩
    | some old =>
      rw [hlive] at h
      by_cases hkey : key = key'
      · subst hkey
        simp only [RateStore.setCounter, Function.update_self, Option.some.injEq] at h
        subst h
        exact .inr ⟨seconds, rfl, (Option.some.inj hd).symm⟩
      · simp only [RateStore.setCounter, Function.update_of_ne hkey] at h
        exact .inl ⟨counter, h, hd⟩

theorem begun_step {c : RateConf} {r : RateRequest} {o : RateOp}
    {k : o.Answer → RateProg (Except Thrown Unit)} {log : List RateOp} (hc : Timed env c)
    (ht : (⟨r, .ask o k, log⟩ : RateThread) ∈ c.threads) {id : String} {bucket : Nat}
    (hmade : madeUnder (rateKey id bucket) (⟨r, k (RateStore.handle .done o c.world).1,
      log ++ [o]⟩ : RateThread) = true) : windowStart env bucket ≤ c.world.clock := by
  have hbegun := hc.begun _ ht
  have hstage : RateStage env r (.ask o k) log := hc.stages _ ht
  generalize hp : Prog.ask o k = p at hstage
  cases hstage with
  | start =>
    cases hp
    have hkey : requestKey env r (RateStore.handle .done .now c.world).1 = rateKey id bucket := by
      simpa [madeUnder, countedUnder] using hmade
    rw [← (rateKey_inj hkey).2]
    exact Nat.div_mul_le_self _ _
  | timed now =>
    cases hp
    rw [madeUnder_afterIncr] at hmade
    have hkey : rateKey id bucket = requestKey env r now := by simpa using hmade
    exact hbegun id bucket (by simp [madeUnder, hkey])
  | counted now answer =>
    cases answer with
    | error message => cases hp
    | ok count =>
      by_cases hone : count = 1
      · subst hone
        cases hp
        have hkey : rateKey id bucket = requestKey env r now := by
          simpa [madeUnder, countedUnder] using hmade
        exact hbegun id bucket (by simp [madeUnder, countedUnder, hkey])
      · simp only [afterIncr, hone, if_false] at hp
        cases hp
  | expiring now result => cases hp
  | unlimited result => cases hp

theorem expire_step {c : RateConf} {r : RateRequest} {key : String} {seconds : Nat}
    {k : Except String Unit → RateProg (Except Thrown Unit)} {log : List RateOp} (hc : Timed env c)
    (ht : (⟨r, .ask (.expire key seconds) k, log⟩ : RateThread) ∈ c.threads) :
    seconds = env.RATE_LIMIT_WINDOW_SECONDS ∧
      madeUnder key (⟨r, .ask (.expire key seconds) k, log⟩ : RateThread) = true := by
  have hstage : RateStage env r (.ask (.expire key seconds) k) log := hc.stages _ ht
  generalize hp : (Prog.ask (RateOp.expire key seconds) k : RateProg (Except Thrown Unit)) = p
    at hstage
  cases hstage with
  | start => cases hp
  | timed now => cases hp
  | counted now answer =>
    cases answer with
    | error message => cases hp
    | ok count =>
      by_cases hone : count = 1
      · subst hone
        cases hp
        exact ⟨rfl, by simp [madeUnder, countedUnder]⟩
      · simp only [afterIncr, hone, if_false] at hp
        cases hp
  | expiring now result => cases hp
  | unlimited result => cases hp

theorem outlives_step {c : RateConf} {r : RateRequest} {o : RateOp}
    {k : o.Answer → RateProg (Except Thrown Unit)} {log : List RateOp} (hc : Timed env c)
    (ht : (⟨r, .ask o k, log⟩ : RateThread) ∈ c.threads) {id : String} {bucket : Nat}
    {counter : Counter} {deadline : Nat}
    (hcounter : (RateStore.handle .done o c.world).2.counters (rateKey id bucket) = some counter)
    (hd : counter.deadline = some deadline) : windowStart env (bucket + 1) ≤ deadline := by
  obtain ⟨old, hold, hd⟩ | ⟨seconds, rfl, rfl⟩ := deadline_handle hcounter hd
  · exact hc.outlives id bucket old deadline hold hd
  · obtain ⟨rfl, hmade⟩ := expire_step hc ht
    have hbegun := hc.begun _ ht id bucket hmade
    unfold windowStart at hbegun ⊢
    rw [Nat.succ_mul]
    omega

theorem not_madeUnder_start (key : String) (r : RateRequest) :
    madeUnder key (⟨r, (rateLimiter env).start r, []⟩ : RateThread) = false := by
  have hstage := start_rateStage env r
  generalize (rateLimiter env).start r = p at hstage
  generalize hlog : ([] : List RateOp) = log at hstage
  cases hstage with
  | start | unlimited => simp [madeUnder, countedUnder]
  | timed | counted | expiring => cases hlog

theorem timed_next {id : String} {max : Int} {c c' : RateConf} {mv : RateMove}
    (hplain : Plain env id max mv) (hn : (rateLimiter env).next c mv = some c')
    (hc : Timed env c) : Timed env c' := by
  cases mv with
  | spawn r =>
    cases hn
    refine ⟨fun t ht => ?_, fun t ht id bucket hmade => ?_, hc.outlives⟩
    · obtain ht | ht := List.mem_append.mp ht
      · exact hc.stages t ht
      · rw [List.mem_singleton.mp ht]
        exact start_rateStage env r
    · obtain ht | ht := List.mem_append.mp ht
      · exact hc.begun t ht id bucket hmade
      · rw [List.mem_singleton.mp ht, not_madeUnder_start] at hmade
        cases hmade
  | env elapsed =>
    cases hn
    exact ⟨hc.stages, fun t ht id bucket hmade =>
      Nat.le_trans (hc.begun t ht id bucket hmade) (Nat.le_add_right _ _), hc.outlives⟩
  | step i fate =>
    obtain rfl : fate = .done := hplain
    obtain ⟨r, o, k, log, hi, rfl⟩ := (rateLimiter env).next_step hn
    have hmem := List.mem_of_getElem? hi
    refine ⟨fun t ht => ?_, fun t ht id bucket hmade => ?_, fun _ _ _ _ => outlives_step hc hmem⟩
    · obtain ht | rfl := List.mem_or_eq_of_mem_set ht
      · exact hc.stages t ht
      · exact (hc.stages _ hmem).step _
    · refine Nat.le_trans ?_ (Nat.le_of_eq (clock_handle .done o c.world).symm)
      obtain ht | rfl := List.mem_or_eq_of_mem_set ht
      · exact hc.begun t ht id bucket hmade
      · exact begun_step hc hmem hmade

/-- Counting promptly is counting in time. -/
theorem inTime_of_prompt {id : String} {max : Int} {clock : Nat} {moves : List RateMove}
    (hplain : ∀ mv ∈ moves, Plain env id max mv)
    (hprompt : (rateLimiter env).Always (Promptly env) ⟨{ clock }, []⟩ moves) :
    (rateLimiter env).Always InTime ⟨{ clock }, []⟩ moves := by
  have htimed : Timed env ⟨{ clock }, []⟩ :=
    ⟨fun t ht => (nomatch ht), fun t ht => (nomatch ht), fun _ _ _ _ h => (nomatch h)⟩
  have hall : (rateLimiter env).Always (fun _ mv => Plain env id max mv) ⟨{ clock }, []⟩ moves :=
    fun pre mv post he c hr => hplain mv (by simp [he])
  have hv := Machine.run_inv (Timed env) (fun _ mv => Plain env id max mv)
    (fun c mv c' hc hg hn => timed_next hg hn hc) htimed hall
  intro pre mv post he c hr
  cases mv with
  | spawn r => trivial
  | env elapsed => trivial
  | step i fate =>
    have hc := hv pre (.step i fate :: post) he c hr
    intro o ho key hkey
    subst hkey
    obtain ⟨r, k, log, hi⟩ := Conf.get_of_waiting ho
    have hstep : Promptly env c (.step i fate) := hprompt pre (.step i fate) post he c hr
    have hnow : key = requestKey env r c.world.clock :=
      hstep key ho ⟨r, .ask (.incr key) k, log⟩ hi
    have hlapsed : c.world.Lapsed (requestKey env r c.world.clock) = false :=
      not_lapsed_of_prompt (rateBucket env c.world.clock) (hc.outlives _ _) rfl
    rw [hnow, hlapsed]
    exact Bool.false_ne_true

end InTime

namespace Sample

def onePerMinute : GateEnv :=
  { defaultGateEnv with RATE_LIMIT_MAX := 1, max_pos := by decide }

def adaRequest : RateRequest where
  caller := { tenantId := "ada" }

/-- The second request reads the clock in the last millisecond of the minute and counts in the
next minute, when the counter of the first has lapsed. -/
def lateIncr : List RateMove :=
  [.spawn adaRequest, .step 0 .done, .step 0 .done, .step 0 .done, .env 59999,
    .spawn adaRequest, .step 1 .done, .env 2, .step 1 .done, .step 1 .done]

def promptIncr : List RateMove :=
  [.spawn adaRequest, .step 0 .done, .step 0 .done, .step 0 .done, .env 59999,
    .spawn adaRequest, .step 1 .done, .step 1 .done]

/-- Two requests of one minute are let pass where one is allowed. -/
theorem lateIncr_admits_two :
    (∀ mv ∈ lateIncr, Plain onePerMinute "ada" 1 mv) ∧
      ∃ d, (rateLimiter onePerMinute).run ⟨{}, []⟩ lateIncr = some d ∧
        d.threads.countP (admittedUnder (rateKey "ada" 0)) = 2 := by
  have hlimit : limitMax onePerMinute adaRequest.caller = 1 := rfl
  exact ⟨by simp [lateIncr, Plain, hlimit], _, rfl, by decide⟩

theorem rateLimit_bound_promptIncr :
    (rateLimiter onePerMinute).Visits
      (fun c => c.threads.countP (admittedUnder (rateKey "ada" 0)) ≤ 1) ⟨{}, []⟩ promptIncr := by
  have hplain : ∀ mv ∈ promptIncr, Plain onePerMinute "ada" 1 mv := by
    have hlimit : limitMax onePerMinute adaRequest.caller = 1 := rfl
    simp [promptIncr, Plain, hlimit]
  have hprompt : (rateLimiter onePerMinute).Always (Promptly onePerMinute) ⟨{}, []⟩ promptIncr := by
    decide
  exact (rateLimit_bound onePerMinute 0 "ada" 1 0 promptIncr hplain).1
    (inTime_of_prompt hplain hprompt)

end Sample

end OcrService
