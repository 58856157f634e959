import OcrService.Interaction.Guard
import OcrService.RateLimit
import OcrService.Routes

/-! `POST /v1/ocr/:function` as it is mounted (`http/routes.ts`): `auth`, `authorizeFunction`,
`rateLimit`, `sensitivity` and the upload in front of the route body. -/
namespace OcrService
open Interaction

inductive GateOp where
  | tenant (o : TenantOp)
  | rate (o : RateOp)

abbrev GateOp.Answer : GateOp → Type
  | tenant o => o.Answer
  | rate o => o.Answer

abbrev GateProg := Prog GateOp GateOp.Answer

/-- A request as Express hands it to the first middleware; `upload` is what multer makes of
its body. -/
structure ApiPost where
  function : String
  headers : ApiHeaders := {}
  ip : Option String := none
  upload : Except Thrown (Option UploadedFile × ArgsField)
  requestId : String
  timings : Timings

structure ApiResponse where
  cacheControl : Option String := none
  response : HttpResponse

def lookedUp (env : GateEnv) (headers : ApiHeaders) : Option String :=
  if env.AUTH_ENABLED then truthy (extractApiKey headers) else none

def authenticate (tenants : TenantEnv) (env : GateEnv) (headers : ApiHeaders) :
    GateProg (Except Thrown Caller) :=
  match lookedUp env headers with
  | none => .ret (auth env (fun _ => .ok none) headers)
  | some key =>
    (resolveTenant tenants key).lift .tenant (fun _ x => x) >>= fun answer =>
      .ret (auth env (fun _ => answer) headers)

def forbidden (function : String) : Thrown :=
  .ocr { code := .FORBIDDEN
         message := "This API key is not authorized for '" ++ function ++ "'" }

/-- No list and an empty list allow every function. -/
def authorizeFunction (caller : Caller) (function : String) : Except Thrown Unit :=
  match caller.tenant.bind Tenant.allowedFunctions with
  | none | some [] => .ok ()
  | some allowed => if function ∈ allowed then .ok () else .error (forbidden function)

def sensitivity (bodies : OcrFunctionKey → FunctionBody) (function : String) : Option String :=
  match getFunction bodies function with
  | some d => if d.sensitivity = .standard then none else some "no-store, max-age=0"
  | none => none

def ApiPost.toPost (p : ApiPost) (caller : Caller) (file : Option UploadedFile)
    (args : ArgsField) : Post where
  function := p.function
  file := file
  args := args
  requestId := p.requestId
  tenantId := caller.tenantId
  timings := p.timings

def ApiPost.refused (p : ApiPost) (err : Thrown) : ApiResponse :=
  { response := errorResponse p.requestId err }

def ApiPost.accept (tenants : TenantEnv) (env : GateEnv) (bodies : OcrFunctionKey → FunctionBody)
    (p : ApiPost) : GateProg (Except ApiResponse Post) := do
  match ← authenticate tenants env p.headers with
  | .error err => .ret (.error (p.refused err))
  | .ok caller =>
    match authorizeFunction caller p.function with
    | .error err => .ret (.error (p.refused err))
    | .ok () =>
      match ← (rateLimit env ⟨caller, p.ip⟩).lift GateOp.rate fun _ x => x with
      | .error err => .ret (.error (p.refused err))
      | .ok () =>
        match p.upload with
        | .error err =>
          .ret (.error { p.refused err with cacheControl := sensitivity bodies p.function })
        | .ok (file, args) => .ret (.ok (p.toPost caller file args))

structure GateStore where
  tenants : TenantStore
  rates : RateStore := {}

structure GateChoice where
  tenant : TenantChoice := {}
  redis : Fate := .done

def GateStore.handle (ch : GateChoice) : (o : GateOp) → GateStore → o.Answer × GateStore
  | .tenant o, s =>
    ((s.tenants.handle ch.tenant o).1, { s with tenants := (s.tenants.handle ch.tenant o).2 })
  | .rate o, s =>
    ((s.rates.handle ch.redis o).1, { s with rates := (s.rates.handle ch.redis o).2 })

/-- What others may do in between: change the registry or Redis in any way, time included. -/
inductive GateEvent where
  | registry (tenants : TenantStore)
  | redis (rates : RateStore)

def GateStore.happen : GateEvent → GateStore → GateStore
  | .registry tenants, s => { s with tenants }
  | .redis rates, s => { s with rates }

section
variable (tenants : TenantEnv) (env : GateEnv) (bodies : OcrFunctionKey → FunctionBody)
  (deps : PipelineDeps)
  (recognize : OcrProvider → DocumentInput → RecognizeOptions → Except Thrown RecognizedDocument)

/-- The mounted route: the machine of the route bodies behind the middleware. -/
def gateway :
    Machine ApiPost (GateOp ⊕ ServiceOp) (Sum.elim GateOp.Answer ServiceOp.Answer) ApiResponse
      (GateChoice × Outages) (GateEvent ⊕ WorldEvent) (GateStore × World) :=
  (ocrRouter bodies deps recognize).behind (ApiPost.accept tenants env bodies)
    (fun p response => { cacheControl := sensitivity bodies p.function, response })
    GateStore.handle GateStore.happen

end

section Told
variable (told : (o : TenantOp) → o.Answer → Prop) (keyHash : String)

def Says (tenant : Tenant) : Prop :=
  (∃ entry now, told (.cacheGet keyHash) (some entry, now) ∧ now < entry.expiresAt ∧
    entry.tenant = tenant) ∨
  ∃ row, told (.select keyHash) (.ok (some row)) ∧ rowToTenant row = tenant

inductive Resolved : Except String (Option Tenant) → Prop
  | found {tenant : Tenant} : Says told keyHash tenant → tenant.disabled ≠ some true →
      Resolved (.ok (some tenant))
  | disabled {tenant : Tenant} : Says told keyHash tenant → tenant.disabled = some true →
      Resolved (.ok none)
  | unknown : told (.select keyHash) (.ok none) → Resolved (.ok none)
  | unreachable {message : String} : told (.select keyHash) (.error message) →
      Resolved (.error message)

variable {told keyHash}

theorem Resolved.unlessDisabled {tenant : Tenant} (h : Says told keyHash tenant) :
    Resolved told keyHash (.ok (unlessDisabled tenant)) := by
  by_cases hd : tenant.disabled = some true
  · simpa only [OcrService.unlessDisabled, if_pos hd] using Resolved.disabled h hd
  · simpa only [OcrService.unlessDisabled, if_neg hd] using Resolved.found h hd

theorem Says.mono {told' : (o : TenantOp) → o.Answer → Prop} {tenant : Tenant}
    (h : Says told keyHash tenant) (hm : ∀ o x, told o x → told' o x) :
    Says told' keyHash tenant := by
  obtain ⟨entry, now, hget, hnow, heq⟩ | ⟨row, hrow, heq⟩ := h
  · exact .inl ⟨entry, now, hm _ _ hget, hnow, heq⟩
  · exact .inr ⟨row, hm _ _ hrow, heq⟩

theorem Resolved.mono {told' : (o : TenantOp) → o.Answer → Prop}
    {result : Except String (Option Tenant)} (h : Resolved told keyHash result)
    (hm : ∀ o x, told o x → told' o x) : Resolved told' keyHash result := by
  cases h with
  | found h hd => exact .found (h.mono hm) hd
  | disabled h hd => exact .disabled (h.mono hm) hd
  | unknown h => exact .unknown (hm _ _ h)
  | unreachable h => exact .unreachable (hm _ _ h)

end Told

theorem resolveTenant_told {tenants : TenantEnv} {key : String}
    {h : List (Exchange TenantOp TenantOp.Answer)} {result : Except String (Option Tenant)}
    (hp : (resolveTenant tenants key).After h (.ret result)) :
    Resolved (fun o x => ⟨o, x⟩ ∈ h) (tenants.hashApiKey key) result := by
  obtain ⟨⟨found, now⟩, h₁, rfl, h₁'⟩ := Prog.after_ask_ret.mp hp
  cases hlive : liveHit found now with
  | some hit =>
    simp only [hlive, Prog.after_ret] at h₁'
    obtain ⟨rfl, hret⟩ := h₁'
    cases hret
    obtain ⟨rfl, hnow⟩ := Option.filter_eq_some_iff.mp hlive
    exact .unlessDisabled (.inl ⟨hit, now, by simp, by simpa using hnow, rfl⟩)
  | none =>
    simp only [hlive] at h₁'
    obtain ⟨answer, h₂, rfl, h₂'⟩ := Prog.after_ask_ret.mp h₁'
    obtain message | row := answer
    · obtain ⟨rfl, hret⟩ := Prog.after_ret.mp h₂'
      cases hret
      exact .unreachable (by simp)
    · cases row with
      | none =>
        obtain ⟨_, h₃, rfl, h₃'⟩ := Prog.after_ask_ret.mp h₂'
        obtain ⟨rfl, hret⟩ := Prog.after_ret.mp h₃'
        cases hret
        exact .unknown (by simp)
      | some row =>
        obtain ⟨_, h₃, rfl, h₃'⟩ := Prog.after_ask_ret.mp h₂'
        obtain ⟨rfl, hret⟩ := Prog.after_ret.mp h₃'
        cases hret
        exact .unlessDisabled (.inr ⟨row, by simp, rfl⟩)

/-- What Redis said when the limiter let a request pass, or did not: it counts in the window
of the time it reads, and what it cannot count passes. -/
inductive Limited (env : GateEnv) (r : RateRequest) (told : (o : RateOp) → o.Answer → Prop) :
    Except Thrown Unit → Prop
  | off : env.RATE_LIMIT_ENABLED = false → Limited env r told (.ok ())
  | room {now n : Nat} : told .now now → told (.incr (requestKey env r now)) (.ok n) →
      n ≤ limitMax env r.caller → Limited env r told (.ok ())
  | uncounted {now : Nat} {message : String} : told .now now →
      told (.incr (requestKey env r now)) (.error message) → Limited env r told (.ok ())
  | untimed {now : Nat} {message : String} : told .now now →
      told (.expire (requestKey env r now) env.RATE_LIMIT_WINDOW_SECONDS) (.error message) →
      Limited env r told (.ok ())
  | full {now n : Nat} : told .now now → told (.incr (requestKey env r now)) (.ok n) →
      limitMax env r.caller < n →
      Limited env r told (.error (rateLimited env (limitMax env r.caller)))

theorem Limited.mono {env : GateEnv} {r : RateRequest} {told told' : (o : RateOp) → o.Answer → Prop}
    {result : Except Thrown Unit} (h : Limited env r told result)
    (hm : ∀ o x, told o x → told' o x) : Limited env r told' result := by
  cases h with
  | off h => exact .off h
  | room hnow hincr hn => exact .room (hm _ _ hnow) (hm _ _ hincr) hn
  | uncounted hnow hincr => exact .uncounted (hm _ _ hnow) (hm _ _ hincr)
  | untimed hnow hexpire => exact .untimed (hm _ _ hnow) (hm _ _ hexpire)
  | full hnow hincr hn => exact .full (hm _ _ hnow) (hm _ _ hincr) hn

theorem Limited.verdict {env : GateEnv} {r : RateRequest} {told : (o : RateOp) → o.Answer → Prop}
    {now n : Nat} (hnow : told .now now) (hincr : told (.incr (requestKey env r now)) (.ok n)) :
    Limited env r told (limitVerdict env (limitMax env r.caller)
      (.ok (decide (n ≤ limitMax env r.caller)))) := by
  by_cases hn : n ≤ limitMax env r.caller
  · rw [decide_eq_true hn]
    exact .room hnow hincr hn
  · rw [decide_eq_false hn]
    exact .full hnow hincr (Int.not_le.mp hn)

theorem rateLimit_told {env : GateEnv} {r : RateRequest}
    {h : List (Exchange RateOp RateOp.Answer)} {result : Except Thrown Unit}
    (hp : (rateLimit env r).After h (.ret result)) :
    Limited env r (fun o x => ⟨o, x⟩ ∈ h) result := by
  by_cases hon : env.RATE_LIMIT_ENABLED = true
  · rw [rateLimit_program env r hon] at hp
    obtain ⟨now, h₁, rfl, h₁'⟩ := Prog.after_ask_ret.mp hp
    obtain ⟨answer, h₂, rfl, h₂'⟩ := Prog.after_ask_ret.mp h₁'
    obtain message | n := answer
    · obtain ⟨rfl, hret⟩ := Prog.after_ret.mp h₂'
      cases hret
      exact @Limited.uncounted env r _ now message (by simp) (by simp)
    · unfold afterIncr at h₂'
      by_cases hfirst : n = 1
      · simp only [hfirst, if_true] at h₂'
        obtain ⟨answer, h₃, rfl, h₃'⟩ := Prog.after_ask_ret.mp h₂'
        obtain ⟨rfl, hret⟩ := Prog.after_ret.mp h₃'
        cases hret
        obtain message | _ := answer
        · exact @Limited.untimed env r _ now message (by simp) (by simp)
        · exact @Limited.verdict env r _ now 1 (by simp) (by simp [hfirst])
      · simp only [hfirst, if_false] at h₂'
        obtain ⟨rfl, hret⟩ := Prog.after_ret.mp h₂'
        cases hret
        exact @Limited.verdict env r _ now n (by simp) (by simp)
  · have hoff : env.RATE_LIMIT_ENABLED = false := by simpa using hon
    simp only [rateLimit, hoff, Bool.false_eq_true, if_false, Prog.after_ret] at hp
    obtain ⟨rfl, hret⟩ := hp
    cases hret
    exact .off hoff

section Verdict
variable (tenants : TenantEnv) (env : GateEnv) (p : ApiPost)
  (h : List (Exchange GateOp GateOp.Answer))

def toldOfTenants (o : TenantOp) (x : o.Answer) : Prop := ⟨.tenant o, x⟩ ∈ h

def toldOfRates (o : RateOp) (x : o.Answer) : Prop := ⟨.rate o, x⟩ ∈ h

inductive Identified : Caller → Prop
  | anonymous : env.AUTH_ENABLED = false → Identified { tenantId := "anonymous" }
  | tenant {key : String} {tenant : Tenant} : lookedUp env p.headers = some key →
      Resolved (toldOfTenants h) (tenants.hashApiKey key) (.ok (some tenant)) →
      Identified { tenantId := tenant.tenantId, tenant := some tenant }

def Barred (caller : Caller) (function : String) : Prop :=
  ∃ tenant allowed, caller.tenant = some tenant ∧ tenant.allowedFunctions = some allowed ∧
    allowed ≠ [] ∧ function ∉ allowed

/-- Known, authorized for the function, and not over the limit. -/
structure Cleared (caller : Caller) : Prop where
  identified : Identified tenants env p h caller
  authorized : ¬ Barred caller p.function
  limited : Limited env ⟨caller, p.ip⟩ (toldOfRates h) (.ok ())

/-- The status a request is refused with, and why. -/
inductive Refused : Nat → Prop
  | nameless : env.AUTH_ENABLED = true → lookedUp env p.headers = none → Refused 401
  | unknown {key : String} : lookedUp env p.headers = some key →
      Resolved (toldOfTenants h) (tenants.hashApiKey key) (.ok none) → Refused 401
  | unreachable {key message : String} : lookedUp env p.headers = some key →
      Resolved (toldOfTenants h) (tenants.hashApiKey key) (.error message) → Refused 503
  | barred {caller : Caller} : Identified tenants env p h caller → Barred caller p.function →
      Refused 403
  | limited {caller : Caller} {err : Thrown} : Identified tenants env p h caller →
      ¬ Barred caller p.function → Limited env ⟨caller, p.ip⟩ (toldOfRates h) (.error err) →
      Refused 429
  | unread {caller : Caller} {err : Thrown} : Cleared tenants env p h caller →
      p.upload = .error err → Refused (errorHandler p.requestId err).1

end Verdict

section Verdict
variable {tenants : TenantEnv} {env : GateEnv} {bodies : OcrFunctionKey → FunctionBody}
  {p : ApiPost} {h h' : List (Exchange GateOp GateOp.Answer)}

theorem Identified.mono {caller : Caller} (hi : Identified tenants env p h caller)
    (hm : h ⊆ h') : Identified tenants env p h' caller := by
  cases hi with
  | anonymous hoff => exact .anonymous hoff
  | tenant hkey hfound => exact .tenant hkey (hfound.mono fun _ _ hmem => hm hmem)

theorem authorizeFunction_iff (caller : Caller) (function : String) :
    authorizeFunction caller function = .ok () ∧ ¬ Barred caller function ∨
      authorizeFunction caller function = .error (forbidden function) ∧
        Barred caller function := by
  have hbarred : Barred caller function ↔ ∃ allowed,
      caller.tenant.bind Tenant.allowedFunctions = some allowed ∧ allowed ≠ [] ∧
        function ∉ allowed := by
    simp only [Barred, Option.bind_eq_some_iff]
    constructor
    · rintro ⟨tenant, allowed, ht, ha, hne, hmem⟩
      exact ⟨allowed, ⟨tenant, ht, ha⟩, hne, hmem⟩
    · rintro ⟨allowed, ⟨tenant, ht, ha⟩, hne, hmem⟩
      exact ⟨tenant, allowed, ht, ha, hne, hmem⟩
  rw [hbarred]
  unfold authorizeFunction
  cases caller.tenant.bind Tenant.allowedFunctions with
  | none => exact .inl ⟨rfl, by simp⟩
  | some allowed =>
    cases allowed with
    | nil => exact .inl ⟨rfl, by simp⟩
    | cons f fs =>
      by_cases hmem : function ∈ f :: fs
      · refine .inl ⟨if_pos hmem, ?_⟩
        rintro ⟨allowed, heq, -, hnot⟩
        cases heq
        exact hnot hmem
      · exact .inr ⟨if_neg hmem, _, rfl, by simp, hmem⟩

theorem authenticate_told {result : Except Thrown Caller}
    (hp : (authenticate tenants env p.headers).After h (.ret result)) :
    (∃ caller, result = .ok caller ∧ Identified tenants env p h caller) ∨
      ∃ err, result = .error err ∧
        Refused tenants env p h (errorHandler p.requestId err).1 := by
  unfold authenticate at hp
  cases hkey : lookedUp env p.headers with
  | none =>
    simp only [hkey, Prog.after_ret] at hp
    obtain ⟨rfl, hret⟩ := hp
    cases hret
    unfold auth
    by_cases hon : env.AUTH_ENABLED = true
    · simp only [lookedUp, if_pos hon] at hkey
      simp only [if_pos hon, hkey]
      exact .inr ⟨_, rfl, .nameless hon (by rw [lookedUp, if_pos hon, hkey])⟩
    · rw [if_neg hon]
      exact .inl ⟨_, rfl, .anonymous (by simpa using hon)⟩
  | some key =>
    simp only [hkey] at hp
    obtain ⟨h₁, h₂, answer, rfl, hlift, hret⟩ := Prog.after_bind_ret.mp hp
    obtain ⟨rfl, hret⟩ := Prog.after_ret.mp hret
    cases hret
    obtain ⟨ht, hresolve, hall⟩ := Prog.after_lift_ret hlift
    have htold : Resolved (toldOfTenants (h₁ ++ [])) (tenants.hashApiKey key) answer := by
      refine (resolveTenant_told hresolve).mono fun o x hmem => ?_
      obtain ⟨y, rfl, hy⟩ := Prog.LiftOf.mem hall hmem
      rwa [toldOfTenants, List.append_nil]
    have hon : env.AUTH_ENABLED = true := by
      by_contra hoff
      simp [lookedUp, hoff] at hkey
    have htruthy : truthy (extractApiKey p.headers) = some key := by
      simpa only [lookedUp, if_pos hon] using hkey
    simp only [auth, if_pos hon, htruthy]
    obtain message | found := answer
    · exact .inr ⟨_, rfl, .unreachable hkey htold⟩
    · cases found with
      | none => exact .inr ⟨_, rfl, .unknown hkey htold⟩
      | some tenant => exact .inl ⟨_, rfl, .tenant hkey htold⟩

/-- The middleware passes on exactly the cleared requests, as the caller's own; every other
one it answers itself. -/
theorem accept_told {result : Except ApiResponse Post}
    (hp : (p.accept tenants env bodies).After h (.ret result)) :
    (∃ r, result = .error r ∧ Refused tenants env p h r.response.status) ∨
      ∃ caller file args, result = .ok (p.toPost caller file args) ∧
        p.upload = .ok (file, args) ∧ Cleared tenants env p h caller := by
  obtain ⟨h₁, h₂, who, rfl, hauth, hp⟩ := Prog.after_bind_ret.mp hp
  obtain ⟨caller, rfl, hcaller⟩ | ⟨err, rfl, hrefused⟩ := authenticate_told hauth
  · have hcaller' := hcaller.mono (List.subset_append_left h₁ h₂)
    obtain ⟨hok, hauthorized⟩ | ⟨herr, hbarred⟩ :=
      authorizeFunction_iff caller p.function
    · simp only [hok] at hp
      obtain ⟨h₃, h₄, verdict, rfl, hlift, hp⟩ := Prog.after_bind_ret.mp hp
      obtain ⟨ht, hlimit, hall⟩ := Prog.after_lift_ret hlift
      have htold : Limited env ⟨caller, p.ip⟩ (toldOfRates (h₁ ++ (h₃ ++ h₄))) verdict := by
        refine (rateLimit_told hlimit).mono fun o x hmem => ?_
        obtain ⟨y, rfl, hy⟩ := Prog.LiftOf.mem hall hmem
        exact List.mem_append_right _ (List.mem_append_left _ hy)
      obtain err | _ := verdict
      · obtain ⟨rfl, hret⟩ := Prog.after_ret.mp hp
        cases hret
        refine .inl ⟨_, rfl, ?_⟩
        cases htold with
        | full hnow hincr hn => exact .limited hcaller' hauthorized (.full hnow hincr hn)
      · have hcleared : Cleared tenants env p (h₁ ++ (h₃ ++ h₄)) caller :=
          ⟨hcaller', hauthorized, htold⟩
        cases hupload : p.upload with
        | error err =>
          simp only [hupload, Prog.after_ret] at hp
          obtain ⟨rfl, hret⟩ := hp
          cases hret
          exact .inl ⟨_, rfl, .unread hcleared hupload⟩
        | ok parts =>
          simp only [hupload, Prog.after_ret] at hp
          obtain ⟨rfl, hret⟩ := hp
          cases hret
          exact .inr ⟨caller, parts.1, parts.2, rfl, rfl, hcleared⟩
    · simp only [herr, Prog.after_ret] at hp
      obtain ⟨rfl, hret⟩ := hp
      cases hret
      exact .inl ⟨_, rfl, .barred hcaller' hbarred⟩
  · obtain ⟨rfl, hret⟩ := Prog.after_ret.mp hp
    cases hret
    rw [List.append_nil]
    exact .inl ⟨_, rfl, hrefused⟩

end Verdict

section Runs
variable {tenants : TenantEnv} {env : GateEnv} {bodies : OcrFunctionKey → FunctionBody}
  {deps : PipelineDeps}
  {recognize : OcrProvider → DocumentInput → RecognizeOptions → Except Thrown RecognizedDocument}

/-- In every interleaving, whatever others do to the registry and to Redis: a request asks the
service for something only once it is cleared, and one that is answered was either refused, for
the reason its status gives, or answered as the route body answers the caller it was cleared
for. -/
theorem gateway_verdict {s : GateStore × World}
    {moves : List (Move ApiPost (GateChoice × Outages) (GateEvent ⊕ WorldEvent))}
    {c : Conf ApiPost (GateOp ⊕ ServiceOp) (Sum.elim GateOp.Answer ServiceOp.Answer) ApiResponse
      (GateStore × World)}
    (hc : (gateway tenants env bodies deps recognize).run ⟨s, []⟩ moves = some c) (i : Nat)
    {t : Thread ApiPost (GateOp ⊕ ServiceOp) (Sum.elim GateOp.Answer ServiceOp.Answer) ApiResponse}
    (hi : c.threads[i]? = some t) :
    ∃ h hs, (gateway tenants env bodies deps recognize).history i ⟨s, []⟩ moves =
        h.map Prog.guardPart ++ hs.map Prog.servicePart ∧
      (hs ≠ [] → ∃ caller, Cleared tenants env t.req h caller) ∧
      ∀ r, t.prog = .ret r →
        hs = [] ∧ Refused tenants env t.req h r.response.status ∨
        ∃ caller file args, Cleared tenants env t.req h caller ∧ t.req.upload = .ok (file, args) ∧
          r.cacheControl = sensitivity bodies t.req.function ∧
          (postFunction bodies deps (t.req.toPost caller file args)).After hs
            (.ret r.response) := by
  obtain ⟨hafter, -⟩ := Machine.run_after hc hi
  obtain ⟨h, g, hhist, hguard, hprog⟩ | ⟨h, hs, post, q, hhist, hguard, hserve, hprog⟩ :=
    Prog.after_behind hafter
  · refine ⟨h, [], by simpa using hhist, nofun, fun r hr => ?_⟩
    rw [hr] at hprog
    cases g with
    | ask o k => cases hprog
    | ret result =>
      obtain ⟨r', rfl, hrefused⟩ | ⟨caller, file, args, rfl, hupload, hcleared⟩ :=
        accept_told hguard
      · cases hprog
        exact .inl ⟨rfl, hrefused⟩
      · -- The route body has nothing to ask.
        have hbody : (.ret r : Prog (GateOp ⊕ ServiceOp) _ ApiResponse) =
            (postFunction bodies deps (t.req.toPost caller file args)).served _ _ := hprog
        cases hpost : postFunction bodies deps (t.req.toPost caller file args) with
        | ask o k =>
          rw [hpost] at hbody
          cases hbody
        | ret response =>
          rw [hpost] at hbody
          cases hbody
          exact .inr ⟨caller, file, args, hcleared, hupload, rfl, by rw [hpost]; exact .refl _⟩
  · obtain ⟨r', hr', -⟩ | ⟨caller, file, args, heq, hupload, hcleared⟩ := accept_told hguard
    · cases hr'
    · cases heq
      refine ⟨h, hs, hhist, fun _ => ⟨caller, hcleared⟩, fun r hr => .inr ?_⟩
      rw [hr] at hprog
      cases q with
      | ask o k => cases hprog
      | ret response =>
        cases hprog
        exact ⟨caller, file, args, hcleared, hupload, rfl, hserve⟩

/-- Without the middleware, a run of the mounted route is a run of the route bodies in the same
world, up to the same state of it: its requests are the ones that the middleware has passed on,
each as its caller's own and answered alike. The others have asked the service for nothing, and
those of them that are answered were refused. -/
theorem gateway_refines_ocrRouter {s : GateStore × World}
    {moves : List (Move ApiPost (GateChoice × Outages) (GateEvent ⊕ WorldEvent))}
    {c : Conf ApiPost (GateOp ⊕ ServiceOp) (Sum.elim GateOp.Answer ServiceOp.Answer) ApiResponse
      (GateStore × World)}
    (hc : (gateway tenants env bodies deps recognize).run ⟨s, []⟩ moves = some c) :
    ∃ moves' d, ∃ ids : List Nat, (ocrRouter bodies deps recognize).run ⟨s.2, []⟩ moves' = some d ∧
      d.world = c.world.2 ∧ ids.Nodup ∧ ids.length = d.threads.length ∧
      (∀ j i : Nat, ids[j]? = some i → ∃ t t' h caller file args, c.threads[i]? = some t ∧
        d.threads[j]? = some t' ∧ Cleared tenants env t.req h caller ∧
        t.req.upload = .ok (file, args) ∧ t'.req = t.req.toPost caller file args ∧
        t.log = h.map (fun e => .inl e.op) ++ t'.log.map .inr ∧
        t.prog.result? = t'.prog.result?.map fun response =>
          { cacheControl := sensitivity bodies t.req.function, response }) ∧
      ∀ (i : Nat) t, c.threads[i]? = some t → i ∉ ids → ∃ h, t.log = h.map (fun e => .inl e.op) ∧
        ∀ r, t.prog = .ret r → Refused tenants env t.req h r.response.status := by
  obtain ⟨moves', d, ids, hd, hs⟩ := Machine.run_behind hc
  refine ⟨moves', d, ids, hd, hs.world, hs.nodup, hs.length, ?_, ?_⟩
  · intro j i hj
    obtain ⟨t, t', ht, ht', h, hguard, hprog, hlog⟩ := hs.passed j i hj
    obtain ⟨r, hr, -⟩ | ⟨caller, file, args, heq, hupload, hcleared⟩ := accept_told hguard
    · cases hr
    · refine ⟨t, t', h, caller, file, args, ht, ht', hcleared, hupload, Except.ok.inj heq, hlog, ?_⟩
      rw [hprog]
      cases t'.prog <;> rfl
  · intro i t ht hi
    obtain ⟨h, g, hguard, hprog, hlog, hnot⟩ := hs.examined i t ht hi
    refine ⟨h, hlog, fun r hr => ?_⟩
    rw [hr] at hprog
    cases g with
    | ask o k => cases hprog
    | ret result =>
      obtain ⟨_, rfl, hrefused⟩ | ⟨caller, file, args, rfl, -⟩ := accept_told hguard
      · cases hprog
        exact hrefused
      · exact absurd rfl (hnot _)

end Runs

namespace Sample

def texts : TenantRow where
  key_hash := "key"
  tenant_id := "texts"
  name := none
  disabled := false
  rate_limit := some 1
  allowed_origins := none
  allowed_functions := some [OcrFunctionKey.TEXT_EXTRACTION.name]
  created_at := 0

def textsEnv : TenantEnv where
  sha256 apiKey := apiKey
  API_KEY_CACHE_TTL_SECONDS := 60

def apiPost (function : OcrFunctionKey) : ApiPost where
  function := function.name
  headers := { xApiKey := some "key" }
  upload := .ok (some ⟨[0x89], "scan.png"⟩, .missing)
  requestId := "r1"
  timings := timings

def mounted :
    Machine ApiPost (GateOp ⊕ ServiceOp) (Sum.elim GateOp.Answer ServiceOp.Answer) ApiResponse
      (GateChoice × Outages) (GateEvent ⊕ WorldEvent) (GateStore × World) :=
  gateway textsEnv defaultGateEnv (fun _ => body) deps (surroundings []).recognize

def textsOnly : GateStore where
  tenants := { tenants := { rows := [texts], nodup := by decide } }

def cardAndText : List (Move ApiPost (GateChoice × Outages) (GateEvent ⊕ WorldEvent)) :=
  [.spawn (apiPost .ID_VERIFICATION), .spawn (apiPost .TEXT_EXTRACTION)] ++
    List.replicate 3 (.step 0 ({}, {})) ++ List.replicate 5 (.step 1 ({}, {}))

end Sample

/-- Both of these requests, in the world they leave. -/
theorem gateway_refines_ocrRouter_mixed :
    ∃ c, Sample.mounted.run ⟨(Sample.textsOnly, {}), []⟩ Sample.cardAndText = some c ∧
      ∃ moves' d, ∃ ids : List Nat, (ocrRouter (fun _ => Sample.body) Sample.deps
        (Sample.surroundings []).recognize).run ⟨{}, []⟩ moves' = some d ∧
      d.world = c.world.2 ∧ ids.length = d.threads.length ∧ 1 ∈ ids := by
  have hrun : Sample.mounted.run ⟨(Sample.textsOnly, {}), []⟩ Sample.cardAndText = some _ := rfl
  obtain ⟨moves', d, ids, hd, hworld, -, hlength, -, hothers⟩ := gateway_refines_ocrRouter hrun
  refine ⟨_, rfl, moves', d, ids, hd, hworld, hlength, ?_⟩
  by_contra hout
  obtain ⟨h, hlog, -⟩ := hothers 1 _ rfl hout
  have hserved : (h.map fun e => (Sum.inl e.op : GateOp ⊕ ServiceOp)).any Sum.isRight = true :=
    hlog ▸ rfl
  obtain ⟨o, hmem, ho⟩ := List.any_eq_true.mp hserved
  obtain ⟨e, -, rfl⟩ := List.mem_map.mp hmem
  cases ho

theorem gateway_verdict_mixed :
    ∃ c t t' r, Sample.mounted.run ⟨(Sample.textsOnly, {}), []⟩ Sample.cardAndText = some c ∧
      c.threads[0]? = some t ∧ t.prog = .ret r ∧ r.response.status = 403 ∧
      (∃ h, Refused Sample.textsEnv defaultGateEnv t.req h 403) ∧ c.threads[1]? = some t' ∧
      ∃ h caller, Cleared Sample.textsEnv defaultGateEnv t'.req h caller := by
  have hrun : Sample.mounted.run ⟨(Sample.textsOnly, {}), []⟩ Sample.cardAndText = some _ := rfl
  obtain ⟨h, hs, -, -, hanswer⟩ := gateway_verdict hrun 0 rfl
  obtain ⟨h', hs', hhist', hcleared, -⟩ := gateway_verdict hrun 1 rfl
  refine ⟨_, _, _, _, rfl, rfl, rfl, rfl, ?_, rfl, h', ?_⟩
  · obtain ⟨-, hrefused⟩ | ⟨caller, file, args, -, -, hcache, -⟩ := hanswer _ rfl
    · exact ⟨h, hrefused⟩
    · exact absurd hcache (by decide)
  · refine hcleared ?_
    rintro rfl
    have hasked : ((Sample.mounted.history 1 ⟨(Sample.textsOnly, {}), []⟩ Sample.cardAndText).any
        fun e => e.op.isRight) = true := rfl
    rw [show Sample.mounted.history 1 _ _ = _ from hhist', List.any_eq_true] at hasked
    obtain ⟨e, hmem, he⟩ := hasked
    obtain ⟨e', -, rfl⟩ : ∃ e' ∈ h', Prog.guardPart e' = e := by simpa using hmem
    cases he

end OcrService
