import OcrService.Functions
import OcrService.Interaction.Answers
import OcrService.SessionRuns
import OcrService.Tenants

/-! The whole JSON API of the admin console (`http/admin/routes.ts`): who may do what, over
every interleaving of its requests. -/
namespace OcrService
open Interaction

inductive Report where
  | metricsSummary | tenantUsage | queueStats | redisPing | selectOne

/-- An operation of the registry of admins or of their sessions, one of the registry of
tenants, or a read of a whole table or of something outside both. -/
inductive ApiOp where
  | console (o : ConsoleOp)
  | tenant (o : TenantOp)
  | listAdmins
  | listTenants
  | report (r : Report)

abbrev ApiOp.Answer : ApiOp → Type
  | console o => o.Answer
  | tenant o => o.Answer
  | listAdmins => Except String (List AdminRow)
  | listTenants => Except String (List TenantRow)
  | report _ => Except String JsValue

structure ApiStore where
  admin : AdminStore
  tenant : TenantStore

structure ApiChoice where
  fate : Fate := .done
  tenant : TenantChoice := {}
  report : Except String JsValue := .ok .null

/-- The lists come in the order of `created_at`. -/
def ApiStore.handle (ch : ApiChoice) : (o : ApiOp) → ApiStore → o.Answer × ApiStore
  | .console o, s =>
    ((s.admin.handleConsole ch.fate o).1, { s with admin := (s.admin.handleConsole ch.fate o).2 })
  | .tenant o, s =>
    ((s.tenant.handle ch.tenant o).1, { s with tenant := (s.tenant.handle ch.tenant o).2 })
  | .listAdmins, s =>
    ch.fate.settle .error s
      (.ok (s.admin.admins.rows.mergeSort fun r r' => r.created_at ≤ r'.created_at), s)
  | .listTenants, s =>
    ch.fate.settle .error s
      (.ok (s.tenant.tenants.rows.mergeSort fun r r' => r.created_at ≤ r'.created_at), s)
  | .report _, s => (ch.report, s)

abbrev ApiProg := Prog ApiOp ApiOp.Answer

def ConsoleProg.onApi {α : Type} (p : ConsoleProg α) : ApiProg α := p.lift .console fun _ x => x

def TenantProg.onApi {α : Type} (p : TenantProg α) : ApiProg α := p.lift .tenant fun _ x => x

structure ApiEnv extends ConsoleEnv where
  tenants : TenantEnv
  bodies : OcrFunctionKey → FunctionBody
  GLM_ENABLED : Bool
  AZURE_OPENAI_ENABLED : Bool
  VERSION : String

structure CreateTenantInput where
  tenantId : String
  name : Option String := none
  rateLimit : Option Int := none
  allowedFunctions : Option (List String) := none
  allowedOrigins : Option (List String) := none

/-- `{ ...parsed.data, createdAt: new Date().toISOString() }`. -/
def CreateTenantInput.toTenant (input : CreateTenantInput) (now : Nat) : Tenant where
  tenantId := input.tenantId
  name := input.name
  rateLimit := input.rateLimit
  allowedOrigins := input.allowedOrigins
  allowedFunctions := input.allowedFunctions
  createdAt := some now

/-- The routes behind a role; `apiKey` is what `generateApiKey` draws. -/
inductive ApiRoute where
  | getAdmins
  | postAdmin (draws : Draws) (parsed : Parsed CreateAdminInput)
  | patchAdmin (draws : Draws) (id : String) (parsed : Parsed UpdateAdminInput)
  | deleteAdmin (id : String)
  | getTenants
  | postTenant (apiKey : String) (now : Nat) (parsed : Parsed CreateTenantInput)
  | patchTenant (keyHash : String) (parsed : Parsed TenantPatch)
  | deleteTenant (keyHash : String)
  | getFunctions
  | getMetricsSummary
  | getUsage
  | getQueue
  | getHealth

def ApiRoute.min : ApiRoute → AdminRole
  | getAdmins | postAdmin _ _ | patchAdmin _ _ _ | deleteAdmin _ => .owner
  | postTenant _ _ _ | patchTenant _ _ | deleteTenant _ => .manager
  | getTenants | getFunctions | getMetricsSummary | getUsage | getQueue | getHealth => .viewer

inductive ApiReply where
  | console (reply : ConsoleReply)
  | me (user : PublicUser) (role : AdminRole)
  | admins (views : List AdminView)
  | tenants (listed : List (String × Tenant))
  | provisioned (tenant : Tenant) (apiKey : String)
  | tenant (tenant : Tenant)
  | json (body : JsValue)

def ApiReply.error (status : Nat) (code message : String) : ApiReply :=
  .console (.admin (sendError status code message))

def listAdmins : ApiProg (Except String (List AdminView)) :=
  .ask .listAdmins fun answer =>
    .ret (answer.map fun rows => rows.map fun r => toView (rowToRecord r))

def listTenants : ApiProg (Except String (List (String × Tenant))) :=
  .ask .listTenants fun answer =>
    .ret (answer.map fun rows => rows.map fun row => (row.key_hash, rowToTenant row))

def report (r : Report) : ApiProg (Except String ApiReply) :=
  .ask (.report r) fun answer => .ret (answer.map .json)

def health (env : ApiEnv) : ApiProg (Except String ApiReply) :=
  .ask (.report .redisPing) fun pong =>
    .ask (.report .selectOne) fun one =>
      .ret (.ok (.json (.obj [("status", .str "ok"),
        ("redis", .bool (match pong with | .ok (.str "PONG") => true | _ => false)),
        ("postgres", .bool (match one with | .ok _ => true | .error _ => false)),
        ("providers", .obj [("tesseract", .bool true), ("glm", .bool env.GLM_ENABLED),
          ("azureOpenAI", .bool env.AZURE_OPENAI_ENABLED)]),
        ("version", .str env.VERSION)])))

def postTenant (env : ApiEnv) (apiKey : String) (now : Nat) (parsed : Parsed CreateTenantInput) :
    ApiProg (Except String ApiReply) :=
  match parsed with
  | .error message =>
    .ret (.ok (.error 400 "INVALID_ARGS" (message.getD "Invalid tenant")))
  | .ok input => do
    match ← (putTenant env.tenants apiKey (input.toTenant now)).onApi with
    | .error message => .ret (.error message)
    | .ok () => .ret (.ok (.provisioned (input.toTenant now) apiKey))

def patchTenant (keyHash : String) (parsed : Parsed TenantPatch) :
    ApiProg (Except String ApiReply) :=
  match parsed with
  | .error message =>
    .ret (.ok (.error 400 "INVALID_ARGS" (message.getD "Invalid update")))
  | .ok patch => do
    match ← (updateTenantByHash keyHash patch).onApi with
    | .error message => .ret (.error message)
    | .ok none => .ret (.ok (.error 404 "NOT_FOUND" "No such tenant"))
    | .ok (some tenant) => .ret (.ok (.tenant tenant))

def deleteTenant (keyHash : String) : ApiProg (Except String ApiReply) := do
  match ← (revokeByHash keyHash).onApi with
  | .error message => .ret (.error message)
  | .ok removed =>
    if removed = 0 then .ret (.ok (.error 404 "NOT_FOUND" "No such tenant"))
    else .ret (.ok (.console (.admin ⟨200, .ok⟩)))

def onAdmins (body : AdminProg (Except String AdminResponse)) :
    ApiProg (Except String ApiReply) := do
  return (← body.onConsole.onApi).map fun response => .console (.admin response)

def ApiRoute.body (env : ApiEnv) : ApiRoute → ApiProg (Except String ApiReply)
  | getAdmins => do return (← listAdmins).map .admins
  | postAdmin draws parsed => onAdmins (OcrService.postAdmin draws parsed)
  | patchAdmin draws id parsed => onAdmins (OcrService.patchAdmin draws id parsed)
  | deleteAdmin id => onAdmins (removeAdmin id)
  | getTenants => do return (← listTenants).map .tenants
  | postTenant apiKey now parsed => OcrService.postTenant env apiKey now parsed
  | patchTenant keyHash parsed => OcrService.patchTenant keyHash parsed
  | deleteTenant keyHash => OcrService.deleteTenant keyHash
  | getFunctions =>
    .ret (.ok (.json (.arr ((definitions env.bodies).map fun d => .str d.key.name))))
  | getMetricsSummary => report .metricsSummary
  | getUsage => report .tenantUsage
  | getQueue => report .queueStats
  | getHealth => health env

def apiHandler (fn : ApiProg (Except String ApiReply)) : ApiProg ApiReply := do
  match ← fn with
  | .ok reply => .ret reply
  | .error _ => .ret (.error 500 "INTERNAL" "Unexpected error")

def ApiRoute.serve (env : ApiEnv) (token : Option String) (route : ApiRoute) :
    ApiProg ApiReply := do
  match ← (gate token route.min).onConsole.onApi with
  | .error response => .ret (.console (.admin response))
  | .ok _ => apiHandler (route.body env)

def me (token : Option String) : ApiProg ApiReply := do
  match ← (adminAuth token).onConsole.onApi with
  | .error response => .ret (.console (.admin response))
  | .ok session =>
    .ask (.console (.admin (.selectById session.userId))) fun
    | .error _ => .ret (.error 500 "INTERNAL" "Unexpected error")
    | .ok none => .ret (.error 401 "UNAUTHORIZED" "Account no longer exists")
    | .ok (some row) => .ret (.me (publicUser (rowToRecord row)) row.role)

inductive ApiRequest where
  | login (r : LoginRequest)
  | logout (token : Option String)
  | me (token : Option String)
  | route (token : Option String) (route : ApiRoute)

def ApiRequest.token : ApiRequest → Option String
  | login _ => none
  | logout token | me token | route token _ => token

def ApiRequest.program (env : ApiEnv) : ApiRequest → ApiProg ApiReply
  | login r => do return .console (← (OcrService.login env.toConsoleEnv r).onApi)
  | logout token => do return .console (← (OcrService.logout token).onApi)
  | me token => OcrService.me token
  | route token served => served.serve env token

inductive ApiEvent where
  | elapse (ms : Nat)
  | expire (token : String)

def ApiStore.happen : ApiEvent → ApiStore → ApiStore
  | .elapse ms, s => { s with tenant := { s.tenant with clock := s.tenant.clock + ms } }
  | .expire token, s => { s with admin := s.admin.setSession token none }

def adminApi (env : ApiEnv) :
    Machine ApiRequest ApiOp ApiOp.Answer ApiReply ApiChoice ApiEvent ApiStore where
  start := ApiRequest.program env
  handle := ApiStore.handle
  env := ApiStore.happen

def ApiOp.needs : ApiOp → Option AdminRole
  | console (.admin (.insert _)) | console (.admin (.update _)) | console (.admin (.delete _))
  | console (.admin .countOwners) | listAdmins => some .owner
  | tenant _ => some .manager
  | listTenants | report _ | console (.sessionDel _) => some .viewer
  | console (.admin (.sessionGet _)) | console (.admin (.selectById _))
  | console (.admin (.selectByEmail _)) | console (.sessionSet _ _ _) => none

section Permission
variable (env : ApiEnv) (h : List (Exchange ApiOp ApiOp.Answer))

/-- The history names a session under the token, and an enabled admin of at least that role
under the session's id. -/
def SignedIn (token : Option String) (min : AdminRole) : Prop :=
  ∃ text session row, token = some text ∧
    ⟨.console (.admin (.sessionGet text)), .ok (some session)⟩ ∈ h ∧
    ⟨.console (.admin (.selectById session.userId)), .ok (some row)⟩ ∈ h ∧
    row.disabled = false ∧ min.rank ≤ row.role.rank

/-- The history names an enabled admin under the email of the login, and the password is
theirs. -/
def PasswordOk (r : LoginRequest) (row : AdminRow) : Prop :=
  ∃ email password, loginSchema r.body = some (email, password) ∧
    ⟨.console (.admin (.selectByEmail (normalizeEmail email))), .ok (some row)⟩ ∈ h ∧
    row.disabled = false ∧ env.argonVerify row.password_hash password = true

/-- The history names a session under the token that is this admin's. -/
def OwnAccount (token : Option String) (id : String) : Prop :=
  ∃ text session, token = some text ∧
    ⟨.console (.admin (.sessionGet text)), .ok (some session)⟩ ∈ h ∧ session.userId = id

/-- It is the email of the request's own login. -/
def OwnEmail (r : ApiRequest) (email : String) : Prop :=
  ∃ l given password, r = .login l ∧ loginSchema l.body = some (given, password) ∧
    email = normalizeEmail given

/-- What has to have happened before a request performs an operation. -/
structure Permitted (r : ApiRequest) (o : ApiOp) : Prop where
  role : ∀ min ∈ o.needs, SignedIn h r.token min
  byId : ∀ id, o = .console (.admin (.selectById id)) →
    SignedIn h r.token .owner ∨ OwnAccount h r.token id
  byEmail : ∀ email, o = .console (.admin (.selectByEmail email)) →
    SignedIn h r.token .owner ∨ OwnEmail r email
  opened : ∀ token session ttl, o = .console (.sessionSet token session ttl) →
    ∃ l row, r = .login l ∧ token = l.token.text ∧ session = ⟨row.id, row.role⟩ ∧
      PasswordOk env h l row
  closed : ∀ token, o = .console (.sessionDel token) → r = .logout (some token)

end Permission

section Permission
variable {env : ApiEnv} {h h' : List (Exchange ApiOp ApiOp.Answer)} {token : Option String}

theorem SignedIn.mono {min : AdminRole} (hs : SignedIn h token min) (hm : h ⊆ h') :
    SignedIn h' token min := by
  obtain ⟨text, session, row, htoken, hget, hselect, hrow⟩ := hs
  exact ⟨text, session, row, htoken, hm hget, hm hselect, hrow⟩

theorem SignedIn.weaken {min min' : AdminRole} (hs : SignedIn h token min)
    (hle : min'.rank ≤ min.rank) : SignedIn h token min' := by
  obtain ⟨text, session, row, htoken, hget, hselect, henabled, hrank⟩ := hs
  exact ⟨text, session, row, htoken, hget, hselect, henabled, Nat.le_trans hle hrank⟩

theorem OwnAccount.mono {id : String} (hs : OwnAccount h token id) (hm : h ⊆ h') :
    OwnAccount h' token id := by
  obtain ⟨text, session, htoken, hget, hid⟩ := hs
  exact ⟨text, session, htoken, hm hget, hid⟩

theorem PasswordOk.mono {l : LoginRequest} {row : AdminRow} (hp : PasswordOk env h l row)
    (hm : h ⊆ h') : PasswordOk env h' l row := by
  obtain ⟨email, password, hbody, hselect, hrow⟩ := hp
  exact ⟨email, password, hbody, hm hselect, hrow⟩

theorem Permitted.mono {r : ApiRequest} {o : ApiOp} (hp : Permitted env h r o) (hm : h ⊆ h') :
    Permitted env h' r o where
  role min hmin := (hp.role min hmin).mono hm
  byId id ho := (hp.byId id ho).imp (·.mono hm) (·.mono hm)
  byEmail email ho := (hp.byEmail email ho).imp_left (·.mono hm)
  opened token session ttl ho := by
    obtain ⟨l, row, hl, htoken, hsession, hpassword⟩ := hp.opened token session ttl ho
    exact ⟨l, row, hl, htoken, hsession, hpassword.mono hm⟩
  closed := hp.closed

theorem permitted_sessionGet (r : ApiRequest) (text : String) :
    Permitted env h r (.console (.admin (.sessionGet text))) where
  role _ hmin := by cases hmin
  byId _ ho := by cases ho
  byEmail _ ho := by cases ho
  opened _ _ _ ho := by cases ho
  closed _ ho := by cases ho

theorem OwnAccount.permitted {r : ApiRequest} {id : String} (hown : OwnAccount h r.token id) :
    Permitted env h r (.console (.admin (.selectById id))) where
  role _ hmin := by cases hmin
  byId _ ho := by
    cases ho
    exact .inr hown
  byEmail _ ho := by cases ho
  opened _ _ _ ho := by cases ho
  closed _ ho := by cases ho

theorem OwnEmail.permitted {r : ApiRequest} {email : String} (hown : OwnEmail r email) :
    Permitted env h r (.console (.admin (.selectByEmail email))) where
  role _ hmin := by cases hmin
  byId _ ho := by cases ho
  byEmail _ ho := by
    cases ho
    exact .inr hown
  opened _ _ _ ho := by cases ho
  closed _ ho := by cases ho

theorem PasswordOk.permitted {l : LoginRequest} {row : AdminRow} (hp : PasswordOk env h l row)
    (ttl : Nat) : Permitted env h (.login l)
      (.console (.sessionSet l.token.text ⟨row.id, row.role⟩ ttl)) where
  role _ hmin := by cases hmin
  byId _ ho := by cases ho
  byEmail _ ho := by cases ho
  opened _ _ _ ho := by
    cases ho
    exact ⟨l, row, rfl, rfl, rfl, hp⟩
  closed _ ho := by cases ho

theorem SignedIn.permitted_logout {text : String} (hs : SignedIn h (some text) .viewer) :
    Permitted env h (.logout (some text)) (.console (.sessionDel text)) where
  role _ hmin := by
    cases hmin
    exact hs
  byId _ ho := by cases ho
  byEmail _ ho := by cases ho
  opened _ _ _ ho := by cases ho
  closed _ ho := by
    cases ho
    rfl

theorem adminAuth_told {h : List (Exchange AdminOp AdminOp.Answer)} {session : AdminSession}
    (hp : (adminAuth token).After h (.ret (.ok session))) :
    ∃ text stored row, token = some text ∧ ⟨.sessionGet text, .ok (some stored)⟩ ∈ h ∧
      ⟨.selectById stored.userId, .ok (some row)⟩ ∈ h ∧ row.disabled = false ∧
      session = ⟨stored.userId, row.role⟩ := by
  have hsome : ∃ text, token = some text ∧ text ≠ "" := by
    obtain _ | text := token
    · obtain ⟨-, hret⟩ := Prog.after_ret.mp hp
      cases hret
    · refine ⟨text, rfl, ?_⟩
      rintro rfl
      obtain ⟨-, hret⟩ := Prog.after_ret.mp hp
      cases hret
  obtain ⟨text, rfl, hne⟩ := hsome
  rw [adminAuth_token hne] at hp
  obtain ⟨h₁, h₂, resolved, rfl, hresolve, hp⟩ := Prog.after_bind_ret.mp hp
  obtain ⟨answer, h₃, rfl, h₃'⟩ := Prog.after_ask_ret.mp hresolve
  obtain message | stored := answer
  · obtain ⟨-, hret⟩ := Prog.after_ret.mp h₃'
    cases hret
    cases (Prog.after_ret.mp hp).2
  · cases stored with
    | none =>
      obtain ⟨-, hret⟩ := Prog.after_ret.mp h₃'
      cases hret
      cases (Prog.after_ret.mp hp).2
    | some stored =>
      obtain ⟨answer, h₄, rfl, h₄'⟩ := Prog.after_ask_ret.mp h₃'
      obtain message | row := answer
      · obtain ⟨-, hret⟩ := Prog.after_ret.mp h₄'
        cases hret
        cases (Prog.after_ret.mp hp).2
      · cases row with
        | none =>
          obtain ⟨-, hret⟩ := Prog.after_ret.mp h₄'
          cases hret
          cases (Prog.after_ret.mp hp).2
        | some row =>
          obtain ⟨-, hret⟩ := Prog.after_ret.mp h₄'
          cases hret
          cases hdisabled : row.disabled with
          | true =>
            rw [hdisabled] at hp
            cases (Prog.after_ret.mp hp).2
          | false =>
            rw [hdisabled] at hp
            cases (Prog.after_ret.mp hp).2
            exact ⟨text, stored, row, rfl, by simp, by simp, hdisabled, rfl⟩

theorem gate_told {min : AdminRole} {h : List (Exchange AdminOp AdminOp.Answer)}
    {session : AdminSession} (hp : (gate token min).After h (.ret (.ok session))) :
    ∃ text stored row, token = some text ∧ ⟨.sessionGet text, .ok (some stored)⟩ ∈ h ∧
      ⟨.selectById stored.userId, .ok (some row)⟩ ∈ h ∧ row.disabled = false ∧
      min.rank ≤ row.role.rank := by
  obtain ⟨h₁, h₂, result, rfl, hauth, hp⟩ := Prog.after_bind_ret.mp hp
  obtain response | caller := result
  · cases (Prog.after_ret.mp hp).2
  · obtain ⟨rfl, hret⟩ := Prog.after_ret.mp hp
    obtain ⟨text, stored, row, htoken, hget, hselect, henabled, rfl⟩ := adminAuth_told hauth
    refine ⟨text, stored, row, htoken, by simpa using hget, by simpa using hselect, henabled, ?_⟩
    by_contra hrank
    rw [requireMinRole, if_pos (Nat.lt_of_not_le hrank)] at hret
    cases hret

theorem onApi_told {α : Type} {p : AdminProg α} {a : α}
    (hp : p.onConsole.onApi.After h (.ret a)) :
    ∃ h₀, p.After h₀ (.ret a) ∧
      ∀ (o : AdminOp) (x : o.Answer), ⟨o, x⟩ ∈ h₀ → ⟨.console (.admin o), x⟩ ∈ h := by
  obtain ⟨h₁, hp₁, hall₁⟩ := Prog.after_lift_ret hp
  obtain ⟨h₀, hp₀, hall₀⟩ := Prog.after_lift_ret hp₁
  refine ⟨h₀, hp₀, fun o x hmem => ?_⟩
  obtain ⟨y, rfl, hy⟩ := Prog.LiftOf.mem hall₀ hmem
  obtain ⟨z, rfl, hz⟩ := Prog.LiftOf.mem hall₁ hy
  exact hz

theorem signedIn_of_gate {min : AdminRole} {session : AdminSession}
    (hp : (gate token min).onConsole.onApi.After h (.ret (.ok session))) :
    SignedIn h token min := by
  obtain ⟨h₀, hp₀, hmem⟩ := onApi_told hp
  obtain ⟨text, stored, row, htoken, hget, hselect, hrow⟩ := gate_told hp₀
  exact ⟨text, stored, row, htoken, hmem _ _ hget, hmem _ _ hselect, hrow⟩

/-- An operation that a caller of that role may perform; the sessions are not among them, and other
accounts are read by owners. -/
def Within (min : AdminRole) : ApiOp → Prop
  | .console (.sessionSet _ _ _) | .console (.sessionDel _) => False
  | .console (.admin (.selectById _)) | .console (.admin (.selectByEmail _)) => min = .owner
  | o => ∀ need ∈ o.needs, need.rank ≤ min.rank

theorem Within.permitted {r : ApiRequest} {min : AdminRole} {o : ApiOp} (ho : Within min o)
    (hs : SignedIn h r.token min) : Permitted env h r o where
  role need hneed := by
    refine hs.weaken ?_
    cases o with
    | console o =>
      cases o with
      | admin o =>
        cases o with
        | selectById | selectByEmail => cases hneed
        | sessionGet | countOwners | update | delete | insert => exact ho need hneed
      | sessionSet | sessionDel => exact ho.elim
    | tenant o | listAdmins | listTenants | report o => exact ho need hneed
  byId id he := by
    subst he
    obtain rfl : min = .owner := ho
    exact .inl hs
  byEmail email he := by
    subst he
    obtain rfl : min = .owner := ho
    exact .inl hs
  opened token session ttl he := by
    subst he
    exact ho.elim
  closed token he := by
    subst he
    exact ho.elim

theorem within_owner {α : Type} (p : AdminProg α) : p.onConsole.onApi.Uses (Within .owner) := by
  refine Prog.Uses.lift (Prog.Uses.lift ((Prog.Uses.trivial p).mono fun o _ => ?_))
  cases o with
  | selectById | selectByEmail => rfl
  | sessionGet | countOwners | update | delete | insert =>
    intro need _
    cases need <;> decide

theorem within_manager {α : Type} (p : TenantProg α) : p.onApi.Uses (Within .manager) := by
  refine Prog.Uses.lift ((Prog.Uses.trivial p).mono fun o _ need hneed => ?_)
  cases hneed
  exact Nat.le_refl _

theorem body_within (env : ApiEnv) (route : ApiRoute) :
    (route.body env).Uses (Within route.min) := by
  have hviewer : ∀ r : Report, Within .viewer (.report r) := by
    rintro r need ⟨rfl⟩
    exact Nat.le_refl _
  have hadmins : ∀ body : AdminProg (Except String AdminResponse),
      (onAdmins body).Uses (Within .owner) := fun body =>
    Prog.Uses.bind (within_owner body) fun _ => trivial
  cases route with
  | getAdmins =>
    refine ⟨?_, fun _ => trivial⟩
    rintro need ⟨rfl⟩
    exact Nat.le_refl _
  | postAdmin draws parsed => exact hadmins _
  | patchAdmin draws id parsed => exact hadmins _
  | deleteAdmin id => exact hadmins _
  | getTenants =>
    refine ⟨?_, fun _ => trivial⟩
    rintro need ⟨rfl⟩
    exact Nat.le_refl _
  | postTenant apiKey now parsed =>
    obtain message | input := parsed
    · trivial
    · refine Prog.Uses.bind (within_manager _) fun answer => ?_
      obtain message | _ := answer <;> trivial
  | patchTenant keyHash parsed =>
    obtain message | patch := parsed
    · trivial
    · refine Prog.Uses.bind (within_manager _) fun answer => ?_
      obtain message | updated := answer
      · trivial
      · cases updated <;> trivial
  | deleteTenant keyHash =>
    refine Prog.Uses.bind (within_manager _) fun answer => ?_
    obtain message | removed := answer
    · trivial
    · by_cases hr : removed = 0
      · simp only [hr, if_true]
        trivial
      · simp only [hr, if_false]
        trivial
  | getFunctions => trivial
  | getMetricsSummary => exact ⟨hviewer _, fun _ => trivial⟩
  | getUsage => exact ⟨hviewer _, fun _ => trivial⟩
  | getQueue => exact ⟨hviewer _, fun _ => trivial⟩
  | getHealth => exact ⟨hviewer _, fun _ => ⟨hviewer _, fun _ => trivial⟩⟩

theorem adminAuth_asked {h : List (Exchange AdminOp AdminOp.Answer)} {o : AdminOp}
    {k : o.Answer → AdminProg (Except AdminResponse AdminSession)}
    (hp : (adminAuth token).After h (.ask o k)) :
    (∃ text, o = .sessionGet text) ∨ ∃ text stored, token = some text ∧
      ⟨.sessionGet text, .ok (some stored)⟩ ∈ h ∧ o = .selectById stored.userId := by
  obtain _ | text := token
  · cases (Prog.after_ret.mp hp).2
  · by_cases hne : text = ""
    · subst hne
      cases (Prog.after_ret.mp hp).2
    · rw [adminAuth_token hne] at hp
      obtain ⟨k', hresolve, -⟩ | ⟨_, _, result, rfl, -, hdone⟩ := Prog.after_bind_ask.mp hp
      · obtain ⟨-, hask⟩ | ⟨answer, h₁, rfl, hfound⟩ := Prog.after_ask.mp hresolve
        · cases hask
          exact .inl ⟨text, rfl⟩
        · obtain message | _ | stored := answer
          · cases (Prog.after_ret.mp hfound).2
          · cases (Prog.after_ret.mp hfound).2
          · obtain ⟨-, hask⟩ | ⟨answer, h₂, rfl, hrow⟩ := Prog.after_ask.mp hfound
            · cases hask
              exact .inr ⟨text, stored, rfl, by simp, rfl⟩
            · obtain message | _ | row := answer <;> cases (Prog.after_ret.mp hrow).2
      · obtain message | _ | session := result <;> cases (Prog.after_ret.mp hdone).2

theorem gate_asked {min : AdminRole} {h : List (Exchange AdminOp AdminOp.Answer)} {o : AdminOp}
    {k : o.Answer → AdminProg (Except AdminResponse AdminSession)}
    (hp : (gate token min).After h (.ask o k)) :
    ∃ k', (adminAuth token).After h (.ask o k') := by
  obtain ⟨k', hauth, -⟩ | ⟨_, _, result, rfl, -, hrole⟩ := Prog.after_bind_ask.mp hp
  · exact ⟨k', hauth⟩
  · obtain response | session := result <;> cases (Prog.after_ret.mp hrole).2

theorem onApi_asked {α : Type} {p : AdminProg α} {o : ApiOp} {k : o.Answer → ApiProg α}
    (hp : p.onConsole.onApi.After h (.ask o k)) :
    ∃ h₀ o₀ k₀, p.After h₀ (.ask o₀ k₀) ∧ o = .console (.admin o₀) ∧
      ∀ (o : AdminOp) (x : o.Answer), ⟨o, x⟩ ∈ h₀ → ⟨.console (.admin o), x⟩ ∈ h := by
  obtain ⟨h₁, p₁, hp₁, hask, hall₁⟩ := Prog.after_lift hp
  cases p₁ with
  | ret a => cases hask
  | ask o₁ k₁ =>
    cases hask
    obtain ⟨h₀, p₀, hp₀, hask, hall₀⟩ := Prog.after_lift hp₁
    cases p₀ with
    | ret a => cases hask
    | ask o₀ k₀ =>
      cases hask
      refine ⟨h₀, o₀, k₀, hp₀, rfl, fun o x hmem => ?_⟩
      obtain ⟨y, rfl, hy⟩ := Prog.LiftOf.mem hall₀ hmem
      obtain ⟨z, rfl, hz⟩ := Prog.LiftOf.mem hall₁ hy
      exact hz

theorem signIn_permitted {r : ApiRequest} {h₀ : List (Exchange AdminOp AdminOp.Answer)}
    {o : AdminOp} {k : o.Answer → AdminProg (Except AdminResponse AdminSession)}
    (hp : (adminAuth r.token).After h₀ (.ask o k))
    (hmem : ∀ (o : AdminOp) (x : o.Answer), ⟨o, x⟩ ∈ h₀ → ⟨.console (.admin o), x⟩ ∈ h) :
    Permitted env h r (.console (.admin o)) := by
  obtain ⟨text, rfl⟩ | ⟨text, stored, htoken, hget, rfl⟩ := adminAuth_asked hp
  · exact permitted_sessionGet r text
  · have hown : OwnAccount h r.token stored.userId := ⟨text, stored, htoken, hmem _ _ hget, rfl⟩
    exact hown.permitted

/-- Behind a guard that has signed the caller in, what is permitted to that caller may be done. -/
theorem permitted_behind {r : ApiRequest} {guard : AdminProg (Except AdminResponse AdminSession)}
    {f : Except AdminResponse AdminSession → ApiProg ApiReply} {o : ApiOp}
    {k : o.Answer → ApiProg ApiReply}
    (hguard : ∀ {h₀ : List (Exchange AdminOp AdminOp.Answer)} {o} {k : o.Answer → _},
      guard.After h₀ (.ask o k) → ∃ k', (adminAuth r.token).After h₀ (.ask o k'))
    (hrefused : ∀ response, ∃ reply, f (.error response) = .ret reply)
    (hserved : ∀ {h : List (Exchange ApiOp ApiOp.Answer)} {session},
      guard.onConsole.onApi.After h (.ret (.ok session)) →
        (f (.ok session)).Uses (Permitted env h r))
    (hp : (guard.onConsole.onApi >>= f).After h (.ask o k)) : Permitted env h r o := by
  obtain ⟨k', hp', -⟩ | ⟨h₁, h₂, result, rfl, hdone, hp⟩ := Prog.after_bind_ask.mp hp
  · obtain ⟨h₀, o₀, k₀, hp₀, rfl, hmem⟩ := onApi_asked hp'
    obtain ⟨k', hauth⟩ := hguard hp₀
    exact signIn_permitted hauth hmem
  · obtain response | session := result
    · obtain ⟨reply, hreply⟩ := hrefused response
      rw [hreply] at hp
      cases (Prog.after_ret.mp hp).2
    · exact ((hserved hdone).after hp).2.1.mono (by simp)

theorem serve_permitted {route : ApiRoute} {o : ApiOp} {k : o.Answer → ApiProg ApiReply}
    (hp : (route.serve env token).After h (.ask o k)) :
    Permitted env h (.route token route) o := by
  refine permitted_behind (r := .route token route) gate_asked (fun response => ⟨_, rfl⟩)
    (fun hdone => ?_) hp
  have hsigned := signedIn_of_gate hdone
  have hallowed (o) (ho : Within route.min o) : Permitted env _ (.route token route) o :=
    ho.permitted hsigned
  have hbody := (body_within env route).mono hallowed
  refine Prog.Uses.bind hbody fun result => ?_
  obtain message | reply := result <;> trivial

theorem me_permitted {o : ApiOp} {k : o.Answer → ApiProg ApiReply}
    (hp : (me token).After h (.ask o k)) : Permitted env h (.me token) o := by
  refine permitted_behind (r := .me token) (fun hp => ⟨_, hp⟩) (fun response => ⟨_, rfl⟩)
    (fun {h session} hdone => ?_) hp
  obtain ⟨h₀, hp₀, hmem⟩ := onApi_told hdone
  obtain ⟨text, stored, row, htoken, hget, -, -, rfl⟩ := adminAuth_told hp₀
  have hown : OwnAccount h token stored.userId := ⟨text, stored, htoken, hmem _ _ hget, rfl⟩
  refine ⟨OwnAccount.permitted (r := .me token) hown, fun answer => ?_⟩
  obtain message | _ | row := answer <;> trivial

theorem onApi_waiting {α : Type} {p : ConsoleProg α} {g : α → ApiReply} {o : ApiOp}
    {k : o.Answer → ApiProg ApiReply}
    (hp : (p.onApi >>= fun a => .ret (g a)).After h (.ask o k)) :
    ∃ h₀ o₀ k₀, p.After h₀ (.ask o₀ k₀) ∧ o = .console o₀ ∧
      ∀ (o : ConsoleOp) (x : o.Answer), ⟨o, x⟩ ∈ h₀ → ⟨.console o, x⟩ ∈ h := by
  obtain ⟨k', hp', -⟩ | ⟨h₁, h₂, a, rfl, -, hp⟩ := Prog.after_bind_ask.mp hp
  · obtain ⟨h₀, p₀, hp₀, hask, hall⟩ := Prog.after_lift hp'
    cases p₀ with
    | ret a => cases hask
    | ask o₀ k₀ =>
      cases hask
      refine ⟨h₀, o₀, k₀, hp₀, rfl, fun o x hmem => ?_⟩
      obtain ⟨y, rfl, hy⟩ := Prog.LiftOf.mem hall hmem
      exact hy
  · cases (Prog.after_ret.mp hp).2

theorem logout_permitted {o : ApiOp} {k : o.Answer → ApiProg ApiReply}
    (hp : (ApiRequest.program env (.logout token)).After h (.ask o k)) :
    Permitted env h (.logout token) o := by
  obtain ⟨h₀, o₀, k₀, hp₀, rfl, hmem⟩ := onApi_waiting hp
  obtain ⟨k', hp', -⟩ | ⟨h₁, h₂, result, rfl, hauth, hp₁⟩ := Prog.after_bind_ask.mp hp₀
  · obtain ⟨h₁, p₁, hp₁, hask, hall⟩ := Prog.after_lift hp'
    cases p₁ with
    | ret a => cases hask
    | ask o₁ k₁ =>
      cases hask
      refine signIn_permitted (r := .logout token) hp₁ fun o x hx => ?_
      obtain ⟨y, rfl, hy⟩ := Prog.LiftOf.mem hall hx
      exact hmem _ _ hy
  · obtain response | session := result
    · cases (Prog.after_ret.mp hp₁).2
    · obtain ⟨hs, hs', hall⟩ := Prog.after_lift_ret hauth
      obtain ⟨text, stored, row, rfl, hget, hselect, henabled, -⟩ := adminAuth_told hs'
      have hsigned : SignedIn h (some text) .viewer := by
        obtain ⟨x, rfl, hx⟩ := Prog.LiftOf.mem hall hget
        obtain ⟨y, rfl, hy⟩ := Prog.LiftOf.mem hall hselect
        exact ⟨text, stored, row, rfl, hmem _ _ (by simp [hx]), hmem _ _ (by simp [hy]), henabled,
          Nat.zero_le _⟩
      dsimp only at hp₁
      split at hp₁
      · cases (Prog.after_ret.mp hp₁).2
      · cases (Prog.after_ret.mp hp₁).2
      · rename_i text' hne heq
        cases heq
        obtain ⟨-, hask⟩ | ⟨answer, h₃, rfl, h₃'⟩ := Prog.after_ask.mp hp₁
        · cases hask
          exact hsigned.permitted_logout
        · obtain message | _ := answer <;> cases (Prog.after_ret.mp h₃').2

theorem login_permitted {l : LoginRequest} {o : ApiOp} {k : o.Answer → ApiProg ApiReply}
    (hp : (ApiRequest.program env (.login l)).After h (.ask o k)) :
    Permitted env h (.login l) o := by
  obtain ⟨h₀, o₀, k₀, hp₀, rfl, hmem⟩ := onApi_waiting hp
  unfold login at hp₀
  cases hbody : loginSchema l.body with
  | none =>
    rw [hbody] at hp₀
    cases (Prog.after_ret.mp hp₀).2
  | some fields =>
    obtain ⟨email, password⟩ := fields
    rw [hbody] at hp₀
    obtain ⟨-, hask⟩ | ⟨answer, h₁, rfl, h₁'⟩ := Prog.after_ask.mp hp₀
    · cases hask
      have hown : OwnEmail (.login l) (normalizeEmail email) :=
        ⟨l, email, password, rfl, hbody, rfl⟩
      exact hown.permitted
    · obtain message | row := answer
      · cases (Prog.after_ret.mp h₁').2
      · cases row with
        | none => cases (Prog.after_ret.mp h₁').2
        | some row =>
          have hverify : (if verifyPassword env.toConsoleEnv (rowToRecord row) password
              then signIn env.toConsoleEnv l (rowToRecord row) else .ret invalidLogin).After h₁
                (.ask o₀ k₀) := h₁'
          by_cases hverified : verifyPassword env.toConsoleEnv (rowToRecord row) password = true
          · rw [if_pos hverified] at hverify
            simp only [verifyPassword, Bool.and_eq_true, Bool.not_eq_true'] at hverified
            obtain ⟨-, hask⟩ | ⟨answer, h₂, rfl, h₂'⟩ := Prog.after_ask.mp hverify
            · cases hask
              have hpassword : PasswordOk env h l row :=
                ⟨email, password, hbody, hmem _ _ (by simp), hverified⟩
              exact hpassword.permitted _
            · obtain message | _ := answer <;> cases (Prog.after_ret.mp h₂').2
          · rw [if_neg hverified] at hverify
            cases (Prog.after_ret.mp hverify).2

theorem request_permitted {r : ApiRequest} {o : ApiOp} {k : o.Answer → ApiProg ApiReply}
    (hp : (r.program env).After h (.ask o k)) : Permitted env h r o := by
  cases r with
  | login l => exact login_permitted hp
  | logout token => exact logout_permitted hp
  | me token => exact me_permitted hp
  | route token route => exact serve_permitted hp

end Permission

section Change
variable {ch : ApiChoice} {o : ApiOp} {s : ApiStore}

theorem handleConsole_admins {fate : Fate} {o : ConsoleOp} {s : AdminStore}
    (hneeds : (ApiOp.console o).needs ≠ some .owner) :
    (s.handleConsole fate o).2.admins = s.admins := by
  cases o with
  | sessionSet token session ttl | sessionDel token =>
    cases fate <;> rfl
  | admin o =>
    cases o with
    | insert | update | delete | countOwners => exact absurd rfl hneeds
    | sessionGet | selectById | selectByEmail => cases fate <;> rfl

theorem admins_changed (h : (ApiStore.handle ch o s).2.admin.admins ≠ s.admin.admins) :
    o.needs = some .owner := by
  by_contra hneeds
  refine h ?_
  cases o with
  | console o => exact handleConsole_admins hneeds
  | tenant o | report r => rfl
  | listAdmins => exact absurd rfl hneeds
  | listTenants =>
    obtain ⟨fate, tenant, answer⟩ := ch
    cases fate <;> rfl

theorem tenants_changed (h : (ApiStore.handle ch o s).2.tenant.tenants ≠ s.tenant.tenants) :
    o.needs = some .manager := by
  cases o with
  | tenant o => rfl
  | console o | report r => exact absurd rfl h
  | listAdmins | listTenants =>
    obtain ⟨fate, tenant, answer⟩ := ch
    refine absurd ?_ h
    cases fate <;> rfl

theorem session_changed {token : String}
    (h : (ApiStore.handle ch o s).2.admin.sessions token ≠ s.admin.sessions token) :
    (∃ session ttl, o = .console (.sessionSet token session ttl) ∧
      (ApiStore.handle ch o s).2.admin.sessions token = some session) ∨
    o = .console (.sessionDel token) ∧ (ApiStore.handle ch o s).2.admin.sessions token = none := by
  obtain ⟨fate, tenant, answer⟩ := ch
  cases o with
  | tenant o | report r => exact absurd rfl h
  | listAdmins | listTenants =>
    refine absurd ?_ h
    cases fate <;> rfl
  | console o =>
    cases o with
    | admin o => exact absurd (congrFun (handle_sessions fate o s.admin) token) h
    | sessionSet token' session ttl =>
      by_cases ht : token = token'
      · subst ht
        refine .inl ⟨session, ttl, rfl, ?_⟩
        cases fate with
        | failed message => exact absurd rfl h
        | done | unanswered message => exact setSession_self ..
      · refine absurd ?_ h
        cases fate with
        | failed message => rfl
        | done | unanswered message => exact setSession_ne ht
    | sessionDel token' =>
      by_cases ht : token = token'
      · subst ht
        refine .inr ⟨rfl, ?_⟩
        cases fate with
        | failed message => exact absurd rfl h
        | done | unanswered message => exact setSession_self ..
      · refine absurd ?_ h
        cases fate with
        | failed message => rfl
        | done | unanswered message => exact setSession_ne ht

end Change

section Run
variable {env : ApiEnv} {s : ApiStore} {moves : List (Move ApiRequest ApiChoice ApiEvent)}
  {c c' : Conf ApiRequest ApiOp ApiOp.Answer ApiReply ApiStore}
  {mv : Move ApiRequest ApiChoice ApiEvent}

variable (env s moves c mv) in
/-- The move is one of a request whose session cookie was checked in the run before: it stood
for an enabled admin of at least that role. -/
def DoneBy (min : AdminRole) : Prop :=
  ∃ i ch t, mv = .step i ch ∧ c.threads[i]? = some t ∧
    SignedIn ((adminApi env).history i ⟨s, []⟩ moves) t.req.token min

/-- What a step of a run performs was permitted to the request. -/
theorem step_permitted (hc : (adminApi env).run ⟨s, []⟩ moves = some c) {i : Nat} {r : ApiRequest}
    {o : ApiOp} {k : o.Answer → ApiProg ApiReply} {log : List ApiOp}
    (hi : c.threads[i]? = some ⟨r, .ask o k, log⟩) :
    Permitted env ((adminApi env).history i ⟨s, []⟩ moves) r o :=
  request_permitted (Machine.run_after hc hi).1

/-- After any run, whatever its next move changes or reads: the admins change, and are listed
or counted, only for an owner; any other account that is read is the caller's own, under the id of
its session or the email of its login; the tenants change only for a manager; the other reads are
for those who are signed in; and a session appears only for a login with the password of an enabled
admin, in that admin's name and role, and goes only with a logout of its own or its time. -/
theorem adminApi_authorized (hc : (adminApi env).run ⟨s, []⟩ moves = some c)
    (hn : (adminApi env).next c mv = some c') :
    (∀ i ch o min, mv = .step i ch → c.waiting i = some o → o.needs = some min →
      DoneBy env s moves c mv min) ∧
    (∀ i ch t id, mv = .step i ch → c.threads[i]? = some t →
      c.waiting i = some (.console (.admin (.selectById id))) → DoneBy env s moves c mv .owner ∨
        OwnAccount ((adminApi env).history i ⟨s, []⟩ moves) t.req.token id) ∧
    (∀ i ch t email, mv = .step i ch → c.threads[i]? = some t →
      c.waiting i = some (.console (.admin (.selectByEmail email))) →
        DoneBy env s moves c mv .owner ∨ OwnEmail t.req email) ∧
    (c'.world.admin.admins ≠ c.world.admin.admins → DoneBy env s moves c mv .owner) ∧
    (c'.world.tenant.tenants ≠ c.world.tenant.tenants → DoneBy env s moves c mv .manager) ∧
    ∀ token, c'.world.admin.sessions token ≠ c.world.admin.sessions token →
      (∃ i ch l row log k, mv = .step i ch ∧ c.threads[i]? = some ⟨.login l, k, log⟩ ∧
        token = l.token.text ∧ c'.world.admin.sessions token = some ⟨row.id, row.role⟩ ∧
        PasswordOk env ((adminApi env).history i ⟨s, []⟩ moves) l row) ∨
      c'.world.admin.sessions token = none ∧
        ((∃ i ch t, mv = .step i ch ∧ c.threads[i]? = some t ∧ t.req = .logout (some token) ∧
          DoneBy env s moves c mv .viewer) ∨
        mv = .env (.expire token)) := by
  cases mv with
  | spawn r =>
    obtain rfl := Option.some.inj hn
    refine ⟨fun i ch o min h => ?_, fun i ch t id h => ?_, fun i ch t email h => ?_,
      fun h => absurd rfl h, fun h => absurd rfl h, fun _ h => absurd rfl h⟩
    all_goals cases h
  | env e =>
    obtain rfl := Option.some.inj hn
    refine ⟨fun i ch o min h => ?_, fun i ch t id h => ?_, fun i ch t email h => ?_,
      fun h => absurd ?_ h, fun h => absurd ?_ h, fun token h => ?_⟩
    · cases h
    · cases h
    · cases h
    · cases e <;> rfl
    · cases e <;> rfl
    · cases e with
      | elapse ms => exact absurd rfl h
      | expire token' =>
        by_cases ht : token = token'
        · subst ht
          exact .inr ⟨setSession_self .., .inr rfl⟩
        · exact absurd (setSession_ne ht) h
  | step i ch =>
    obtain ⟨r, o, k, log, hi, rfl⟩ := (adminApi env).next_step hn
    have hpermitted := step_permitted hc hi
    have hdone : ∀ min, SignedIn ((adminApi env).history i ⟨s, []⟩ moves) r.token min →
        DoneBy env s moves c (.step i ch) min := fun min hsigned => ⟨i, ch, _, rfl, hi, hsigned⟩
    have hneeded : ∀ min, o.needs = some min → DoneBy env s moves c (.step i ch) min :=
      fun min hneeds => hdone min (hpermitted.role min hneeds)
    refine ⟨?_, ?_, ?_, fun h => hneeded _ (admins_changed h),
      fun h => hneeded _ (tenants_changed h), ?_⟩
    · rintro i' ch' o' min ⟨rfl⟩ hwaiting hneeds
      rw [Conf.waiting_of_get hi] at hwaiting
      cases hwaiting
      exact hneeded min hneeds
    · rintro i' ch' t id ⟨rfl⟩ ht hwaiting
      rw [Conf.waiting_of_get hi] at hwaiting
      rw [hi] at ht
      cases ht
      exact (hpermitted.byId id (Option.some.inj hwaiting)).imp_left (hdone _)
    · rintro i' ch' t email ⟨rfl⟩ ht hwaiting
      rw [Conf.waiting_of_get hi] at hwaiting
      rw [hi] at ht
      cases ht
      exact (hpermitted.byEmail email (Option.some.inj hwaiting)).imp_left (hdone _)
    · intro token h
      obtain ⟨session, ttl, rfl, hset⟩ | ⟨rfl, hnone⟩ := session_changed h
      · obtain ⟨l, row, rfl, htoken, rfl, hpassword⟩ := hpermitted.opened _ _ _ rfl
        exact .inl ⟨i, ch, l, row, log, _, rfl, hi, htoken, hset, hpassword⟩
      · exact .inr ⟨hnone, .inl ⟨i, ch, _, rfl, hi, hpermitted.closed _ rfl,
          hneeded .viewer rfl⟩⟩

end Run

namespace Sample

def apiEnv : ApiEnv where
  toConsoleEnv := consoleEnv
  tenants := { sha256 := fun apiKey => apiKey, API_KEY_CACHE_TTL_SECONDS := 60 }
  bodies := fun _ =>
    { argsSchema := .ok, resultSchema := .static .ok, execute := fun _ _ => .ok .null }
  GLM_ENABLED := true
  AZURE_OPENAI_ENABLED := false
  VERSION := "1.0.0"

def adaAlone : ApiStore where
  admin := { admins := adaTable }
  tenant := { tenants := { rows := [], nodup := List.nodup_nil } }

/-- Ada signs in and sends a new tenant; the statement that stores it is still to come. -/
def adaProvisions : List (Move ApiRequest ApiChoice ApiEvent) :=
  [.spawn (.login adaLogin), .step 0 {}, .step 0 {},
    .spawn (.route (some adaToken.text)
      (.postTenant "ocr_key" 5 (.ok { tenantId := "acme" }))), .step 1 {}, .step 1 {}]

end Sample

theorem adminApi_authorized_ada :
    ∃ c c', (adminApi Sample.apiEnv).run ⟨Sample.adaAlone, []⟩ Sample.adaProvisions = some c ∧
      (adminApi Sample.apiEnv).next c (.step 1 {}) = some c' ∧
      c'.world.tenant.tenants.rows.map TenantRow.tenant_id = ["acme"] ∧
      DoneBy Sample.apiEnv Sample.adaAlone Sample.adaProvisions c (.step 1 {}) .manager := by
  have hrun : (adminApi Sample.apiEnv).run ⟨Sample.adaAlone, []⟩ Sample.adaProvisions = some _ :=
    rfl
  refine ⟨_, _, hrun, rfl, rfl, (adminApi_authorized hrun rfl).2.2.2.2.1 ?_⟩
  intro h
  have hrows := congrArg (fun t => t.rows.length) h
  exact absurd hrows (by decide)

end OcrService
