import OcrService.Admins
import OcrService.Interaction.History

/-! The admin console's sign-in (`auth/admin-session.ts`, `http/middleware/admin-auth.ts`,
`http/admin/routes.ts`): logins, logouts and guarded routes over the two stores. -/
namespace OcrService
open Interaction

structure SessionToken where
  text : String
  length_eq : text.length = 43

/-- `argonVerify hash plain` is false for a malformed hash too. -/
structure ConsoleEnv where
  argonVerify : String → String → Bool
  ADMIN_SESSION_TTL_SECONDS : Nat

/-- What the console awaits: a statement of the registry's, or a command on a session key. -/
inductive ConsoleOp where
  | admin (o : AdminOp)
  | sessionSet (token : String) (session : AdminSession) (ttl : Nat)
  | sessionDel (token : String)

abbrev ConsoleOp.Answer : ConsoleOp → Type
  | admin o => o.Answer
  | sessionSet _ _ _ => Except String Unit
  | sessionDel _ => Except String Unit

def AdminStore.setSession (s : AdminStore) (token : String) (session : Option AdminSession) :
    AdminStore := { s with sessions := Function.update s.sessions token session }

def AdminStore.handleConsole (fate : Fate) :
    (o : ConsoleOp) → AdminStore → o.Answer × AdminStore
  | .admin o, s => s.handle fate o
  | .sessionSet token session _, s =>
    fate.settle .error s (.ok (), s.setSession token (some session))
  | .sessionDel token, s => fate.settle .error s (.ok (), s.setSession token none)

abbrev ConsoleProg := Prog ConsoleOp ConsoleOp.Answer

def AdminProg.onConsole {α : Type} (p : AdminProg α) : ConsoleProg α := p.lift .admin fun _ x => x

def createSession (env : ConsoleEnv) (token : SessionToken) (userId : String) (role : AdminRole) :
    ConsoleProg (Except String (String × Nat)) :=
  let ttl := env.ADMIN_SESSION_TTL_SECONDS
  .ask (.sessionSet token.text ⟨userId, role⟩ ttl) fun answer =>
    .ret (answer.map fun _ => (token.text, ttl))

def destroySession (token : String) : ConsoleProg (Except String Unit) :=
  .ask (.sessionDel token) .ret

def getAdminByEmail (email : String) : AdminProg (Except String (Option AdminRecord)) :=
  .ask (.selectByEmail (normalizeEmail email)) fun answer =>
    .ret (answer.map fun row => row.map rowToRecord)

def verifyPassword (env : ConsoleEnv) (record : AdminRecord) (plain : String) : Bool :=
  !record.disabled && env.argonVerify record.passwordHash plain

structure LoginRequest where
  body : JsValue
  /-- What `randomBytes` draws, should it come to that. -/
  token : SessionToken
  secure : Bool := false
  xForwardedProto : Option String := none

def loginSchema : JsValue → Option (String × String)
  | .obj fields =>
    match fields.lookup "email", fields.lookup "password" with
    | some (.str email), some (.str password) =>
      if email ≠ "" ∧ password ≠ "" then some (email, password) else none
    | _, _ => none
  | _ => none

def isHttpsRequest (r : LoginRequest) : Bool :=
  r.secure ||
    jsToLowerCase (jsTrim (String.ofList
      ((r.xForwardedProto.getD "").toList.takeWhile (· ≠ ',')))) = "https"

/-- `httpOnly`, `sameSite: "strict"` and `path: "/admin"` are the same for every cookie. -/
structure SessionCookie where
  token : String
  secure : Bool
  maxAge : Nat

structure PublicUser where
  id : String
  email : String
  name : String
  createdAt : Nat
  updatedAt : Nat

def publicUser (u : AdminRecord) : PublicUser where
  id := u.id
  email := u.email
  name := u.name
  createdAt := u.createdAt
  updatedAt := u.updatedAt

inductive ConsoleReply where
  | admin (response : AdminResponse)
  | signedIn (cookie : SessionCookie) (user : PublicUser) (role : AdminRole)
  | signedOut

def invalidLogin : ConsoleReply :=
  .admin (sendError 401 "UNAUTHORIZED" "Invalid email or password")

def loginUnavailable : ConsoleReply :=
  .admin (sendError 503 "PROVIDER_UNAVAILABLE" "Authentication store unavailable")

def signIn (env : ConsoleEnv) (r : LoginRequest) (admin : AdminRecord) :
    ConsoleProg ConsoleReply := do
  match ← createSession env r.token admin.id admin.role with
  | .error _ => .ret loginUnavailable
  | .ok (token, ttl) =>
    .ret (.signedIn { token, secure := isHttpsRequest r, maxAge := ttl * 1000 }
      (publicUser admin) admin.role)

def login (env : ConsoleEnv) (r : LoginRequest) : ConsoleProg ConsoleReply :=
  match loginSchema r.body with
  | none => .ret (.admin (sendError 400 "INVALID_ARGS" "email and password are required"))
  | some (email, password) => do
    match ← (getAdminByEmail email).onConsole with
    | .error _ => .ret loginUnavailable
    | .ok none => .ret invalidLogin
    | .ok (some admin) =>
      if verifyPassword env admin password then signIn env r admin else .ret invalidLogin

def logout (token : Option String) : ConsoleProg ConsoleReply := do
  match ← (adminAuth token).onConsole with
  | .error response => .ret (.admin response)
  | .ok _ =>
    match token with
    | none | some "" => .ret .signedOut
    | some token =>
      match ← destroySession token with
      | .ok () => .ret .signedOut
      | .error _ => .ret (.admin (sendError 500 "INTERNAL" "Unexpected error"))

/-- `adminAuth` followed by `requireMinRole(min)`. -/
def gate (token : Option String) (min : AdminRole) :
    AdminProg (Except AdminResponse AdminSession) := do
  match ← adminAuth token with
  | .error response => .ret (.error response)
  | .ok session => .ret (requireMinRole min session)

/-- A route behind the gate: the bodies that change the registry, and the others, of which
only the response is kept. -/
inductive AdminRoute where
  | other (response : AdminResponse)
  | post (draws : Draws) (parsed : Parsed CreateAdminInput)
  | patch (draws : Draws) (id : String) (parsed : Parsed UpdateAdminInput)
  | delete (id : String)

def AdminRoute.body : AdminRoute → AdminProg (Except String AdminResponse)
  | other response => .ret (.ok response)
  | post draws parsed => postAdmin draws parsed
  | patch draws id parsed => patchAdmin draws id parsed
  | delete id => removeAdmin id

structure ConsoleOut where
  admin : Option AdminSession := none
  reply : ConsoleReply

def AdminRoute.serve (token : Option String) (min : AdminRole) (route : AdminRoute) :
    AdminProg ConsoleOut := do
  match ← gate token min with
  | .error response => .ret { reply := .admin response }
  | .ok session => do
    let response ← handler route.body
    .ret { admin := some session, reply := .admin response }

theorem AdminRoute.serve_reply (token : Option String) (min : AdminRole) (route : AdminRoute) :
    (route.serve token min >>= fun out => .ret out.reply) =
      guarded token min route.body >>= fun response => .ret (.admin response) := by
  unfold AdminRoute.serve gate guarded
  simp only [Prog.bind_assoc]
  congr 1
  funext result
  cases result with
  | error response => rfl
  | ok session =>
    simp only [Prog.ret_bind]
    cases requireMinRole min session with
    | error response => rfl
    | ok session => exact Prog.bind_assoc _ _ _

inductive ConsoleRequest where
  | login (r : LoginRequest)
  | logout (token : Option String)
  | guarded (token : Option String) (min : AdminRole) (route : AdminRoute)

def ConsoleRequest.program (env : ConsoleEnv) : ConsoleRequest → ConsoleProg ConsoleOut
  | login r => do return { reply := ← OcrService.login env r }
  | logout token => do return { reply := ← OcrService.logout token }
  | guarded token min route => (route.serve token min).onConsole

def sessionConsole (env : ConsoleEnv) :
    Machine ConsoleRequest ConsoleOp ConsoleOp.Answer ConsoleOut Fate String AdminStore where
  start := ConsoleRequest.program env
  handle := AdminStore.handleConsole
  env token s := s.setSession token none

end OcrService
