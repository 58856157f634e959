import OcrService.Interaction.Pool
import OcrService.Interaction.Table
import OcrService.Values

/-! The admin registry (`auth/admins.ts`), the session check in front of it
(`http/middleware/admin-auth.ts`), and the routes that change the registry
(`http/admin/routes.ts`). Every statement a handler awaits is one operation. -/
namespace OcrService
open Interaction

inductive AdminRole where
  | owner | manager | viewer
  deriving DecidableEq

namespace AdminRole

def text : AdminRole → String
  | owner => "owner"
  | manager => "manager"
  | viewer => "viewer"

def rank : AdminRole → Nat
  | viewer => 0
  | manager => 1
  | owner => 2

end AdminRole

structure AdminRow where
  id : String
  email : String
  name : String
  role : AdminRole
  password_hash : String
  disabled : Bool
  created_at : Nat
  updated_at : Nat
  deriving DecidableEq

structure AdminRecord where
  id : String
  email : String
  name : String
  role : AdminRole
  passwordHash : String
  disabled : Bool
  createdAt : Nat
  updatedAt : Nat
  deriving DecidableEq

structure AdminView where
  id : String
  email : String
  name : String
  role : AdminRole
  disabled : Option Bool
  createdAt : Nat
  updatedAt : Nat
  deriving DecidableEq

def rowToRecord (r : AdminRow) : AdminRecord where
  id := r.id
  email := r.email
  name := r.name
  role := r.role
  passwordHash := r.password_hash
  disabled := r.disabled
  createdAt := r.created_at
  updatedAt := r.updated_at

def toView (record : AdminRecord) : AdminView where
  id := record.id
  email := record.email
  name := record.name
  role := record.role
  disabled := some record.disabled
  createdAt := record.createdAt
  updatedAt := record.updatedAt

/-- `trim().toLowerCase()`; the addresses of the table are ASCII, what is typed at a login
need not be. -/
def normalizeEmail (email : String) : String := jsToLowerCase (jsTrim email)

/-- The parameters of the `UPDATE` statement; `none` is SQL's `NULL`. -/
structure AdminUpdate where
  id : String
  name : Option String
  role : Option AdminRole
  disabled : Option Bool
  passwordHash : Option String
  updatedAt : Nat

/-- `SET name = COALESCE($2, name), ...`. -/
def AdminUpdate.apply (u : AdminUpdate) (r : AdminRow) : AdminRow :=
  { r with name := u.name.getD r.name
           role := u.role.getD r.role
           disabled := u.disabled.getD r.disabled
           password_hash := u.passwordHash.getD r.password_hash
           updated_at := u.updatedAt }

theorem AdminUpdate.id_apply (u : AdminUpdate) {id : String} (r : AdminRow) (h : r.id = id) :
    (u.apply r).id = id := h

def AdminRow.activeOwner (r : AdminRow) : Bool := r.role = .owner && !r.disabled

/-- `id` is the primary key, and `email` is unique as well. -/
structure AdminTable extends Table AdminRow.id where
  emails : (rows.map AdminRow.email).Nodup

namespace AdminTable

def selectByEmail (t : AdminTable) (email : String) : Option AdminRow :=
  t.rows.find? fun r => r.email = email

def countOwners (t : AdminTable) : Nat := t.count AdminRow.activeOwner

def update (t : AdminTable) (u : AdminUpdate) : AdminTable where
  toTable := t.modify u.id u.apply u.id_apply
  emails := by
    have hsame : (t.modify u.id u.apply u.id_apply).rows.map AdminRow.email =
        t.rows.map AdminRow.email := by
      simp only [Table.modify, List.map_map]
      refine List.map_congr_left fun r _ => ?_
      by_cases hr : r.id = u.id <;> simp [hr, AdminUpdate.apply]
    exact hsame ▸ t.emails

def delete (t : AdminTable) (id : String) : AdminTable where
  toTable := t.erase id
  emails := (List.filter_sublist.map AdminRow.email).nodup t.emails

def duplicateKey (constraint : String) : String :=
  "duplicate key value violates unique constraint \"" ++ constraint ++ "\""

def insert (t : AdminTable) (r : AdminRow) : Except String AdminTable :=
  if hid : t.find r.id = none then
    if hemail : t.selectByEmail r.email = none then
      .ok
        { toTable := t.toTable.insert r hid
          emails := by
            have hfresh : ∀ x ∈ t.rows, x.email ≠ r.email := by
              simpa [selectByEmail] using hemail
            simp only [Table.insert, List.map_append, List.nodup_append]
            refine ⟨t.emails, by simp, fun a ha b hb => ?_⟩
            obtain ⟨x, hx, rfl⟩ := List.mem_map.mp ha
            have hb' : b = r.email := by simpa using hb
            exact hb' ▸ hfresh x hx }
    else .error (duplicateKey "admins_email_key")
  else .error (duplicateKey "admins_pkey")

end AdminTable

structure AdminSession where
  userId : String
  role : AdminRole

inductive AdminOp where
  | sessionGet (token : String)
  | selectById (id : String)
  | selectByEmail (email : String)
  | countOwners
  | update (u : AdminUpdate)
  | delete (id : String)
  | insert (r : AdminRow)

/-- An operation that fails is answered with the error's message. -/
abbrev AdminOp.Answer : AdminOp → Type
  | sessionGet _ => Except String (Option AdminSession)
  | selectById _ => Except String (Option AdminRow)
  | selectByEmail _ => Except String (Option AdminRow)
  | countOwners => Except String Nat
  | update _ => Except String (Option AdminRow)
  | delete _ => Except String (Option String)
  | insert _ => Except String Unit

def AdminOp.failure (message : String) : (o : AdminOp) → o.Answer
  | sessionGet _ | selectById _ | selectByEmail _ | countOwners | update _ | delete _ | insert _ =>
    .error message

structure AdminStore where
  sessions : String → Option AdminSession := fun _ => none
  admins : AdminTable

def AdminStore.exec : (o : AdminOp) → AdminStore → o.Answer × AdminStore
  | .sessionGet token, s => (.ok (s.sessions token), s)
  | .selectById id, s => (.ok (s.admins.find id), s)
  | .selectByEmail email, s => (.ok (s.admins.selectByEmail email), s)
  | .countOwners, s => (.ok s.admins.countOwners, s)
  | .update u, s =>
    (.ok ((s.admins.update u).find u.id), { s with admins := s.admins.update u })
  | .delete id, s =>
    (.ok ((s.admins.find id).map AdminRow.email), { s with admins := s.admins.delete id })
  | .insert r, s =>
    match s.admins.insert r with
    | .ok t => (.ok (), { s with admins := t })
    | .error message => (.error message, s)

/-- An `id` that is no UUID makes its statement fail. -/
def AdminStore.handle (fate : Fate) (o : AdminOp) (s : AdminStore) : o.Answer × AdminStore :=
  fate.settle (fun message => o.failure message) s (s.exec o)

abbrev AdminProg := Prog AdminOp AdminOp.Answer

structure Draws where
  now : Nat
  randomUUID : String
  argonHash : String → String

structure CreateAdminInput where
  email : String
  name : String
  role : AdminRole
  password : String

structure UpdateAdminInput where
  name : Option String := none
  role : Option AdminRole := none
  disabled : Option Bool := none
  password : Option String := none

def createAdmin (draws : Draws) (input : CreateAdminInput) : AdminProg (Except String AdminView) :=
  let email := normalizeEmail input.email
  .ask (.selectByEmail (normalizeEmail email)) fun
  | .error message => .ret (.error message)
  | .ok (some _) => .ret (.error ("An admin with email '" ++ email ++ "' already exists"))
  | .ok none =>
    let row : AdminRow :=
      { id := draws.randomUUID, email, name := input.name, role := input.role,
        password_hash := draws.argonHash input.password, disabled := false,
        created_at := draws.now, updated_at := draws.now }
    .ask (.insert row) fun
    | .error message => .ret (.error message)
    -- The record the caller gets is the one built here, which has no `disabled`.
    | .ok () => .ret (.ok { toView (rowToRecord row) with disabled := none })

def passwordHash (draws : Draws) (password : Option String) : Option String :=
  (password.filter (· ≠ "")).map draws.argonHash

def updateAdmin (draws : Draws) (id : String) (patch : UpdateAdminInput) :
    AdminProg (Except String (Option AdminView)) :=
  .ask (.update
    { id, name := patch.name, role := patch.role, disabled := patch.disabled,
      passwordHash := passwordHash draws patch.password, updatedAt := draws.now }) fun answer =>
    .ret (answer.map fun row => row.map fun r => toView (rowToRecord r))

def deleteAdmin (id : String) : AdminProg (Except String Bool) :=
  .ask (.delete id) fun answer => .ret (answer.map Option.isSome)

inductive AdminBody where
  | error (code message : String)
  | admin (view : Option AdminView)
  | ok

structure AdminResponse where
  status : Nat
  body : AdminBody

def sendError (status : Nat) (code message : String) : AdminResponse :=
  ⟨status, .error code message⟩

def resolveSession (token : String) : AdminProg (Except String (Option AdminSession)) :=
  .ask (.sessionGet token) fun
  | .error message => .ret (.error message)
  | .ok none => .ret (.ok none)
  | .ok (some session) =>
    .ask (.selectById session.userId) fun
    | .error message => .ret (.error message)
    | .ok none => .ret (.ok none)
    | .ok (some row) =>
      .ret (.ok (if row.disabled then none else some ⟨session.userId, row.role⟩))

def adminAuth (token : Option String) : AdminProg (Except AdminResponse AdminSession) :=
  match token with
  | none | some "" => .ret (.error (sendError 401 "UNAUTHORIZED" "Not signed in"))
  | some token => do
    match ← resolveSession token with
    | .error _ => .ret (.error (sendError 503 "PROVIDER_UNAVAILABLE" "Session store unavailable"))
    | .ok none => .ret (.error (sendError 401 "UNAUTHORIZED" "Session expired or invalid"))
    | .ok (some session) => .ret (.ok session)

def requireMinRole (min : AdminRole) (session : AdminSession) : Except AdminResponse AdminSession :=
  if session.role.rank < min.rank then
    .error (sendError 403 "FORBIDDEN" ("Requires " ++ min.text ++ " access"))
  else .ok session

/-- `handler`: what is thrown becomes a 500. -/
def handler (fn : AdminProg (Except String AdminResponse)) : AdminProg AdminResponse := do
  match ← fn with
  | .ok response => .ret response
  | .error _ => .ret (sendError 500 "INTERNAL" "Unexpected error")

/-- `adminAuth, requireMinRole(min), handler(fn)`. -/
def guarded (token : Option String) (min : AdminRole)
    (fn : AdminProg (Except String AdminResponse)) : AdminProg AdminResponse := do
  match ← adminAuth token with
  | .error response => .ret response
  | .ok session =>
    match requireMinRole min session with
    | .error response => .ret response
    | .ok _ => handler fn

abbrev Parsed (α : Type) := Except (Option String) α

def postAdmin (draws : Draws) (parsed : Parsed CreateAdminInput) :
    AdminProg (Except String AdminResponse) :=
  match parsed with
  | .error message => .ret (.ok (sendError 400 "INVALID_ARGS" (message.getD "Invalid admin")))
  | .ok input => do
    match ← createAdmin draws input with
    | .ok view => .ret (.ok ⟨201, .admin (some view)⟩)
    | .error message => .ret (.ok (sendError 409 "CONFLICT" message))

def removesOwner (target : AdminRecord) (role : Option AdminRole) (disabled : Option Bool) : Bool :=
  target.role = .owner && (role.any (· ≠ .owner) || disabled == some true)

/-- `if (removes && (await countOwners()) <= 1)`: refuse, else go on. -/
def unlessLastOwner (removes : Bool) (message : String)
    (next : AdminProg (Except String AdminResponse)) : AdminProg (Except String AdminResponse) :=
  if removes then
    .ask .countOwners fun
    | .error message => .ret (.error message)
    | .ok n => if n ≤ 1 then .ret (.ok (sendError 400 "LAST_OWNER" message)) else next
  else next

def patchAdmin (draws : Draws) (id : String) (parsed : Parsed UpdateAdminInput) :
    AdminProg (Except String AdminResponse) :=
  match parsed with
  | .error message => .ret (.ok (sendError 400 "INVALID_ARGS" (message.getD "Invalid update")))
  | .ok patch =>
    .ask (.selectById id) fun
    | .error message => .ret (.error message)
    | .ok none => .ret (.ok (sendError 404 "NOT_FOUND" "No such admin"))
    | .ok (some row) =>
      unlessLastOwner (removesOwner (rowToRecord row) patch.role patch.disabled)
        "Cannot demote or disable the last owner" do
          match ← updateAdmin draws id patch with
          | .error message => .ret (.error message)
          | .ok view => .ret (.ok ⟨200, .admin view⟩)

def removeAdmin (id : String) : AdminProg (Except String AdminResponse) :=
  .ask (.selectById id) fun
  | .error message => .ret (.error message)
  | .ok none => .ret (.ok (sendError 404 "NOT_FOUND" "No such admin"))
  | .ok (some row) =>
    unlessLastOwner ((rowToRecord row).role = .owner) "Cannot delete the last owner" do
      match ← deleteAdmin id with
      | .error message => .ret (.error message)
      | .ok _ => .ret (.ok ⟨200, .ok⟩)

inductive AdminRequest where
  | post (token : Option String) (draws : Draws) (parsed : Parsed CreateAdminInput)
  | patch (token : Option String) (draws : Draws) (id : String) (parsed : Parsed UpdateAdminInput)
  | delete (token : Option String) (id : String)

def AdminRequest.program : AdminRequest → AdminProg AdminResponse
  | post token draws parsed => guarded token .owner (postAdmin draws parsed)
  | patch token draws id parsed => guarded token .owner (patchAdmin draws id parsed)
  | delete token id => guarded token .owner (removeAdmin id)

/-- Any number of requests, statement by statement; logins, logouts and expiries may
change the sessions at any time. -/
def adminConsole :
    Machine AdminRequest AdminOp AdminOp.Answer AdminResponse Fate (String → Option AdminSession)
      AdminStore where
  start := AdminRequest.program
  handle := AdminStore.handle
  env sessions s := { s with sessions }

end OcrService
