import OcrService.Interaction.Pool
import OcrService.Interaction.Table
import Mathlib.Logic.Function.Basic

/-! The tenant registry (`auth/tenants.ts`): the `tenants` table, the cache in front of it
in one process, and the calls that read and change them, split where they await. -/
namespace OcrService
open Interaction

structure TenantRow where
  key_hash : String
  tenant_id : String
  name : Option String
  disabled : Bool
  rate_limit : Option Int
  allowed_origins : Option (List String)
  allowed_functions : Option (List String)
  created_at : Nat
  deriving DecidableEq

/-- `createdAt` is the instant itself; the source writes it out as ISO text. -/
structure Tenant where
  tenantId : String
  name : Option String := none
  disabled : Option Bool := none
  rateLimit : Option Int := none
  allowedOrigins : Option (List String) := none
  allowedFunctions : Option (List String) := none
  createdAt : Option Nat := none
  deriving DecidableEq

def rowToTenant (row : TenantRow) : Tenant where
  tenantId := row.tenant_id
  name := row.name
  disabled := some row.disabled
  rateLimit := row.rate_limit
  allowedOrigins := row.allowed_origins
  allowedFunctions := row.allowed_functions
  createdAt := some row.created_at

def unlessDisabled (tenant : Tenant) : Option Tenant :=
  if tenant.disabled = some true then none else some tenant

structure TenantPatch where
  name : Option String := none
  rateLimit : Option Int := none
  allowedFunctions : Option (List String) := none
  allowedOrigins : Option (List String) := none
  disabled : Option Bool := none

/-- `SET name = COALESCE($2, name), ...`. -/
def TenantPatch.apply (patch : TenantPatch) (row : TenantRow) : TenantRow :=
  { row with name := patch.name.or row.name
             rate_limit := patch.rateLimit.or row.rate_limit
             allowed_functions := patch.allowedFunctions.or row.allowed_functions
             allowed_origins := patch.allowedOrigins.or row.allowed_origins
             disabled := patch.disabled.getD row.disabled }

theorem TenantPatch.key_hash_apply (patch : TenantPatch) {keyHash : String} (row : TenantRow)
    (h : row.key_hash = keyHash) : (patch.apply row).key_hash = keyHash := h

def Tenant.toRow (tenant : Tenant) (keyHash : String) (now : Nat) : TenantRow where
  key_hash := keyHash
  tenant_id := tenant.tenantId
  name := tenant.name
  disabled := tenant.disabled.getD false
  rate_limit := tenant.rateLimit
  allowed_origins := tenant.allowedOrigins
  allowed_functions := tenant.allowedFunctions
  created_at := tenant.createdAt.getD now

structure CacheEntry where
  tenant : Tenant
  expiresAt : Nat

/-- A stretch of code without an `await` that touches the cache, or one SQL statement. -/
inductive TenantOp where
  | cacheGet (keyHash : String)
  | cacheSet (keyHash : String) (tenant : Tenant) (ttlMs : Nat)
  | cacheDelete (keyHash : String)
  | select (keyHash : String)
  | upsert (keyHash : String) (tenant : Tenant)
  | update (keyHash : String) (patch : TenantPatch)
  | delete (keyHash : String)

/-- `cacheGet` is answered with the entry and `Date.now()`. -/
abbrev TenantOp.Answer : TenantOp → Type
  | cacheGet _ => Option CacheEntry × Nat
  | cacheSet _ _ _ => Unit
  | cacheDelete _ => Unit
  | select _ => Except String (Option TenantRow)
  | upsert _ _ => Except String Unit
  | update _ _ => Except String (Option TenantRow)
  | delete _ => Except String Nat

structure TenantStore where
  cache : String → Option CacheEntry := fun _ => none
  clock : Nat := 0
  tenants : Table TenantRow.key_hash

structure TenantChoice where
  fate : Fate := .done
  now : Nat := 0

/-- The cache cannot fail; a statement can. -/
def TenantStore.handle (ch : TenantChoice) : (o : TenantOp) → TenantStore → o.Answer × TenantStore
  | .cacheGet keyHash, s => ((s.cache keyHash, s.clock), s)
  | .cacheSet keyHash tenant ttlMs, s =>
    ((), { s with cache := Function.update s.cache keyHash (some ⟨tenant, s.clock + ttlMs⟩) })
  | .cacheDelete keyHash, s => ((), { s with cache := Function.update s.cache keyHash none })
  | .select keyHash, s => ch.fate.settle .error s (.ok (s.tenants.find keyHash), s)
  | .upsert keyHash tenant, s =>
    let row := tenant.toRow keyHash ch.now
    ch.fate.settle .error s
      (.ok (), { s with tenants := s.tenants.upsert row (fun _ => row) fun _ _ => rfl })
  | .update keyHash patch, s =>
    let tenants := s.tenants.modify keyHash patch.apply patch.key_hash_apply
    ch.fate.settle .error s (.ok (tenants.find keyHash), { s with tenants })
  | .delete keyHash, s =>
    ch.fate.settle .error s
      (.ok (s.tenants.find keyHash).toList.length, { s with tenants := s.tenants.erase keyHash })

abbrev TenantProg := Prog TenantOp TenantOp.Answer

structure TenantEnv where
  sha256 : String → String
  API_KEY_CACHE_TTL_SECONDS : Nat

namespace TenantEnv
variable (env : TenantEnv)

def hashApiKey (apiKey : String) : String := env.sha256 apiKey

def cacheTtlMs : Nat := env.API_KEY_CACHE_TTL_SECONDS * 1000

end TenantEnv

def getTenantByHash (keyHash : String) : TenantProg (Except String (Option Tenant)) :=
  .ask (.select keyHash) fun answer => .ret (answer.map fun row => row.map rowToTenant)

def liveHit (hit : Option CacheEntry) (now : Nat) : Option CacheEntry :=
  hit.filter fun entry => now < entry.expiresAt

def loadTenant (env : TenantEnv) (keyHash : String) :
    TenantProg (Except String (Option Tenant)) := do
  match ← getTenantByHash keyHash with
  | .error message => .ret (.error message)
  | .ok none => .ask (.cacheDelete keyHash) fun _ => .ret (.ok none)
  | .ok (some tenant) =>
    .ask (.cacheSet keyHash tenant env.cacheTtlMs) fun _ => .ret (.ok (unlessDisabled tenant))

def resolveTenant (env : TenantEnv) (apiKey : String) :
    TenantProg (Except String (Option Tenant)) :=
  .ask (.cacheGet (env.hashApiKey apiKey)) fun answer =>
    match liveHit answer.1 answer.2 with
    | some hit => .ret (.ok (unlessDisabled hit.tenant))
    | none => loadTenant env (env.hashApiKey apiKey)

def putTenant (env : TenantEnv) (apiKey : String) (tenant : Tenant) :
    TenantProg (Except String Unit) :=
  .ask (.upsert (env.hashApiKey apiKey) tenant) fun
  | .error message => .ret (.error message)
  | .ok () => .ask (.cacheDelete (env.hashApiKey apiKey)) fun _ => .ret (.ok ())

def updateTenantByHash (keyHash : String) (patch : TenantPatch) :
    TenantProg (Except String (Option Tenant)) :=
  .ask (.update keyHash patch) fun
  | .error message => .ret (.error message)
  | .ok none => .ret (.ok none)
  | .ok (some row) => .ask (.cacheDelete keyHash) fun _ => .ret (.ok (some (rowToTenant row)))

def revokeByHash (keyHash : String) : TenantProg (Except String Nat) :=
  .ask (.cacheDelete keyHash) fun _ => .ask (.delete keyHash) fun answer => .ret answer

def revokeApiKey (env : TenantEnv) (apiKey : String) : TenantProg (Except String Nat) :=
  revokeByHash (env.hashApiKey apiKey)

inductive TenantRequest where
  | resolveTenant (apiKey : String)
  | putTenant (apiKey : String) (tenant : Tenant)
  | updateTenantByHash (keyHash : String) (patch : TenantPatch)
  | revokeApiKey (apiKey : String)
  | revokeByHash (keyHash : String)

inductive TenantResult where
  | resolved (tenant : Option Tenant)
  | done
  | updated (tenant : Option Tenant)
  | removed (count : Nat)
  deriving DecidableEq

def TenantRequest.program (env : TenantEnv) :
    TenantRequest → TenantProg (Except String TenantResult)
  | resolveTenant apiKey => do return (← OcrService.resolveTenant env apiKey).map .resolved
  | putTenant apiKey tenant => do
    return (← OcrService.putTenant env apiKey tenant).map fun _ => .done
  | updateTenantByHash keyHash patch => do
    return (← OcrService.updateTenantByHash keyHash patch).map .updated
  | revokeApiKey apiKey => do return (← OcrService.revokeApiKey env apiKey).map .removed
  | revokeByHash keyHash => do return (← OcrService.revokeByHash keyHash).map .removed

def tenantRegistry (env : TenantEnv) :
    Machine TenantRequest TenantOp TenantOp.Answer (Except String TenantResult) TenantChoice Nat
      TenantStore where
  start := TenantRequest.program env
  handle := TenantStore.handle
  env elapsed s := { s with clock := s.clock + elapsed }

end OcrService
