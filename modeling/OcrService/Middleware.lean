import OcrService.Errors
import OcrService.Tenants
import Mathlib.Data.List.Basic

/-! The middleware in front of the routes (`http/middleware/auth.ts`, `rate-limit.ts`): who
the caller is, and whether there is room for one more request of theirs. -/
namespace OcrService

structure GateEnv where
  AUTH_ENABLED : Bool := true
  RATE_LIMIT_ENABLED : Bool := true
  RATE_LIMIT_MAX : Nat := 60
  RATE_LIMIT_WINDOW_SECONDS : Nat := 60
  max_pos : 0 < RATE_LIMIT_MAX := by decide
  window_pos : 0 < RATE_LIMIT_WINDOW_SECONDS := by decide

def defaultGateEnv : GateEnv := {}

structure ApiHeaders where
  authorization : Option String := none
  xApiKey : Option String := none

/-- The scheme is what stands before the first blank, the value what stands between it
and the next one. -/
def keyOfAuthorization (authHeader : String) : Option String :=
  match (authHeader.toList.splitOn ' ').map String.ofList with
  | [] => none
  | scheme :: rest =>
    match truthy rest.head? with
    | some value => if jsToLowerCase scheme = "bearer" then some (jsTrim value) else none
    | none => (truthy (some scheme)).map jsTrim

def extractApiKey (headers : ApiHeaders) : Option String :=
  ((truthy headers.authorization).bind keyOfAuthorization).or
    (truthy (headers.xApiKey.map jsTrim))

structure Caller where
  tenantId : String
  tenant : Option Tenant := none

/-- `resolve` is `resolveTenant` at the time of the request. -/
def auth (env : GateEnv) (resolve : String → Except String (Option Tenant))
    (headers : ApiHeaders) : Except Thrown Caller :=
  if env.AUTH_ENABLED then
    match truthy (extractApiKey headers) with
    | none =>
      .error (.ocr {
        code := .UNAUTHORIZED
        message := "Missing API key (send 'Authorization: Bearer <key>' or 'X-API-Key')" })
    | some key =>
      match resolve key with
      | .ok (some tenant) => .ok { tenantId := tenant.tenantId, tenant := some tenant }
      | .ok none =>
        .error (.ocr { code := .UNAUTHORIZED, message := "Invalid or revoked API key" })
      | .error _ =>
        .error (.ocr { code := .PROVIDER_UNAVAILABLE
                       message := "Authentication store unavailable", retryable := true })
  else .ok { tenantId := "anonymous" }

def limitId (caller : Caller) (ip : Option String) : String :=
  ((truthy (some caller.tenantId)).or (truthy ip)).getD "anon"

def limitMax (env : GateEnv) (caller : Caller) : Int :=
  (caller.tenant.bind Tenant.rateLimit).getD env.RATE_LIMIT_MAX

def rateLimited (env : GateEnv) (max : Int) : Thrown :=
  .ocr { code := .RATE_LIMITED
         message := "Rate limit of " ++ toString max ++ " requests per " ++
           toString env.RATE_LIMIT_WINDOW_SECONDS ++ "s exceeded"
         retryable := true }

/-- What `rateLimit` makes of the answer of `underLimit`; it lets pass what it cannot count. -/
def limitVerdict (env : GateEnv) (max : Int) : Except String Bool → Except Thrown Unit
  | .ok true => .ok ()
  | .ok false => .error (rateLimited env max)
  | .error _ => .ok ()

end OcrService
