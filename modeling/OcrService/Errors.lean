import OcrService.Values

/-! The typed errors of `http/errors.ts`, and everything else a `throw` can carry. -/
namespace OcrService

inductive OcrErrorCode where
  | UNAUTHORIZED | FORBIDDEN | NOT_FOUND | UNSUPPORTED_MEDIA_TYPE | FILE_TOO_LARGE
  | PAGE_LIMIT_EXCEEDED | INVALID_ARGS | NO_TEXT_DETECTED | EXTRACTION_FAILED
  | PROVIDER_UNAVAILABLE | INTERPRETATION_FAILED | SCHEMA_VALIDATION_FAILED | RATE_LIMITED
  deriving DecidableEq

namespace OcrErrorCode

def name : OcrErrorCode → String
  | UNAUTHORIZED => "UNAUTHORIZED"
  | FORBIDDEN => "FORBIDDEN"
  | NOT_FOUND => "NOT_FOUND"
  | UNSUPPORTED_MEDIA_TYPE => "UNSUPPORTED_MEDIA_TYPE"
  | FILE_TOO_LARGE => "FILE_TOO_LARGE"
  | PAGE_LIMIT_EXCEEDED => "PAGE_LIMIT_EXCEEDED"
  | INVALID_ARGS => "INVALID_ARGS"
  | NO_TEXT_DETECTED => "NO_TEXT_DETECTED"
  | EXTRACTION_FAILED => "EXTRACTION_FAILED"
  | PROVIDER_UNAVAILABLE => "PROVIDER_UNAVAILABLE"
  | INTERPRETATION_FAILED => "INTERPRETATION_FAILED"
  | SCHEMA_VALIDATION_FAILED => "SCHEMA_VALIDATION_FAILED"
  | RATE_LIMITED => "RATE_LIMITED"

def all : List OcrErrorCode :=
  [UNAUTHORIZED, FORBIDDEN, NOT_FOUND, UNSUPPORTED_MEDIA_TYPE, FILE_TOO_LARGE,
    PAGE_LIMIT_EXCEEDED, INVALID_ARGS, NO_TEXT_DETECTED, EXTRACTION_FAILED,
    PROVIDER_UNAVAILABLE, INTERPRETATION_FAILED, SCHEMA_VALIDATION_FAILED, RATE_LIMITED]

def ofName (s : String) : Option OcrErrorCode := all.find? fun c => c.name = s

def status : OcrErrorCode → Nat
  | UNAUTHORIZED => 401
  | FORBIDDEN => 403
  | NOT_FOUND => 404
  | UNSUPPORTED_MEDIA_TYPE => 415
  | FILE_TOO_LARGE => 413
  | PAGE_LIMIT_EXCEEDED => 422
  | INVALID_ARGS => 400
  | NO_TEXT_DETECTED => 422
  | EXTRACTION_FAILED => 502
  | PROVIDER_UNAVAILABLE => 503
  | INTERPRETATION_FAILED => 502
  | SCHEMA_VALIDATION_FAILED => 422
  | RATE_LIMITED => 429

theorem ofName_name (c : OcrErrorCode) : ofName c.name = some c := by
  cases c <;> decide

end OcrErrorCode

structure OcrError where
  code : OcrErrorCode
  message : String
  retryable : Bool := false
  details : Option JsValue := none

/-- What a rejected promise carries: one of the service's typed errors, a `ZodError`,
any other `Error`, or a thrown value that is no `Error`, known by its `String(...)`. -/
inductive Thrown where
  | ocr (e : OcrError)
  | zod (issues : JsValue) (message : String)
  | error (message : String)
  | value (text : String)

namespace Thrown

def text : Thrown → String
  | ocr e => e.message
  | zod _ message => message
  | error message => message
  | value s => s

def isOcrError : Thrown → Bool
  | ocr _ => true
  | _ => false

end Thrown

/-- Thrown where the calls within each other no longer fit on the stack. -/
inductive StackOverflow where
  | rangeError
  deriving DecidableEq

def StackOverflow.thrown : StackOverflow → Thrown
  | rangeError => .error "Maximum call stack size exceeded"

structure ErrorBody where
  code : OcrErrorCode
  message : String
  requestId : String
  retryable : Bool
  details : Option JsValue

def OcrError.toBody (e : OcrError) (requestId : String) : ErrorBody :=
  { code := e.code, message := e.message, requestId, retryable := e.retryable,
    details := e.details }

/-- The terminal error middleware: status and body of the response. -/
def errorHandler (requestId : String) : Thrown → Nat × ErrorBody
  | .ocr e => (e.code.status, e.toBody requestId)
  | .zod issues _ =>
    (400, { code := .INVALID_ARGS, message := "Request validation failed", requestId,
            retryable := false, details := some issues })
  | .error _ | .value _ =>
    (500, { code := .EXTRACTION_FAILED, message := "Internal server error", requestId,
            retryable := true, details := none })

end OcrService
