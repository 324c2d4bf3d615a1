import HttpRouting.Message.Headers
import HttpRouting.Message.Method
import HttpRouting.Message.Status
import HttpRouting.Text.Split
import HttpRouting.Time.Duration

/-!
# Failures of a request

A failure is passed back through the layers of a request and has a status, a
text and, where a method is not allowed, the list of those that are.
-/

namespace HttpRouting

open Text.Utf8 (Bytes)

inductive Failure where
  | notFound
  | methodNotAllowed (allowed : List String)
  | timeout (after : Duration)
  | badRequest (reason : String)
  | internal (reason : String)
  | status (code : Status) (reason : String)
  | other (text : String)
  deriving DecidableEq, Repr

namespace Failure

def message : Failure → String
  | .notFound => "no route matches the request"
  | .methodNotAllowed allowed =>
      "method not allowed, allowed: " ++ Text.joined ", " allowed
  | .timeout after => "request timed out after " ++ after.text
  | .badRequest reason => "bad request: " ++ reason
  | .internal reason => "internal error: " ++ reason
  | .status code reason => code.text ++ ": " ++ reason
  | .other text => text

def statusOf : Failure → Status
  | .notFound => Status.notFound
  | .methodNotAllowed _ => Status.methodNotAllowed
  | .timeout _ => Status.gatewayTimeout
  | .badRequest _ => Status.badRequest
  | .status code _ => code
  | .internal _ | .other _ => Status.internalServerError

def allowText? : Failure → Option String
  | .methodNotAllowed allowed => some (Text.joined ", " allowed)
  | _ => none

def allowValue? (f : Failure) : Option Bytes := f.allowText?.bind Headers.value?

def invalidMethod : Failure := .badRequest Method.invalidText

def kind : Failure → String
  | .notFound => "NotFound"
  | .methodNotAllowed _ => "MethodNotAllowed"
  | .timeout _ => "Timeout"
  | .badRequest _ => "BadRequest"
  | .internal _ => "Internal"
  | .status _ _ => "Status"
  | .other _ => "Other"

end Failure

/-- The errors that become failures: a failure itself, a message that could not be made, a text that
is no method, or any other error by its text. -/
inductive Cause where
  | own (f : Failure)
  | unmade (text : String)
  | invalidMethod
  | other (text : String)
  deriving DecidableEq, Repr

namespace Cause

instance : Coe Failure Cause := ⟨own⟩

def failure : Cause → Failure
  | .own f => f
  | .unmade text | .other text => .other text
  | .invalidMethod => Failure.invalidMethod

end Cause

end HttpRouting
