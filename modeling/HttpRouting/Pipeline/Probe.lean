import HttpRouting.Pipeline.ErrorHandler
import HttpRouting.Pipeline.Hook
import HttpRouting.Pipeline.Responder
import HttpRouting.Pipeline.Script
import HttpRouting.Text.Literal

/-!
# Probes

Layers, handlers, hooks and an error handler with a behaviour that is given by
a few parameters: they write the journal, wait, fail, answer or change the
request at a chosen place, and so show how a chain behaves.
-/

namespace HttpRouting

open Text.Utf8 (Bytes)

namespace Script

def trace (name : String) : Script Outcome := do
  Activity.note (">" ++ name)
  let outcome ← inner
  Activity.note ("<" ++ name ++ ":" ++ outcome.summary)
  return outcome

def traceContext (name : String) : Script Outcome := do
  Activity.noteContext (">" ++ name)
  let outcome ← inner
  Activity.noteContext ("<" ++ name)
  return outcome

def stall (ticks : Nat) : Script Outcome := do
  Activity.sleepFor ticks
  inner

def linger (ticks : Nat) : Script Outcome := do
  let outcome ← inner
  Activity.sleepFor ticks
  return outcome

def watch : Script Outcome := do
  Activity.perform .watch
  inner

def cancelling : Script Outcome := do
  let c ← (Activity.context : Script Context)
  Activity.perform (.cancel c.token)
  inner

def retry : Script Outcome := do
  match ← inner with
  | .ok response => return .ok response
  | .error _ => inner

def fallback (responder : Context → Responder) : Script Outcome := do
  match ← inner with
  | .ok response => return .ok response
  | .error _ =>
      let c ← (Activity.context : Script Context)
      return (responder c).answer

def shortCircuit (responder : Context → Responder) : Script Outcome := do
  let c ← (Activity.context : Script Context)
  return (responder c).answer

def failAfter (failure : Failure) : Script Outcome := do
  let _ ← inner
  return .error failure

def panicking (text : String) : Script Outcome := .panic ⟨some text⟩

def addHeaders (fields : List (String × Bytes)) : Script Outcome := do
  match ← inner with
  | .ok response => return .ok { response with headers := response.headers.appendAll fields }
  | .error failure => return .error failure

def editing (change : Request → Request) : Script Outcome := do
  Activity.edit change
  inner

end Script

def Handler.refusingPanics (h : Handler) : Handler := do
  let result ← Activity.contained h
  match result with
  | .ok outcome => return outcome
  | .error p =>
      return .error (.badRequest ((p.message.map Text.jsonString).getD "null"))

namespace Request

def setHeaders (fields : List (String × Bytes)) (r : Request) : Request :=
  { r with headers := r.headers.insertAll fields }

def setMethod (method : Method) (r : Request) : Request := { r with method := method }

end Request

/-- What a probing handler does, in this order. -/
structure HandlerPlan where
  watch : Bool
  log : Option String
  detail : Option String
  ticks : Option Nat
  panic : Option Panic
  responder : Context → Responder

def HandlerPlan.handler (plan : HandlerPlan) : Handler := do
  if plan.watch then Activity.perform .watch
  if let some text := plan.log then Activity.note text
  if let some text := plan.detail then Activity.noteContext text
  if let some ticks := plan.ticks then
    Activity.sleepFor ticks
    Activity.note "slept"
  if let some p := plan.panic then
    Activity.panic p
  else
    let c ← Activity.context
    return (plan.responder c).answer

namespace Hook

def logging (name : String) : Hook where
  before := do
    let c ← Activity.context
    Activity.note (name ++ " " ++ c.method.text ++ " " ++ c.path ++ " " ++ c.routeText)
    return .ok ()

def waiting (ticks : Nat) : Hook where
  before := do
    Activity.sleepFor ticks
    return .ok ()

def failing (failure : Failure) : Hook where
  before := return .error failure

def settingMethod (text : String) : Hook where
  before := do
    match Method.parse? text with
    | some method =>
        Activity.edit (Request.setMethod method)
        return .ok ()
    | none => return .error Failure.invalidMethod

def settingHeaders (fields : List (String × Bytes)) : Hook where
  before := do
    Activity.edit (Request.setHeaders fields)
    return .ok ()

end Hook

def ErrorHandler.verbose (status : Option Status) (fields : List (String × Bytes)) :
    ErrorHandler where
  answer := fun c f =>
    let line := c.method.text ++ " " ++ c.path ++ " " ++ c.routeText ++ " " ++ f.kind ++ ": " ++
      f.message
    .ok ⟨status.getD f.statusOf, Headers.ofList fields, Body.ofText line⟩
  events := fun _ _ => []

end HttpRouting
