import HttpRouting.Pipeline.Handler
import HttpRouting.Text.Blank
import HttpRouting.Text.Form

/-!
# Hooks

A hook runs before a request is routed; it may change the request or fail it.
`methodOverride` lets a `POST` request name the method it stands for, in a
header field or in a field of its form body.
-/

namespace HttpRouting

structure Hook where
  before : Activity (Except Failure Unit)

structure MethodOverride where
  field : String
  deriving DecidableEq, Repr

namespace MethodOverride

def header : String := "x-http-method-override"

def formType : String := "application/x-www-form-urlencoded"

def standard : MethodOverride := ⟨"_method"⟩

def isForm (r : Request) : Bool :=
  match (r.headers.get? "content-type").bind Headers.visibleText? with
  | some type => formType.toList.isPrefixOf type.toList
  | none => false

/-- The text by which the request asks for a method, if it does.  The header
field counts before the form. -/
def requested (o : MethodOverride) (r : Request) : Except Failure (Option String) :=
  match r.headers.get? header with
  | some value =>
      match Headers.visibleText? value with
      | some text => .ok (some text)
      | none => .error (.badRequest Headers.invisibleText)
  | none =>
      if isForm r then .ok ((Text.Form.decode r.body).lookup o.field) else .ok none

/-- The method that the request stands for: `none` where it keeps its own. -/
def substitute (o : MethodOverride) (r : Request) : Except Failure (Option Method) :=
  if r.method = Method.post then do
    match ← o.requested r with
    | none => return none
    | some text =>
        match Method.parse? (Text.trimmed text).toUpper with
        | some method => return some method
        | none => throw Failure.invalidMethod
  else .ok none

def overridden (r : Request) (method : Method) : Event :=
  ⟨.debug, "method overridden",
    [("from", r.method.text), ("to", method.text), ("path", r.path)]⟩

def hook (o : MethodOverride) : Hook where
  before := do
    let c ← Activity.context
    match o.substitute c.request with
    | .error failure => return .error failure
    | .ok none => return .ok ()
    | .ok (some method) =>
        Activity.report (overridden c.request method)
        Activity.edit fun r => { r with method := method }
        return .ok ()

end MethodOverride

end HttpRouting
