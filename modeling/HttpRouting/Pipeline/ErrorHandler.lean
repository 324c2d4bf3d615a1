import HttpRouting.Pipeline.Handler

/-!
# Error handlers

An error handler answers a failed request.  The standard one answers with the
status of the failure and a short text.  The cause of a server error goes to
the events and not into the text.
-/

namespace HttpRouting

structure ErrorHandler where
  answer : Context → Failure → Except Panic Response
  events : Context → Failure → List Event

namespace ErrorHandler

/-- The text of the answer: of a server error only its standard reason. -/
def publicText (f : Failure) : String :=
  if f.statusOf.isServerError then f.statusOf.reason?.getD "server error" else f.message

def page (f : Failure) : Response :=
  let response := Response.plainText f.statusOf (publicText f)
  match f.allowValue? with
  | some value => { response with headers := response.headers.insert "allow" value }
  | none => response

def notice (c : Context) (f : Failure) : Event :=
  let fields :=
    [("method", c.method.text), ("path", c.path), ("status", toString f.statusOf.code),
      ("cause", f.message)]
  if f.statusOf.isServerError then ⟨.error, "request failed", fields⟩
  else ⟨.debug, "request rejected", fields⟩

def standard : ErrorHandler where
  answer := fun _ f => .ok (page f)
  events := fun c f => [notice c f]

def run (e : ErrorHandler) (c : Context) (f : Failure) : Activity Response := do
  (e.events c f).forM Activity.report
  match e.answer c f with
  | .ok response => return response
  | .error p => .panic p

end ErrorHandler

end HttpRouting
