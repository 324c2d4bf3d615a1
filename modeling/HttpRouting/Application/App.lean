import HttpRouting.Pipeline.ErrorHandler
import HttpRouting.Pipeline.Hook
import HttpRouting.Table.Reverse
import HttpRouting.Table.RouteTable

/-!
# Applications

An application runs its hooks, resolves the request and hands it to the layers
and the handler of the route.  A request that no route serves goes through the
layers that all routes share, around a handler that fails.  Whatever fails is
answered by the error handler.
-/

namespace HttpRouting

structure App where
  table : RouteTable
  /-- The handler of each route with its layers, by the number of the route. -/
  chains : List Handler
  unrouted : Handler
  hooks : List Hook
  errorHandler : ErrorHandler

def Handler.unserved : Handler := do
  let c ← Activity.context
  match c.unserved with
  | some (.methodNotAllowed allowed) => return .error (.methodNotAllowed allowed)
  | some .notFound | none => return .error .notFound

def Hook.runAll : List Hook → Activity (Except Failure Unit)
  | [] => return .ok ()
  | hook :: rest => do
      match ← hook.before with
      | .ok () => runAll rest
      | .error failure => return .error failure

namespace App

def matchedEvent (id : RouteId) (c : Context) : Event :=
  ⟨.debug, "route matched",
    [("route", id.text), ("method", c.method.text), ("host", c.host), ("path", c.path)]⟩

def mismatchEvent (allowed : List String) (c : Context) : Event :=
  ⟨.debug, "method not allowed",
    [("method", c.method.text), ("host", c.host), ("path", c.path),
      ("allowed", Text.quotedList allowed)]⟩

def unmatchedEvent (c : Context) : Event :=
  ⟨.debug, "no route matched", [("method", c.method.text), ("host", c.host), ("path", c.path)]⟩

def route (a : App) : Handler := do
  let c ← Activity.context
  match a.table.resolve c.host c.method c.path with
  | .matched id params =>
      Activity.report (matchedEvent id c)
      match a.chains[id.index]? with
      | none => return .error (.internal ("no handler chain for route " ++ id.text))
      | some chain =>
          Activity.perform (.bind id params)
          chain
  | .methodMismatch allowed =>
      Activity.report (mismatchEvent allowed c)
      Activity.perform (.mark (some (.methodNotAllowed allowed)))
      a.unrouted
  | .noMatch =>
      Activity.report (unmatchedEvent c)
      Activity.perform (.mark (some .notFound))
      a.unrouted

def handle (a : App) : Handler := do
  match ← Hook.runAll a.hooks with
  | .error failure => return .error failure
  | .ok () => a.route

/-- The response to a failed request.  An `Allow` field that the failure asks
for is added unless the error handler has set one. -/
def answerFailure (a : App) (failure : Failure) : Activity Response := do
  let c ← Activity.context
  let response ← a.errorHandler.run c failure
  match failure.allowValue? with
  | some value => return { response with headers := response.headers.insertIfAbsent "allow" value }
  | none => return response

/-- Answers a request. -/
def dispatch (a : App) : Activity Response := do
  match ← a.handle with
  | .ok response => return response
  | .error failure => a.answerFailure failure

def path? (a : App) (name : String) (params : List (String × String)) : Option String := do
  let id ← a.table.named? name
  let route ← a.table.get? id
  PathPattern.build? route.segments params

def pathWithQuery? (a : App) (name : String) (params query : List (String × String)) :
    Option String :=
  (a.path? name params).map (PathPattern.withQuery · query)

end App

end HttpRouting
