import HttpRouting.Event
import HttpRouting.Table.Route
import HttpRouting.Table.RouteError
import HttpRouting.Table.Tiers

/-!
# The route table

The table holds the routes in order of registration, an index of their names and
the tries in which requests are looked up.  A registration adds one route to all
three or returns an error; either way there is a table after it, and a run of
registrations goes on with that.
-/

namespace HttpRouting

structure RouteTable where
  routes : List Route
  names : List (String × RouteId)
  tiers : Tiers

structure Registration where
  method : String
  host : Option String
  path : String
  handler : Handler
  options : RouteOptions

namespace RouteTable

def empty : RouteTable := ⟨[], [], Tiers.empty⟩

instance : Inhabited RouteTable := ⟨empty⟩

def size (t : RouteTable) : Nat := t.routes.length

def get? (t : RouteTable) (id : RouteId) : Option Route := t.routes[id.index]?

def named? (t : RouteTable) (name : String) : Option RouteId := t.names.lookup name

def infos (t : RouteTable) : List RouteInfo := t.routes.map Route.info

def resolve (t : RouteTable) (host : String) (method : Method) (path : String) : Match :=
  t.tiers.resolve host method path

end RouteTable

namespace Registration

def parseMethod (r : Registration) : Except RouteError RouteMethod :=
  match RouteMethod.parse? r.method with
  | some method => .ok method
  | none => .error (.invalidMethod r.method)

def parseHost (r : Registration) : Except RouteError HostPattern :=
  match r.host with
  | none => .ok .any
  | some pattern => (HostPattern.compile pattern).mapError .pattern

end Registration

namespace RouteTable

/-- The names after a route with these options has been added. -/
def nameAdded (names : List (String × RouteId)) (id : RouteId) :
    Option String → List (String × RouteId)
  | none => names
  | some name => names ++ [(name, id)]

def isTaken (t : RouteTable) : Option String → Bool
  | none => false
  | some name => (t.named? name).isSome

def place (t : RouteTable) (method : RouteMethod) (host : HostPattern) (r : Registration) :
    Except RouteError RouteId × RouteTable :=
  match PathPattern.compile r.path with
  | .error fault => (.error (.pattern fault), t)
  | .ok segments =>
      match r.options.name.filter fun name => t.isTaken (some name) with
      | some name => (.error (.duplicateName name), t)
      | none =>
          let id : RouteId := ⟨t.routes.length⟩
          match t.tiers.place host segments ⟨method, id, PathPattern.binders segments⟩ with
          | (false, tiers) =>
              (.error (.duplicateRoute method.text host.mention r.path), { t with tiers := tiers })
          | (true, tiers) =>
              let route : Route :=
                ⟨id, method, host, r.path, segments, r.options.name, r.options.layers,
                  r.options.timeout, r.handler⟩
              (.ok id, ⟨t.routes ++ [route], nameAdded t.names id r.options.name, tiers⟩)

/-- Registers a route.  The host pattern is judged first, then the method, the
path, the name, and last whether the route is there already. -/
def register (t : RouteTable) (r : Registration) : Except RouteError RouteId × RouteTable :=
  match r.parseHost with
  | .error refusal => (.error refusal, t)
  | .ok host =>
      match r.parseMethod with
      | .error refusal => (.error refusal, t)
      | .ok method => t.place method host r

def registered (calls : List Registration) : RouteTable :=
  calls.foldl (fun t r => (t.register r).2) empty

def add (t : RouteTable) (r : Registration) : Except RouteError (RouteId × RouteTable) :=
  match t.register r with
  | (.ok id, after) => .ok (id, after)
  | (.error refusal, _) => .error refusal

def candidates (t : RouteTable) (host : String) (method : Method) (path : String) : List Route :=
  t.routes.filter fun r => r.accepts (HostName.normalized host) method (Text.pieces path)

def registrationEvents (t : RouteTable) (r : Registration) : List Event :=
  match t.add r with
  | .ok (id, after) =>
      match after.get? id with
      | some route =>
          [⟨.debug, "route registered",
            [("route", id.text), ("method", route.method.text), ("host", route.host.text),
              ("path", route.path)]⟩]
      | none => []
  | .error (.duplicateName name) =>
      match RouteMethod.parse? r.method with
      | some method =>
          [⟨.warn, "route name already registered, route rejected",
            [("name", name), ("method", method.text), ("path", r.path)]⟩]
      | none => []
  | .error _ => []

end RouteTable

end HttpRouting
