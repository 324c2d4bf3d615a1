import HttpRouting.Pattern.Host
import HttpRouting.Pattern.Path
import HttpRouting.Pipeline.Layer
import HttpRouting.Table.Key

/-!
# Routes
-/

namespace HttpRouting

structure RouteOptions where
  name : Option String
  layers : List Layer
  timeout : Option Duration

def RouteOptions.none : RouteOptions := ⟨Option.none, [], Option.none⟩

instance : Inhabited RouteOptions := ⟨RouteOptions.none⟩

structure Route where
  id : RouteId
  method : RouteMethod
  host : HostPattern
  path : String
  segments : List Segment
  name : Option String
  layers : List Layer
  timeout : Option Duration
  handler : Handler

def Route.accepts (r : Route) (host : String) (method : Method) (pieces : List String) : Bool :=
  r.host.accepts host && r.method.accepts method && PathPattern.accepts r.segments pieces

structure RouteInfo where
  method : String
  host : Option String
  path : String
  params : List String
  name : Option String
  middleware : Nat
  timeoutMillis : Option Nat
  deriving DecidableEq, Repr

namespace Route

def info (r : Route) : RouteInfo where
  method := r.method.text
  host := match r.host with
    | .any => none
    | host => some host.text
  path := r.path
  params := PathPattern.binders r.segments
  name := r.name
  middleware := r.layers.length
  timeoutMillis := r.timeout.map fun d => min d.millis Duration.maxMillis

end Route

end HttpRouting
