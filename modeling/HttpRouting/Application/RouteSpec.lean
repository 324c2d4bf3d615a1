import HttpRouting.Table.RouteTable

/-!
# Routes to be registered

A route as an application describes it, before it has a path or a number.
-/

namespace HttpRouting

structure RouteSpec where
  method : String
  host : Option String
  options : RouteOptions
  handler : Handler

namespace RouteSpec

def ofMethod (method : String) (handler : Handler) : RouteSpec :=
  ⟨method, none, RouteOptions.none, handler⟩

def withName (r : RouteSpec) (name : String) : RouteSpec :=
  { r with options := { r.options with name := some name } }

def withHost (r : RouteSpec) (host : String) : RouteSpec := { r with host := some host }

def withTimeout (r : RouteSpec) (timeout : Duration) : RouteSpec :=
  { r with options := { r.options with timeout := some timeout } }

def wrap (r : RouteSpec) (layer : Layer) : RouteSpec :=
  { r with options := { r.options with layers := r.options.layers ++ [layer] } }

def wrapOutside (r : RouteSpec) (layers : List Layer) : RouteSpec :=
  { r with options := { r.options with layers := layers ++ r.options.layers } }

def defaultHost (r : RouteSpec) (host : Option String) : RouteSpec :=
  { r with host := r.host.or host }

def defaultTimeout (r : RouteSpec) (timeout : Option Duration) : RouteSpec :=
  { r with options := { r.options with timeout := r.options.timeout.or timeout } }

def registration (r : RouteSpec) (path : String) : Registration :=
  ⟨r.method, r.host, path, r.handler, r.options⟩

end RouteSpec

end HttpRouting
