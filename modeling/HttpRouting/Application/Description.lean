import HttpRouting.Application.Draft

/-!
# Descriptions

One-line texts of the library's values for logs and error reports.  A record is
written with its name and fields; two dots stand for fields that are not shown.
-/

namespace HttpRouting

namespace Description

def record (name : String) (fields : List (String × String)) (abridged : Bool) : String :=
  let items := fields.map fun (key, value) => key ++ ": " ++ value
  let items := if abridged then items ++ [".."] else items
  name ++ " \x7b " ++ Text.joined ", " items ++ " \x7d"

def list (items : List String) : String := "[" ++ Text.joined ", " items ++ "]"

def map (entries : List (String × String)) : String :=
  "\x7b" ++ Text.joined ", " (entries.map fun (key, value) => key ++ ": " ++ value) ++ "\x7d"

def optional (show? : Option String) : String :=
  match show? with
  | some text => "Some(" ++ text ++ ")"
  | none => "None"

def handler : String := record "FnHandler" [] true

def layer : String := record "MiddlewareFn" [] true

end Description

open Description

def RouteOptions.description (o : RouteOptions) : String :=
  record "RouteOptions"
    [("name", optional (o.name.map Text.quoted)), ("middleware", toString o.layers.length),
      ("timeout", optional (o.timeout.map Duration.text))] false

def RouteSpec.description (r : RouteSpec) : String :=
  record "RouteBuilder"
    [("method", Text.quoted r.method), ("host", optional (r.host.map Text.quoted)),
      ("options", r.options.description)] true

def Group.description (g : Group) : String :=
  record "Group"
    [("prefix", Text.quoted g.base), ("host", optional (g.host.map Text.quoted)),
      ("routes", toString g.routes.length)] true

def Config.description (c : Config) : String :=
  record "RouterConfig"
    [("duplicate_name", c.duplicateNames.text),
      ("default_timeout_ms", optional (c.defaultTimeoutMillis.map toString))] false

def Draft.description (d : Draft) : String :=
  record "AppBuilder"
    [("routes", toString d.routes.length), ("middleware", toString d.layers.length),
      ("config", d.config.description)] true

def RouteMethod.description : RouteMethod → String
  | .any => "Any"
  | .exact method => "Exact(" ++ method.text ++ ")"

def HostPattern.description : HostPattern → String
  | .any => "Any"
  | .exact host => "Exact(" ++ Text.quoted host ++ ")"
  | .suffix domain => "SuffixWildcard(" ++ Text.quoted domain ++ ")"

def RouteId.description (id : RouteId) : String := "RouteId(" ++ toString id.index ++ ")"

def Route.description (r : Route) : String :=
  record "Route"
    [("id", r.id.description), ("method", r.method.description),
      ("host", r.host.description), ("path", Text.quoted r.path),
      ("name", optional (r.name.map Text.quoted)), ("middleware", toString r.layers.length),
      ("timeout", optional (r.timeout.map Duration.text))] true

def LayerChain.description (c : LayerChain) : String :=
  record "MiddlewareChain" [("len", toString c.size)] false

def MethodOverride.description (o : MethodOverride) : String :=
  record "MethodOverride"
    [("header", Text.quoted header), ("field", Text.quoted o.field)] false

def Endpoint.description (e : Endpoint) : String :=
  record "Endpoint"
    [("method", e.method.description), ("route", e.route.description),
      ("binders", Text.quotedList e.binders)] false

mutual

def Node.description : Node → String
  | ⟨literals, param, wildcard, endpoints⟩ =>
      record "Node"
        [("literals", map (Node.entryDescriptions literals)), ("param", optional (Node.childDescription? param)),
          ("wildcard", optional (Node.childDescription? wildcard)),
          ("endpoints", list (endpoints.map Endpoint.description))] false

def Node.childDescription? : Option Node → Option String
  | none => none
  | some child => some child.description

def Node.entryDescriptions : List (String × Node) → List (String × String)
  | [] => []
  | (text, child) :: rest => (Text.quoted text, child.description) :: Node.entryDescriptions rest

end

def Tiers.description (t : Tiers) : String :=
  record "Matcher"
    [("exact", map (Node.entryDescriptions t.exact)),
      ("suffix", list ((Node.entryDescriptions t.suffixes).map fun (domain, n) =>
        "(" ++ domain ++ ", " ++ n ++ ")")),
      ("any", t.any.description)] false

def RouteTable.description (t : RouteTable) : String :=
  record "RouteTable"
    [("routes", list (t.routes.map Route.description)),
      ("names", map (t.names.map fun (name, id) => (Text.quoted name, id.description))),
      ("matcher", t.tiers.description)] false

def App.description (a : App) : String :=
  record "App" [("table", a.table.description), ("hooks", toString a.hooks.length)] true

end HttpRouting
