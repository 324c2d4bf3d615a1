import HttpRouting.Application.RouteSpec

/-!
# Groups of routes

The routes of a group share the start of their path, some layers and a host for
those that name none.  A group inside another is nothing but its routes.
-/

namespace HttpRouting

/-- Two paths one after the other, with one slash before each that is not
empty; the whole is never empty. -/
def joinPath (base path : String) : String :=
  let base := Text.dropTrailing Text.isSlash (Text.dropLeading Text.isSlash base)
  let path := Text.dropLeading Text.isSlash path
  let parts := [base, path].filter (· ≠ "")
  if parts.isEmpty then "/" else String.join (parts.map ("/" ++ ·))

structure Group where
  base : String
  host : Option String
  layers : List Layer
  routes : List (String × RouteSpec)

namespace Group

def ofBase (base : String) : Group := ⟨base, none, [], []⟩

def route (g : Group) (path : String) (r : RouteSpec) : Group :=
  { g with routes := g.routes ++ [(path, r)] }

def wrap (g : Group) (layer : Layer) : Group := { g with layers := g.layers ++ [layer] }

def withHost (g : Group) (host : String) : Group := { g with host := some host }

/-- The routes of a group with all that they share written out. -/
def flatten (g : Group) : List (String × RouteSpec) :=
  g.routes.map fun (path, r) =>
    (joinPath g.base path, (r.defaultHost g.host).wrapOutside g.layers)

def nest (g inner : Group) : Group := { g with routes := g.routes ++ inner.flatten }

end Group

end HttpRouting
