import HttpRouting.Application.App
import HttpRouting.Application.Group
import HttpRouting.Pipeline.Deadline
import HttpRouting.Settings.Config

/-!
# Drafts of applications

A draft collects routes, layers, hooks, an error handler and settings.  Building
it registers the routes in order and composes a chain for each.
-/

namespace HttpRouting

structure Draft where
  routes : List (String × RouteSpec)
  layers : List Layer
  hooks : List Hook
  errorHandler : ErrorHandler
  config : Config

namespace Draft

def empty : Draft := ⟨[], [], [], ErrorHandler.standard, Config.standard⟩

instance : Inhabited Draft := ⟨empty⟩

def route (d : Draft) (path : String) (r : RouteSpec) : Draft :=
  { d with routes := d.routes ++ [(path, r)] }

def group (d : Draft) (g : Group) : Draft := { d with routes := d.routes ++ g.flatten }

def wrap (d : Draft) (layer : Layer) : Draft := { d with layers := d.layers ++ [layer] }

def withHook (d : Draft) (hook : Hook) : Draft := { d with hooks := d.hooks ++ [hook] }

def withErrorHandler (d : Draft) (e : ErrorHandler) : Draft := { d with errorHandler := e }

def withConfig (d : Draft) (c : Config) : Draft := { d with config := c }

def registrations (d : Draft) : List Registration :=
  d.routes.map fun (path, r) => (r.defaultTimeout d.config.defaultTimeout).registration path

def tolerates (policy : DuplicateNames) : RouteError → Bool
  | .duplicateName _ => policy = .skip
  | _ => false

/-- Registers routes in order up to the first error that is not passed over. -/
def registerAll (policy : DuplicateNames) : RouteTable → List Registration →
    Except RouteError RouteTable
  | t, [] => .ok t
  | t, r :: rest =>
      match t.register r with
      | (.ok _, t) => registerAll policy t rest
      | (.error e, t) => if tolerates policy e then registerAll policy t rest else .error e

/-- The layers of a route: its timeout outside all others, and its deadline
once more inside those that all routes share. -/
def layersOf (shared : List Layer) (r : Route) : List Layer :=
  (r.timeout.map Layer.timeout).toList ++ shared ++
    (if r.timeout.isSome && !shared.isEmpty then [Layer.enforced] else []) ++ r.layers

def chainOf (shared : List Layer) (r : Route) : Handler :=
  Layer.around (layersOf shared r) r.handler

def build (d : Draft) : Except RouteError App := do
  let table ← registerAll d.config.duplicateNames RouteTable.empty d.registrations
  return ⟨table, table.routes.map (chainOf d.layers), Layer.around d.layers Handler.unserved,
    d.hooks, d.errorHandler⟩

theorem build_eq_ok_iff {d : Draft} {a : App} :
    d.build = .ok a ↔
      ∃ table, registerAll d.config.duplicateNames RouteTable.empty d.registrations = .ok table ∧
        a = ⟨table, table.routes.map (chainOf d.layers), Layer.around d.layers Handler.unserved,
          d.hooks, d.errorHandler⟩ := by
  unfold build
  cases registerAll d.config.duplicateNames RouteTable.empty d.registrations with
  | error refusal => exact ⟨nofun, nofun⟩
  | ok table =>
      constructor
      · rintro ⟨⟩
        exact ⟨table, rfl, rfl⟩
      · rintro ⟨_, ⟨⟩, rfl⟩
        rfl

theorem exists_build_of_toOption_map {β : Type} {d : Draft} {f : App → β} {b : β}
    (h : d.build.toOption.map f = some b) : ∃ a, d.build = .ok a ∧ f a = b := by
  cases hbuild : d.build with
  | error refusal =>
      rw [hbuild] at h
      cases h
  | ok a =>
      rw [hbuild] at h
      exact ⟨a, rfl, Option.some.inj h⟩

def refusedEvent (r : Registration) (e : RouteError) : Event :=
  ⟨.error, "failed to register route",
    [("method", r.method), ("path", r.path), ("cause", e.message)]⟩

def registrationEvents (policy : DuplicateNames) : RouteTable → List Registration → List Event
  | _, [] => []
  | t, r :: rest =>
      t.registrationEvents r ++
        match t.register r with
        | (.ok _, t) => registrationEvents policy t rest
        | (.error e, t) =>
            if tolerates policy e then registrationEvents policy t rest else [refusedEvent r e]

def builtEvent (d : Draft) (a : App) : Event :=
  ⟨.debug, "app built",
    [("routes", toString a.table.size), ("middleware", toString d.layers.length),
      ("hooks", toString d.hooks.length)]⟩

def buildEvents (d : Draft) : List Event :=
  registrationEvents d.config.duplicateNames RouteTable.empty d.registrations ++
    match d.build with
    | .ok a => [d.builtEvent a]
    | .error _ => []

end Draft

end HttpRouting
