import HttpRouting.Application.Program
import HttpRouting.Pipeline.Recovery
import HttpRouting.Proofs.JoinedPath
import HttpRouting.Proofs.NamePolicy

/-!
# Groups as notation

A program with groups leads to the draft that its routes alone would give, each written out in
full: with the prefixes of its groups before its path, the host of the innermost group that sets
one unless it sets its own, and the layers of its groups, the outermost first, outside its own.
-/

namespace HttpRouting

/-! ## Layers -/

namespace LayerTerm

mutual

/-- The layers that are written down in a term, the first one outermost. -/
def members : LayerTerm → List Layer
  | .single layer => [layer]
  | .chain terms => membersOfAll terms

def membersOfAll : List LayerTerm → List Layer
  | [] => []
  | term :: rest => term.members ++ membersOfAll rest

end

theorem layers_collect (c : LayerChain) (terms : List LayerTerm) :
    (collect c terms).layers = c.layers ++ terms.map layer := by
  induction terms generalizing c with
  | nil => simp [collect]
  | cons term rest ih => simp [collect, ih, LayerChain.push]

theorem layer_chain (terms : List LayerTerm) :
    (LayerTerm.chain terms).layer = Layer.chain (terms.map layer) := by
  rw [layer, LayerChain.toLayer, layers_collect]
  rfl

mutual

theorem decorate_layer (term : LayerTerm) (h : Handler) :
    term.layer.decorate h = Layer.around term.members h := by
  cases term with
  | single own =>
      rw [layer, members]
      rfl
  | chain terms =>
      rw [layer_chain, members]
      exact around_map_layer terms h

theorem around_map_layer (terms : List LayerTerm) (h : Handler) :
    Layer.around (terms.map layer) h = Layer.around (membersOfAll terms) h := by
  cases terms with
  | nil => rfl
  | cons term rest =>
      rw [List.map_cons, Layer.around_cons, membersOfAll, Layer.around_append,
        around_map_layer rest h, decorate_layer term]

end

end LayerTerm

/-! ## Routes -/

namespace RouteStep

@[simp] def name? : RouteStep → Option String
  | .name text => some text
  | _ => none

@[simp] def host? : RouteStep → Option String
  | .host pattern => some pattern
  | _ => none

@[simp] def timeout? : RouteStep → Option Duration
  | .timeout duration => some duration
  | _ => none

@[simp] def layer? : RouteStep → Option LayerTerm
  | .wrap layer => some layer
  | _ => none

end RouteStep

namespace RouteTerm

def name? (r : RouteTerm) : Option String := (r.steps.filterMap RouteStep.name?).getLast?

def host? (r : RouteTerm) : Option String := (r.steps.filterMap RouteStep.host?).getLast?

def timeout? (r : RouteTerm) : Option Duration := (r.steps.filterMap RouteStep.timeout?).getLast?

def layers (r : RouteTerm) : List LayerTerm := r.steps.filterMap RouteStep.layer?

theorem spec_eq (r : RouteTerm) :
    r.spec =
      ⟨r.method, r.host?, ⟨r.name?, r.layers.map LayerTerm.layer, r.timeout?⟩, r.handler⟩ := by
  obtain ⟨method, handler, steps⟩ := r
  unfold spec name? host? timeout? layers
  induction steps using List.reverseRecOn with
  | nil => rfl
  | append_singleton steps step ih =>
      dsimp only at ih ⊢
      simp only [List.foldl_append, ih, List.filterMap_append, List.foldl_cons, List.foldl_nil]
      cases step <;>
        simp [RouteStep.apply, RouteSpec.withName, RouteSpec.withHost, RouteSpec.withTimeout,
          RouteSpec.wrap]

end RouteTerm

/-! ## Routes written out in full -/

/-- What the groups around a call share, the outermost group first. -/
structure Scope where
  bases : List String
  host : Option String
  layers : List LayerTerm

namespace Scope

def root : Scope := ⟨[], none, []⟩

def inside (s outer : Scope) : Scope :=
  ⟨outer.bases ++ s.bases, s.host.or outer.host, outer.layers ++ s.layers⟩

theorem inside_assoc (s middle outer : Scope) :
    (s.inside middle).inside outer = s.inside (middle.inside outer) := by
  simp [inside, List.append_assoc, Option.or_assoc]

@[simp] theorem root_inside (s : Scope) : root.inside s = s := by simp [inside, root]

@[simp] theorem inside_root (s : Scope) : s.inside root = s := by simp [inside, root]

end Scope

/-- A route as a program registers it, with the scope in which it does. -/
structure Entry where
  scope : Scope
  path : String
  route : RouteTerm

namespace Entry

def inside (e : Entry) (outer : Scope) : Entry := { e with scope := e.scope.inside outer }

def fullPath (e : Entry) : String :=
  match e.scope.bases with
  | [] => e.path
  | bases => joinedPath bases e.path

def spec (e : Entry) : RouteSpec :=
  ⟨e.route.method, e.route.host?.or e.scope.host,
    ⟨e.route.name?, (e.scope.layers ++ e.route.layers).map LayerTerm.layer, e.route.timeout?⟩,
    e.route.handler⟩

end Entry

namespace GroupStep

@[simp] def host? : GroupStep → Option String
  | .host pattern => some pattern
  | _ => none

@[simp] def layer? : GroupStep → Option LayerTerm
  | .wrap layer => some layer
  | _ => none

end GroupStep

/-- What a group shares: the last host that is set in it counts, and all its layers do, wherever
they stand among its routes. -/
def Scope.ofGroup (base : String) (steps : List GroupStep) : Scope :=
  ⟨[base], (steps.filterMap GroupStep.host?).getLast?, steps.filterMap GroupStep.layer?⟩

mutual

def GroupStep.entries (s : Scope) : GroupStep → List Entry
  | .route path r => [⟨s, path, r⟩]
  | .group base steps => entriesOfAll ((Scope.ofGroup base steps).inside s) steps
  | .wrap _ | .host _ => []

def entriesOfAll (s : Scope) : List GroupStep → List Entry
  | [] => []
  | step :: rest => step.entries s ++ entriesOfAll s rest

end

mutual

theorem GroupStep.entries_inside (s outer : Scope) (step : GroupStep) :
    step.entries (s.inside outer) = (step.entries s).map (Entry.inside · outer) := by
  cases step with
  | route path r => rfl
  | wrap layer => rfl
  | host pattern => rfl
  | group base steps =>
      rw [GroupStep.entries, GroupStep.entries, ← Scope.inside_assoc]
      exact entriesOfAll_inside _ outer steps

theorem entriesOfAll_inside (s outer : Scope) (steps : List GroupStep) :
    entriesOfAll (s.inside outer) steps = (entriesOfAll s steps).map (Entry.inside · outer) := by
  cases steps with
  | nil => rfl
  | cons step rest =>
      rw [entriesOfAll, entriesOfAll, List.map_append, GroupStep.entries_inside s outer step,
        entriesOfAll_inside s outer rest]

end

/-! ## Groups -/

def Entry.routed (e : Entry) : String × RouteSpec := (e.fullPath, e.spec)

namespace Entry

theorem fullPath_inside (base : String) (host : Option String) (layers : List LayerTerm)
    (e : Entry) : (e.inside ⟨[base], host, layers⟩).fullPath = joinPath base e.fullPath := by
  obtain ⟨⟨bases, _, _⟩, path, r⟩ := e
  cases bases with
  | nil =>
      change joinedPath [base] path = joinPath base path
      rw [joinPath_eq, joinedPath]
      rfl
  | cons first bases =>
      change joinedPath (base :: first :: bases) path = joinPath base (joinedPath (first :: bases) path)
      rw [joinPath_joinedPath]

theorem spec_inside (base : String) (host : Option String) (layers : List LayerTerm) (e : Entry) :
    (e.inside ⟨[base], host, layers⟩).spec =
      (e.spec.defaultHost host).wrapOutside (layers.map LayerTerm.layer) := by
  simp [spec, inside, Scope.inside, RouteSpec.defaultHost, RouteSpec.wrapOutside, Option.or_assoc]

theorem flatten_routed (base : String) (host : Option String) (layers : List LayerTerm)
    (entries : List Entry) :
    (Group.mk base host (layers.map LayerTerm.layer) (entries.map routed)).flatten =
      (entries.map (inside · ⟨[base], host, layers⟩)).map routed := by
  simp only [Group.flatten, List.map_map]
  refine List.map_congr_left fun e _ => ?_
  simp only [Function.comp_apply, routed, fullPath_inside, spec_inside]

end Entry

theorem entriesOfAll_eq (s : Scope) (steps : List GroupStep) :
    entriesOfAll s steps = (entriesOfAll Scope.root steps).map (Entry.inside · s) := by
  rw [← entriesOfAll_inside, Scope.root_inside]

mutual

theorem GroupStep.apply_eq (g : Group) (step : GroupStep) :
    step.apply g =
      ⟨g.base, step.host?.or g.host, g.layers ++ (step.layer?.map LayerTerm.layer).toList,
        g.routes ++ (step.entries Scope.root).map Entry.routed⟩ := by
  cases step with
  | route path r =>
      rw [GroupStep.apply, RouteTerm.spec_eq]
      simp [Group.route, GroupStep.entries, Entry.routed, Entry.fullPath, Entry.spec, Scope.root]
  | wrap layer => simp [GroupStep.apply, Group.wrap, GroupStep.entries]
  | host pattern => simp [GroupStep.apply, Group.withHost, GroupStep.entries]
  | group base steps =>
      have hinner : Group.applyAll (Group.ofBase base) steps =
          ⟨base, (Scope.ofGroup base steps).host,
            (Scope.ofGroup base steps).layers.map LayerTerm.layer,
            (entriesOfAll Scope.root steps).map Entry.routed⟩ := by
        rw [Group.applyAll_eq (Group.ofBase base) steps]
        simp [Group.ofBase, Scope.ofGroup]
      have hflat : (Group.applyAll (Group.ofBase base) steps).flatten =
          ((GroupStep.group base steps).entries Scope.root).map Entry.routed := by
        rw [hinner, Entry.flatten_routed, GroupStep.entries, Scope.inside_root,
          entriesOfAll_eq (Scope.ofGroup base steps)]
        rfl
      simp [GroupStep.apply, Group.nest, hflat]

theorem Group.applyAll_eq (g : Group) (steps : List GroupStep) :
    Group.applyAll g steps =
      ⟨g.base, (steps.filterMap GroupStep.host?).getLast?.or g.host,
        g.layers ++ (steps.filterMap GroupStep.layer?).map LayerTerm.layer,
        g.routes ++ (entriesOfAll Scope.root steps).map Entry.routed⟩ := by
  cases steps with
  | nil => simp [Group.applyAll, entriesOfAll]
  | cons step rest =>
      rw [Group.applyAll, Group.applyAll_eq (step.apply g) rest, GroupStep.apply_eq g step,
        entriesOfAll]
      cases step <;> simp [List.filterMap_cons, List.getLast?_cons]

end

theorem Group.flatten_applyAll (base : String) (steps : List GroupStep) :
    (Group.applyAll (Group.ofBase base) steps).flatten =
      ((GroupStep.group base steps).entries Scope.root).map Entry.routed := by
  have happly := congrArg Group.routes (GroupStep.apply_eq (Group.ofBase base) (.group base steps))
  simpa [GroupStep.apply, Group.nest, Group.ofBase] using happly

/-- The host and the layer of the outer group are set behind its inner group, and hold in it. -/
example (layer : LayerTerm) (r : RouteTerm) :
    ((GroupStep.group "/api/" [.group "v1" [.route "/users/:id" r], .host "a.org", .host "b.org",
        .wrap layer]).entries Scope.root) =
      [⟨⟨["/api/", "v1"], some "b.org", [layer]⟩, "/users/:id", r⟩] := rfl

/-! ## Programs -/

namespace DraftStep

@[simp] def layer? : DraftStep → Option LayerTerm
  | .wrap layer => some layer
  | _ => none

@[simp] def hook? : DraftStep → Option Hook
  | .hook h => some h
  | _ => none

@[simp] def errorHandler? : DraftStep → Option ErrorHandler
  | .errorHandler e => some e
  | _ => none

@[simp] def config? : DraftStep → Option Config
  | .config c => some c
  | _ => none

def entries : DraftStep → List Entry
  | .route path r => (GroupStep.route path r).entries Scope.root
  | .group base steps => (GroupStep.group base steps).entries Scope.root
  | _ => []

end DraftStep

namespace Draft

/-- The routes of a program one after the other, without groups, and what it sets last. -/
def flat (steps : List DraftStep) : Draft where
  routes := (steps.flatMap DraftStep.entries).map Entry.routed
  layers := (steps.filterMap DraftStep.layer?).map LayerTerm.layer
  hooks := steps.filterMap DraftStep.hook?
  errorHandler := (steps.filterMap DraftStep.errorHandler?).getLast?.getD ErrorHandler.standard
  config := (steps.filterMap DraftStep.config?).getLast?.getD Config.standard

theorem ofSteps_eq_flat (steps : List DraftStep) : ofSteps steps = flat steps := by
  induction steps using List.reverseRecOn with
  | nil => rfl
  | append_singleton steps step ih =>
      rw [ofSteps, List.foldl_append, ← ofSteps, ih]
      cases step with
      | route path r =>
          have hentry : (path, r.spec) = Entry.routed ⟨Scope.root, path, r⟩ := by
            rw [RouteTerm.spec_eq]
            simp [Entry.routed, Entry.fullPath, Entry.spec, Scope.root]
          simp [DraftStep.apply, Draft.route, flat, DraftStep.entries, GroupStep.entries, hentry]
      | group base inner =>
          simp [DraftStep.apply, Draft.group, flat, DraftStep.entries, Group.flatten_applyAll]
      | _ =>
          simp [DraftStep.apply, Draft.wrap, withHook, withErrorHandler, withConfig, flat,
            DraftStep.entries]

end Draft

/-! ## Chains -/

namespace Entry

def registration (e : Entry) (c : Config) : Registration :=
  (e.spec.defaultTimeout c.defaultTimeout).registration e.fullPath

/-- All that stands around the handler of a route, the first layer outermost: its timeout, what is
shared by all routes, its deadline once more if anything is, the layers of its groups and its
own. -/
def stack (e : Entry) (shared : List LayerTerm) (c : Config) : List Layer :=
  let timeout := e.route.timeout?.or c.defaultTimeout
  (timeout.map Layer.timeout).toList ++ LayerTerm.membersOfAll shared ++
    (if timeout.isSome && !shared.isEmpty then [Layer.enforced] else []) ++
      LayerTerm.membersOfAll e.scope.layers ++ LayerTerm.membersOfAll e.route.layers

theorem chainOf_eq {e : Entry} {c : Config} {route : Route} (h : (e.registration c).Yields route)
    (shared : List LayerTerm) :
    Draft.chainOf (shared.map LayerTerm.layer) route =
      Layer.around (e.stack shared c) e.route.handler := by
  have htimeout : route.timeout = e.route.timeout?.or c.defaultTimeout := h.timeout
  have hhandler : route.handler = e.route.handler := h.handler
  have hlayers : route.layers = (e.scope.layers ++ e.route.layers).map LayerTerm.layer := h.layers
  rw [Draft.chainOf, Draft.layersOf, htimeout, hhandler, hlayers, stack]
  simp only [List.map_append, Layer.around_append, LayerTerm.around_map_layer, List.isEmpty_map]

end Entry

namespace Draft

theorem registrations_flat (steps : List DraftStep) :
    (flat steps).registrations =
      (steps.flatMap DraftStep.entries).map (Entry.registration · (flat steps).config) := by
  rw [registrations, flat, List.map_map]
  rfl

/-- The routes of a program of which an application can be made: the first of each name. -/
def builtEntries (steps : List DraftStep) : List Entry :=
  firstHolders (fun e => e.route.name?) (steps.flatMap DraftStep.entries)

/-- A program with groups and chains builds what its routes one after the other do.  Of those that
bear one name the first has a route, and around the handler of each route stand the layers that are
written down around it, those of a chain in its place. -/
theorem build_ofSteps (steps : List DraftStep) :
    (ofSteps steps).build = (flat steps).build ∧
      ∀ a, (ofSteps steps).build = .ok a →
        List.Forall₂ (fun e route => (e.registration (flat steps).config).Yields route)
          (builtEntries steps) a.table.routes ∧
        a.chains = (builtEntries steps).map (fun e =>
          Layer.around (e.stack (steps.filterMap DraftStep.layer?) (flat steps).config)
            e.route.handler) ∧
        a.unrouted =
          Layer.around (LayerTerm.membersOfAll (steps.filterMap DraftStep.layer?))
            Handler.unserved := by
  rw [ofSteps_eq_flat]
  refine ⟨rfl, fun a hbuild => ?_⟩
  obtain ⟨-, haccepts, htable⟩ := build_withoutRepeats hbuild
  have hregistrations : (flat steps).withoutRepeats.registrations =
      (builtEntries steps).map (Entry.registration · (flat steps).config) := by
    rw [registrations_withoutRepeats, registrations_flat, ← map_firstHolders]
    rfl
  have hroutes := RouteTable.forall₂_yields haccepts
  rw [← htable, hregistrations, List.forall₂_map_left_iff] at hroutes
  refine ⟨hroutes, ?_, ?_⟩
  · rw [chains_eq hbuild, eq_comm]
    exact map_eq_map_of_forall₂ (hroutes.imp fun e route hyields => (Entry.chainOf_eq hyields _).symm)
  · obtain ⟨table, -, rfl⟩ := build_eq_ok_iff.mp hbuild
    exact LayerTerm.around_map_layer _ Handler.unserved

def nestedGroups : List DraftStep :=
  [.group "/api/" [.group "v1" [.route "/users/:id"
      ⟨"GET", Handler.unserved, [.wrap (.single (Layer.timeout (Duration.ofMillis 20)))]⟩],
    .wrap (.chain [.single Layer.recover, .chain [], .single (Layer.timeout (Duration.ofMillis 30))])],
    .config ⟨.skip, some 50⟩, .wrap (.single Layer.recover)]

theorem build_ofSteps_nestedGroups :
    ∃ a, (ofSteps nestedGroups).build = .ok a ∧ (flat nestedGroups).build = .ok a ∧
      a.table.routes.map Route.path = ["/api/v1/users/:id"] ∧
      a.chains = [Layer.around
        [Layer.timeout (Duration.ofMillis 50), Layer.recover, Layer.enforced, Layer.recover,
          Layer.timeout (Duration.ofMillis 30), Layer.timeout (Duration.ofMillis 20)]
        Handler.unserved] := by
  have hpaths : ((ofSteps nestedGroups).build.toOption.map fun a => a.table.routes.map Route.path) =
      some ["/api/v1/users/:id"] := by decide +kernel
  obtain ⟨a, hbuild, hpath⟩ := exists_build_of_toOption_map hpaths
  obtain ⟨hsame, hbuilt⟩ := build_ofSteps nestedGroups
  obtain ⟨-, hchains, -⟩ := hbuilt a hbuild
  exact ⟨a, hbuild, hsame ▸ hbuild, hpath, hchains⟩

end Draft

end HttpRouting
