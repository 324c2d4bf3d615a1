import HttpRouting.Application.Draft

/-!
# Programs that put applications together

The calls that an application makes on routes, groups and its draft, as data.  The calls of a
group stand inside the call that opens it, so groups nest to any depth, and so do chains of
layers.  Running a program makes its calls in order.
-/

namespace HttpRouting

/-- A layer as it is written down: one layer, or a chain with its members. -/
inductive LayerTerm where
  | single (layer : Layer)
  | chain (members : List LayerTerm)

namespace LayerTerm

mutual

def layer : LayerTerm → Layer
  | .single layer => layer
  | .chain members => (collect LayerChain.empty members).toLayer

def collect (c : LayerChain) : List LayerTerm → LayerChain
  | [] => c
  | member :: rest => collect (c.push member.layer) rest

end

end LayerTerm

inductive RouteStep where
  | name (text : String)
  | host (pattern : String)
  | timeout (duration : Duration)
  | wrap (layer : LayerTerm)

def RouteStep.apply (r : RouteSpec) : RouteStep → RouteSpec
  | .name text => r.withName text
  | .host pattern => r.withHost pattern
  | .timeout duration => r.withTimeout duration
  | .wrap layer => r.wrap layer.layer

structure RouteTerm where
  method : String
  handler : Handler
  steps : List RouteStep

def RouteTerm.spec (r : RouteTerm) : RouteSpec :=
  r.steps.foldl RouteStep.apply (RouteSpec.ofMethod r.method r.handler)

inductive GroupStep where
  | route (path : String) (route : RouteTerm)
  | wrap (layer : LayerTerm)
  | host (pattern : String)
  | group (base : String) (steps : List GroupStep)

mutual

def GroupStep.apply (g : Group) : GroupStep → Group
  | .route path r => g.route path r.spec
  | .wrap layer => g.wrap layer.layer
  | .host pattern => g.withHost pattern
  | .group base steps => g.nest (Group.applyAll (Group.ofBase base) steps)

def Group.applyAll (g : Group) : List GroupStep → Group
  | [] => g
  | step :: rest => Group.applyAll (step.apply g) rest

end

inductive DraftStep where
  | route (path : String) (route : RouteTerm)
  | group (base : String) (steps : List GroupStep)
  | wrap (layer : LayerTerm)
  | hook (h : Hook)
  | errorHandler (e : ErrorHandler)
  | config (c : Config)

def DraftStep.apply (d : Draft) : DraftStep → Draft
  | .route path r => d.route path r.spec
  | .group base steps => d.group (Group.applyAll (Group.ofBase base) steps)
  | .wrap layer => d.wrap layer.layer
  | .hook h => d.withHook h
  | .errorHandler e => d.withErrorHandler e
  | .config c => d.withConfig c

def Draft.ofSteps (steps : List DraftStep) : Draft :=
  steps.foldl DraftStep.apply Draft.empty

end HttpRouting
