import HttpRouting.Pipeline.Probe
import HttpRouting.Proofs.Along
import HttpRouting.Proofs.Bindings
import HttpRouting.Proofs.Outline

/-!
# The stages of a request

A request goes through the hooks in order up to the first that fails, and where none fails to one
chain, which is chosen for the request as the hooks left it.  The error handler is called after
that, once, if something failed.  Nothing else is called.
-/

namespace HttpRouting

open Activity

/-! ## The stages -/

inductive Hook.Pass : List Hook → World → List Call → World → Prop where
  | nil (w : World) : Pass [] w [] w
  | cons {hook : Hook} {rest : List Hook} {w v u : World} {calls : List Call} :
      hook.before.run w = (.ok (.ok ()), v) → Pass rest v calls u →
        Pass (hook :: rest) w (⟨.hook hook, w⟩ :: calls) u

namespace Draft

/-- The chain that a request is handed to, and the world in which that happens: the chain of the
route that serves the request as it is, with the route bound, or the layers that all routes share
around a handler that fails. -/
inductive HandsTo (d : Draft) (a : App) (w : World) : Handler → World → Prop where
  | matched {id : RouteId} {params : PathParams} {route : Route} :
      a.table.resolve w.context.host w.context.method w.context.path = .matched id params →
        a.table.get? id = some route →
          HandsTo d a w (Layer.around (layersOf d.layers route) route.handler) (w.routed id params)
  | refused {refusal : RoutingFailure} :
      (a.table.resolve w.context.host w.context.method w.context.path).refusal? = some refusal →
        HandsTo d a w (Layer.around d.layers Handler.unserved) (w.refused refusal)

/-- What is called until a request has an outcome, and the outcome. -/
inductive Handles (d : Draft) (a : App) (w : World) : List Call → Outcome → World → Prop where
  | stopped {before after : List Hook} {hook : Hook} {calls : List Call} {u v : World}
      {failure : Failure} :
      d.hooks = before ++ hook :: after → Hook.Pass before w calls u →
        hook.before.run u = (.ok (.error failure), v) →
          Handles d a w (calls ++ [⟨.hook hook, u⟩]) (.error failure) v
  | handed {calls : List Call} {u entry v : World} {chain : Handler} {outcome : Outcome} :
      Hook.Pass d.hooks w calls u → HandsTo d a u chain entry →
        chain.run entry = (.ok outcome, v) →
          Handles d a w (calls ++ [⟨.chain chain, entry⟩]) outcome v

inductive Dispatches (d : Draft) (a : App) (w : World) : List Call → Response → World → Prop where
  | served {calls : List Call} {response : Response} {v : World} :
      Handles d a w calls (.ok response) v → Dispatches d a w calls response v
  | failed {calls : List Call} {failure : Failure} {made : Response} {v : World} :
      Handles d a w calls (.error failure) v →
        d.errorHandler.answer v.context failure = .ok made →
          Dispatches d a w (calls ++ [⟨.errorHandler d.errorHandler v.context failure, v⟩])
            (made.withAllow failure) (v.informed (d.errorHandler.events v.context failure))

end Draft

/-! ## The hooks -/

namespace Hook

variable {hooks : List Hook} {w v : World}

theorem calls_outlineAll_cons (hook : Hook) (rest : List Hook) (w : World) :
    (outlineAll (hook :: rest)).calls w =
      ⟨.hook hook, w⟩ ::
        match hook.before.run w with
        | (.ok (.ok ()), v) => (outlineAll rest).calls v
        | _ => [] := by
  rw [outlineAll, Outline.bind_eq, Outline.calls_bind, Outline.calls_ask, Outline.activity_ask]
  have hrun : (Part.hook hook).activity.run w = hook.before.run w := rfl
  rw [hrun]
  rcases hook.before.run w with ⟨_ | _ | _, v⟩ <;> rfl

theorem run_runAll_cons (hook : Hook) (rest : List Hook) (w : World) :
    (runAll (hook :: rest)).run w =
      match hook.before.run w with
      | (.ok (.ok ()), v) => (runAll rest).run v
      | (.ok (.error failure), v) => (.ok (.error failure), v)
      | (.error p, v) => (.error p, v) := by
  rw [runAll, Activity.bind_eq, run_bind]
  rcases hook.before.run w with ⟨_ | _ | _, v⟩ <;> rfl

theorem pass_of_runAll (h : (runAll hooks).run w = (.ok (.ok ()), v)) :
    Pass hooks w ((outlineAll hooks).calls w) v := by
  induction hooks generalizing w with
  | nil =>
      cases h
      exact .nil _
  | cons hook rest ih =>
      rw [run_runAll_cons] at h
      rw [calls_outlineAll_cons]
      rcases hfirst : hook.before.run w with ⟨p | failure | _, u⟩ <;> rw [hfirst] at h
      · cases h
      · cases h
      · exact .cons hfirst (ih h)

theorem Pass.run {calls : List Call} (h : Pass hooks w calls v) :
    (runAll hooks).run w = (.ok (.ok ()), v) := by
  induction h with
  | nil => rfl
  | cons hrun _ ih =>
      rw [run_runAll_cons, hrun]
      exact ih

theorem stopped_of_runAll {failure : Failure}
    (h : (runAll hooks).run w = (.ok (.error failure), v)) :
    ∃ before hook after calls u, hooks = before ++ hook :: after ∧ Pass before w calls u ∧
      hook.before.run u = (.ok (.error failure), v) ∧
        (outlineAll hooks).calls w = calls ++ [⟨.hook hook, u⟩] := by
  induction hooks generalizing w with
  | nil => cases h
  | cons hook rest ih =>
      rw [run_runAll_cons] at h
      rw [calls_outlineAll_cons]
      rcases hfirst : hook.before.run w with ⟨p | other | _, u⟩ <;> rw [hfirst] at h
      · cases h
      · cases h
        exact ⟨[], hook, rest, [], w, rfl, .nil w, hfirst, rfl⟩
      · obtain ⟨before, stop, after, calls, last, rfl, hpass, hstop, hcalls⟩ := ih h
        refine ⟨hook :: before, stop, after, ⟨.hook hook, w⟩ :: calls, last, rfl,
          .cons hfirst hpass, hstop, ?_⟩
        simp only [hcalls, List.cons_append]

end Hook

/-! ## The chain -/

namespace App

variable {a : App} {w : World}

theorem calls_routeOutline (a : App) (w : World) :
    a.routeOutline.calls w =
      (a.handOver w.context
        (a.table.resolve w.context.host w.context.method w.context.path)).calls w := rfl

theorem calls_routeOutline_of_matched {id : RouteId} {params : PathParams} {chain : Handler}
    (hmatched : a.table.resolve w.context.host w.context.method w.context.path =
      .matched id params)
    (hchain : a.chains[id.index]? = some chain) :
    a.routeOutline.calls w = [⟨.chain chain, w.routed id params⟩] := by
  rw [calls_routeOutline, hmatched, handOver, hchain]
  exact Outline.calls_ask (.chain chain) (w.routed id params)

theorem calls_routeOutline_of_refusal? {refusal : RoutingFailure}
    (hrefusal : (a.table.resolve w.context.host w.context.method w.context.path).refusal? =
      some refusal) :
    a.routeOutline.calls w = [⟨.chain a.unrouted, w.refused refusal⟩] := by
  rw [calls_routeOutline]
  unfold handOver
  cases hmatch : a.table.resolve w.context.host w.context.method w.context.path with
  | matched id params =>
      rw [hmatch] at hrefusal
      cases hrefusal
  | methodMismatch allowed =>
      rw [hmatch] at hrefusal
      cases hrefusal
      exact Outline.calls_ask (.chain a.unrouted) (w.refused (.methodNotAllowed allowed))
  | noMatch =>
      rw [hmatch] at hrefusal
      cases hrefusal
      exact Outline.calls_ask (.chain a.unrouted) (w.refused .notFound)

theorem calls_answerOutline (a : App) (failure : Failure) (w : World) :
    (a.answerOutline failure).calls w =
      [⟨.errorHandler a.errorHandler w.context failure, w⟩] := by
  have hcalls : (a.answerOutline failure).calls w =
      ((Outline.ask (.errorHandler a.errorHandler w.context failure)).bind fun response =>
        .done (response.withAllow failure)).calls w := rfl
  rw [hcalls, Outline.calls_bind, Outline.calls_ask]
  rcases (Outline.ask (.errorHandler a.errorHandler w.context failure)).activity.run w with
    ⟨_ | _, _⟩ <;> rfl

end App

namespace Draft

variable {d : Draft} {a : App} {w v : World} {outcome : Outcome}

theorem handsTo_of_refusal? (hbuild : d.build = .ok a) {refusal : RoutingFailure}
    (hrefusal : (a.table.resolve w.context.host w.context.method w.context.path).refusal? =
      some refusal)
    (hrun : a.route.run w = (.ok outcome, v)) :
    ∃ chain entry, d.HandsTo a w chain entry ∧ chain.run entry = (.ok outcome, v) ∧
      a.routeOutline.calls w = [⟨.chain chain, entry⟩] := by
  have hcalls := App.calls_routeOutline_of_refusal? hrefusal
  rw [unrouted_eq hbuild] at hcalls
  rw [App.run_route_of_refusal? hrefusal, unrouted_eq hbuild] at hrun
  exact ⟨_, _, .refused hrefusal, hrun, hcalls⟩

theorem handsTo_of_route (hbuild : d.build = .ok a) (hrun : a.route.run w = (.ok outcome, v)) :
    ∃ chain entry, d.HandsTo a w chain entry ∧ chain.run entry = (.ok outcome, v) ∧
      a.routeOutline.calls w = [⟨.chain chain, entry⟩] := by
  cases hmatch : a.table.resolve w.context.host w.context.method w.context.path with
  | matched id params =>
      have hconsistent := consistent_table hbuild
      obtain ⟨route, -, hforemost, rfl, -⟩ := RouteTable.foremost_of_resolve hconsistent hmatch
      have hget := RouteTable.get?_id hconsistent hforemost.mem_routes
      have hchain := chains_getElem? hbuild hget
      rw [App.run_route_of_matched hmatch hchain] at hrun
      exact ⟨_, _, .matched hmatch hget, hrun, App.calls_routeOutline_of_matched hmatch hchain⟩
  | methodMismatch allowed =>
      have hrefusal := congrArg Match.refusal? hmatch
      exact handsTo_of_refusal? hbuild hrefusal hrun
  | noMatch =>
      have hrefusal := congrArg Match.refusal? hmatch
      exact handsTo_of_refusal? hbuild hrefusal hrun

theorem handles_of_handle (hbuild : d.build = .ok a) (hrun : a.handle.run w = (.ok outcome, v)) :
    d.Handles a w (a.handleOutline.calls w) outcome v := by
  rw [App.run_handle, hooks_eq hbuild] at hrun
  rw [App.handleOutline, Outline.bind_eq, Outline.calls_bind, Hook.activity_outlineAll,
    hooks_eq hbuild]
  rcases hall : (Hook.runAll d.hooks).run w with ⟨p | failure | _, u⟩ <;> rw [hall] at hrun
  · cases hrun
  · cases hrun
    obtain ⟨before, hook, after, calls, u, hsplit, hpass, hstop, hcalls⟩ :=
      Hook.stopped_of_runAll hall
    rw [hcalls]
    change d.Handles a w (calls ++ [⟨.hook hook, u⟩] ++ []) _ _
    rw [List.append_nil]
    exact .stopped hsplit hpass hstop
  · obtain ⟨chain, entry, hhands, hchain, hcalls⟩ := handsTo_of_route hbuild hrun
    have hpass := Hook.pass_of_runAll hall
    dsimp only
    rw [hcalls]
    exact .handed hpass hhands hchain

theorem dispatches_of_dispatch (hbuild : d.build = .ok a) {response : Response}
    (hrun : a.dispatch.run w = (.ok response, v)) :
    d.Dispatches a w (a.dispatchOutline.calls w) response v := by
  rw [App.run_dispatch] at hrun
  rw [App.dispatchOutline, Outline.bind_eq, Outline.calls_bind, App.activity_handleOutline]
  rcases hhandle : a.handle.run w with ⟨p | failure | made, u⟩ <;> rw [hhandle] at hrun
  · cases hrun
  · have hhandles := handles_of_handle hbuild hhandle
    have hcalls : (a.answerOutline failure).calls u =
        [⟨.errorHandler d.errorHandler u.context failure, u⟩] := by
      rw [← errorHandler_eq hbuild]
      exact a.calls_answerOutline failure u
    dsimp only at hrun ⊢
    rw [hcalls]
    rw [App.run_answerFailure, errorHandler_eq hbuild] at hrun
    cases hmade : d.errorHandler.answer u.context failure with
    | error p =>
        rw [hmade] at hrun
        cases hrun
    | ok made =>
        rw [hmade] at hrun
        cases hrun
        exact .failed hhandles hmade
  · cases hrun
    have hhandles := handles_of_handle hbuild hhandle
    change d.Dispatches a w (a.handleOutline.calls w ++ []) _ _
    rw [List.append_nil]
    exact .served hhandles

end Draft

/-! ## Requests that are not bound to a route yet -/

namespace Hook

variable {hooks : List Hook} {w v : World}

theorem bindsAlong_runAll {J : Binding → Prop}
    (hhooks : ∀ hook ∈ hooks, ∀ u, hook.before.BindsAlong J u) :
    (Hook.runAll hooks).BindsAlong J w := by
  induction hooks generalizing w with
  | nil => trivial
  | cons hook rest ih =>
      refine (hhooks hook List.mem_cons_self w).bind fun result u _ => ?_
      cases result with
      | error failure => trivial
      | ok => exact ih fun other hother => hhooks other (List.mem_cons_of_mem _ hother)

theorem Pass.exists_leads {calls : List Call} (h : Pass hooks w calls v) :
    ∃ made, (runAll hooks).Leads w made (.done (.ok ())) v :=
  (Passes.of_run h.run).exists_leads

theorem Pass.keepsRoute {calls : List Call} (h : Pass hooks w calls v)
    (hhooks : ∀ hook ∈ hooks, hook.before.Uses Action.KeepsRoute) :
    v.context.route = w.context.route ∧ v.context.params = w.context.params := by
  obtain ⟨made, hleads⟩ := h.exists_leads
  have hfree : ∀ b ∈ made, False :=
    hleads.forall_of_bindsAlong
      (bindsAlong_runAll fun hook hhook _ => (hhooks hook hhook).bindsAlong)
  obtain rfl := List.eq_nil_iff_forall_not_mem.mpr hfree
  exact Prod.mk.inj hleads.told

end Hook

theorem Draft.table_eq_of_layers {d : Draft} {a b : App} (hbuild : d.build = .ok a)
    {layers : List Layer} (hother : { d with layers := layers }.build = .ok b) :
    b.table = a.table := by
  obtain ⟨table, htable, rfl⟩ := build_eq_ok_iff.mp hbuild
  obtain ⟨table', htable', rfl⟩ := build_eq_ok_iff.mp hother
  exact Except.ok.inj (htable'.symm.trans htable)

/-- A request goes through the stages of the pipeline in order: the parts that a run of `dispatch`
or `handle` calls are those of the stages, each in the world in which the stage before it ended.
A fresh request that no route serves comes to the shared layers without a route exactly if the
hooks have made no binding, and so it does where no hook binds.  What the shared layers do has no
part in the choice of the route. -/
theorem dispatch_stages {d : Draft} {a : App} (hbuild : d.build = .ok a) :
    (a.dispatchOutline.activity = a.dispatch ∧
        ∀ w response z, a.dispatch.run w = (.ok response, z) →
          d.Dispatches a w (a.dispatchOutline.calls w) response z) ∧
      (a.handleOutline.activity = a.handle ∧
        ∀ w outcome v, a.handle.run w = (.ok outcome, v) →
          d.Handles a w (a.handleOutline.calls w) outcome v) ∧
      ((∀ hook ∈ d.hooks, hook.before.Uses Action.KeepsRoute) →
        ∀ w r, w.context = Context.ofRequest r → ∀ calls u, Hook.Pass d.hooks w calls u →
          ∀ refusal, (u.refused refusal).context.route = none ∧
            (u.refused refusal).context.params = PathParams.empty) ∧
      (∀ w r, w.context = Context.ofRequest r → ∀ calls u, Hook.Pass d.hooks w calls u →
        ∃ made, (Hook.runAll d.hooks).Leads w made (.done (.ok ())) u ∧
          ∀ refusal, ((u.refused refusal).context.route, (u.refused refusal).context.params) =
              w.told made ∧
            ((u.refused refusal).context.route = none ↔ made = [])) ∧
      ∀ layers b, { d with layers := layers }.build = .ok b → b.table = a.table := by
  refine ⟨⟨a.activity_dispatchOutline, ?_⟩, ⟨a.activity_handleOutline, ?_⟩, ?_, ?_, ?_⟩
  · exact fun w response z hrun => Draft.dispatches_of_dispatch hbuild hrun
  · exact fun w outcome v hrun => Draft.handles_of_handle hbuild hrun
  · intro hhooks w r hfresh calls u hpass refusal
    obtain ⟨hroute, hparams⟩ := hpass.keepsRoute hhooks
    rw [hfresh] at hroute hparams
    exact ⟨hroute, hparams⟩
  · intro w r hfresh calls u hpass
    obtain ⟨made, hleads⟩ := hpass.exists_leads
    have htold := hleads.told
    have hunbound : w.context.route = none := by rw [hfresh]; rfl
    refine ⟨made, hleads, fun refusal => ⟨htold, ?_⟩⟩
    rw [← World.told_fst_eq_none_iff hunbound, ← htold]
    rfl
  · exact fun layers b hother => Draft.table_eq_of_layers hbuild hother

def Draft.staged : Draft :=
  (((Draft.empty.withHook (Hook.settingMethod "POST")).withHook (Hook.logging "seen")).wrap
    (Layer.ofScript (Script.editing (Request.setMethod Method.get)))).route "/"
      (RouteSpec.ofMethod "POST" (.done (.ok (Response.ofBody Body.empty))))

theorem dispatch_stages_staged :
    ∃ a, Draft.staged.build = .ok a ∧
      (∃ response z, a.dispatch.run (World.start Request.forRoot) = (.ok response, z) ∧
        Draft.staged.Dispatches a (World.start Request.forRoot)
          (a.dispatchOutline.calls (World.start Request.forRoot)) response z) ∧
      (∃ outcome v, a.handle.run (World.start Request.forRoot) = (.ok outcome, v) ∧
        Draft.staged.Handles a (World.start Request.forRoot)
          (a.handleOutline.calls (World.start Request.forRoot)) outcome v) ∧
      (∃ calls u, Hook.Pass Draft.staged.hooks (World.start Request.forRoot) calls u ∧
        (u.refused .notFound).context.route = none) ∧
      ∃ b, { Draft.staged with layers := [] }.build = .ok b ∧ b.table = a.table := by
  have hruns : (Draft.staged.build.toOption.map fun a =>
      ((a.dispatch.run (World.start Request.forRoot)).1,
        (a.handle.run (World.start Request.forRoot)).1)) =
      some (.ok (Response.ofBody Body.empty), .ok (.ok (Response.ofBody Body.empty))) := by
    decide +kernel
  have hother : ({ Draft.staged with layers := [] }.build.toOption.map fun b : App =>
      b.table.size) = some 1 := by decide +kernel
  obtain ⟨a, hbuild, hresults⟩ := Draft.exists_build_of_toOption_map hruns
  obtain ⟨b, hbuild', -⟩ := Draft.exists_build_of_toOption_map hother
  obtain ⟨hdispatched, hhandled⟩ := Prod.mk.inj hresults
  obtain ⟨⟨-, hdispatch⟩, ⟨-, hhandle⟩, hunbound, -, htable⟩ := dispatch_stages hbuild
  have hhooks : ∀ hook ∈ Draft.staged.hooks, hook.before.Uses Action.KeepsRoute := by
    intro hook hhook
    rcases List.mem_cons.mp hhook with rfl | hhook
    · exact ⟨trivial, fun _ => trivial⟩
    · obtain rfl := List.mem_singleton.mp hhook
      exact ⟨trivial, fun _ => ⟨trivial, fun _ => trivial⟩⟩
  obtain ⟨u, hran⟩ : ∃ u, (Hook.runAll Draft.staged.hooks).run (World.start Request.forRoot) =
      (.ok (.ok ()), u) := ⟨_, rfl⟩
  have hpass := Hook.pass_of_runAll hran
  exact ⟨a, hbuild, ⟨_, _, Prod.ext hdispatched rfl, hdispatch _ _ _ (Prod.ext hdispatched rfl)⟩,
    ⟨_, _, Prod.ext hhandled rfl, hhandle _ _ _ (Prod.ext hhandled rfl)⟩,
    ⟨_, _, hpass, (hunbound hhooks _ _ rfl _ _ hpass .notFound).1⟩, b, hbuild', htable [] b hbuild'⟩

/-! ## A hook that calls an application -/

def App.lone : App :=
  let handler : Handler := .done (.ok (Response.ofBody Body.empty))
  ⟨RouteTable.registered [{ Registration.plain "GET" "/:id" with handler := handler }], [handler],
    Handler.unserved, [], ErrorHandler.standard⟩

def Request.seven : Request := { Request.forRoot with target := ⟨none, "/7", none⟩ }

def Hook.calling (a : App) : Hook where
  before := do
    let _ ← a.handle
    return .ok ()

def Draft.forwarding : Draft := Draft.empty.withHook (Hook.calling App.lone)

/-- The layers around a request that no route serves see the route of the application that a hook
has called. -/
theorem forwarded_route_bound :
    ∃ a calls u, Draft.forwarding.build = .ok a ∧
      Hook.Pass Draft.forwarding.hooks (World.start Request.seven) calls u ∧
      Draft.forwarding.HandsTo a u (Layer.around Draft.forwarding.layers Handler.unserved)
        (u.refused .notFound) ∧
      (u.refused .notFound).context.route = some ⟨0⟩ ∧
      (u.refused .notFound).context.params = ⟨[("id", "7")]⟩ := by
  let u := ((Hook.calling App.lone).before.run (World.start Request.seven)).2
  have hran : ((Hook.calling App.lone).before.run (World.start Request.seven)).1 = .ok (.ok ()) := by
    decide +kernel
  have hresults : (Draft.forwarding.build.toOption.map fun a =>
      (a.table.resolve u.context.host u.context.method u.context.path).refusal?) =
      some (some .notFound) := by decide +kernel
  obtain ⟨a, hbuild, hrefusal⟩ := Draft.exists_build_of_toOption_map hresults
  refine ⟨a, _, u, hbuild, .cons (Prod.ext hran rfl) (.nil u), .refused hrefusal, ?_, ?_⟩ <;>
    decide +kernel

end HttpRouting
