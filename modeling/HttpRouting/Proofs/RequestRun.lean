import HttpRouting.Proofs.TimeBound

/-!
# What the run of a request comes to

The runs of an application's parts put together: its hooks, then the chain that routing leads to,
then, where the request fails, the error handler.  A request that no route serves goes to the
layers that all routes share, and its context tells how routing failed.
-/

namespace HttpRouting

open Activity

def Match.refusal? : Match → Option RoutingFailure
  | .matched _ _ => none
  | .methodMismatch allowed => some (.methodNotAllowed allowed)
  | .noMatch => some .notFound

namespace RoutingFailure

def failure : RoutingFailure → Failure
  | .notFound => .notFound
  | .methodNotAllowed allowed => .methodNotAllowed allowed

def event (c : Context) : RoutingFailure → Event
  | .notFound => App.unmatchedEvent c
  | .methodNotAllowed allowed => App.mismatchEvent allowed c

end RoutingFailure

namespace World

def refused (w : World) (refusal : RoutingFailure) : World :=
  { w with
    context := { w.context with unserved := some refusal }
    events := w.events ++ [(w.tick, refusal.event w.context)] }

def informed (w : World) (events : List Event) : World :=
  { w with events := w.events ++ events.map fun event => (w.tick, event) }

end World

/-- A response with the `Allow` field that a failure asks for, unless it has one. -/
def Response.withAllow (r : Response) (f : Failure) : Response :=
  match f.allowValue? with
  | some value => { r with headers := r.headers.insertIfAbsent "allow" value }
  | none => r

theorem Activity.run_reports (events : List Event) (w : World) :
    Activity.run (events.forM Activity.report) w = (.ok (), w.informed events) := by
  induction events generalizing w with
  | nil =>
      have hsame : w.informed [] = w := by simp [World.informed]
      rw [hsame]
      rfl
  | cons event rest ih =>
      have hnext : (w.informed [event]).informed rest = w.informed (event :: rest) := by
        simp [World.informed]
      rw [← hnext, ← ih]
      rfl

namespace ErrorHandler

theorem run_eq (e : ErrorHandler) (c : Context) (f : Failure) (w : World) :
    Activity.run (e.run c f) w = (e.answer c f, w.informed (e.events c f)) := by
  unfold ErrorHandler.run
  rw [bind_eq, run_bind, run_reports]
  cases e.answer c f <;> rfl

end ErrorHandler

namespace App

variable {a : App} {w v : World}

theorem run_route_of_refusal? {refusal : RoutingFailure}
    (hrefusal : (a.table.resolve w.context.host w.context.method w.context.path).refusal? =
      some refusal) :
    a.route.run w = a.unrouted.run (w.refused refusal) := by
  unfold route
  rw [bind_eq, run_context_bind]
  cases hmatch : a.table.resolve w.context.host w.context.method w.context.path with
  | matched id params =>
      rw [hmatch] at hrefusal
      cases hrefusal
  | methodMismatch allowed =>
      rw [hmatch] at hrefusal
      cases hrefusal
      rfl
  | noMatch =>
      rw [hmatch] at hrefusal
      cases hrefusal
      rfl

theorem run_handle (a : App) (w : World) :
    a.handle.run w =
      match (Hook.runAll a.hooks).run w with
      | (.ok (.ok ()), u) => a.route.run u
      | (.ok (.error failure), u) => (.ok (.error failure), u)
      | (.error p, u) => (.error p, u) := by
  unfold handle
  rw [bind_eq, run_bind]
  rcases (Hook.runAll a.hooks).run w with ⟨_ | _ | _, u⟩ <;> rfl

theorem run_answerFailure (a : App) (f : Failure) (w : World) :
    (a.answerFailure f).run w =
      ((a.errorHandler.answer w.context f).map fun response => response.withAllow f,
        w.informed (a.errorHandler.events w.context f)) := by
  unfold answerFailure
  rw [bind_eq, run_context_bind, bind_eq, run_bind, ErrorHandler.run_eq]
  rcases a.errorHandler.answer w.context f with p | response
  · rfl
  · unfold Response.withAllow
    cases f.allowValue? <;> rfl

theorem run_dispatch (a : App) (w : World) :
    a.dispatch.run w =
      match a.handle.run w with
      | (.ok (.ok response), v) => (.ok response, v)
      | (.ok (.error failure), v) => (a.answerFailure failure).run v
      | (.error p, v) => (.error p, v) := by
  unfold dispatch
  rw [bind_eq, run_bind]
  rcases a.handle.run w with ⟨_ | _ | _, v⟩ <;> rfl

theorem run_dispatch_of_failure {failure : Failure}
    (hfailed : a.handle.run w = (.ok (.error failure), v)) {made : Response}
    (hmade : a.errorHandler.answer v.context failure = .ok made) :
    a.dispatch.run w =
      (.ok (made.withAllow failure), v.informed (a.errorHandler.events v.context failure)) := by
  rw [run_dispatch, hfailed]
  dsimp only
  rw [run_answerFailure, hmade]
  rfl

end App

namespace Draft

variable {d : Draft} {a : App}

theorem hooks_eq (h : d.build = .ok a) : a.hooks = d.hooks := by
  obtain ⟨table, -, rfl⟩ := build_eq_ok_iff.mp h
  rfl

theorem errorHandler_eq (h : d.build = .ok a) : a.errorHandler = d.errorHandler := by
  obtain ⟨table, -, rfl⟩ := build_eq_ok_iff.mp h
  rfl

theorem unrouted_eq (h : d.build = .ok a) :
    a.unrouted = Layer.around d.layers Handler.unserved := by
  obtain ⟨table, -, rfl⟩ := build_eq_ok_iff.mp h
  rfl

theorem run_handle_of_refusal (hbuild : d.build = .ok a) {w u : World} {refusal : RoutingFailure}
    (hhooks : (Hook.runAll d.hooks).run w = (.ok (.ok ()), u))
    (hrefusal : (a.table.resolve u.context.host u.context.method u.context.path).refusal? =
      some refusal) :
    a.handle.run w = (Layer.around d.layers Handler.unserved).run (u.refused refusal) := by
  rw [App.run_handle, hooks_eq hbuild, hhooks, ← unrouted_eq hbuild]
  exact App.run_route_of_refusal? hrefusal

end Draft

end HttpRouting
