import HttpRouting.Pipeline.Probe
import HttpRouting.Proofs.Expiry
import HttpRouting.Proofs.ReverseRouting

/-!
# Handlers end in time

A handler with a timeout ends by its deadline, at the first tick that is not before
it.  If the handler inside ends by that tick, its outcome stands; otherwise it is
dropped where it would wait beyond the tick, and the failure names the duration of
the deadline.  A route with a timeout therefore ends in time, whatever its layers do.
-/

namespace HttpRouting

def Duration.ticks (d : Duration) : Nat := (Moment.mk d.nanos).tick

theorem Moment.tick_of_later? {n : Nat} {d : Duration} {due : Moment}
    (h : (ofTick n).later? d = some due) : due.tick = n + d.ticks := by
  unfold later? at h
  split at h
  · cases h
    simp only [tick, Duration.ticks, ofTick, Duration.nanosPerMilli]
    omega
  · contradiction

theorem World.tick_deadline?_le {w : World} {duration : Duration} {deadline : Deadline}
    (h : w.deadline? duration = some deadline) : deadline.due.tick ≤ w.tick + duration.ticks := by
  obtain ⟨due, hdue, rfl⟩ := Option.map_eq_some_iff.mp h
  rw [← Moment.tick_of_later? hdue]
  exact Moment.tick_mono (Deadline.due_tighter_le_own _ _)

namespace Handler

/-- The end of a handler that was bounded by a deadline from a world on: its own end,
or that of the deadline with nothing of the handler after it. -/
structure EndsBy (h : Handler) (w : World) (deadline : Deadline)
    (ended : Except Panic Outcome × World) : Prop where
  prompt : ended.2.tick ≤ max w.tick deadline.due.tick
  inTime : ∀ outcome v, h.run (w.entered deadline) = (.ok outcome, v) →
    v.tick ≤ max w.tick deadline.due.tick → ended = (.ok outcome, v.rescoped w.context)
  late : max w.tick deadline.due.tick < (h.run (w.entered deadline)).2.tick →
    ∃ tick rest v, Activity.Passes h (w.entered deadline) (.sleep tick rest) v ∧
      v.tick ≤ max w.tick deadline.due.tick ∧ max w.tick deadline.due.tick < tick ∧
        ended =
          (.ok (.error (.timeout deadline.after)),
            (World.rescoped { v with tick := max w.tick deadline.due.tick } w.context).expired
              (w.entered deadline).context.token deadline.after)

theorem endsBy_withTimeout {duration : Duration} {w : World} {deadline : Deadline}
    (hdeadline : w.deadline? duration = some deadline) (h : Handler) :
    EndsBy h w deadline ((h.withTimeout duration).run w) := by
  have hrun := run_withTimeout hdeadline h
  constructor
  · exact tick_run_withTimeout_le hdeadline h
  · intro outcome v hinner htick
    have hends : (h.run (w.entered deadline)).2.tick ≤ max w.tick deadline.due.tick := by
      rw [hinner]
      exact htick
    rw [hrun, Activity.run_withinTick_of_le hends, hinner]
    rfl
  · intro hlate
    obtain ⟨tick, rest, v, hpasses, hbefore, hafter, hin⟩ :=
      Activity.run_withinTick_of_lt (w := w.entered deadline) hlate
    refine ⟨tick, rest, v, hpasses, hbefore, hafter, ?_⟩
    rw [hrun, hin]
    rfl

end Handler

/-! ## Routes -/

namespace World

def routed (w : World) (id : RouteId) (params : PathParams) : World :=
  { w with
    context := { w.context with route := some id, params := params }
    events := w.events ++ [(w.tick, App.matchedEvent id w.context)] }

end World

theorem App.run_route_of_matched {a : App} {w : World} {id : RouteId} {params : PathParams}
    {chain : Handler}
    (hmatched : a.table.resolve w.context.host w.context.method w.context.path =
      .matched id params)
    (hchain : a.chains[id.index]? = some chain) :
    a.route.run w = chain.run (w.routed id params) := by
  unfold route
  rw [Activity.bind_eq, Activity.run_context_bind, hmatched]
  dsimp only
  rw [hchain]
  rfl

theorem Draft.chains_eq {d : Draft} {a : App} (h : d.build = .ok a) :
    a.chains = a.table.routes.map (chainOf d.layers) := by
  obtain ⟨table, -, rfl⟩ := build_eq_ok_iff.mp h
  rfl

theorem Draft.chains_getElem? {d : Draft} {a : App} (h : d.build = .ok a) {id : RouteId}
    {route : Route} (hget : a.table.get? id = some route) :
    a.chains[id.index]? = some (chainOf d.layers route) := by
  have hentry : a.table.routes[id.index]? = some route := hget
  rw [chains_eq h, List.getElem?_map, hentry, Option.map_some]

theorem Draft.layersOf_timeout (shared : List Layer) {route : Route} {timeout : Duration}
    (h : route.timeout = some timeout) :
    layersOf shared route =
      Layer.timeout timeout ::
        (shared ++ (if shared.isEmpty then [] else [Layer.enforced]) ++ route.layers) := by
  simp [layersOf, h]

theorem Draft.chainOf_timeout (shared : List Layer) {route : Route} {timeout : Duration}
    (h : route.timeout = some timeout) :
    chainOf shared route =
      (Layer.around (shared ++ (if shared.isEmpty then [] else [Layer.enforced]) ++ route.layers)
        route.handler).withTimeout timeout := by
  rw [chainOf, layersOf_timeout shared h, Layer.around_cons, Layer.decorate_timeout]

theorem Draft.tick_run_chainOf_le {shared : List Layer} {route : Route} {timeout : Duration}
    (htimeout : route.timeout = some timeout) {w : World}
    (hrange : (w.deadline? timeout).isSome = true) :
    ((chainOf shared route).run w).2.tick ≤ w.tick + timeout.ticks := by
  obtain ⟨deadline, hdeadline⟩ := Option.isSome_iff_exists.mp hrange
  have hdue := World.tick_deadline?_le hdeadline
  rw [chainOf_timeout shared htimeout]
  exact Nat.le_trans (Handler.endsBy_withTimeout hdeadline _).prompt (by omega)

/-- A handler with a timeout ends by its deadline, with its own outcome if it comes
by then, and the chain of a route with a timeout ends within that timeout of the tick
at which the request is routed. -/
theorem ends_by_deadline :
    (∀ (duration : Duration) (h : Handler) (w : World) (deadline : Deadline),
        w.deadline? duration = some deadline →
          Handler.EndsBy h w deadline ((h.withTimeout duration).run w)) ∧
      ∀ (d : Draft) (a : App), d.build = .ok a → ∀ (w : World) (id : RouteId) (params : PathParams),
        a.table.resolve w.context.host w.context.method w.context.path = .matched id params →
          ∃ route, a.table.get? id = some route ∧
            a.route.run w = (Draft.chainOf d.layers route).run (w.routed id params) ∧
              ∀ timeout, route.timeout = some timeout → (w.deadline? timeout).isSome = true →
                (a.route.run w).2.tick ≤ w.tick + timeout.ticks := by
  refine ⟨fun duration h w deadline hdeadline => Handler.endsBy_withTimeout hdeadline h, ?_⟩
  intro d a hbuild w id params hmatched
  have hconsistent := Draft.consistent_table hbuild
  obtain ⟨route, -, hforemost, rfl, -⟩ := RouteTable.foremost_of_resolve hconsistent hmatched
  have hget := RouteTable.get?_id hconsistent hforemost.mem_routes
  have hrun := App.run_route_of_matched hmatched (Draft.chains_getElem? hbuild hget)
  refine ⟨route, hget, hrun, ?_⟩
  intro timeout htimeout hrange
  rw [hrun]
  exact Draft.tick_run_chainOf_le htimeout hrange

def Draft.stalled : Draft :=
  (Draft.empty.wrap (Layer.ofScript (Script.stall 200))).route "/"
    ((RouteSpec.ofMethod "GET" Handler.unserved).withTimeout (Duration.ofMillis 50))

theorem ends_by_deadline_stalled :
    ((Handler.withTimeout (Duration.ofMillis 50) ((Script.stall 200).around Handler.unserved)).run
        (World.start Request.forRoot)).1 = .ok (.error (.timeout (Duration.ofMillis 50))) ∧
      ∃ a, Draft.stalled.build = .ok a ∧
        (a.route.run (World.start Request.forRoot)).2.tick ≤ 50 := by
  have hdeadline : (World.start Request.forRoot).deadline? (Duration.ofMillis 50) =
      some ⟨⟨50000000⟩, Duration.ofMillis 50⟩ := by decide +kernel
  constructor
  · obtain ⟨_, _, _, -, -, -, hended⟩ :=
      (ends_by_deadline.1 _ ((Script.stall 200).around Handler.unserved) _ _ hdeadline).late
        (by decide +kernel)
    rw [hended]
  · have hresolved : (Draft.stalled.build.toOption.map fun a =>
        (a.table.resolve (Context.ofRequest Request.forRoot).host
            (Context.ofRequest Request.forRoot).method (Context.ofRequest Request.forRoot).path,
          (a.table.get? ⟨0⟩).bind Route.timeout)) =
        some (.matched ⟨0⟩ PathParams.empty, some (Duration.ofMillis 50)) := by decide +kernel
    obtain ⟨a, hbuild, hresults⟩ := Draft.exists_build_of_toOption_map hresolved
    obtain ⟨hmatched, htimeout⟩ := Prod.mk.inj hresults
    obtain ⟨route, hget, -, hbound⟩ := ends_by_deadline.2 _ _ hbuild
      (World.start Request.forRoot) _ _ hmatched
    rw [hget, Option.bind_some] at htimeout
    exact ⟨a, hbuild, hbound _ htimeout (by rw [hdeadline]; rfl)⟩

end HttpRouting
