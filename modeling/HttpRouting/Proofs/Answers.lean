import HttpRouting.Proofs.PanicScope
import HttpRouting.Proofs.SharedLayers

/-!
# Every request is answered

Where nothing that an application brings along panics, the only panic left is that of a timeout
whose deadline lies beyond all moments.  A request is answered unless it meets such a timeout;
where one is met and its panic is not contained, there is no answer.
-/

namespace HttpRouting

open Activity

namespace Activity

def Returns {α : Type} (p : Activity α) : Prop := ∀ w, ∃ value v, p.run w = (.ok value, v)

def Steady {α : Type} (p : Activity α) : Prop := p.Composed Returns

/-- Whether a timeout is called during a run, in a world from which its duration leads beyond
all moments. -/
def Overflows {α : Type} (p : Activity α) (w v : World) : Prop :=
  ∃ (h : Handler) (duration : Duration) (inside : List Enclosure),
    Begins (fun r _ => r.Steady) (h.withTimeout duration) v p w inside ∧
      Moment.limit ≤ v.now.nanos + duration.nanos

end Activity

theorem World.deadline?_eq_none_iff {w : World} {duration : Duration} :
    w.deadline? duration = none ↔ Moment.limit ≤ w.now.nanos + duration.nanos := by
  rw [World.deadline?, Option.map_eq_none_iff, Moment.later?]
  split <;> simp <;> omega

namespace Activity

variable {α β : Type} {p : Activity α} {w v : World}

theorem returns_done (value : α) : Returns (.done value) := fun w => ⟨value, w, rfl⟩

theorem returns_perform (action : Action) : Returns (perform action) := fun _ => ⟨_, _, rfl⟩

theorem Steady.overflows_of_panic (hp : p.Steady) {reason : Panic}
    (hrun : p.run w = (.error reason, v)) : reason = Deadline.outOfRange ∧ p.Overflows w v := by
  induction hp generalizing w with
  | leaf hr =>
      obtain ⟨value, u, hreturns⟩ := hr w
      rw [hrun] at hreturns
      cases hreturns
  | @bind _ _ p next hp _ ih ihnext =>
      rw [run_bind] at hrun
      rcases hvalue : p.run w with ⟨_ | value, u⟩ <;> rw [hvalue] at hrun
      · cases hrun
        obtain ⟨hreason, h, duration, inside, hbegins, hlimit⟩ := ih hvalue
        exact ⟨hreason, h, duration, inside, hbegins.first, hlimit⟩
      · obtain ⟨hreason, h, duration, inside, hbegins, hlimit⟩ := ihnext value hrun
        exact ⟨hreason, h, duration, inside, .rest hp hvalue hbegins, hlimit⟩
  | @timeout h duration _ ih =>
      cases hdeadline : w.deadline? duration with
      | none =>
          rw [Handler.run_withTimeout_none hdeadline] at hrun
          cases hrun
          exact ⟨rfl, h, duration, [], .here, World.deadline?_eq_none_iff.mp hdeadline⟩
      | some deadline =>
          obtain ⟨hinner, hprompt⟩ := Handler.run_of_panic_withTimeout hdeadline hrun
          obtain ⟨hreason, inner, other, inside, hbegins, hlimit⟩ := ih hinner
          exact ⟨hreason, inner, other, _, .timeout hdeadline hbegins hprompt, hlimit⟩
  | @enforced h _ ih =>
      cases hdeadline : w.context.deadline with
      | none =>
          rw [Handler.run_withDeadline_none hdeadline] at hrun
          obtain ⟨hreason, inner, other, inside, hbegins, hlimit⟩ := ih hrun
          exact ⟨hreason, inner, other, inside, .enforced hbegins (by simp [hdeadline]), hlimit⟩
      | some deadline =>
          obtain ⟨hinner, hprompt⟩ := Handler.run_of_panic_withDeadline hdeadline hrun
          obtain ⟨hreason, inner, other, inside, hbegins, hlimit⟩ := ih hinner
          refine ⟨hreason, inner, other, inside, .enforced hbegins fun own hown => ?_, hlimit⟩
          obtain rfl := Option.some.inj (hdeadline.symm.trans hown)
          exact hprompt
  | caught =>
      rw [run_contained] at hrun
      cases hrun
  | @within _ p bound _ ih =>
      have hprompt := tick_run_withinTick_le bound p w
      have hinner := run_of_panic_withinTick hrun
      obtain ⟨hreason, h, duration, inside, hbegins, hlimit⟩ := ih hinner
      rw [hrun] at hprompt
      exact ⟨hreason, h, duration, inside, hbegins.within (by rwa [hinner]), hlimit⟩

end Activity

/-! ## Layers that panic only with what they call -/

def Script.Panicless {α : Type} : Script α → Prop
  | .done _ => True
  | .panic _ => False
  | .sleep _ rest => rest.Panicless
  | .act _ rest => ∀ reply, (rest reply).Panicless
  | .call rest => ∀ outcome, (rest outcome).Panicless

theorem Script.steady_around {α : Type} {s : Script α} (hs : s.Panicless) {h : Handler}
    (hh : h.Steady) : (s.around h).Steady := by
  induction s with
  | done value => exact .leaf (returns_done value)
  | panic p => exact hs.elim
  | sleep tick rest ih =>
      have hwait : (sleepUntil tick).Steady := .leaf fun w => ⟨_, _, rfl⟩
      exact .bind hwait fun _ => ih hs
  | act action rest ih =>
      have hact : (perform action).Steady := .leaf (returns_perform action)
      exact .bind hact fun reply => ih reply (hs reply)
  | call rest ih => exact .bind hh fun outcome => ih outcome (hs outcome)

namespace Layer

def Steady (layer : Layer) : Prop := ∀ h : Handler, h.Steady → (layer.decorate h).Steady

theorem steady_ofScript {s : Script Outcome} (hs : s.Panicless) : (ofScript s).Steady :=
  fun _ hh => Script.steady_around hs hh

theorem steady_timeout (duration : Duration) : (timeout duration).Steady :=
  fun _ hh => .timeout duration hh

theorem steady_enforced : enforced.Steady := fun _ hh => .enforced hh

theorem steady_recover : recover.Steady := by
  intro h hh
  refine .bind (.caught hh) fun result => .leaf ?_
  cases result with
  | ok outcome => exact returns_done _
  | error p => exact fun w => ⟨_, _, rfl⟩

theorem steady_around {layers : List Layer} (hlayers : ∀ layer ∈ layers, layer.Steady)
    {h : Handler} (hh : h.Steady) : (around layers h).Steady :=
  around_keeps (P := Activity.Steady) hlayers hh

theorem steady_chain {layers : List Layer} (hlayers : ∀ layer ∈ layers, layer.Steady) :
    (chain layers).Steady :=
  fun _ hh => steady_around hlayers hh

end Layer

/-! ## Applications -/

theorem Draft.exists_registration_of_registerAll {policy : DuplicateNames}
    {calls : List Registration} {t after : RouteTable} (h : RouteTable.Reached t)
    (hall : registerAll policy t calls = .ok after) {route : Route}
    (hroute : route ∈ after.routes) : route ∈ t.routes ∨ ∃ r ∈ calls, r.Yields route := by
  induction calls generalizing t with
  | nil =>
      cases hall
      exact .inl hroute
  | cons r rest ih =>
      have hnext := RouteTable.reached_register h r
      have hlater : (∃ other ∈ rest, other.Yields route) →
          ∃ other ∈ r :: rest, other.Yields route :=
        fun ⟨other, hother, hyields⟩ => ⟨other, List.mem_cons_of_mem _ hother, hyields⟩
      rcases RouteTable.register_cases (RouteTable.consistent_of_reached h).ordered r with
        ⟨refusal, hrefused⟩ | ⟨new, next, hok, hextended⟩
      · rw [registerAll, hrefused] at hall
        dsimp only at hall
        split at hall
        · exact (ih h hall).imp_right hlater
        · cases hall
      · rw [registerAll, hok] at hall
        rw [hok] at hnext
        rcases ih hnext hall with hheld | hrest
        · rw [hextended.routes, List.mem_append, List.mem_singleton] at hheld
          rcases hheld with hold | rfl
          · exact .inl hold
          · exact .inr ⟨r, List.mem_cons_self, hextended.yields⟩
        · exact .inr (hlater hrest)

theorem Draft.exists_spec_of_mem_routes {d : Draft} {a : App} (hbuild : d.build = .ok a)
    {route : Route} (hroute : route ∈ a.table.routes) :
    ∃ entry ∈ d.routes, route.layers = entry.2.options.layers ∧ route.handler = entry.2.handler := by
  obtain ⟨table, hall, rfl⟩ := build_eq_ok_iff.mp hbuild
  rcases exists_registration_of_registerAll .empty hall hroute with hnone | ⟨r, hr, hyields⟩
  · cases hnone
  · obtain ⟨entry, hentry, rfl⟩ := List.mem_map.mp hr
    exact ⟨entry, hentry, hyields.layers, hyields.handler⟩

/-- Whether nothing that a draft brings along panics by itself: its hooks, its layers, the
layers and handlers of its routes, and its error handler. -/
structure Draft.Steady (d : Draft) : Prop where
  hooks : ∀ hook ∈ d.hooks, hook.before.Steady
  layers : ∀ layer ∈ d.layers, layer.Steady
  own : ∀ entry ∈ d.routes, ∀ layer ∈ entry.2.options.layers, layer.Steady
  handlers : ∀ entry ∈ d.routes, entry.2.handler.Steady
  answers : ∀ c failure, ∃ response, d.errorHandler.answer c failure = .ok response

theorem Hook.steady_runAll {hooks : List Hook} (hhooks : ∀ hook ∈ hooks, hook.before.Steady) :
    (runAll hooks).Steady := by
  induction hooks with
  | nil => exact .leaf (returns_done _)
  | cons hook rest ih =>
      refine .bind (hhooks hook List.mem_cons_self) fun result => ?_
      cases result with
      | error failure => exact .leaf (returns_done _)
      | ok _ => exact ih fun other hother => hhooks other (List.mem_cons_of_mem _ hother)

theorem Activity.steady_reports (events : List Event) :
    Activity.Steady (events.forM Activity.report) := by
  induction events with
  | nil => exact .leaf (returns_done _)
  | cons event rest ih => exact .bind (.leaf (returns_perform _)) fun _ => ih

theorem App.steady_answerFailure {a : App}
    (hanswers : ∀ c failure, ∃ response, a.errorHandler.answer c failure = .ok response)
    (failure : Failure) : (a.answerFailure failure).Steady := by
  refine .bind (.leaf (returns_perform _)) fun c => ?_
  obtain ⟨response, hresponse⟩ := hanswers c failure
  have hrun : (a.errorHandler.run c failure).Steady := by
    unfold ErrorHandler.run
    rw [hresponse]
    exact .bind (steady_reports _) fun _ => .leaf (returns_done _)
  refine .bind hrun fun response => ?_
  cases failure.allowValue? <;> exact .leaf (returns_done _)

theorem App.steady_route {a : App} (hchains : ∀ chain ∈ a.chains, Activity.Steady chain)
    (hunrouted : a.unrouted.Steady) : a.route.Steady := by
  refine .bind (.leaf (returns_perform _)) fun c => ?_
  cases a.table.resolve c.host c.method c.path with
  | matched id params =>
      refine .bind (.leaf (returns_perform _)) fun _ => ?_
      cases hchain : a.chains[id.index]? with
      | none => exact .leaf (returns_done _)
      | some chain =>
          exact .bind (.leaf (returns_perform _)) fun _ => hchains _ (List.mem_of_getElem? hchain)
  | methodMismatch allowed =>
      exact .bind (.leaf (returns_perform _)) fun _ =>
        .bind (.leaf (returns_perform _)) fun _ => hunrouted
  | noMatch =>
      exact .bind (.leaf (returns_perform _)) fun _ =>
        .bind (.leaf (returns_perform _)) fun _ => hunrouted

theorem Handler.steady_unserved : Handler.unserved.Steady := by
  refine .bind (.leaf (returns_perform _)) fun c => ?_
  split <;> exact .leaf (returns_done _)

theorem Draft.Steady.chainOf {d : Draft} (hd : d.Steady) {a : App} (hbuild : d.build = .ok a)
    {route : Route} (hroute : route ∈ a.table.routes) :
    Activity.Steady (Draft.chainOf d.layers route) := by
  obtain ⟨entry, hentry, hlayers, hhandler⟩ := exists_spec_of_mem_routes hbuild hroute
  refine Layer.steady_around (fun layer hlayer => ?_) (hhandler ▸ hd.handlers entry hentry)
  simp only [layersOf, List.mem_append, Option.mem_toList, Option.map_eq_some_iff] at hlayer
  rcases hlayer with ((⟨timeout, -, rfl⟩ | hshared) | henforced) | hown
  · exact Layer.steady_timeout timeout
  · exact hd.layers layer hshared
  · split at henforced
    · obtain rfl := List.mem_singleton.mp henforced
      exact Layer.steady_enforced
    · cases henforced
  · exact hd.own entry hentry layer (hlayers ▸ hown)

theorem Draft.Steady.dispatch {d : Draft} (hd : d.Steady) {a : App} (hbuild : d.build = .ok a) :
    a.dispatch.Steady := by
  have hchains : ∀ chain ∈ a.chains, Activity.Steady chain := by
    intro chain hchain
    rw [chains_eq hbuild] at hchain
    obtain ⟨route, hroute, rfl⟩ := List.mem_map.mp hchain
    exact hd.chainOf hbuild hroute
  obtain ⟨table, -, rfl⟩ := build_eq_ok_iff.mp hbuild
  have hunrouted := Layer.steady_around hd.layers Handler.steady_unserved
  refine .bind (.bind (Hook.steady_runAll hd.hooks) fun result => ?_) fun outcome => ?_
  · cases result with
    | error failure => exact .leaf (returns_done _)
    | ok _ => exact App.steady_route hchains hunrouted
  · cases outcome with
    | error failure => exact App.steady_answerFailure hd.answers failure
    | ok response => exact .leaf (returns_done _)

/-- If nothing that an application brings along panics, every matched number has its route and
its chain, and a request from any world gets a response, or its dispatch panics at a timeout
whose deadline would lie beyond all moments. -/
theorem dispatch_answers {d : Draft} {a : App} (hbuild : d.build = .ok a) (hd : d.Steady) :
    (∀ host method path id params, a.table.resolve host method path = .matched id params →
        ∃ route, a.table.get? id = some route ∧
          a.chains[id.index]? = some (Draft.chainOf d.layers route)) ∧
      ∀ w, (∃ response v, a.dispatch.run w = (.ok response, v)) ∨
        ∃ v, a.dispatch.run w = (.error Deadline.outOfRange, v) ∧ a.dispatch.Overflows w v := by
  refine ⟨fun host method path id params hmatched => ?_, fun w => ?_⟩
  · have hconsistent := Draft.consistent_table hbuild
    obtain ⟨route, -, hforemost, rfl, -⟩ := RouteTable.foremost_of_resolve hconsistent hmatched
    have hget := RouteTable.get?_id hconsistent hforemost.mem_routes
    exact ⟨route, hget, Draft.chains_getElem? hbuild hget⟩
  · rcases hrun : a.dispatch.run w with ⟨reason | response, v⟩
    · obtain ⟨rfl, hoverflows⟩ := (hd.dispatch hbuild).overflows_of_panic hrun
      exact .inr ⟨v, rfl, hoverflows⟩
    · exact .inl ⟨response, v, rfl⟩

def Draft.endless : Draft :=
  Draft.empty.route "/"
    ((RouteSpec.ofMethod "GET" (.done (.ok (Response.ofBody Body.empty)))).withTimeout
      (Duration.ofParts 18446744073709551615 0))

theorem Draft.steady_endless : endless.Steady where
  hooks := nofun
  layers := nofun
  own := by
    intro entry hentry layer hlayer
    obtain rfl := List.mem_singleton.mp hentry
    cases hlayer
  handlers := by
    intro entry hentry
    obtain rfl := List.mem_singleton.mp hentry
    exact .leaf (returns_done _)
  answers := fun _ failure => ⟨ErrorHandler.page failure, rfl⟩

theorem Draft.run_endless :
    ∃ a v, Draft.endless.build = .ok a ∧
      a.dispatch.run (World.start Request.forRoot) = (.error Deadline.outOfRange, v) := by
  have hpanics : (Draft.endless.build.toOption.map fun a =>
      (a.dispatch.run (World.start Request.forRoot)).1) = some (.error Deadline.outOfRange) := by
    decide +kernel
  obtain ⟨a, hbuild, hrun⟩ := Draft.exists_build_of_toOption_map hpanics
  exact ⟨a, _, hbuild, Prod.ext hrun rfl⟩

theorem endless_unanswered :
    Draft.endless.Steady ∧ ∃ a, Draft.endless.build = .ok a ∧
      ¬∃ response v, a.dispatch.run (World.start Request.forRoot) = (.ok response, v) := by
  obtain ⟨a, v, hbuild, hpanics⟩ := Draft.run_endless
  refine ⟨Draft.steady_endless, a, hbuild, ?_⟩
  rintro ⟨response, u, hrun⟩
  rw [hpanics] at hrun
  cases hrun

theorem Draft.steady_retried : retried.Steady where
  hooks := nofun
  layers := by
    intro layer hlayer
    rw [layers_retried, List.mem_cons, List.mem_singleton] at hlayer
    rcases hlayer with rfl | rfl
    · refine Layer.steady_ofScript fun outcome => ?_
      cases outcome with
      | ok response => trivial
      | error failure => exact fun _ => trivial
    · exact Layer.steady_timeout _
  own := by
    intro entry hentry layer hlayer
    obtain rfl := List.mem_singleton.mp hentry
    cases hlayer
  handlers := by
    intro entry hentry
    obtain rfl := List.mem_singleton.mp hentry
    exact .leaf fun w => ⟨_, _, rfl⟩
  answers := fun _ failure => ⟨ErrorHandler.page failure, rfl⟩

theorem dispatch_answers_retried :
    (∃ a response v, Draft.retried.build = .ok a ∧
        a.dispatch.run (World.start Request.forRoot) = (.ok response, v)) ∧
      ∃ a v, Draft.endless.build = .ok a ∧
        a.dispatch.Overflows (World.start Request.forRoot) v := by
  constructor
  · have hreturns : (Draft.retried.build.toOption.map fun a =>
        (a.dispatch.run (World.start Request.forRoot)).1.isOk) = some true := by decide +kernel
    obtain ⟨a, hbuild, hrun⟩ := Draft.exists_build_of_toOption_map hreturns
    rcases (dispatch_answers hbuild Draft.steady_retried).2 (World.start Request.forRoot) with
      ⟨response, v, hanswer⟩ | ⟨v, hpanics, -⟩
    · exact ⟨a, response, v, hbuild, hanswer⟩
    · rw [hpanics] at hrun
      cases hrun
  · obtain ⟨a, u, hbuild, hrun⟩ := Draft.run_endless
    rcases (dispatch_answers hbuild Draft.steady_endless).2 (World.start Request.forRoot) with
      ⟨response, v, hanswer⟩ | ⟨v, -, hoverflows⟩
    · rw [hrun] at hanswer
      cases hanswer
    · exact ⟨a, v, hbuild, hoverflows⟩

end HttpRouting
