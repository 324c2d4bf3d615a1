import HttpRouting.Proofs.Composed
import HttpRouting.Proofs.LeastDeadline
import HttpRouting.Proofs.PathRoundTrip
import HttpRouting.Proofs.TimeBound

/-!
# Layers that all routes share

The deadline of a route is enforced once more inside the layers that all routes share.
Layers that do not wait themselves therefore end by that deadline, and by any earlier one
that they set: what they call comes back to them, with a result of its own or with the
failure of the enforced deadline, and no timer around them ever drops them.
-/

namespace HttpRouting

open Activity

namespace Activity

def Waitless {α : Type} : Activity α → Prop
  | .done _ | .panic _ => True
  | .sleep _ _ => False
  | .act _ rest => ∀ reply, (rest reply).Waitless

/-- The activities of layers that do not wait, around a handler: parts without a wait and
calls of that handler, one after another, under timeouts and enforced deadlines, and with
panics contained. -/
inductive Around : {α : Type} → Activity α → Handler → Prop where
  | core {core : Handler} : Around core core
  | waitless {α : Type} {p : Activity α} {core : Handler} :
      p.Uses Action.KeepsScope → p.Waitless → Around p core
  | bind {α β : Type} {p : Activity α} {next : α → Activity β} {core : Handler} :
      Around p core → (∀ value, Around (next value) core) → Around (p.bind next) core
  | timeout {h core : Handler} (duration : Duration) :
      Around h core → Around (h.withTimeout duration) core
  | enforced {h core : Handler} : Around h core → Around h.withDeadline core
  | caught {α : Type} {p : Activity α} {core : Handler} :
      Around p core → Around p.contained core

inductive WaitlessOr (core : Handler) : {α : Type} → Activity α → Prop where
  | core : WaitlessOr core core
  | waitless {α : Type} {p : Activity α} :
      p.Uses Action.KeepsScope → p.Waitless → WaitlessOr core p

variable {α β : Type} {p : Activity α}

theorem Around.composed {core : Handler} (hp : p.Around core) : p.Composed (WaitlessOr core) := by
  induction hp with
  | core => exact .leaf .core
  | waitless huses hwaitless => exact .leaf (.waitless huses hwaitless)
  | bind _ _ hp hnext => exact .bind hp hnext
  | timeout duration _ hh => exact .timeout duration hh
  | enforced _ hh => exact .enforced hh
  | caught _ hp => exact .caught hp

theorem Waitless.tick_run (hp : p.Waitless) (w : World) : (p.run w).2.tick = w.tick := by
  induction p generalizing w with
  | done | panic => rfl
  | sleep tick rest ih => exact hp.elim
  | act action rest ih => exact (ih _ (hp _) _).trans (tick_perform action w)

/-! ## Layers around an enforced deadline -/

variable {inner : Handler}

theorem KeepsDue.withDeadline (hinner : inner.KeepsDue) :
    KeepsDue (Handler.withDeadline inner) := fun bound w hw =>
  along_withDeadline (World.lasting_dueBy bound) hw (fun _ => hinner bound w hw)
    fun _ _ => (hinner bound w hw).mono fun _ hv _ => hv

theorem WaitlessOr.keepsDue (hinner : inner.KeepsDue) {γ : Type} (r : Activity γ)
    (hr : WaitlessOr inner.withDeadline r) : r.KeepsDue := by
  cases hr with
  | core => exact hinner.withDeadline
  | waitless huses _ => exact Plain.keepsDue huses

theorem WaitlessOr.endsInTime {γ : Type} (r : Activity γ)
    (hr : WaitlessOr inner.withDeadline r) : r.EndsInTime := by
  intro bound w hw
  cases hr with
  | core => exact endsInTime_withDeadline inner bound w hw
  | waitless _ hwaitless =>
      rw [hwaitless.tick_run]
      exact Nat.le_max_left _ _

theorem Around.keepsDue (hinner : inner.KeepsDue) (hp : p.Around inner.withDeadline) :
    p.KeepsDue :=
  hp.composed.keepsDue (WaitlessOr.keepsDue hinner)

theorem Around.endsInTime (hinner : inner.KeepsDue) (hp : p.Around inner.withDeadline) :
    p.EndsInTime :=
  hp.composed.endsInTime (WaitlessOr.keepsDue hinner) WaitlessOr.endsInTime

/-! ## Calls come back -/

def ReturnsDue {α : Type} (p : Activity α) (w : World) : Prop :=
  ∀ bound value u, w.DueBy bound → p.run w = (.ok value, u) → u.DueBy bound

theorem KeepsDue.returnsDue (hp : p.KeepsDue) (w : World) : p.ReturnsDue w := by
  intro bound value u hw hrun
  exact (hp bound w hw).of_run hrun

theorem KeepsScopeFrom.returnsDue {w : World} (hp : p.KeepsScopeFrom w) : p.ReturnsDue w := by
  rintro bound value u ⟨deadline, hdeadline, hdue⟩ hrun
  exact ⟨deadline, (hp.returned u value hrun).deadline.trans hdeadline, hdue⟩

section Within

variable {part : {α : Type} → Activity α → World → Prop}
  (hpart : ∀ {γ : Type} (r : Activity γ) (u : World), part r u → r.ReturnsDue u)
  {q : Activity β} {w v : World} {inside : List Enclosure}

include hpart

theorem Begins.dueBy (h : Begins part q v p w inside) {bound : Nat} (hw : w.DueBy bound) :
    v.DueBy bound := by
  induction h with
  | here => exact hw
  | first _ ih => exact ih hw
  | rest hp hrun _ ih => exact ih (hpart _ _ hp bound _ _ hw hrun)
  | timeout hdeadline _ _ ih => exact ih (hw.entered hdeadline)
  | enforced _ _ ih => exact ih hw
  | caught _ ih => exact ih hw
  | within _ _ ih => exact ih hw

theorem Begins.trans {γ : Type} {r : Activity γ} {z : World} {inner : List Enclosure}
    (h : Begins part q v p w inside) (hcall : Begins part r z q v inner)
    (hprompt : ∀ bound, v.DueBy bound → z.tick ≤ max v.tick bound) :
    Begins part r z p w (inner ++ inside) := by
  induction h with
  | here => simpa using hcall
  | first _ ih => exact .first ih
  | rest hp hrun _ ih => exact .rest hp hrun ih
  | @timeout h w duration deadline _ hdeadline hbegins hbound ih =>
      have htick := hprompt _ (hbegins.dueBy hpart (w.dueBy_entered deadline))
      rw [← List.append_assoc]
      exact .timeout hdeadline ih (by omega)
  | @enforced h w _ hbegins hbound ih =>
      refine .enforced ih fun deadline hdeadline => ?_
      have hw : w.DueBy deadline.due.tick := ⟨deadline, hdeadline, Nat.le_refl _⟩
      have htick := hprompt _ (hbegins.dueBy hpart hw)
      have hbefore := hbound deadline hdeadline
      omega
  | caught _ ih => exact .caught ih
  | within _ hends ih => exact .within ih hends

end Within

theorem Around.returnsDue (hinner : inner.KeepsDue) (hp : p.Around inner.withDeadline) (w : World) :
    p.ReturnsDue w :=
  (hp.keepsDue hinner).returnsDue w

theorem Begins.resume (hinner : inner.KeepsDue) {next : Activity α}
    {k : α → Activity β} {γ : Type} {p : Activity γ} {w u v : World} {inside : List Enclosure}
    {value : α} (hnext : next.Around inner.withDeadline)
    (h : Begins (fun r _ => r.Around inner.withDeadline) (next.bind k) u p w inside)
    (hrun : next.run u = (.ok value, v)) :
    Begins (fun r _ => r.Around inner.withDeadline) (k value) v p w inside := by
  refine h.trans (fun r u hr => hr.returnsDue hinner u) (.rest hnext hrun .here) ?_
  intro bound hu
  have htick := hnext.endsInTime hinner bound u hu
  rwa [hrun] at htick

end Activity

/-! ## Layers that do not wait -/

def Script.Waitless {α : Type} : Script α → Prop
  | .done _ | .panic _ => True
  | .sleep _ _ => False
  | .act _ rest => ∀ reply, (rest reply).Waitless
  | .call rest => ∀ outcome, (rest outcome).Waitless

theorem Script.around_waitless {α : Type} {core h : Handler} {s : Script α}
    (huses : s.Uses Action.KeepsScope) (hs : s.Waitless) (hh : h.Around core) :
    (s.around h).Around core := by
  induction s with
  | done | panic => exact .waitless trivial trivial
  | sleep tick rest ih => exact hs.elim
  | act action rest ih =>
      have hact : (Activity.perform action).Around core :=
        .waitless ⟨huses.1, fun _ => trivial⟩ fun _ => trivial
      exact .bind hact fun reply => ih reply (huses.2 reply) (hs reply)
  | call rest ih => exact .bind hh fun outcome => ih outcome (huses outcome) (hs outcome)

namespace Layer

/-- Whether a layer does not wait itself: what it makes of a handler is put together from
that handler and from parts without a wait. -/
def Waitless (layer : Layer) : Prop :=
  ∀ core h : Handler, h.Around core → (layer.decorate h).Around core

theorem waitless_ofScript {s : Script Outcome} (huses : s.Uses Action.KeepsScope)
    (hs : s.Waitless) : (ofScript s).Waitless :=
  fun _ _ hh => Script.around_waitless huses hs hh

theorem waitless_timeout (duration : Duration) : (timeout duration).Waitless :=
  fun _ _ hh => .timeout duration hh

theorem waitless_recover : recover.Waitless := by
  intro core h hh
  refine .bind (.caught hh) fun result => ?_
  cases result with
  | ok outcome => exact .waitless trivial trivial
  | error p => exact .waitless ⟨trivial, fun _ => ⟨trivial, fun _ => trivial⟩⟩ fun _ _ => trivial

theorem around_waitless {layers : List Layer} (hlayers : ∀ layer ∈ layers, layer.Waitless)
    {core h : Handler} (hh : h.Around core) : (around layers h).Around core :=
  around_keeps (P := fun h => h.Around core) (fun layer hlayer => hlayers layer hlayer core) hh

theorem waitless_chain {layers : List Layer} (hlayers : ∀ layer ∈ layers, layer.Waitless) :
    (chain layers).Waitless :=
  fun _ _ hh => around_waitless hlayers hh

end Layer

namespace Handler

theorem run_withDeadline_of_le {h : Handler} {w v : World} {deadline : Deadline}
    (hdeadline : w.context.deadline = some deadline) {outcome : Outcome}
    (hrun : h.run w = (.ok outcome, v)) (htick : v.tick ≤ max w.tick deadline.due.tick) :
    h.withDeadline.run w = (.ok outcome, v) := by
  have hends : (h.run w).2.tick ≤ max w.tick deadline.due.tick := by rwa [hrun]
  rw [run_withDeadline hdeadline, run_withinTick_of_le hends, hrun]
  rfl

theorem run_withDeadline_of_lt {h : Handler} {w : World} {deadline : Deadline}
    (hdeadline : w.context.deadline = some deadline)
    (hlate : max w.tick deadline.due.tick < (h.run w).2.tick) :
    ∃ v, h.withDeadline.run w = (.ok (.error (.timeout deadline.after)), v) := by
  obtain ⟨_, _, _, -, -, -, hdropped⟩ := run_withinTick_of_lt hlate
  rw [run_withDeadline hdeadline, hdropped]
  exact ⟨_, rfl⟩

end Handler

/-! ## Routes -/

def Route.bounded (r : Route) : Handler := (Layer.around r.layers r.handler).withDeadline

def World.leave (c : Context) : Except Panic Outcome × World → Except Panic Outcome × World
  | (.ok outcome, v) => (.ok outcome, v.rescoped c)
  | (.error p, v) => (.error p, v)

theorem Handler.run_withTimeout_around {inner h : Handler} (hinner : inner.KeepsDue)
    (hh : h.Around inner.withDeadline) {duration : Duration} {w : World} {deadline : Deadline}
    (hdeadline : w.deadline? duration = some deadline) :
    (h.withTimeout duration).run w = World.leave w.context (h.run (w.entered deadline)) := by
  have hends := hh.endsInTime hinner _ _ (w.dueBy_entered deadline)
  rw [run_withTimeout hdeadline, run_withinTick_of_le hends]
  rcases h.run (w.entered deadline) with ⟨_ | _, v⟩ <;> rfl

theorem Draft.chainOf_shared {shared : List Layer} (hshared : shared ≠ []) {route : Route}
    {timeout : Duration} (htimeout : route.timeout = some timeout) :
    chainOf shared route = (Layer.around shared route.bounded).withTimeout timeout := by
  have hnonempty : shared.isEmpty = false := by simpa using hshared
  rw [chainOf_timeout shared htimeout, Layer.around_append, Layer.around_append, hnonempty]
  rfl

theorem Draft.run_route {d : Draft} {a : App} (hbuild : d.build = .ok a) {w : World}
    {id : RouteId} {params : PathParams} {route : Route}
    (hmatched : a.table.resolve w.context.host w.context.method w.context.path =
      .matched id params)
    (hget : a.table.get? id = some route) :
    a.route.run w = (chainOf d.layers route).run (w.routed id params) :=
  App.run_route_of_matched hmatched (chains_getElem? hbuild hget)

/-- What layers that all routes share see of the rest of a route, from the world in which
they are called on. -/
structure Route.Resumes (route : Route) (shared : List Layer) (deadline : Deadline) (w : World) :
    Prop where
  /-- What a layer calls is one of the handlers that the other fields are about. -/
  inside : ∀ rest, rest <:+ shared → (Layer.around rest route.bounded).Around route.bounded
  /-- A call comes back in time, but for a panic, and the caller goes on with the result. -/
  calls : ∀ (next : Handler) {β : Type} (k : Outcome → Activity β) (u : World)
    (inside : List Enclosure), next.Around route.bounded →
    Begins (fun r _ => r.Around route.bounded) (next.bind k) u (Layer.around shared route.bounded)
      w inside →
    (∃ p v, next.run u = (.error p, v)) ∨
      ∃ outcome v, next.run u = (.ok outcome, v) ∧ v.tick ≤ max u.tick deadline.due.tick ∧
        Begins (fun r _ => r.Around route.bounded) (k outcome) v
          (Layer.around shared route.bounded) w inside
  /-- The route itself answers with its outcome, or with its failure to come in time. -/
  innermost : ∀ {β : Type} (k : Outcome → Activity β) (u : World) (inside : List Enclosure),
    Begins (fun r _ => r.Around route.bounded) (route.bounded.bind k) u
      (Layer.around shared route.bounded) w inside →
    ∃ own, u.context.deadline = some own ∧ own.due.tick ≤ deadline.due.tick ∧
      (∀ outcome v, (Layer.around route.layers route.handler).run u = (.ok outcome, v) →
        v.tick ≤ max u.tick own.due.tick → route.bounded.run u = (.ok outcome, v)) ∧
      (max u.tick own.due.tick < ((Layer.around route.layers route.handler).run u).2.tick →
        ∃ v, route.bounded.run u = (.ok (.error (.timeout own.after)), v))

/-- Where a route has a timeout and the layers that all routes share do not wait, the timer
of the route never decides: these layers are never dropped, and all their calls come back. -/
theorem shared_layers_resume {d : Draft} {a : App} (hbuild : d.build = .ok a)
    (hshared : d.layers ≠ []) (hlayers : ∀ layer ∈ d.layers, layer.Waitless) {w : World}
    {id : RouteId} {params : PathParams} {route : Route}
    (hmatched : a.table.resolve w.context.host w.context.method w.context.path =
      .matched id params)
    (hget : a.table.get? id = some route)
    (hinner : (Layer.around route.layers route.handler).Composed Plain)
    {timeout : Duration} (htimeout : route.timeout = some timeout) {deadline : Deadline}
    (hdeadline : w.deadline? timeout = some deadline) :
    a.route.run w = World.leave w.context
        ((Layer.around d.layers route.bounded).run ((w.routed id params).entered deadline)) ∧
      route.Resumes d.layers deadline ((w.routed id params).entered deadline) := by
  have hkeeps := hinner.keepsDue fun _ hr => Plain.keepsDue hr
  have hcore : route.bounded.Around route.bounded := .core
  have hentered := (w.routed id params).dueBy_entered deadline
  have hparts : ∀ {γ : Type} (r : Activity γ) (u : World), r.Around route.bounded →
      r.ReturnsDue u := fun r u hr => hr.returnsDue hkeeps u
  constructor
  · rw [Draft.run_route hbuild hmatched hget, Draft.chainOf_shared hshared htimeout]
    exact Handler.run_withTimeout_around hkeeps (Layer.around_waitless hlayers hcore) hdeadline
  · constructor
    · intro rest hrest
      exact Layer.around_waitless (fun layer hlayer => hlayers layer (hrest.subset hlayer)) hcore
    · intro next β k u inside hnext hbegins
      have hprompt := hnext.endsInTime hkeeps _ _ (hbegins.dueBy hparts hentered)
      rcases hrun : next.run u with ⟨p | outcome, v⟩
      · exact .inl ⟨p, v, rfl⟩
      · rw [hrun] at hprompt
        exact .inr ⟨outcome, v, rfl, hprompt, hbegins.resume hkeeps hnext hrun⟩
    · intro β k u inside hbegins
      obtain ⟨own, hown, hdue⟩ := hbegins.dueBy hparts hentered
      refine ⟨own, hown, hdue, fun outcome v hrun htick => ?_, fun hlate => ?_⟩
      · exact Handler.run_withDeadline_of_le hown hrun htick
      · exact Handler.run_withDeadline_of_lt hown hlate

def Draft.retried : Draft :=
  ((Draft.empty.wrap (Layer.ofScript Script.retry)).wrap
    (Layer.timeout (Duration.ofMillis 30))).route "/"
      ((RouteSpec.ofMethod "GET" ((Script.stall 200).around (.done (.error .notFound)))).withTimeout
        (Duration.ofMillis 50))

theorem Draft.layers_retried :
    retried.layers = [Layer.ofScript Script.retry, Layer.timeout (Duration.ofMillis 30)] := rfl

theorem Draft.build_of_yields {d : Draft} {r : Registration} {route : Route}
    (honly : d.registrations = [r]) (hyields : r.Yields route) :
    ∃ a, d.build = .ok a ∧ a.table = RouteTable.registered [r] := by
  have hname : RouteTable.empty.isTaken route.name = false := by cases route.name <;> rfl
  obtain ⟨after, hregister, -⟩ := RouteTable.register_of_yields RouteTable.consistent_empty
    hyields hname (by simp [RouteTable.empty])
  refine ⟨_, build_eq_ok_iff.mpr ⟨after, ?_, rfl⟩, ?_⟩
  · rw [honly, registerAll, hregister]
    rfl
  · simp [RouteTable.registered, hregister]

theorem Draft.build_retried :
    ∃ a route, Draft.retried.build = .ok a ∧ a.table.get? ⟨0⟩ = some route ∧
      a.table.resolve (Context.ofRequest Request.forRoot).host Method.get "/" =
        .matched ⟨0⟩ PathParams.empty ∧
      route.timeout = some (Duration.ofMillis 50) ∧
      Layer.around route.layers route.handler =
        (Script.stall 200).around (.done (.error .notFound)) := by
  let r : Registration := ⟨"GET", none, "/", (Script.stall 200).around (.done (.error .notFound)),
    { RouteOptions.none with timeout := some (Duration.ofMillis 50) }⟩
  let route : Route := ⟨⟨0⟩, .exact Method.get, .any, "/", [], none, [],
    some (Duration.ofMillis 50), (Script.stall 200).around (.done (.error .notFound))⟩
  have hyields : r.Yields route := by
    refine ⟨rfl, ?_, by decide +kernel, rfl, rfl, rfl, rfl, rfl⟩
    decide +kernel
  have honly : Draft.retried.registrations = [r] := rfl
  obtain ⟨a, hbuild, htable⟩ := Draft.build_of_yields honly hyields
  refine ⟨a, route, hbuild, ?_, ?_, rfl, rfl⟩
  · rw [htable, RouteTable.get?, RouteTable.routes_registered_singleton hyields]
    rfl
  · have hcaptures : PathPattern.captures? [] (Text.pieces "/") = some [] := by decide +kernel
    rw [htable]
    exact RouteTable.resolve_singleton hyields rfl (by decide +kernel) hcaptures

theorem Layer.around_ofScript (s : Script Outcome) (layers : List Layer) (h : Handler) :
    around (ofScript s :: layers) h = s.around (around layers h) := rfl

theorem Script.around_retry (h : Handler) :
    retry.around h = h.bind fun outcome =>
      match outcome with
      | .ok response => .done (.ok response)
      | .error _ => h := by
  refine congrArg (Activity.bind h) (funext fun outcome => ?_)
  cases outcome with
  | ok response => rfl
  | error failure => exact Activity.bind_done h

theorem shared_layers_resume_retried :
    ∃ (a : App) (route : Route) (next : Handler) (w v : World), Draft.retried.build = .ok a ∧
      a.table.get? ⟨0⟩ = some route ∧
      next = Layer.around [Layer.timeout (Duration.ofMillis 30)] route.bounded ∧
      (a.route.run (World.start Request.forRoot)).1 =
        .ok (.error (.timeout (Duration.ofMillis 50))) ∧
      next.run w = (.ok (.error (.timeout (Duration.ofMillis 30))), v) ∧
      Begins (fun r _ => r.Around route.bounded) next v
        (Layer.around [Layer.ofScript Script.retry, Layer.timeout (Duration.ofMillis 30)]
          route.bounded) w [] := by
  obtain ⟨a, route, hbuild, hget, hmatched, htimeout, hinside⟩ := Draft.build_retried
  have hinner : Composed Plain (Layer.around route.layers route.handler) := by
    rw [hinside, Script.around_stall]
    exact .bind (.leaf ⟨trivial, fun _ => trivial⟩) fun _ => .leaf trivial
  have hretry : (Layer.ofScript Script.retry).Waitless := by
    refine Layer.waitless_ofScript (fun outcome => ?_) fun outcome => ?_
    · cases outcome with
      | ok response => trivial
      | error failure => exact fun _ => trivial
    · cases outcome with
      | ok response => trivial
      | error failure => exact fun _ => trivial
  have hlayers : ∀ layer ∈ Draft.retried.layers, layer.Waitless := by
    intro layer hlayer
    rw [Draft.layers_retried, List.mem_cons, List.mem_singleton] at hlayer
    rcases hlayer with rfl | rfl
    · exact hretry
    · exact Layer.waitless_timeout _
  have hdeadline : (World.start Request.forRoot).deadline? (Duration.ofMillis 50) =
      some ⟨⟨50000000⟩, Duration.ofMillis 50⟩ := by decide +kernel
  obtain ⟨hrun, hresumes⟩ := shared_layers_resume hbuild (List.cons_ne_nil _ _) hlayers
    (w := World.start Request.forRoot) hmatched hget hinner htimeout hdeadline
  have hbounded : route.bounded = Handler.overdue := by rw [Route.bounded, hinside, Handler.overdue]
  have hlast : (a.route.run (World.start Request.forRoot)).1 =
      .ok (.error (.timeout (Duration.ofMillis 50))) := by
    rw [hrun, hbounded]
    rfl
  generalize hw : ((World.start Request.forRoot).routed ⟨0⟩ PathParams.empty).entered
    ⟨⟨50000000⟩, Duration.ofMillis 50⟩ = w at hresumes
  rw [Draft.layers_retried] at hresumes
  have hattempt := hresumes.inside [Layer.timeout (Duration.ofMillis 30)] ⟨[_], rfl⟩
  generalize hnext : Layer.around [Layer.timeout (Duration.ofMillis 30)] route.bounded = next
    at hattempt
  have hbegins : Begins (fun r _ => r.Around route.bounded) (Script.retry.around next) w
      (Layer.around [Layer.ofScript Script.retry, Layer.timeout (Duration.ofMillis 30)]
        route.bounded) w [] := by
    rw [Layer.around_ofScript, hnext]
    exact .here
  rw [Script.around_retry] at hbegins
  have hfirst : (next.run w).1 = .ok (.error (.timeout (Duration.ofMillis 30))) := by
    rw [← hnext, hbounded, ← hw]
    rfl
  rcases hresumes.calls _ _ _ _ hattempt hbegins with
    ⟨p, v, hpanics⟩ | ⟨outcome, v, hreturns, -, hsecond⟩
  · rw [hpanics] at hfirst
    cases hfirst
  · rw [hreturns] at hfirst
    cases hfirst
    exact ⟨a, route, next, w, v, hbuild, hget, hnext.symm, hlast, hreturns, hsecond⟩

end HttpRouting
