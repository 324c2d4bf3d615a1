import HttpRouting.Pipeline.Recovery
import HttpRouting.Proofs.Along
import HttpRouting.Proofs.RequestRun

/-!
# A constant failure behind the shared layers

Where no route serves a request, the layers that all routes share stand around a handler that reads
from the context how routing failed.  As long as no layer changes that record, this handler might
as well be one that fails with a fixed failure: the two runs differ in nothing but the looks at the
context, however often and under whatever deadlines the layers call it.
-/

namespace HttpRouting

open Activity

def Action.KeepsMark : Action → Prop
  | .mark _ => False
  | _ => True

theorem Action.KeepsMark.unserved_perform {action : Action} (h : action.KeepsMark) (w : World) :
    (action.perform w).2.context.unserved = w.context.unserved := by
  cases action with
  | mark failure => exact h.elim
  | _ => rfl

namespace Activity

variable {α β : Type}

/-! ## The same program around two handlers -/

/-- Two activities that are put together in the same way, the one around a handler and the other
around another handler.  Neither changes what the context tells of routing. -/
inductive Mirrored (core other : Handler) : {α : Type} → Activity α → Activity α → Prop where
  | core : Mirrored core other core other
  | plain {α : Type} {p : Activity α} : p.Uses Action.KeepsMark → Mirrored core other p p
  | bind {α β : Type} {p q : Activity α} {next next' : α → Activity β} :
      Mirrored core other p q → (∀ value, Mirrored core other (next value) (next' value)) →
        Mirrored core other (p.bind next) (q.bind next')
  | within {α : Type} {p q : Activity α} (bound : Nat) :
      Mirrored core other p q → Mirrored core other (p.withinTick bound) (q.withinTick bound)
  | caught {α : Type} {p q : Activity α} :
      Mirrored core other p q → Mirrored core other p.contained q.contained

theorem Mirrored.trans {core other h h' : Handler} {p q : Activity α} (hp : Mirrored h h' p q)
    (hh : Mirrored core other h h') : Mirrored core other p q := by
  induction hp with
  | core => exact hh
  | plain hp => exact .plain hp
  | bind _ _ ih ihnext => exact .bind ih ihnext
  | within bound _ ih => exact .within bound ih
  | caught _ ih => exact .caught ih

/-! ## Runs that differ in looks at the context -/

/-- Two activities that do the same from a world on, but for looks at the context that only the
first one takes. -/
inductive InStep {α : Type} : Activity α → Activity α → World → Prop where
  | done (value : α) (w : World) : InStep (.done value) (.done value) w
  | panic (p : Panic) (w : World) : InStep (.panic p) (.panic p) w
  | sleep {tick : Nat} {rest rest' : Activity α} {w : World} :
      InStep rest rest' { w with tick := max w.tick tick } →
        InStep (.sleep tick rest) (.sleep tick rest') w
  | act {action : Action} {rest rest' : action.Reply → Activity α} {w : World} :
      InStep (rest (action.perform w).1) (rest' (action.perform w).1) (action.perform w).2 →
        InStep (.act action rest) (.act action rest') w
  | look {rest : Context → Activity α} {q : Activity α} {w : World} :
      InStep (rest w.context) q w → InStep (.act .context rest) q w

namespace InStep

variable {p q : Activity α} {w : World}

theorem refl (p : Activity α) (w : World) : InStep p p w := by
  induction p generalizing w with
  | done value => exact .done value w
  | panic reason => exact .panic reason w
  | sleep tick rest ih => exact .sleep (ih _)
  | act action rest ih => exact .act (ih _ _)

theorem run_eq (h : InStep p q w) : p.run w = q.run w := by
  induction h with
  | done | panic => rfl
  | sleep _ ih => exact ih
  | act _ ih => exact ih
  | look _ ih => exact ih

theorem bind {next next' : α → Activity β} (h : InStep p q w)
    (hnext : ∀ value u, p.run w = (.ok value, u) → InStep (next value) (next' value) u) :
    InStep (p.bind next) (q.bind next') w := by
  induction h with
  | done value w => exact hnext value w rfl
  | panic reason w => exact .panic reason w
  | sleep _ ih => exact .sleep (ih hnext)
  | act _ ih => exact .act (ih hnext)
  | look _ ih => exact .look (ih hnext)

theorem withinTick (bound : Nat) (h : InStep p q w) :
    InStep (p.withinTick bound) (q.withinTick bound) w := by
  induction h with
  | done value w => exact .done _ w
  | panic reason w => exact .panic reason w
  | act _ ih => exact .act ih
  | look _ ih => exact .look ih
  | @sleep tick rest rest' w _ ih =>
      simp only [Activity.withinTick]
      split
      · exact .sleep ih
      · refine .act ?_
        by_cases hcome : tick ≤ w.tick
        · rw [Nat.max_eq_left hcome] at ih
          simpa only [Action.perform, hcome, if_true] using ih
        · simp only [Action.perform, hcome, if_false]
          exact refl _ w

theorem contained (h : InStep p q w) : InStep p.contained q.contained w := by
  induction h with
  | done value w => exact .done _ w
  | panic reason w => exact .done _ w
  | sleep _ ih => exact .sleep ih
  | act _ ih => exact .act ih
  | look _ ih => exact .look ih

end InStep

/-! ## The handler that reads how routing failed -/

theorem inStep_unserved {refusal : RoutingFailure} {w : World}
    (hw : w.context.unserved = some refusal) :
    InStep Handler.unserved (.done (.error refusal.failure)) w := by
  refine .look ?_
  dsimp only [Activity.bind]
  rw [hw]
  cases refusal <;> exact .done _ w

theorem uses_unserved : Handler.unserved.Uses Action.KeepsMark := by
  refine ⟨trivial, fun c => ?_⟩
  dsimp only [Activity.bind]
  rcases c.unserved with _ | _ | _ <;> exact trivial

theorem along_unserved {refusal : RoutingFailure} {p : Activity α}
    (hp : p.Uses Action.KeepsMark) {w : World} (hw : w.context.unserved = some refusal) :
    Along (fun v => v.context.unserved = some refusal) p w :=
  hp.along (fun _ _ hv _ => hv)
    (fun _ v hkeeps hv => (hkeeps.unserved_perform v).trans hv) hw

theorem Mirrored.inStep {refusal : RoutingFailure} {p q : Activity α}
    (h : Mirrored Handler.unserved (.done (.error refusal.failure)) p q) {w : World}
    (hw : w.context.unserved = some refusal) :
    InStep p q w ∧ Along (fun v => v.context.unserved = some refusal) p w := by
  induction h generalizing w with
  | core => exact ⟨inStep_unserved hw, along_unserved uses_unserved hw⟩
  | @plain _ p huses => exact ⟨.refl p w, along_unserved huses hw⟩
  | bind _ _ ih ihnext =>
      obtain ⟨hstep, halong⟩ := ih hw
      exact ⟨hstep.bind fun value u hrun => (ihnext value (halong.of_run hrun)).1,
        along_bind halong fun value u hrun => (ihnext value (halong.of_run hrun)).2⟩
  | within bound _ ih =>
      obtain ⟨hstep, halong⟩ := ih hw
      exact ⟨hstep.withinTick bound,
        along_withinTick (fun _ _ hv _ => hv) (halong.mono fun _ hv _ => hv)⟩
  | caught _ ih =>
      obtain ⟨hstep, halong⟩ := ih hw
      exact ⟨hstep.contained, along_contained halong⟩

end Activity

/-! ## Layers -/

theorem Script.mirrored_around {α : Type} {s : Script α} (hs : s.Uses Action.KeepsMark)
    (h other : Handler) : Mirrored h other (s.around h) (s.around other) := by
  induction s with
  | done | panic => exact .plain trivial
  | sleep tick rest ih =>
      exact .bind (p := sleepUntil tick) (q := sleepUntil tick) (.plain trivial) fun _ => ih hs
  | act action rest ih =>
      exact .bind (p := perform action) (q := perform action) (.plain ⟨hs.1, fun _ => trivial⟩)
        fun reply => ih reply (hs.2 reply)
  | call rest ih => exact .bind .core fun outcome => ih outcome (hs outcome)

namespace Layer

/-- Whether a layer uses the handler inside it only by calling it, and leaves alone what the
context tells of routing. -/
def Uniform (layer : Layer) : Prop :=
  ∀ h other : Handler, Mirrored h other (layer.decorate h) (layer.decorate other)

theorem uniform_ofScript {s : Script Outcome} (hs : s.Uses Action.KeepsMark) :
    (ofScript s).Uniform :=
  fun h other => Script.mirrored_around hs h other

theorem mirrored_expire (h other : Handler) (token : Token) (after : Duration) :
    Mirrored h other (Handler.expire token after) (Handler.expire token after) :=
  .plain ⟨trivial, fun _ => ⟨trivial, fun _ => ⟨trivial, fun _ => trivial⟩⟩⟩

theorem uniform_timeout (duration : Duration) : (timeout duration).Uniform := by
  intro h other
  refine .bind (p := clock) (q := clock) (.plain ⟨trivial, fun _ => trivial⟩) fun tick => ?_
  refine .bind (p := context) (q := context) (.plain ⟨trivial, fun _ => trivial⟩) fun outer => ?_
  cases (Moment.ofTick tick).later? duration with
  | none => exact .plain trivial
  | some due =>
      refine .bind (.plain ⟨trivial, fun _ => trivial⟩) fun token => ?_
      refine .bind (.plain ⟨trivial, fun _ => trivial⟩) fun _ => ?_
      refine .bind (.within _ .core) fun result => ?_
      refine .bind (.plain ⟨trivial, fun _ => trivial⟩) fun _ => ?_
      cases result with
      | some outcome => exact .plain trivial
      | none => exact mirrored_expire h other _ _

theorem uniform_enforced : enforced.Uniform := by
  intro h other
  refine .bind (p := context) (q := context) (.plain ⟨trivial, fun _ => trivial⟩) fun c => ?_
  cases c.deadline with
  | none => exact .core
  | some deadline =>
      refine .bind (.within _ .core) fun result => ?_
      cases result with
      | some outcome => exact .plain trivial
      | none =>
          refine .bind (p := context) (q := context) (.plain ⟨trivial, fun _ => trivial⟩) ?_
          exact fun c => mirrored_expire h other c.token deadline.after

theorem uniform_recover : recover.Uniform := by
  intro h other
  refine .bind (.caught .core) fun result => ?_
  cases result with
  | ok outcome => exact .plain trivial
  | error p => exact .plain ⟨trivial, fun _ => ⟨trivial, fun _ => trivial⟩⟩

theorem mirrored_around {layers : List Layer} (hlayers : ∀ layer ∈ layers, layer.Uniform)
    (h other : Handler) : Mirrored h other (around layers h) (around layers other) := by
  induction layers with
  | nil => exact .core
  | cons layer rest ih =>
      have hrest := ih fun inner hinner => hlayers inner (List.mem_cons_of_mem _ hinner)
      exact (hlayers layer List.mem_cons_self _ _).trans hrest

theorem uniform_chain {layers : List Layer} (hlayers : ∀ layer ∈ layers, layer.Uniform) :
    (chain layers).Uniform :=
  mirrored_around hlayers

end Layer

/-! ## Applications -/

/-- A request that no route serves runs through the shared layers as if there were a handler inside
them that always fails as routing failed for this request, whatever the context tells of earlier
requests. -/
theorem handle_refused {d : Draft} {a : App} (hbuild : d.build = .ok a)
    (hlayers : ∀ layer ∈ d.layers, layer.Uniform) {w u : World}
    (hhooks : (Hook.runAll d.hooks).run w = (.ok (.ok ()), u)) {refusal : RoutingFailure}
    (hrefusal : (a.table.resolve u.context.host u.context.method u.context.path).refusal? =
      some refusal) :
    a.handle.run w =
      (Layer.around d.layers (.done (.error refusal.failure))).run (u.refused refusal) := by
  rw [Draft.run_handle_of_refusal hbuild hhooks hrefusal]
  exact (Layer.mirrored_around hlayers _ _).inStep rfl |>.1.run_eq

def Draft.moving : Draft :=
  ((((Draft.empty.wrap (Layer.ofScript Script.retry)).wrap
    (Layer.timeout (Duration.ofMillis 50))).wrap Layer.recover).wrap
      (Layer.ofScript (Script.editing
        (Request.setHeaders [("host", Text.Utf8.encode "other.example")])))).route "/"
        ((RouteSpec.ofMethod "POST" Handler.unserved).withHost "own.example")

def Request.forOwnHost : Request :=
  Request.setHeaders [("host", Text.Utf8.encode "own.example")] Request.forRoot

theorem handle_refused_moving :
    ∃ a, Draft.moving.build = .ok a ∧
      ∃ w, a.handle.run (World.start Request.forOwnHost) =
          (.ok (.error (.methodNotAllowed ["POST"])), w) ∧
        w.context.unserved = some (.methodNotAllowed ["POST"]) ∧
          a.handle.run w =
            (Layer.around Draft.moving.layers (.done (.error .notFound))).run
              (w.refused .notFound) := by
  have hruns : (Draft.moving.build.toOption.map fun a =>
      let (result, w) := a.handle.run (World.start Request.forOwnHost)
      (result, w.context.unserved,
        a.table.resolve w.context.host w.context.method w.context.path)) =
      some (.ok (.error (.methodNotAllowed ["POST"])), some (.methodNotAllowed ["POST"]),
        .noMatch) := by decide +kernel
  obtain ⟨a, hbuild, hresults⟩ := Draft.exists_build_of_toOption_map hruns
  rcases hrun : a.handle.run (World.start Request.forOwnHost) with ⟨result, w⟩
  rw [hrun] at hresults
  simp only [Prod.mk.injEq] at hresults
  obtain ⟨rfl, hmarked, hunknown⟩ := hresults
  have hlayers : ∀ layer ∈ Draft.moving.layers, layer.Uniform := by
    intro layer hlayer
    simp only [Draft.moving, Draft.wrap, Draft.route, Draft.empty, List.nil_append,
      List.cons_append, List.mem_cons, List.not_mem_nil, or_false] at hlayer
    rcases hlayer with rfl | rfl | rfl | rfl
    · refine Layer.uniform_ofScript fun outcome => ?_
      cases outcome with
      | error failure => exact fun _ => trivial
      | ok response => trivial
    · exact Layer.uniform_timeout _
    · exact Layer.uniform_recover
    · exact Layer.uniform_ofScript ⟨trivial, fun _ _ => trivial⟩
  have hrefusal := congrArg Match.refusal? hunknown
  have hsame := handle_refused hbuild hlayers rfl hrefusal
  exact ⟨a, hbuild, w, hrun, hmarked, hsame⟩

end HttpRouting
