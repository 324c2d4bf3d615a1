import HttpRouting.Proofs.Admission
import HttpRouting.Proofs.Stages

/-!
# Requests that stand for another method

A `POST` request may give the method that it stands for, in a header field or in its form.  It is
then routed as the request of that method, which is the one that a registration with the same text
is for; where the text gives no method, nothing after the hook is called.

That the two requests fare alike all the way rests on a law of runs: no activity sees the events
that were reported before it.
-/

namespace HttpRouting

open Activity

/-! ## Events that were reported before -/

def World.after (w : World) (earlier : List (Nat × Event)) : World :=
  { w with events := earlier ++ w.events }

theorem Action.perform_after (action : Action) (w : World) (earlier : List (Nat × Event)) :
    action.perform (w.after earlier) =
      ((action.perform w).1, (action.perform w).2.after earlier) := by
  cases action with
  | report event => simp [perform, World.after]
  | _ => rfl

theorem Activity.run_after {α : Type} (p : Activity α) (w : World)
    (earlier : List (Nat × Event)) :
    p.run (w.after earlier) = ((p.run w).1, (p.run w).2.after earlier) := by
  induction p generalizing w with
  | done | panic => rfl
  | sleep tick rest ih => exact ih { w with tick := max w.tick tick }
  | act action rest ih =>
      simp only [run, Action.perform_after]
      exact ih (action.perform w).1 (action.perform w).2

/-! ## The same request with another method -/

namespace World

def sentAs (w : World) (m : Method) : World :=
  { w with context := { w.context with request := w.context.request.setMethod m } }

def overridden (w : World) (m : Method) : World :=
  { w.sentAs m with
    events := w.events ++ [(w.tick, MethodOverride.overridden w.context.request m)] }

theorem sentAs_method {w : World} {m : Method} (h : w.context.method = m) : w.sentAs m = w := by
  subst h
  rfl

theorem sentAs_eq_after (w : World) (m : Method) :
    w.sentAs m = World.after { w.sentAs m with events := [] } w.events := by
  simp [sentAs, World.after]

theorem overridden_eq_after (w : World) (m : Method) :
    w.overridden m =
      World.after { w.sentAs m with events := [] }
        (w.events ++ [(w.tick, MethodOverride.overridden w.context.request m)]) := by
  simp [overridden, World.after]

end World

theorem Activity.run_overridden {α : Type} (p : Activity α) (w : World) (m : Method) :
    ∃ result z, p.run (w.sentAs m) = (result, World.after z w.events) ∧
      p.run (w.overridden m) =
        (result, World.after z (w.events ++
          [(w.tick, MethodOverride.overridden w.context.request m)])) := by
  refine ⟨(p.run { w.sentAs m with events := [] }).1,
    (p.run { w.sentAs m with events := [] }).2, ?_, ?_⟩
  · rw [← run_after, ← World.sentAs_eq_after]
  · rw [← run_after, ← World.overridden_eq_after]

/-! ## The text that a request gives for its method -/

namespace MethodOverride

variable {o : MethodOverride} {q : Request} {s : String} {m : Method}

/-- The text that a request gives for its method: that of the header field or, without one, that of
the first field of its name in a form. -/
inductive Asks (o : MethodOverride) (q : Request) (s : String) : Prop where
  | header {value : Text.Utf8.Bytes} :
      q.headers.get? header = some value → Headers.visibleText? value = some s → Asks o q s
  | form {before after : List (String × String)} :
      q.headers.get? MethodOverride.header = none → isForm q = true →
        Text.Form.decode q.body = before ++ (o.field, s) :: after →
          (∀ pair ∈ before, pair.1 ≠ o.field) → Asks o q s

theorem requested_of_asks (h : o.Asks q s) : o.requested q = .ok (some s) := by
  cases h with
  | header hvalue htext =>
      rw [requested, hvalue]
      dsimp only
      rw [htext]
  | form hnone hform hdecode hfirst =>
      rw [requested, hnone]
      dsimp only
      rw [if_pos hform, List.lookup_eq_some_iff.mpr ⟨_, _, hdecode, ?_⟩]
      exact fun pair hpair => bne_iff_ne.mpr (hfirst pair hpair).symm

theorem substitute_of_asks (hpost : q.method = Method.post) (h : o.Asks q s) :
    o.substitute q =
      match Method.parse? (Text.trimmed s).toUpper with
      | some m => .ok (some m)
      | none => .error Failure.invalidMethod := by
  rw [substitute, if_pos hpost, requested_of_asks h]
  simp only [Bind.bind, Except.bind]
  cases Method.parse? (Text.trimmed s).toUpper <;> rfl

theorem run_hook (o : MethodOverride) (w : World) :
    o.hook.before.run w =
      match o.substitute w.context.request with
      | .error failure => (.ok (.error failure), w)
      | .ok none => (.ok (.ok ()), w)
      | .ok (some m) => (.ok (.ok ()), w.overridden m) := by
  unfold hook
  rw [bind_eq, run_context_bind]
  rcases o.substitute w.context.request with failure | _ | m <;> rfl

theorem run_hook_of_not_token {w : World} (hpost : w.context.method = Method.post)
    (hasks : o.Asks w.context.request s) (htoken : isToken (Text.trimmed s).toUpper = false) :
    o.hook.before.run w = (.ok (.error (.badRequest Method.invalidText)), w) := by
  have hparse : Method.parse? (Text.trimmed s).toUpper = none := by
    rw [← Option.isNone_iff_eq_none, ← Option.not_isSome, Method.parse?_isSome, htoken]
    rfl
  rw [run_hook, substitute_of_asks hpost hasks, hparse]
  rfl

end MethodOverride

namespace App

variable {a : App} {o : MethodOverride} {w : World} {s : String} {m : Method}

def Routes (a : App) (w : World) (answer : Match) : Prop :=
  ∃ u, (Hook.runAll a.hooks).run w = (.ok (.ok ()), u) ∧
    a.table.resolve u.context.host u.context.method u.context.path = answer

theorem routes_iff {u : World} (hhooks : (Hook.runAll a.hooks).run w = (.ok (.ok ()), u))
    {answer : Match} :
    a.Routes w answer ↔
      a.table.resolve u.context.host u.context.method u.context.path = answer := by
  constructor
  · rintro ⟨v, hran, hanswer⟩
    rw [hhooks] at hran
    cases hran
    exact hanswer
  · exact fun hanswer => ⟨u, hhooks, hanswer⟩

theorem run_runAll_only {hook : Hook} (hhooks : a.hooks = [hook]) (w : World) :
    (Hook.runAll a.hooks).run w = hook.before.run w := by
  rw [hhooks, Hook.run_runAll_cons]
  rcases hook.before.run w with ⟨_ | _ | _, v⟩ <;> rfl

theorem calls_handleOutline_of_failure {hook : Hook} (hhooks : a.hooks = [hook]) {v : World}
    {failure : Failure} (hfailed : hook.before.run w = (.ok (.error failure), v)) :
    a.handleOutline.calls w = [⟨.hook hook, w⟩] := by
  rw [handleOutline, Outline.bind_eq, Outline.calls_bind, Hook.activity_outlineAll, hhooks,
    Hook.calls_outlineAll_cons, Hook.run_runAll_cons, hfailed]
  rfl

theorem run_handle_of_runAll {u : World} (hran : (Hook.runAll a.hooks).run w = (.ok (.ok ()), u)) :
    a.handle.run w = a.route.run u := by
  rw [run_handle, hran]

theorem run_runAll_sentAs (hhooks : a.hooks = [o.hook]) (hother : m ≠ Method.post) :
    (Hook.runAll a.hooks).run (w.sentAs m) = (.ok (.ok ()), w.sentAs m) := by
  have hkept : o.substitute (w.sentAs m).context.request = .ok none := if_neg hother
  rw [run_runAll_only hhooks, MethodOverride.run_hook, hkept]

theorem run_runAll_overridden (hhooks : a.hooks = [o.hook])
    (hpost : w.context.method = Method.post) (hasks : o.Asks w.context.request s)
    (hm : m.text = (Text.trimmed s).toUpper) :
    (Hook.runAll a.hooks).run w = (.ok (.ok ()), w.overridden m) := by
  rw [run_runAll_only hhooks, MethodOverride.run_hook,
    MethodOverride.substitute_of_asks hpost hasks, ← hm, Method.parse?_text]

/-- A `POST` request fares as the same request with another method: routing has the same answer,
and the runs are alike but for one event. -/
structure FaresAs (a : App) (w : World) (m : Method) : Prop where
  routes : ∀ answer,
    a.Routes w answer ↔ a.table.resolve w.context.host m w.context.path = answer
  routesAlike : ∀ answer, a.Routes (w.sentAs m) answer ↔ a.Routes w answer
  runsAlike : m ≠ Method.post → ∃ (outcome : Except Panic Outcome) (z : World),
    a.handle.run (w.sentAs m) = (outcome, z.after w.events) ∧
      a.handle.run w =
        (outcome, z.after (w.events ++
          [(w.tick, MethodOverride.overridden w.context.request m)]))
  same : m = Method.post → w.sentAs m = w

theorem faresAs_of_asks (hhooks : a.hooks = [o.hook]) (hpost : w.context.method = Method.post)
    (hasks : o.Asks w.context.request s) (hm : m.text = (Text.trimmed s).toUpper) :
    a.FaresAs w m := by
  have hran := run_runAll_overridden hhooks hpost hasks hm
  have hroutes : ∀ answer, a.Routes w answer ↔
      a.table.resolve w.context.host m w.context.path = answer :=
    fun answer => routes_iff hran
  have hsame : m = Method.post → w.sentAs m = w :=
    fun hmpost => World.sentAs_method (hpost.trans hmpost.symm)
  refine ⟨hroutes, ?_, ?_, hsame⟩
  · intro answer
    by_cases hmpost : m = Method.post
    · rw [hsame hmpost]
    · rw [hroutes, routes_iff (run_runAll_sentAs hhooks hmpost)]
      rfl
  · intro hmpost
    rw [run_handle_of_runAll hran, run_handle_of_runAll (run_runAll_sentAs hhooks hmpost)]
    exact run_overridden a.route w m

end App

/-! ## The method of a registration with the same text -/

theorem RouteTable.method_of_add {t after : RouteTable} (h : t.Consistent) {r : Registration}
    {id : RouteId} (hadd : t.add r = .ok (id, after)) {m : Method}
    (hm : m.text = r.method.toUpper) (hstar : r.method ≠ "*") :
    ∃ route, after.get? id = some route ∧ route.method = .exact m := by
  obtain ⟨route, hextended, rfl⟩ := exists_extended_of_add h.ordered hadd
  have hparse := Registration.parse?_of_parseMethod hextended.yields.method
  rw [RouteMethod.parse?_of_toUpper hm hstar] at hparse
  refine ⟨route, get?_id (hextended.consistent h) ?_, (Option.some.inj hparse).symm⟩
  simp [hextended.routes]

/-! ## Overridden requests -/

/-- A request that gives a text for its method fares as the request of that method, which is the
method of the routes that are registered with the text in any letter case.  Where the text is no
method the request fails as a bad one, and nothing but the hook is called. -/
theorem overridden_as_native {o : MethodOverride} {a : App} (hhooks : a.hooks = [o.hook])
    {w : World} (hpost : w.context.method = Method.post) {s : String}
    (hasks : o.Asks w.context.request s) :
    (∀ m : Method, m.text = (Text.trimmed s).toUpper →
        a.FaresAs w m ∧
          ∀ (calls : List Registration) (r : Registration) (id : RouteId) (after : RouteTable),
            r.method.toUpper = (Text.trimmed s).toUpper → r.method ≠ "*" →
              (RouteTable.registered calls).add r = .ok (id, after) →
                ∃ route, after.get? id = some route ∧ route.method = .exact m) ∧
      (isToken (Text.trimmed s).toUpper = false →
        a.handle.run w = (.ok (.error (.badRequest Method.invalidText)), w) ∧
          a.handleOutline.calls w = [⟨.hook o.hook, w⟩]) := by
  constructor
  · intro m hm
    refine ⟨App.faresAs_of_asks hhooks hpost hasks hm, ?_⟩
    intro calls r id after htext hstar hadd
    exact RouteTable.method_of_add (RouteTable.consistent_registered calls) hadd
      (hm.trans htext.symm) hstar
  · intro htoken
    have hfailed := MethodOverride.run_hook_of_not_token hpost hasks htoken
    refine ⟨?_, App.calls_handleOutline_of_failure hhooks hfailed⟩
    rw [App.run_handle, App.run_runAll_only hhooks, hfailed]

def Draft.items : Draft :=
  (Draft.empty.withHook MethodOverride.standard.hook).route "/items/:id"
    (RouteSpec.ofMethod "delete" (.done (.ok (Response.ofBody Body.empty))))

def Request.form : Request :=
  ⟨Method.post, ⟨none, "/items/7", none⟩, .http11,
    Headers.ofList [("content-type", Text.Utf8.encode MethodOverride.formType)],
    Text.Utf8.encode "name=x&_method=+de%6Cete%20&_method=PUT"⟩

def Request.misnamed : Request :=
  { Request.form with
    headers := Headers.empty.append MethodOverride.header (Text.Utf8.encode "NOT A METHOD") }

theorem overridden_as_native_items :
    ∃ a, Draft.items.build = .ok a ∧
      a.Routes ((World.start Request.form).sentAs ⟨"DELETE", by decide⟩)
        (.matched ⟨0⟩ ⟨[("id", "7")]⟩) ∧
      a.Routes (World.start Request.form) (.matched ⟨0⟩ ⟨[("id", "7")]⟩) ∧
      (∃ id after, (RouteTable.registered []).add (.plain "Delete" "/") = .ok (id, after) ∧
        ∃ route, after.get? id = some route ∧ route.method = .exact ⟨"DELETE", by decide⟩) ∧
      (a.handle.run (World.start Request.misnamed)).1 =
        .ok (.error (.badRequest Method.invalidText)) := by
  have hresolved : (Draft.items.build.toOption.map fun a =>
      a.table.resolve Request.form.host ⟨"DELETE", by decide⟩ Request.form.path) =
      some (.matched ⟨0⟩ ⟨[("id", "7")]⟩) := by decide +kernel
  obtain ⟨a, hbuild, hmatched⟩ := Draft.exists_build_of_toOption_map hresolved
  have hhooks : a.hooks = [MethodOverride.standard.hook] := Draft.hooks_eq hbuild
  have hdecode : Text.Form.decode Request.form.body =
      [("name", "x")] ++ ("_method", " delete ") :: [("_method", "PUT")] := by decide +kernel
  have hasks : MethodOverride.standard.Asks Request.form " delete " :=
    .form (by decide +kernel) (by decide +kernel) hdecode (by decide +kernel)
  have hvalue : Request.misnamed.headers.get? MethodOverride.header =
      some (Text.Utf8.encode "NOT A METHOD") := by
    rw [Request.misnamed, Headers.get?, Headers.values_append, if_pos rfl]
    rfl
  have hasks' : MethodOverride.standard.Asks Request.misnamed "NOT A METHOD" :=
    .header hvalue (by decide +kernel)
  have hpost : (World.start Request.form).context.method = Method.post := rfl
  have hpost' : (World.start Request.misnamed).context.method = Method.post := rfl
  have hdelete : "DELETE" = (Text.trimmed " delete ").toUpper := by decide +kernel
  have htoken : isToken (Text.trimmed "NOT A METHOD").toUpper = false := by decide +kernel
  have hall := overridden_as_native hhooks hpost hasks
  have hfares := (hall.1 ⟨"DELETE", by decide⟩ hdelete).1
  have hregistered := (hall.1 ⟨"DELETE", by decide⟩ hdelete).2
  have hrefused := (overridden_as_native hhooks hpost' hasks').2 htoken
  have hroutes := (hfares.routes _).mpr hmatched
  refine ⟨a, hbuild, (hfares.routesAlike _).mpr hroutes, hroutes, ?_, by rw [hrefused.1]⟩
  have haccepted : ((RouteTable.registered []).add (.plain "Delete" "/")).toOption.isSome = true :=
    by decide +kernel
  cases hadd : (RouteTable.registered []).add (.plain "Delete" "/") with
  | error refusal =>
      rw [hadd] at haccepted
      contradiction
  | ok entry =>
      exact ⟨entry.1, entry.2, rfl,
        hregistered [] _ _ _ (by decide +kernel) (by decide +kernel) hadd⟩

end HttpRouting
