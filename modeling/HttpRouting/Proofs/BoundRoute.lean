import HttpRouting.Proofs.Stages

/-!
# The route that a context tells

A context tells the route of the last match that was made with it, whatever calls of applications
it has been through, one after another or one inside another.  A call that finds no route binds
nothing and takes nothing back, so all that follows it up to the next match sees the route of an
earlier one, and sees none only where there was none.
-/

namespace HttpRouting

/-! ## Programs that are bound by applications alone -/

namespace App

def Found (apps : App → Prop) (b : Binding) : Prop :=
  ∃ a, apps a ∧ a.table.resolve b.entry.context.host b.entry.context.method
    b.entry.context.path = .matched b.route b.params

end App

/-- The programs that bind a request through calls of some applications only: one after another,
under bounds, contained, and inside the hooks and the chains of one another. -/
inductive Activity.BoundBy (apps : App → Prop) : {α : Type} → Activity α → Prop where
  | plain {α : Type} {p : Activity α} : p.Uses Action.KeepsRoute → BoundBy apps p
  | bind {α β : Type} {p : Activity α} {next : α → Activity β} :
      BoundBy apps p → (∀ value, BoundBy apps (next value)) → BoundBy apps (p.bind next)
  | within {α : Type} {p : Activity α} (bound : Nat) :
      BoundBy apps p → BoundBy apps (p.withinTick bound)
  | caught {α : Type} {p : Activity α} : BoundBy apps p → BoundBy apps p.contained
  | handle {a : App} : apps a → (∀ hook ∈ a.hooks, BoundBy apps hook.before) →
      (∀ chain ∈ a.chains, BoundBy apps chain) → BoundBy apps a.unrouted →
        BoundBy apps a.handle

namespace App

open Activity

variable {apps : App → Prop} {a : App} {w : World}

theorem route_asks (a : App) :
    ∃ next : Context → Handler, a.route = .act .context next ∧
      ∀ c,
        (∃ id params, a.table.resolve c.host c.method c.path = .matched id params ∧
          ((∃ failure, next c = .act (.report (matchedEvent id c)) fun _ =>
              .done (.error failure)) ∨
            ∃ chain ∈ a.chains, next c = .act (.report (matchedEvent id c)) fun _ =>
              .act (.bind id params) fun _ => chain)) ∨
        ∃ refusal, (a.table.resolve c.host c.method c.path).refusal? = some refusal ∧
          next c = .act (.report (refusal.event c)) fun _ =>
            .act (.mark (some refusal)) fun _ => a.unrouted := by
  refine ⟨_, rfl, fun c => ?_⟩
  rw [Activity.bind]
  cases hmatch : a.table.resolve c.host c.method c.path with
  | matched id params =>
      refine .inl ⟨id, params, rfl, ?_⟩
      dsimp only
      cases hchain : a.chains[id.index]? with
      | none => exact .inl ⟨_, rfl⟩
      | some chain => exact .inr ⟨chain, List.mem_of_getElem? hchain, rfl⟩
  | methodMismatch allowed => exact .inr ⟨_, rfl, rfl⟩
  | noMatch => exact .inr ⟨_, rfl, rfl⟩

theorem bindsAlong_route (ha : apps a)
    (hchains : ∀ chain ∈ a.chains, ∀ u, chain.BindsAlong (Found apps) u)
    (hunrouted : ∀ u, a.unrouted.BindsAlong (Found apps) u) :
    a.route.BindsAlong (Found apps) w := by
  have hcontext : Action.KeepsRoute .context := trivial
  have hreport (event : Event) : Action.KeepsRoute (.report event) := trivial
  obtain ⟨next, hroute, hnext⟩ := a.route_asks
  rw [hroute]
  refine .act hcontext ?_
  obtain ⟨id, params, hmatched, ⟨failure, hnext⟩ | ⟨chain, hchain, hnext⟩⟩ |
      ⟨refusal, -, hnext⟩ := hnext w.context
  · exact hnext ▸ .act (hreport _) trivial
  · refine hnext ▸ .act (hreport _) ⟨?_, hchains chain hchain _⟩
    rintro _ _ ⟨⟩
    exact ⟨a, ha, hmatched⟩
  · have hmark : Action.KeepsRoute (.mark (some refusal)) := trivial
    exact hnext ▸ .act (hreport _) (.act hmark (hunrouted _))

theorem bindsAlong_handle (ha : apps a)
    (hhooks : ∀ hook ∈ a.hooks, ∀ u, hook.before.BindsAlong (Found apps) u)
    (hchains : ∀ chain ∈ a.chains, ∀ u, chain.BindsAlong (Found apps) u)
    (hunrouted : ∀ u, a.unrouted.BindsAlong (Found apps) u) :
    a.handle.BindsAlong (Found apps) w := by
  refine (Hook.bindsAlong_runAll hhooks).bind fun result u _ => ?_
  cases result with
  | error failure => trivial
  | ok => exact bindsAlong_route ha hchains hunrouted

end App

namespace Activity

variable {α β : Type} {apps : App → Prop}

theorem BoundBy.bindsAlong {p : Activity α} (hp : p.BoundBy apps) (w : World) :
    p.BindsAlong (App.Found apps) w := by
  induction hp generalizing w with
  | plain hp => exact hp.bindsAlong
  | bind _ _ hp hnext => exact (hp w).bind fun value u _ => hnext value u
  | within bound _ hp => exact (hp w).withinTick bound
  | caught _ hp => exact (hp w).contained
  | handle ha _ _ _ hhooks hchains hunrouted =>
      exact App.bindsAlong_handle ha hhooks hchains hunrouted

/-! ## Calls inside a program -/

inductive Surrounds {α : Type} : {β : Type} → (Activity α → Activity β) → Prop where
  | here : Surrounds fun p => p
  | first {β γ : Type} {frame : Activity α → Activity β} (next : β → Activity γ) :
      Surrounds frame → Surrounds fun p => (frame p).bind next
  | within {β : Type} {frame : Activity α → Activity β} (bound : Nat) :
      Surrounds frame → Surrounds fun p => (frame p).withinTick bound
  | caught {β : Type} {frame : Activity α → Activity β} :
      Surrounds frame → Surrounds fun p => (frame p).contained

theorem Surrounds.act {frame : Activity α → Activity β} (h : Surrounds frame) (action : Action)
    (rest : action.Reply → Activity α) :
    frame (.act action rest) = .act action fun reply => frame (rest reply) := by
  induction h with
  | here => rfl
  | first next _ ih => exact congrArg (fun p => p.bind next) ih
  | within bound _ ih => exact congrArg (fun p => p.withinTick bound) ih
  | caught _ ih => exact congrArg (fun p => p.contained) ih

end Activity

namespace App

open Activity

variable {α : Type} {a : App} {u : World}

theorem leads_of_refusal? {frame : Handler → Activity α} (hframe : Surrounds frame)
    {refusal : RoutingFailure}
    (hrefusal : (a.table.resolve u.context.host u.context.method u.context.path).refusal? =
      some refusal) :
    Leads (frame a.route) u [] (frame a.unrouted) (u.refused refusal) := by
  have hcontext : Action.KeepsRoute .context := trivial
  have hreport (event : Event) : Action.KeepsRoute (.report event) := trivial
  have hmark (failure : Option RoutingFailure) : Action.KeepsRoute (.mark failure) := trivial
  obtain ⟨next, hroute, hnext⟩ := a.route_asks
  rw [hroute, hframe.act]
  refine .act hcontext ?_
  obtain ⟨id, params, hmatched, -⟩ | ⟨found, hfound, hnext⟩ := hnext u.context
  · rw [hmatched] at hrefusal
    cases hrefusal
  · rw [hrefusal] at hfound
    cases hfound
    change Leads (frame (next u.context)) u _ _ _
    rw [hnext, hframe.act]
    refine .act (hreport _) ?_
    rw [hframe.act]
    exact .act (hmark _) (.here _ _)

end App

/-- At every point of a run the context tells the route of the last match that an application made
with it, and no route only if none has made one.  A call that finds no route comes to the layers
that all routes share without a binding: they see what was told before the call. -/
theorem tells_last_match {apps : App → Prop} {α : Type} {p q : Activity α} (hp : p.BoundBy apps)
    {w v : World} (hpasses : Activity.Passes p w q v) :
    ∃ made, p.Leads w made q v ∧ (v.context.route, v.context.params) = w.told made ∧
      (∀ b ∈ made, App.Found apps b) ∧
      (w.context.route = none → (v.context.route = none ↔ made = [])) ∧
      ∀ (a : App) (frame : Handler → Activity α) (refusal : RoutingFailure),
        Activity.Surrounds frame → q = frame a.route →
          (a.table.resolve v.context.host v.context.method v.context.path).refusal? =
              some refusal →
            p.Leads w made (frame a.unrouted) (v.refused refusal) ∧
              ((v.refused refusal).context.route, (v.refused refusal).context.params) =
                w.told made := by
  obtain ⟨made, hleads⟩ := hpasses.exists_leads
  have htold := hleads.told
  refine ⟨made, hleads, htold, hleads.forall_of_bindsAlong (hp.bindsAlong w), ?_, ?_⟩
  · intro hfresh
    rw [← World.told_fst_eq_none_iff hfresh, ← htold]
  · rintro a frame refusal hframe rfl hrefusal
    have hrefused := hleads.trans (App.leads_of_refusal? hframe hrefusal)
    rw [List.append_nil] at hrefused
    exact ⟨hrefused, hrefused.told⟩

def App.twice (a : App) (m : Method) : Activity Outcome :=
  a.handle.bind fun _ => (Activity.edit (Request.setMethod m)).bind fun _ => a.handle

theorem App.boundBy_lone : App.lone.handle.BoundBy (· = App.lone) := by
  have hunserved : Handler.unserved.Uses Action.KeepsRoute := by
    refine ⟨trivial, fun c => ?_⟩
    dsimp only [Activity.bind]
    rcases c.unserved with _ | _ | _ <;> exact trivial
  refine .handle rfl (by simp [App.lone]) ?_ (.plain hunserved)
  intro chain hchain
  cases List.mem_singleton.mp hchain
  exact .plain trivial

theorem App.boundBy_twice (m : Method) : (App.lone.twice m).BoundBy (· = App.lone) :=
  .bind boundBy_lone fun _ => .bind (.plain ⟨trivial, fun _ => trivial⟩) fun _ => boundBy_lone

theorem tells_last_match_seven :
    ∃ made u, (App.lone.twice Method.post).Leads (World.start Request.seven) made
        App.lone.route u ∧ made ≠ [] ∧
      (App.lone.twice Method.post).Leads (World.start Request.seven) made
        App.lone.unrouted (u.refused (.methodNotAllowed ["GET"])) ∧
      (u.refused (.methodNotAllowed ["GET"])).context.route = some ⟨0⟩ := by
  have hends : (App.lone.handle.run (World.start Request.seven)).1 =
      .ok (.ok (Response.ofBody Body.empty)) := by decide +kernel
  have hfirst := Activity.Passes.of_run (Prod.ext hends rfl)
  have hpasses : Activity.Passes (App.lone.twice Method.post) (World.start Request.seven)
      App.lone.route _ := (hfirst.bind _).trans (.later (.here _ _))
  obtain ⟨made, hleads, htold, -, hnone, hrefused⟩ :=
    tells_last_match (App.boundBy_twice Method.post) hpasses
  have hroute := (hrefused App.lone _ (.methodNotAllowed ["GET"]) .here rfl (by decide +kernel)).1
  refine ⟨made, _, hleads, ?_, hroute, by decide +kernel⟩
  rw [Ne, ← hnone rfl]
  decide +kernel

/-- A call that finds no route may leave the route of an earlier call in the context, with its
parameters. -/
theorem stale_route_after_refusal :
    ((App.lone.twice Method.post).run (World.start Request.seven)).1 =
        .ok (.error (.methodNotAllowed ["GET"])) ∧
      ((App.lone.twice Method.post).run (World.start Request.seven)).2.context.route = some ⟨0⟩ ∧
      ((App.lone.twice Method.post).run (World.start Request.seven)).2.context.params =
        ⟨[("id", "7")]⟩ := by
  refine ⟨?_, ?_, ?_⟩ <;> decide +kernel

end HttpRouting
