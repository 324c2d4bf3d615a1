import HttpRouting.Pipeline.Recovery
import HttpRouting.Proofs.Nesting

/-!
# The scope after a panic

A panic goes past the ends of the timeouts around the place where it begins.  The handler
that contains it therefore comes back in the scope of that place: the tokens and the
deadline of all the timeouts between the two are still there.
-/

namespace HttpRouting

open Activity

theorem Token.ext_lineage {t u : Token} (h : t.lineage = u.lineage) : t = u := by
  cases t
  cases u
  obtain ⟨rfl, rfl⟩ := List.cons.inj h
  rfl

theorem Handler.run_recovering_of_panic {h : Handler} {w v : World} {p : Panic}
    (hrun : h.run w = (.error p, v)) :
    h.recovering.run w =
      (.ok (.error (.internal p.reason)),
        { v with events := v.events ++ [(v.tick, p.caught v.context.path)] }) := by
  unfold Handler.recovering
  rw [bind_eq, run_bind, run_contained, hrun]
  rfl

namespace Handler

theorem run_of_panic_withTimeout {h : Handler} {w v : World} {p : Panic} {duration : Duration}
    {deadline : Deadline} (hdeadline : w.deadline? duration = some deadline)
    (hrun : (h.withTimeout duration).run w = (.error p, v)) :
    h.run (w.entered deadline) = (.error p, v) ∧ v.tick ≤ max w.tick deadline.due.tick := by
  have hprompt := tick_run_withTimeout_le hdeadline h
  rw [hrun] at hprompt
  rw [run_withTimeout hdeadline] at hrun
  rcases hinner : (withinTick deadline.due.tick h).run (w.entered deadline) with ⟨_ | _ | _, u⟩ <;>
    rw [hinner] at hrun <;> cases hrun
  exact ⟨run_of_panic_withinTick hinner, hprompt⟩

theorem run_of_panic_withDeadline {h : Handler} {w v : World} {p : Panic} {deadline : Deadline}
    (hdeadline : w.context.deadline = some deadline)
    (hrun : h.withDeadline.run w = (.error p, v)) :
    h.run w = (.error p, v) ∧ v.tick ≤ max w.tick deadline.due.tick := by
  have hprompt := tick_run_withDeadline_le hdeadline h
  rw [hrun] at hprompt
  rw [run_withDeadline hdeadline] at hrun
  rcases hinner : (withinTick deadline.due.tick h).run w with ⟨_ | _ | _, u⟩ <;>
    rw [hinner] at hrun <;> cases hrun
  exact ⟨run_of_panic_withinTick hinner, hprompt⟩

end Handler

/-! ## Where a panic begins -/

namespace Activity

variable {α : Type} {p : Activity α} {w v : World} {reason : Panic} {allowed : Action → Prop}

theorem Uses.begins_panic (hp : p.Uses allowed) (hrun : p.run w = (.error reason, v)) :
    Begins (Calm allowed) (.panic reason : Activity α) v p w [] := by
  induction p generalizing w with
  | done value => cases hrun
  | panic p =>
      cases hrun
      exact .here
  | sleep tick rest ih =>
      have hwait : (sleepUntil tick).run w = (.ok (), { w with tick := max w.tick tick }) := rfl
      change Begins _ _ _ ((sleepUntil tick).bind fun _ => rest) w []
      exact .rest (.plain trivial) hwait (ih hp hrun)
  | act action rest ih =>
      have hstep : (perform action).run w =
          (.ok (action.perform w).1, (action.perform w).2) := rfl
      change Begins _ _ _ ((perform action).bind rest) w []
      exact .rest (.plain ⟨hp.1, fun _ => trivial⟩) hstep (ih _ (hp.2 _) hrun)

theorem begins_outOfRange (hclock : allowed .clock) (hcontext : allowed .context)
    {duration : Duration} (hnone : w.deadline? duration = none) (h : Handler) :
    Begins (Calm allowed) (.panic Deadline.outOfRange : Handler) w
      (h.withTimeout duration) w [] := by
  obtain ⟨next, hasks, hpanics, -⟩ := withTimeout_asks duration h w
  have hlast : Begins (Calm allowed) (.panic Deadline.outOfRange : Handler) w
      (next w.tick w.context) w [] := by
    rw [hpanics hnone]
    exact .here
  rw [hasks]
  exact .rest (.plain ⟨hclock, fun _ => trivial⟩) rfl
    (.rest (.plain ⟨hcontext, fun _ => trivial⟩) rfl hlast)

theorem Calm.begins_panic (hclock : allowed .clock) (hcontext : allowed .context)
    (hp : p.Calm allowed w) (hrun : p.run w = (.error reason, v)) :
    ∃ (β : Type) (inside : List Enclosure),
      Begins (Calm allowed) (.panic reason : Activity β) v p w inside := by
  induction hp with
  | @plain α p _ hp => exact ⟨α, [], hp.begins_panic hrun⟩
  | @bind _ _ p next w hfirst _ ihfirst ihnext =>
      rw [run_bind] at hrun
      rcases hvalue : p.run w with ⟨_ | value, u⟩ <;> rw [hvalue] at hrun
      · cases hrun
        obtain ⟨β, inside, hbegins⟩ := ihfirst hvalue
        exact ⟨β, inside, hbegins.first⟩
      · obtain ⟨β, inside, hbegins⟩ := ihnext value u hvalue hrun
        exact ⟨β, inside, .rest hfirst hvalue hbegins⟩
  | @timeout h duration w _ ih =>
      cases hdeadline : w.deadline? duration with
      | none =>
          rw [Handler.run_withTimeout_none hdeadline] at hrun
          cases hrun
          exact ⟨Outcome, [], begins_outOfRange hclock hcontext hdeadline h⟩
      | some deadline =>
          obtain ⟨hinner, hprompt⟩ := Handler.run_of_panic_withTimeout hdeadline hrun
          obtain ⟨β, inside, hbegins⟩ := ih deadline hdeadline hinner
          exact ⟨β, _, .timeout hdeadline hbegins hprompt⟩
  | @enforced h w _ ih =>
      cases hdeadline : w.context.deadline with
      | none =>
          rw [Handler.run_withDeadline_none hdeadline] at hrun
          obtain ⟨β, inside, hbegins⟩ := ih hrun
          exact ⟨β, inside, .enforced hbegins (by simp [hdeadline])⟩
      | some deadline =>
          obtain ⟨hinner, hprompt⟩ := Handler.run_of_panic_withDeadline hdeadline hrun
          obtain ⟨β, inside, hbegins⟩ := ih hinner
          refine ⟨β, inside, .enforced hbegins fun other hother => ?_⟩
          obtain rfl := Option.some.inj (hdeadline.symm.trans hother)
          exact hprompt
  | caught =>
      rw [run_contained] at hrun
      cases hrun
  | within _ hends ih =>
      obtain ⟨β, inside, hbegins⟩ := ih (run_of_panic_withinTick hrun)
      exact ⟨β, inside, hbegins.within hends⟩

end Activity

/-- A handler that contains a panic fails with its reason.  It comes back in the scope of
the place where the panic began: that in which it was called only if no timeout inside it
was under way there. -/
theorem scope_after_panic {h : Handler} {w v : World} (hh : h.Calm Action.KeepsScope w)
    {p : Panic} (hrun : h.run w = (.error p, v)) :
    ∃ v', h.recovering.run w = (.ok (.error (.internal p.reason)), v') ∧
      ∃ (β : Type) (inside : List Enclosure),
        Begins (Calm Action.KeepsScope) (.panic p : Activity β) v h w inside ∧
          v'.context.token.lineage = inside.map Enclosure.number ++ w.context.token.lineage ∧
          v'.context.deadline = Enclosure.inForce w.context.deadline inside ∧
          (w.SameScope v' ↔ inside = []) := by
  obtain ⟨β, inside, hbegins⟩ := hh.begins_panic trivial trivial hrun
  obtain ⟨htoken, hdeadline⟩ := hbegins.scope fun _ _ hr => hr.keepsScopeFrom
  refine ⟨_, Handler.run_recovering_of_panic hrun, β, inside, hbegins, htoken, hdeadline, ?_⟩
  constructor
  · intro hsame
    have hlineage := congrArg Token.lineage hsame.token
    rw [htoken] at hlineage
    exact List.map_eq_nil_iff.mp (List.append_left_eq_self.mp hlineage)
  · rintro rfl
    exact ⟨Token.ext_lineage htoken, hdeadline⟩

def Handler.broken : Handler :=
  Handler.withTimeout (Duration.ofMillis 50) (.panic ⟨some "boom"⟩)

theorem Handler.run_broken :
    broken.run (World.start Request.forRoot) =
      (.error ⟨some "boom"⟩,
        (World.start Request.forRoot).entered ⟨⟨50000000⟩, Duration.ofMillis 50⟩) := by
  have hdeadline : (World.start Request.forRoot).deadline? (Duration.ofMillis 50) =
      some ⟨⟨50000000⟩, Duration.ofMillis 50⟩ := by decide +kernel
  exact (Handler.run_withTimeout hdeadline _).trans rfl

theorem broken_leaks_scope :
    ∃ v, Handler.broken.recovering.run (World.start Request.forRoot) =
        (.ok (.error (.internal "boom")), v) ∧
      v.context.deadline = some ⟨⟨50000000⟩, Duration.ofMillis 50⟩ ∧
      v.context.token ≠ (World.start Request.forRoot).context.token :=
  ⟨_, Handler.run_recovering_of_panic Handler.run_broken, rfl, by decide⟩

theorem scope_after_panic_broken :
    ∃ v, Handler.broken.recovering.run (World.start Request.forRoot) =
        (.ok (.error (.internal "boom")), v) ∧ ¬ (World.start Request.forRoot).SameScope v := by
  have hbroken : Handler.broken.Calm Action.KeepsScope (World.start Request.forRoot) :=
    .timeout fun _ _ => .plain trivial
  obtain ⟨v, hrun, β, inside, hbegins, -, -, hclean⟩ :=
    scope_after_panic hbroken Handler.run_broken
  refine ⟨v, hrun, fun hsame => ?_⟩
  obtain rfl := hclean.mp hsame
  have hforce := (hbegins.scope fun _ _ hr => hr.keepsScopeFrom).2
  cases hforce

end HttpRouting
