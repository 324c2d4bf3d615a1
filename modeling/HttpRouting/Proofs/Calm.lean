import HttpRouting.Pipeline.Recovery
import HttpRouting.Proofs.ScopeFrame

/-!
# Runs in which no panic is caught

A handler may contain panics and still not meet one, and bound what it calls by a tick of its
own and still not drop it: a run is calm if whatever is contained in it returns, and
whatever is bounded by hand ends in time.  A calm run leaves scopes as it entered them.
-/

namespace HttpRouting

namespace Activity

/-- The activities that catch no panic, and drop nothing but by the deadlines of the library,
when they run from a world. -/
inductive Calm (allowed : Action → Prop) : {α : Type} → Activity α → World → Prop where
  | plain {α : Type} {p : Activity α} {w : World} : p.Uses allowed → Calm allowed p w
  | bind {α β : Type} {p : Activity α} {next : α → Activity β} {w : World} :
      Calm allowed p w → (∀ value u, p.run w = (.ok value, u) → Calm allowed (next value) u) →
        Calm allowed (p.bind next) w
  | timeout {h : Handler} {duration : Duration} {w : World} :
      (∀ deadline, w.deadline? duration = some deadline →
        Calm allowed h (w.entered deadline)) →
        Calm allowed (h.withTimeout duration) w
  | enforced {h : Handler} {w : World} : Calm allowed h w → Calm allowed h.withDeadline w
  | caught {α : Type} {p : Activity α} {w v : World} {value : α} :
      Calm allowed p w → p.run w = (.ok value, v) → Calm allowed p.contained w
  | within {α : Type} {p : Activity α} {w : World} {bound : Nat} :
      Calm allowed p w → (p.run w).2.tick ≤ max w.tick bound →
        Calm allowed (p.withinTick bound) w

variable {α : Type} {p : Activity α} {w v : World} {allowed : Action → Prop}

theorem Uncaught.calm (hp : p.Uncaught allowed) (w : World) : p.Calm allowed w := by
  induction hp generalizing w with
  | plain hp => exact .plain hp
  | bind _ _ hp hnext => exact .bind (hp w) fun value u _ => hnext value u
  | timeout duration _ hh => exact .timeout fun deadline _ => hh _
  | enforced _ hh => exact .enforced (hh w)

theorem Uses.mono {weaker : Action → Prop} (himp : ∀ action, allowed action → weaker action)
    (hp : p.Uses allowed) : p.Uses weaker := by
  induction p with
  | done | panic => trivial
  | sleep tick rest ih => exact ih hp
  | act action rest ih => exact ⟨himp action hp.1, fun reply => ih reply (hp.2 reply)⟩

theorem Calm.mono {weaker : Action → Prop} (himp : ∀ action, allowed action → weaker action)
    (hp : p.Calm allowed w) : p.Calm weaker w := by
  induction hp with
  | plain hr => exact .plain (hr.mono himp)
  | bind _ _ hfirst hnext => exact .bind hfirst hnext
  | timeout _ hh => exact .timeout hh
  | enforced _ hh => exact .enforced hh
  | caught _ hrun hp => exact .caught hp hrun
  | within _ hends hp => exact .within hp hends

theorem Calm.recovering {h : Handler} (hcontext : allowed .context)
    (hreport : ∀ event, allowed (.report event)) (hh : h.Calm allowed w) {outcome : Outcome}
    (hrun : h.run w = (.ok outcome, v)) : h.recovering.Calm allowed w := by
  refine .bind (.caught hh hrun) fun value u _ => ?_
  cases value with
  | ok outcome => exact .plain trivial
  | error reason => exact .plain ⟨hcontext, fun _ => ⟨hreport _, fun _ => trivial⟩⟩

theorem returns_withTimeout {h : Handler} {duration : Duration} {deadline : Deadline}
    (hdeadline : w.deadline? duration = some deadline) {outcome : Outcome}
    (hrun : h.run (w.entered deadline) = (.ok outcome, v)) :
    ∃ outcome' v', (h.withTimeout duration).run w = (.ok outcome', v') := by
  rw [Handler.run_withTimeout hdeadline]
  rcases hinner : (withinTick deadline.due.tick h).run (w.entered deadline) with ⟨p | _ | _, u⟩
  · have hpanics := run_of_panic_withinTick hinner
    rw [hrun] at hpanics
    cases hpanics
  · exact ⟨_, _, rfl⟩
  · exact ⟨_, _, rfl⟩

theorem run_of_dropped_contained {bound : Nat}
    (h : (p.contained.withinTick bound).run w = (.ok none, v)) :
    (p.withinTick bound).run w = (.ok none, v) := by
  induction p generalizing w with
  | done | panic => cases h
  | act action rest ih => exact ih _ h
  | sleep tick rest ih =>
      rw [contained, run_withinTick_sleep] at h
      rw [run_withinTick_sleep]
      split at h
      · next hcome => rw [if_pos hcome, ih h]
      · next hwaits =>
          cases h
          rw [if_neg hwaits]

theorem Calm.keepsScopeFrom (hp : p.Calm Action.KeepsScope w) : p.KeepsScopeFrom w := by
  induction hp with
  | plain hp => exact .of_uses hp _
  | bind _ _ hp hnext => exact hp.bind hnext
  | timeout => exact Handler.keepsScopeFrom_withTimeout _ _ _
  | enforced _ hh => exact Handler.keepsScopeFrom_withDeadline hh
  | caught _ hrun hp =>
      constructor
      · intro v value hcontained
        rw [run_contained, hrun] at hcontained
        cases hcontained
        exact hp.returned _ _ hrun
      · intro bound deadline v hdeadline hdue hdropped
        exact hp.dropped bound deadline v hdeadline hdue (run_of_dropped_contained hdropped)
  | @within _ p w bound _ hends hp =>
      constructor
      · intro v value hbounded
        rw [run_withinTick_of_le hends] at hbounded
        rcases hrun : p.run w with ⟨_ | returned, u⟩ <;> rw [hrun] at hbounded <;> cases hbounded
        exact hp.returned _ _ hrun
      · intro outer deadline v hdeadline hdue hdropped
        exact hp.dropped outer deadline v hdeadline hdue (run_of_dropped_withinTick hdropped)

end Activity

/-- Wherever they stand, a timeout returns with the token and the deadline with which it was
called, whatever it bounds, and so does an enforced deadline if the run of what it bounds
is calm, also while a deadline around them runs. -/
theorem scope_restored {h : Handler} {layer : Layer} {w : World}
    (hlayer : (∃ duration, layer = Layer.timeout duration) ∨
      layer = Layer.enforced ∧ h.Calm Action.KeepsScope w)
    (v : World) (outcome : Outcome) :
    ((layer.decorate h).run w = (.ok outcome, v) →
        v.context.token = w.context.token ∧ v.context.deadline = w.context.deadline) ∧
      ∀ bound, ((layer.decorate h).withinTick bound).run w = (.ok (some outcome), v) →
        v.context.token = w.context.token ∧ v.context.deadline = w.context.deadline := by
  have hkeeps : (layer.decorate h).KeepsScopeFrom w := by
    rcases hlayer with ⟨duration, rfl⟩ | ⟨rfl, hh⟩
    · rw [Layer.decorate_timeout]
      exact Handler.keepsScopeFrom_withTimeout duration h w
    · rw [Layer.decorate_enforced]
      exact Handler.keepsScopeFrom_withDeadline hh.keepsScopeFrom
  have hreturned : (layer.decorate h).run w = (.ok outcome, v) →
      v.context.token = w.context.token ∧ v.context.deadline = w.context.deadline := by
    intro hrun
    have hsame := hkeeps.returned v outcome hrun
    exact ⟨hsame.token, hsame.deadline⟩
  exact ⟨hreturned, fun _ hrun => hreturned (Activity.run_of_run_withinTick hrun)⟩

def Handler.insistent : Handler :=
  Layer.around
    [Layer.ofScript Script.retry, Layer.timeout (Duration.ofMillis 500), Layer.enforced,
      Layer.ofScript (Script.stall 200)]
    (.done (.error .notFound))

theorem scope_restored_insistent :
    ∃ w v, w.context.deadline = some ⟨⟨50000000⟩, Duration.ofMillis 50⟩ ∧
      (Layer.enforced.decorate Handler.insistent).run w =
        (.ok (.error (.timeout (Duration.ofMillis 50))), v) ∧
      v.context.token = w.context.token ∧ v.context.deadline = w.context.deadline := by
  have huncaught : Handler.insistent.Uncaught Action.KeepsScope := by
    refine Layer.uncaught_around ?_ (.plain trivial)
    intro layer hlayer
    simp only [List.mem_cons, List.not_mem_nil, or_false] at hlayer
    rcases hlayer with rfl | rfl | rfl | rfl
    · refine Layer.uncaught_ofScript fun outcome => ?_
      cases outcome with
      | error failure => exact fun _ => trivial
      | ok response => trivial
    · exact Layer.uncaught_timeout _
    · exact Layer.uncaught_enforced
    · exact Layer.uncaught_ofScript ⟨trivial, fun _ _ => trivial⟩
  have hended : ((Layer.enforced.decorate Handler.insistent).run
      ((World.start Request.forRoot).entered ⟨⟨50000000⟩, Duration.ofMillis 50⟩)).1 =
        .ok (.error (.timeout (Duration.ofMillis 50))) := rfl
  have hrun := Prod.ext hended rfl
  exact ⟨_, _, rfl, hrun, (scope_restored (.inr ⟨rfl, huncaught.calm _⟩) _ _).1 hrun⟩

end HttpRouting
