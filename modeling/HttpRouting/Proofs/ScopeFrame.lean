import HttpRouting.Pipeline.Probe
import HttpRouting.Proofs.Expiry

/-!
# Scopes are left as they were entered

A handler under a timeout works in a scope of its own.  It comes back to the scope
it was called in even where an enforced deadline around it drops what it bounds: a
timeout ends no later than the deadline in force, so it is never the one that is
dropped.  This holds wherever no panic is caught.
-/

namespace HttpRouting

structure World.SameScope (w v : World) : Prop where
  token : v.context.token = w.context.token
  deadline : v.context.deadline = w.context.deadline

theorem World.SameScope.refl (w : World) : w.SameScope w := ⟨rfl, rfl⟩

theorem World.SameScope.trans {w v u : World} (first : w.SameScope v) (second : v.SameScope u) :
    w.SameScope u :=
  ⟨second.token.trans first.token, second.deadline.trans first.deadline⟩

def Action.KeepsScope : Action → Prop
  | .scope _ _ => False
  | _ => True

theorem Action.KeepsScope.sameScope_perform {action : Action} (h : action.KeepsScope)
    (w : World) : w.SameScope (action.perform w).2 := by
  cases action with
  | scope token deadline => exact h.elim
  | _ => exact ⟨rfl, rfl⟩

namespace Activity

/-! ## Activities in which no panic is caught -/

/-- The activities in which no panic is caught: those that ask for allowed actions,
one after another, with handlers under timeouts and enforced deadlines in between. -/
inductive Uncaught (allowed : Action → Prop) : {α : Type} → Activity α → Prop where
  | plain {α : Type} {p : Activity α} : p.Uses allowed → Uncaught allowed p
  | bind {α β : Type} {p : Activity α} {next : α → Activity β} :
      Uncaught allowed p → (∀ value, Uncaught allowed (next value)) →
        Uncaught allowed (p.bind next)
  | timeout {h : Handler} (duration : Duration) :
      Uncaught allowed h → Uncaught allowed (h.withTimeout duration)
  | enforced {h : Handler} : Uncaught allowed h → Uncaught allowed h.withDeadline

end Activity

theorem Script.uncaught_around {α : Type} {allowed : Action → Prop} {s : Script α} {h : Handler}
    (hs : s.Uses allowed) (hh : h.Uncaught allowed) : (s.around h).Uncaught allowed := by
  induction s with
  | done | panic => exact .plain trivial
  | sleep tick rest ih =>
      exact .bind (p := Activity.sleepUntil tick) (.plain trivial) fun _ => ih hs
  | act action rest ih =>
      exact .bind (p := Activity.perform action) (.plain ⟨hs.1, fun _ => trivial⟩)
        fun reply => ih reply (hs.2 reply)
  | call rest ih => exact .bind hh fun outcome => ih outcome (hs outcome)

namespace Layer

variable {allowed : Action → Prop}

def Uncaught (allowed : Action → Prop) (layer : Layer) : Prop :=
  ∀ h : Handler, h.Uncaught allowed → (layer.decorate h).Uncaught allowed

theorem uncaught_ofScript {s : Script Outcome} (hs : s.Uses allowed) :
    (ofScript s).Uncaught allowed :=
  fun _ hh => Script.uncaught_around hs hh

theorem uncaught_timeout (duration : Duration) : (timeout duration).Uncaught allowed :=
  fun _ hh => .timeout duration hh

theorem uncaught_enforced : enforced.Uncaught allowed := fun _ hh => .enforced hh

theorem uncaught_around {layers : List Layer} {h : Handler}
    (hlayers : ∀ layer ∈ layers, layer.Uncaught allowed) (hh : h.Uncaught allowed) :
    (around layers h).Uncaught allowed :=
  around_keeps (P := Activity.Uncaught allowed) hlayers hh

end Layer

/-! ## The scope after a run -/

namespace Activity

variable {α β : Type}

theorem Uses.sameScope_run {p : Activity α} (h : p.Uses Action.KeepsScope) (w : World) :
    w.SameScope (p.run w).2 := by
  induction p generalizing w with
  | done | panic => exact .refl w
  | sleep tick rest ih =>
      have hwaited : w.SameScope { w with tick := max w.tick tick } := ⟨rfl, rfl⟩
      exact hwaited.trans (ih h _)
  | act action rest ih =>
      exact (h.1.sameScope_perform w).trans
        (ih (action.perform w).1 (h.2 _) (action.perform w).2)

/-- An activity that, called in a world, returns in the scope of that world, and leaves that
scope as it was where it is dropped no earlier than the deadline in force. -/
structure KeepsScopeFrom (p : Activity α) (w : World) : Prop where
  returned : ∀ v value, p.run w = (.ok value, v) → w.SameScope v
  dropped : ∀ bound deadline v, w.context.deadline = some deadline →
    deadline.due.tick ≤ bound → (p.withinTick bound).run w = (.ok none, v) → w.SameScope v

theorem KeepsScopeFrom.of_uses {p : Activity α} (h : p.Uses Action.KeepsScope) (w : World) :
    p.KeepsScopeFrom w where
  returned := by
    intro v value hrun
    have hsame := h.sameScope_run w
    rwa [hrun] at hsame
  dropped := by
    intro bound deadline v _ _ hrun
    have hsame := (uses_withinTick trivial h bound).sameScope_run w
    rwa [hrun] at hsame

theorem KeepsScopeFrom.bind {p : Activity α} {next : α → Activity β} {w : World}
    (hp : p.KeepsScopeFrom w)
    (hnext : ∀ value u, p.run w = (.ok value, u) → (next value).KeepsScopeFrom u) :
    (p.bind next).KeepsScopeFrom w where
  returned := by
    intro v value hrun
    rw [run_bind] at hrun
    rcases hfirst : p.run w with ⟨_ | first, u⟩ <;> rw [hfirst] at hrun
    · cases hrun
    · exact (hp.returned u first hfirst).trans ((hnext first u hfirst).returned v value hrun)
  dropped := by
    intro bound deadline v hdeadline hdue hrun
    rw [withinTick_bind, run_bind] at hrun
    rcases hfirst : (p.withinTick bound).run w with ⟨_ | _ | first, u⟩ <;> rw [hfirst] at hrun
    · cases hrun
    · cases hrun
      exact hp.dropped bound deadline v hdeadline hdue hfirst
    · have halone := run_of_run_withinTick hfirst
      have hsame := hp.returned u first halone
      rw [← hsame.deadline] at hdeadline
      exact hsame.trans ((hnext first u halone).dropped bound deadline v hdeadline hdue hrun)

end Activity

namespace Handler

open Activity

theorem keepsScopeFrom_withTimeout (duration : Duration) (h : Handler) (w : World) :
    (h.withTimeout duration).KeepsScopeFrom w where
  returned := by
    intro v outcome hrun
    cases hdeadline : w.deadline? duration with
    | none =>
        rw [run_withTimeout_none hdeadline] at hrun
        cases hrun
    | some deadline =>
        rw [run_withTimeout hdeadline] at hrun
        rcases hinner : (withinTick deadline.due.tick h).run (w.entered deadline) with
          ⟨_ | _ | _, u⟩ <;> rw [hinner] at hrun <;> cases hrun <;> exact ⟨rfl, rfl⟩
  dropped := by
    intro bound outer v houter hdue hrun
    cases hdeadline : w.deadline? duration with
    | none =>
        have hpanics := run_withTimeout_none hdeadline h
        refine absurd hrun (run_withinTick_ne_none ?_)
        rw [hpanics]
        exact Nat.le_max_left _ _
    | some deadline =>
        -- The deadline in force is no later than the bound, and the new one no later than that.
        have hends := tick_run_withTimeout_le hdeadline h
        have htighter := World.due_deadline?_le hdeadline houter
        exact absurd hrun (run_withinTick_ne_none (by omega))

theorem keepsScopeFrom_withDeadline {h : Handler} {w : World} (hh : h.KeepsScopeFrom w) :
    h.withDeadline.KeepsScopeFrom w where
  returned := by
    intro v outcome hrun
    cases hdeadline : w.context.deadline with
    | none =>
        rw [run_withDeadline_none hdeadline] at hrun
        exact hh.returned v outcome hrun
    | some deadline =>
        rw [run_withDeadline hdeadline] at hrun
        rcases hinner : (withinTick deadline.due.tick h).run w with ⟨_ | _ | _, u⟩ <;>
          rw [hinner] at hrun <;> cases hrun
        · have hsame := hh.dropped _ deadline u hdeadline (Nat.le_refl _) hinner
          exact ⟨hsame.token, hsame.deadline⟩
        · exact hh.returned v outcome (run_of_run_withinTick hinner)
  dropped := by
    intro bound deadline v hdeadline hdue hrun
    have hends := tick_run_withDeadline_le hdeadline h
    exact absurd hrun (run_withinTick_ne_none (by omega))

end Handler

end HttpRouting
