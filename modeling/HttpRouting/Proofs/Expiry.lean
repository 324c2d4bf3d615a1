import HttpRouting.Pipeline.Deadline
import HttpRouting.Proofs.BoundedRun

/-!
# Handlers under a deadline

What a run of a handler with a timeout, or with an enforced deadline, comes to: the
bounded run of the handler inside, in a scope of its own or in the present one, and
after it the end of the scope and, where the handler was dropped, the failure.
-/

namespace HttpRouting

namespace Deadline

theorem due_tighter_le_own (outer : Option Deadline) (own : Deadline) :
    (tighter outer own).due.nanos ≤ own.due.nanos := by
  unfold tighter
  split
  · split
    · assumption
    · exact Nat.le_refl _
  · exact Nat.le_refl _

theorem due_tighter_le_outer (outer own : Deadline) :
    (tighter (some outer) own).due.nanos ≤ outer.due.nanos := by
  simp only [tighter]
  split <;> omega

end Deadline

namespace World

def entered (w : World) (deadline : Deadline) : World :=
  { w with
    context :=
      { w.context with
        token := (w.tokens.child w.context.token).1
        deadline := some deadline }
    tokens := (w.tokens.child w.context.token).2 }

def rescoped (w : World) (c : Context) : World :=
  { w with context := { w.context with token := c.token, deadline := c.deadline } }

/-- After a deadline was reported to have passed. -/
def expired (w : World) (token : Token) (after : Duration) : World :=
  { w with
    tokens := w.tokens.cancel token
    events := w.events ++ [(w.tick, Deadline.expired w.context.path after)] }

def deadline? (w : World) (duration : Duration) : Option Deadline :=
  (w.now.later? duration).map fun due => Deadline.tighter w.context.deadline ⟨due, duration⟩

end World

theorem World.due_deadline?_le {w : World} {duration : Duration} {deadline outer : Deadline}
    (h : w.deadline? duration = some deadline) (houter : w.context.deadline = some outer) :
    deadline.due.tick ≤ outer.due.tick := by
  obtain ⟨due, -, rfl⟩ := Option.map_eq_some_iff.mp h
  rw [houter]
  exact Moment.tick_mono (Deadline.due_tighter_le_outer outer _)

namespace Handler

open Activity

theorem run_withTimeout {duration : Duration} {w : World} {deadline : Deadline}
    (hdeadline : w.deadline? duration = some deadline) (h : Handler) :
    (h.withTimeout duration).run w =
      match (withinTick deadline.due.tick h).run (w.entered deadline) with
      | (.ok (some outcome), v) => (.ok outcome, v.rescoped w.context)
      | (.ok none, v) =>
          (.ok (.error (.timeout deadline.after)),
            (v.rescoped w.context).expired (w.entered deadline).context.token deadline.after)
      | (.error p, v) => (.error p, v) := by
  obtain ⟨due, hdue, rfl⟩ := Option.map_eq_some_iff.mp hdeadline
  have hnow : (Moment.ofTick w.tick).later? duration = some due := hdue
  unfold withTimeout
  rw [bind_eq, run_clock_bind, bind_eq, run_context_bind, hnow]
  dsimp only
  generalize Deadline.tighter w.context.deadline ⟨due, duration⟩ = deadline
  change ((withinTick deadline.due.tick h).bind _).run (w.entered deadline) = _
  rw [run_bind]
  rcases (withinTick deadline.due.tick h).run (w.entered deadline) with ⟨_ | _ | _, v⟩ <;> rfl

theorem run_withTimeout_none {duration : Duration} {w : World}
    (hdeadline : w.deadline? duration = none) (h : Handler) :
    (h.withTimeout duration).run w = (.error Deadline.outOfRange, w) := by
  have hnow : (Moment.ofTick w.tick).later? duration = none := Option.map_eq_none_iff.mp hdeadline
  unfold withTimeout
  rw [bind_eq, run_clock_bind, bind_eq, run_context_bind, hnow]
  rfl

theorem run_withDeadline {w : World} {deadline : Deadline}
    (hdeadline : w.context.deadline = some deadline) (h : Handler) :
    h.withDeadline.run w =
      match (withinTick deadline.due.tick h).run w with
      | (.ok (some outcome), v) => (.ok outcome, v)
      | (.ok none, v) =>
          (.ok (.error (.timeout deadline.after)), v.expired v.context.token deadline.after)
      | (.error p, v) => (.error p, v) := by
  unfold withDeadline
  rw [bind_eq, run_context_bind, hdeadline]
  dsimp only
  rw [bind_eq, run_bind]
  rcases (withinTick deadline.due.tick h).run w with ⟨_ | _ | _, v⟩ <;> rfl

theorem run_withDeadline_none {w : World} (hdeadline : w.context.deadline = none) (h : Handler) :
    h.withDeadline.run w = h.run w := by
  unfold withDeadline
  rw [bind_eq, run_context_bind, hdeadline]

theorem tick_run_withTimeout_le {duration : Duration} {w : World} {deadline : Deadline}
    (hdeadline : w.deadline? duration = some deadline) (h : Handler) :
    ((h.withTimeout duration).run w).2.tick ≤ max w.tick deadline.due.tick := by
  have hbound := tick_run_withinTick_le deadline.due.tick h (w.entered deadline)
  rw [run_withTimeout hdeadline]
  rcases hinner : (withinTick deadline.due.tick h).run (w.entered deadline) with ⟨_ | _ | _, v⟩ <;>
    rw [hinner] at hbound <;> exact hbound

theorem tick_run_withDeadline_le {w : World} {deadline : Deadline}
    (hdeadline : w.context.deadline = some deadline) (h : Handler) :
    (h.withDeadline.run w).2.tick ≤ max w.tick deadline.due.tick := by
  have hbound := tick_run_withinTick_le deadline.due.tick h w
  rw [run_withDeadline hdeadline]
  rcases hinner : (withinTick deadline.due.tick h).run w with ⟨_ | _ | _, v⟩ <;>
    rw [hinner] at hbound <;> exact hbound

end Handler

end HttpRouting
