import HttpRouting.Pipeline.Layer

/-!
# Deadlines

`timeout` bounds the handler inside it and gives it a scope of its own, with a
token and a deadline: its own, unless the scope around it ends no later.
`enforced` applies the deadline of the present scope once more further in, so
that layers between the two see the failure instead of being dropped with it.
-/

namespace HttpRouting

namespace Deadline

/-- The earlier of two deadlines; of two at the same moment the outer one. -/
def tighter (outer : Option Deadline) (own : Deadline) : Deadline :=
  match outer with
  | some outer => if outer.due.nanos ≤ own.due.nanos then outer else own
  | none => own

def expired (path : String) (after : Duration) : Event :=
  ⟨.warn, "request timed out", [("path", path), ("timeout", after.text)]⟩

def outOfRange : Panic := ⟨some "overflow when adding duration to instant"⟩

end Deadline

namespace Handler

def expire (token : Token) (after : Duration) : Handler := do
  Activity.perform (.cancel token)
  let c ← Activity.context
  Activity.report (Deadline.expired c.path after)
  return .error (.timeout after)

def withTimeout (duration : Duration) (h : Handler) : Handler := do
  let tick ← Activity.clock
  let outer ← Activity.context
  match (Moment.ofTick tick).later? duration with
  | none => .panic Deadline.outOfRange
  | some due =>
      let deadline := Deadline.tighter outer.deadline ⟨due, duration⟩
      let token ← Activity.perform .fork
      Activity.perform (.scope token (some deadline))
      let result ← Activity.withinTick deadline.due.tick h
      Activity.perform (.scope outer.token outer.deadline)
      match result with
      | some outcome => return outcome
      | none => expire token deadline.after

def withDeadline (h : Handler) : Handler := do
  let c ← Activity.context
  match c.deadline with
  | none => h
  | some deadline =>
      let result ← Activity.withinTick deadline.due.tick h
      match result with
      | some outcome => return outcome
      | none =>
          let c ← Activity.context
          expire c.token deadline.after

end Handler

namespace Layer

def timeout (duration : Duration) : Layer := ⟨Handler.withTimeout duration⟩

def enforced : Layer := ⟨Handler.withDeadline⟩

theorem decorate_timeout (duration : Duration) (h : Handler) :
    (timeout duration).decorate h = h.withTimeout duration := rfl

theorem decorate_enforced (h : Handler) : enforced.decorate h = h.withDeadline := rfl

end Layer

end HttpRouting
