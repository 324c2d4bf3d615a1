import HttpRouting.Event
import HttpRouting.Pipeline.Context

/-!
# Activities

An activity is what a handler, a layer or a hook does with a request.  It asks for
one action after another and goes on with the reply, waits for ticks of the
clock, and ends with a value or a panic.  An activity that is dropped while it
waits is simply not continued, so a deadline (`withinTick`) and the containment
of panics (`contained`) are functions on activities.

`run` plays an activity alone: nothing takes time but waiting.
-/

namespace HttpRouting

structure Panic where
  message : Option String
  deriving DecidableEq, Repr

structure Snapshot where
  context : Context
  cancelled : Bool
  tick : Nat
  deriving DecidableEq, Repr

/-- A line of the journal of a run: when it was written, its text and, on
demand, the context at that time. -/
structure Note where
  tick : Nat
  text : String
  snapshot : Option Snapshot
  deriving DecidableEq, Repr

structure World where
  tick : Nat
  context : Context
  tokens : TokenLedger
  events : List (Nat × Event)
  journal : List Note
  watched : List Token
  deriving DecidableEq, Repr

namespace World

def start (r : Request) : World := ⟨0, Context.ofRequest r, TokenLedger.start, [], [], []⟩

def now (w : World) : Moment := Moment.ofTick w.tick

def snapshot (w : World) : Snapshot :=
  ⟨w.context, w.tokens.isCancelled w.context.token, w.tick⟩

def watchedCancelled (w : World) : List Bool := w.watched.map w.tokens.isCancelled

end World

inductive Action where
  | clock
  | context
  | edit (change : Request → Request)
  /-- Records or clears the failure of routing. -/
  | mark (failure : Option RoutingFailure)
  | bind (route : RouteId) (params : PathParams)
  /-- Enters or leaves a scope with its token and deadline. -/
  | scope (token : Token) (deadline : Option Deadline)
  /-- Gives out a token inside that of the present scope. -/
  | fork
  | cancel (token : Token)
  | report (event : Event)
  /-- Writes a line of the journal, with or without the context. -/
  | note (text : String) (detailed : Bool)
  | watch

namespace Action

@[reducible] def Reply : Action → Type
  | .clock => Nat
  | .context => Context
  | .fork => Token
  | _ => Unit

def perform : (a : Action) → World → a.Reply × World
  | .clock, w => (w.tick, w)
  | .context, w => (w.context, w)
  | .edit change, w =>
      ((), { w with context := { w.context with request := change w.context.request } })
  | .mark failure, w => ((), { w with context := { w.context with unserved := failure } })
  | .bind route params, w =>
      ((), { w with context := { w.context with route := some route, params := params } })
  | .scope token deadline, w =>
      ((), { w with context := { w.context with token := token, deadline := deadline } })
  | .fork, w =>
      let (token, tokens) := w.tokens.child w.context.token
      (token, { w with tokens := tokens })
  | .cancel token, w => ((), { w with tokens := w.tokens.cancel token })
  | .report event, w => ((), { w with events := w.events ++ [(w.tick, event)] })
  | .note text detailed, w =>
      let snapshot := if detailed then some w.snapshot else none
      ((), { w with journal := w.journal ++ [⟨w.tick, text, snapshot⟩] })
  | .watch, w => ((), { w with watched := w.watched ++ [w.context.token] })

end Action

inductive Activity (α : Type) where
  | done (value : α)
  | panic (p : Panic)
  | sleep (tick : Nat) (rest : Activity α)
  | act (action : Action) (rest : action.Reply → Activity α)

namespace Activity

variable {α β : Type}

def bind : Activity α → (α → Activity β) → Activity β
  | .done value, next => next value
  | .panic p, _ => .panic p
  | .sleep tick rest, next => .sleep tick (rest.bind next)
  | .act action rest, next => .act action fun reply => (rest reply).bind next

instance : Monad Activity where
  pure := .done
  bind := bind

def perform (action : Action) : Activity action.Reply := .act action .done

def clock : Activity Nat := perform .clock

def context : Activity Context := perform .context

def edit (change : Request → Request) : Activity Unit := perform (.edit change)

def report (event : Event) : Activity Unit := perform (.report event)

def note (text : String) : Activity Unit := perform (.note text false)

def noteContext (text : String) : Activity Unit := perform (.note text true)

def sleepUntil (tick : Nat) : Activity Unit := .sleep tick (.done ())

def sleepFor (ticks : Nat) : Activity Unit := do
  let now ← clock
  sleepUntil (now + ticks)

/-- Bounds an activity by a tick.  The activity goes first: if it ends, or goes on
without waiting, at that very tick, it is not stopped.  If it has to wait for a
later tick it is dropped at the bound, or at once where the bound has passed. -/
def withinTick (bound : Nat) : Activity α → Activity (Option α)
  | .done value => .done (some value)
  | .panic p => .panic p
  | .act action rest => .act action fun reply => withinTick bound (rest reply)
  | .sleep tick rest =>
      if tick ≤ bound then .sleep tick (withinTick bound rest)
      else
        .act .clock fun now =>
          if tick ≤ now then withinTick bound rest else .sleep bound (.done none)

def contained : Activity α → Activity (Except Panic α)
  | .done value => .done (.ok value)
  | .panic p => .done (.error p)
  | .sleep tick rest => .sleep tick (contained rest)
  | .act action rest => .act action fun reply => contained (rest reply)

def run : Activity α → World → Except Panic α × World
  | .done value, w => (.ok value, w)
  | .panic p, w => (.error p, w)
  | .sleep tick rest, w => run rest { w with tick := max w.tick tick }
  | .act action rest, w =>
      let (reply, w) := action.perform w
      run (rest reply) w

/-- Whether every action of an activity is allowed, whatever the replies. -/
def Uses (allowed : Action → Prop) : Activity α → Prop
  | .done _ | .panic _ => True
  | .sleep _ rest => rest.Uses allowed
  | .act action rest => allowed action ∧ ∀ reply, (rest reply).Uses allowed

theorem bind_done (p : Activity α) : p.bind .done = p := by
  induction p with
  | done | panic => rfl
  | sleep tick rest ih => simp [bind, ih]
  | act action rest ih => simp [bind, ih]

theorem bind_assoc {γ : Type} (p : Activity α) (f : α → Activity β) (g : β → Activity γ) :
    (p.bind f).bind g = p.bind fun value => (f value).bind g := by
  induction p with
  | done | panic => rfl
  | sleep tick rest ih => simp [bind, ih]
  | act action rest ih => simp [bind, ih]

theorem run_bind (p : Activity α) (f : α → Activity β) (w : World) :
    (p.bind f).run w =
      match p.run w with
      | (.ok value, w) => (f value).run w
      | (.error p, w) => (.error p, w) := by
  induction p generalizing w with
  | done | panic => rfl
  | sleep tick rest ih => simp only [bind, run, ih]
  | act action rest ih => simp only [bind, run, ih]

theorem bind_eq (p : Activity α) (f : α → Activity β) : p >>= f = p.bind f := rfl

theorem run_clock_bind (f : Nat → Activity α) (w : World) :
    (clock.bind f).run w = (f w.tick).run w := rfl

theorem run_context_bind (f : Context → Activity α) (w : World) :
    (context.bind f).run w = (f w.context).run w := rfl

theorem run_contained (p : Activity α) (w : World) :
    p.contained.run w = (.ok (p.run w).1, (p.run w).2) := by
  induction p generalizing w with
  | done | panic => rfl
  | sleep tick rest ih => simp only [contained, run, ih]
  | act action rest ih => simp only [contained, run, ih]

theorem tick_perform (action : Action) (w : World) : (action.perform w).2.tick = w.tick := by
  cases action <;> rfl

theorem tick_le_run (p : Activity α) (w : World) : w.tick ≤ (p.run w).2.tick := by
  induction p generalizing w with
  | done | panic => exact Nat.le_refl _
  | sleep tick rest ih =>
      exact Nat.le_trans (Nat.le_max_left w.tick tick) (ih { w with tick := max w.tick tick })
  | act action rest ih =>
      have later := ih (action.perform w).1 (action.perform w).2
      rw [tick_perform] at later
      exact later

end Activity

end HttpRouting
