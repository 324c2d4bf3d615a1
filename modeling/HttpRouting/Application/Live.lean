import HttpRouting.Application.App

/-!
# An application that is replaced while it serves

Requests are answered by the application that was stored last before their
first step.  A dispatch may be held up any number of times; `Traffic` is the
state of an application with all its dispatches under way, and `Move` what may
happen next.
-/

namespace HttpRouting

namespace Activity

/-- One step of an activity: an action, or a wait as a whole.  An activity that has
ended stays as it is. -/
def step {α : Type} : Activity α → World → Activity α × World
  | .done value, w => (.done value, w)
  | .panic p, w => (.panic p, w)
  | .sleep tick rest, w => (rest, { w with tick := max w.tick tick })
  | .act action rest, w =>
      let (reply, w) := action.perform w
      (rest reply, w)

def ended? {α : Type} : Activity α → Option (Except Panic α)
  | .done value => some (.ok value)
  | .panic p => some (.error p)
  | _ => none

theorem run_step {α : Type} (p : Activity α) (w : World) :
    (p.step w).1.run (p.step w).2 = p.run w := by
  cases p <;> rfl

end Activity

def App.storedEvent (a : App) : Event :=
  ⟨.info, "routes replaced", [("routes", toString a.table.size)]⟩

inductive Flight where
  | waiting (request : Request)
  | running (rest : Activity Response) (w : World)

namespace Flight

def resume (current : App) : Flight → Flight
  | .waiting request =>
      let (rest, w) := current.dispatch.step (World.start request)
      .running rest w
  | .running rest w =>
      let (rest, w) := rest.step w
      .running rest w

def answer? : Flight → Option (Except Panic Response)
  | .waiting _ => none
  | .running rest _ => rest.ended?

end Flight

structure Traffic where
  current : App
  flights : List Flight

inductive Move where
  | store (a : App)
  | arrive (request : Request)
  | resume (flight : Nat)

namespace Traffic

def start (a : App) : Traffic := ⟨a, []⟩

def move (t : Traffic) : Move → Traffic
  | .store a => { t with current := a }
  | .arrive request => { t with flights := t.flights ++ [.waiting request] }
  | .resume i => { t with flights := t.flights.modify i (Flight.resume t.current) }

def moves (t : Traffic) (ms : List Move) : Traffic := ms.foldl move t

end Traffic

/-- The positions of some jobs with their starting ticks, in the order in which
they start; of two that start together the first one listed goes first. -/
def startOrder (starts : List Nat) : List (Nat × Nat) :=
  starts.zipIdx.mergeSort fun a b => a.1 ≤ b.1

/-- The events of several jobs in one order of time.  Each job brings the tick
at which it started and its events by the ticks since then. -/
def mergedEvents (jobs : List (Nat × List (Nat × Event))) : List (Nat × Event) :=
  (jobs.flatMap fun (start, events) => events.map fun (tick, event) => (start + tick, event)).mergeSort
    fun a b => a.1 ≤ b.1

end HttpRouting
