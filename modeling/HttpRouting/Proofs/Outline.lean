import HttpRouting.Proofs.RequestRun

/-!
# The outline of a pipeline

What the library does itself with a request, apart from what it hands the request to: the hooks, the
chains and the error handler of an application.  An outline is a program in which these parts are
called by name.  The outline of an application, with each part put in for its name, is the pipeline
itself; and the calls of a run are the parts that were called, in order, each with the world in
which it was called.
-/

namespace HttpRouting

inductive Part where
  | hook (hook : Hook)
  | chain (chain : Handler)
  | errorHandler (e : ErrorHandler) (c : Context) (f : Failure)

namespace Part

@[reducible] def Answer : Part → Type
  | .hook _ => Except Failure Unit
  | .chain _ => Outcome
  | .errorHandler _ _ _ => Response

def activity : (part : Part) → Activity part.Answer
  | .hook h => h.before
  | .chain h => h
  | .errorHandler e c f => e.run c f

end Part

structure Call where
  part : Part
  entry : World

/-- A program that asks for actions and calls parts. -/
inductive Outline (α : Type) where
  | done (value : α)
  | act (action : Action) (rest : action.Reply → Outline α)
  | call (part : Part) (rest : part.Answer → Outline α)

namespace Outline

variable {α β : Type}

def bind : Outline α → (α → Outline β) → Outline β
  | .done value, next => next value
  | .act action rest, next => .act action fun reply => (rest reply).bind next
  | .call part rest, next => .call part fun answer => (rest answer).bind next

instance : Monad Outline where
  pure := .done
  bind := bind

def perform (action : Action) : Outline action.Reply := .act action .done

def ask (part : Part) : Outline part.Answer := .call part .done

def activity : Outline α → Activity α
  | .done value => .done value
  | .act action rest => .act action fun reply => (rest reply).activity
  | .call part rest => part.activity.bind fun answer => (rest answer).activity

def calls : Outline α → World → List Call
  | .done _, _ => []
  | .act action rest, w => (rest (action.perform w).1).calls (action.perform w).2
  | .call part rest, w =>
      ⟨part, w⟩ ::
        match part.activity.run w with
        | (.ok answer, v) => (rest answer).calls v
        | (.error _, _) => []

theorem bind_eq (o : Outline α) (f : α → Outline β) : o >>= f = o.bind f := rfl

theorem activity_bind (o : Outline α) (f : α → Outline β) :
    (o.bind f).activity = o.activity.bind fun value => (f value).activity := by
  induction o with
  | done value => rfl
  | act action rest ih => simp only [bind, activity, Activity.bind, ih]
  | call part rest ih => simp only [bind, activity, Activity.bind_assoc, ih]

theorem calls_bind (o : Outline α) (f : α → Outline β) (w : World) :
    (o.bind f).calls w =
      o.calls w ++
        match o.activity.run w with
        | (.ok value, v) => (f value).calls v
        | (.error _, _) => [] := by
  induction o generalizing w with
  | done value => rfl
  | act action rest ih => exact ih (action.perform w).1 (action.perform w).2
  | call part rest ih =>
      simp only [bind, calls, activity, Activity.run_bind, List.cons_append]
      rcases part.activity.run w with ⟨p | answer, v⟩
      · rfl
      · simp only [ih answer v]

theorem activity_ask (part : Part) : (ask part).activity = part.activity :=
  Activity.bind_done part.activity

theorem calls_ask (part : Part) (w : World) : (ask part).calls w = [⟨part, w⟩] := by
  unfold ask calls
  rcases part.activity.run w with ⟨_ | _, _⟩ <;> rfl

end Outline

/-! ## The outline of an application -/

def Hook.outlineAll : List Hook → Outline (Except Failure Unit)
  | [] => return .ok ()
  | hook :: rest => do
      match ← Outline.ask (.hook hook) with
      | .ok () => outlineAll rest
      | .error failure => return .error failure

namespace App

def handOver (a : App) (c : Context) : Match → Outline Outcome
  | .matched id params => do
      Outline.perform (.report (matchedEvent id c))
      match a.chains[id.index]? with
      | none => return .error (.internal ("no handler chain for route " ++ id.text))
      | some chain =>
          Outline.perform (.bind id params)
          Outline.ask (.chain chain)
  | .methodMismatch allowed => do
      Outline.perform (.report (mismatchEvent allowed c))
      Outline.perform (.mark (some (.methodNotAllowed allowed)))
      Outline.ask (.chain a.unrouted)
  | .noMatch => do
      Outline.perform (.report (unmatchedEvent c))
      Outline.perform (.mark (some .notFound))
      Outline.ask (.chain a.unrouted)

def routeOutline (a : App) : Outline Outcome := do
  let c ← Outline.perform .context
  a.handOver c (a.table.resolve c.host c.method c.path)

def handleOutline (a : App) : Outline Outcome := do
  match ← Hook.outlineAll a.hooks with
  | .error failure => return .error failure
  | .ok () => a.routeOutline

def answerOutline (a : App) (failure : Failure) : Outline Response := do
  let c ← Outline.perform .context
  let response ← Outline.ask (.errorHandler a.errorHandler c failure)
  return response.withAllow failure

def dispatchOutline (a : App) : Outline Response := do
  match ← a.handleOutline with
  | .ok response => return response
  | .error failure => a.answerOutline failure

end App

theorem Hook.activity_outlineAll (hooks : List Hook) :
    (outlineAll hooks).activity = runAll hooks := by
  induction hooks with
  | nil => rfl
  | cons hook rest ih =>
      unfold outlineAll runAll
      rw [Outline.bind_eq, Activity.bind_eq, Outline.activity_bind, Outline.activity_ask]
      refine congrArg hook.before.bind (funext fun answer => ?_)
      cases answer with
      | ok => exact ih
      | error failure => rfl

namespace App

theorem activity_routeOutline (a : App) : a.routeOutline.activity = a.route := by
  unfold routeOutline route
  refine congrArg (Activity.act .context) (funext fun c => ?_)
  dsimp only [Outline.bind, Activity.bind]
  unfold handOver
  cases a.table.resolve c.host c.method c.path with
  | matched id params =>
      refine congrArg (Activity.act (.report (matchedEvent id c))) (funext fun _ => ?_)
      cases a.chains[id.index]? with
      | none => rfl
      | some chain =>
          exact congrArg (Activity.act (.bind id params))
            (funext fun _ => Outline.activity_ask (.chain chain))
  | methodMismatch allowed =>
      exact congrArg (Activity.act (.report (mismatchEvent allowed c))) (funext fun _ =>
        congrArg (Activity.act (.mark (some (.methodNotAllowed allowed))))
          (funext fun _ => Outline.activity_ask (.chain a.unrouted)))
  | noMatch =>
      exact congrArg (Activity.act (.report (unmatchedEvent c))) (funext fun _ =>
        congrArg (Activity.act (.mark (some .notFound)))
          (funext fun _ => Outline.activity_ask (.chain a.unrouted)))

theorem activity_handleOutline (a : App) : a.handleOutline.activity = a.handle := by
  unfold handleOutline handle
  rw [Outline.bind_eq, Activity.bind_eq, Outline.activity_bind, Hook.activity_outlineAll]
  refine congrArg (Hook.runAll a.hooks).bind (funext fun answer => ?_)
  cases answer with
  | ok => exact a.activity_routeOutline
  | error failure => rfl

theorem activity_answerOutline (a : App) (failure : Failure) :
    (a.answerOutline failure).activity = a.answerFailure failure := by
  unfold answerOutline answerFailure
  refine congrArg (Activity.act .context) (funext fun c => ?_)
  refine congrArg (Activity.bind (a.errorHandler.run c failure)) (funext fun response => ?_)
  unfold Response.withAllow
  cases failure.allowValue? <;> rfl

/-- The pipeline does what its outline says, and nothing else. -/
theorem activity_dispatchOutline (a : App) : a.dispatchOutline.activity = a.dispatch := by
  unfold dispatchOutline dispatch
  rw [Outline.bind_eq, Activity.bind_eq, Outline.activity_bind, activity_handleOutline]
  refine congrArg a.handle.bind (funext fun outcome => ?_)
  cases outcome with
  | ok response => rfl
  | error failure => exact a.activity_answerOutline failure

end App

end HttpRouting
