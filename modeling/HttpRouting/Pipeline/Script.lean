import HttpRouting.Pipeline.Layer

/-!
# Layers written as scripts

A script is an activity that may also call the handler inside it, any number of
times, each time going on with the outcome.  It knows nothing else about that
handler.
-/

namespace HttpRouting

inductive Script (α : Type) where
  | done (value : α)
  | panic (p : Panic)
  | sleep (tick : Nat) (rest : Script α)
  | act (action : Action) (rest : action.Reply → Script α)
  | call (rest : Outcome → Script α)

namespace Script

variable {α β : Type}

def bind : Script α → (α → Script β) → Script β
  | .done value, next => next value
  | .panic p, _ => .panic p
  | .sleep tick rest, next => .sleep tick (rest.bind next)
  | .act action rest, next => .act action fun reply => (rest reply).bind next
  | .call rest, next => .call fun outcome => (rest outcome).bind next

instance : Monad Script where
  pure := .done
  bind := bind

def inner : Script Outcome := .call .done

def ofActivity : Activity α → Script α
  | .done value => .done value
  | .panic p => .panic p
  | .sleep tick rest => .sleep tick (ofActivity rest)
  | .act action rest => .act action fun reply => ofActivity (rest reply)

instance : MonadLift Activity Script := ⟨ofActivity⟩

def around (h : Handler) : Script α → Activity α
  | .done value => .done value
  | .panic p => .panic p
  | .sleep tick rest => .sleep tick (around h rest)
  | .act action rest => .act action fun reply => around h (rest reply)
  | .call rest => h.bind fun outcome => around h (rest outcome)

def Uses (allowed : Action → Prop) : Script α → Prop
  | .done _ | .panic _ => True
  | .sleep _ rest => rest.Uses allowed
  | .act action rest => allowed action ∧ ∀ reply, (rest reply).Uses allowed
  | .call rest => ∀ outcome, (rest outcome).Uses allowed

theorem around_bind (h : Handler) (s : Script α) (f : α → Script β) :
    (s.bind f).around h = (s.around h).bind fun value => (f value).around h := by
  induction s with
  | done | panic => rfl
  | sleep tick rest ih => simp [bind, around, Activity.bind, ih]
  | act action rest ih => simp [bind, around, Activity.bind, ih]
  | call rest ih => simp [bind, around, Activity.bind_assoc, ih]

theorem around_ofActivity (h : Handler) (p : Activity α) : (ofActivity p).around h = p := by
  induction p with
  | done | panic => rfl
  | sleep tick rest ih => simp [ofActivity, around, ih]
  | act action rest ih => simp [ofActivity, around, ih]

end Script

def Layer.ofScript (s : Script Outcome) : Layer := ⟨fun h => s.around h⟩

end HttpRouting
