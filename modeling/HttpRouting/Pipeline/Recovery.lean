import HttpRouting.Pipeline.Layer

/-!
# Recovery from panics

A panic of the handler inside becomes a failure.  The context stays as the panic
left it.
-/

namespace HttpRouting

namespace Panic

def reason (p : Panic) : String := p.message.getD "handler panicked"

def caught (path : String) (p : Panic) : Event :=
  ⟨.error, "handler panicked", [("path", path), ("reason", p.reason)]⟩

end Panic

def Handler.recovering (h : Handler) : Handler := do
  let result ← Activity.contained h
  match result with
  | .ok outcome => return outcome
  | .error p =>
      let c ← Activity.context
      Activity.report (p.caught c.path)
      return .error (.internal p.reason)

def Layer.recover : Layer := ⟨Handler.recovering⟩

end HttpRouting
