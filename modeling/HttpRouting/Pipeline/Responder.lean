import HttpRouting.Pipeline.Handler

/-!
# Responders

The values that a handler may end with, and the outcome each stands for.  They
nest: an absent value or a failure anywhere on the way in is the outcome, and
the outermost status wins.
-/

namespace HttpRouting

inductive Responder where
  | unit
  | text (s : String)
  | response (r : RawResponse)
  | failure (f : Failure)
  | absent
  | present (inner : Responder)
  | ok (inner : Responder)
  | err (cause : Cause)
  | status (code : Status) (inner : Responder)
  | boxed (inner : Responder)
  deriving DecidableEq, Repr

namespace Responder

def answer : Responder → Outcome
  | .unit => .ok (Response.ofBody Body.empty)
  | .text s => .ok (Response.plainText Status.ok s)
  | .response r => .ok r.response
  | .failure f => .error f
  | .absent => .error .notFound
  | .present inner => inner.answer
  | .ok inner => inner.answer
  | .err cause => .error cause.failure
  | .status code inner => inner.answer.map fun r => { r with status := code }
  | .boxed inner => inner.answer

end Responder

end HttpRouting
