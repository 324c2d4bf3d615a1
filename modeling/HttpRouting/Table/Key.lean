import HttpRouting.Message.Method

/-!
# What identifies a route

A route has a number, given in order of registration, and the method it is
registered for: one method, or any.
-/

namespace HttpRouting

structure RouteId where
  index : Nat
  deriving DecidableEq, Repr

def RouteId.text (id : RouteId) : String := "#" ++ toString id.index

inductive RouteMethod where
  | any
  | exact (method : Method)
  deriving DecidableEq, Repr

namespace RouteMethod

def accepts : RouteMethod → Method → Bool
  | .any, _ => true
  | .exact own, method => own = method

def text : RouteMethod → String
  | .any => "*"
  | .exact method => method.text

def explicitText? : RouteMethod → Option String
  | .any => none
  | .exact method => some method.text

/-- A star is any method; any other text is read in upper case. -/
def parse? (s : String) : Option RouteMethod :=
  if s = "*" then some .any else (Method.parse? s.toUpper).map .exact

end RouteMethod

/-- The values that a request gives to the parameters of its route, in order. -/
structure PathParams where
  pairs : List (String × String)
  deriving DecidableEq, Repr

namespace PathParams

def empty : PathParams := ⟨[]⟩

instance : Inhabited PathParams := ⟨empty⟩

def get? (p : PathParams) (name : String) : Option String := p.pairs.lookup name

end PathParams

inductive Match where
  | matched (route : RouteId) (params : PathParams)
  | methodMismatch (allowed : List String)
  | noMatch
  deriving DecidableEq, Repr

end HttpRouting
