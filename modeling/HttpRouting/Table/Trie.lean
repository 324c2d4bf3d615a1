import HttpRouting.Pattern.Path
import HttpRouting.Table.Key
import HttpRouting.Table.MethodSet

/-!
# The trie of one host tier

A node is reached by the segments of a pattern, parameter names left out.  A
lookup tries the literal child, then the parameter child, then the wildcard
child, and takes back what it captured when a branch cannot serve the request.
-/

namespace HttpRouting

structure Endpoint where
  method : RouteMethod
  route : RouteId
  binders : List String
  deriving DecidableEq, Repr

structure Node where
  literals : List (String × Node)
  param : Option Node
  wildcard : Option Node
  endpoints : List Endpoint

namespace Node

def empty : Node := ⟨[], none, none, []⟩

instance : Inhabited Node := ⟨empty⟩

def literal? (n : Node) (text : String) : Option Node := n.literals.lookup text

def child? (n : Node) : Segment → Option Node
  | .literal text => n.literal? text
  | .param _ => n.param
  | .wildcard _ => n.wildcard

def setLiteral (text : String) (child : Node) : List (String × Node) → List (String × Node)
  | [] => [(text, child)]
  | (other, old) :: rest =>
      if other = text then (other, child) :: rest
      else (other, old) :: setLiteral text child rest

def setChild (n : Node) (segment : Segment) (child : Node) : Node :=
  match segment with
  | .literal text => { n with literals := setLiteral text child n.literals }
  | .param _ => { n with param := some child }
  | .wildcard _ => { n with wildcard := some child }

/-- Adds an endpoint at the node that the segments lead to, making the nodes on
the way that are missing; it is refused where the node has one for the same
method.  Tells whether it was accepted. -/
def place (endpoint : Endpoint) : List Segment → Node → Bool × Node
  | [], n =>
      if n.endpoints.any (·.method = endpoint.method) then (false, n)
      else (true, { n with endpoints := n.endpoints ++ [endpoint] })
  | segment :: rest, n =>
      let (accepted, child) := place endpoint rest ((n.child? segment).getD empty)
      (accepted, n.setChild segment child)

def find? : List Segment → Node → Option Node
  | [], n => some n
  | segment :: rest, n => (n.child? segment).bind (find? rest)

end Node

/-- What a lookup has gathered: the pieces taken by parameters on the present
branch, whether any endpoint was reached, and the explicit methods of all
endpoints reached. -/
structure Search where
  captures : List String
  reached : Bool
  allowed : List String
  deriving DecidableEq, Repr

namespace Search

def start : Search := ⟨[], false, []⟩

def push (s : Search) (piece : String) : Search := { s with captures := s.captures ++ [piece] }

def pop (s : Search) : Search := { s with captures := s.captures.dropLast }

end Search

namespace Node

def serves (method : Method) (endpoints : List Endpoint) : Option Endpoint :=
  (endpoints.find? (·.method = .exact method)).or (endpoints.find? (·.method = .any))

def settle (method : Method) (n : Node) (s : Search) : Option Endpoint × Search :=
  if n.endpoints.isEmpty then (none, s)
  else
    (serves method n.endpoints,
      { s with
        reached := true
        allowed := MethodSet.insertAll (n.endpoints.filterMap (·.method.explicitText?)) s.allowed })

/-- Tries a branch that captures a piece, and takes the piece back if the
branch fails. -/
def capturing (piece : String) (branch : Search → Option Endpoint × Search) (s : Search) :
    Option Endpoint × Search :=
  match branch (s.push piece) with
  | (some endpoint, s) => (some endpoint, s)
  | (none, s) => (none, s.pop)

def orElse (first second : Search → Option Endpoint × Search) (s : Search) :
    Option Endpoint × Search :=
  match first s with
  | (some endpoint, s) => (some endpoint, s)
  | (none, s) => second s

def fail (s : Search) : Option Endpoint × Search := (none, s)

def walk (method : Method) : List String → Node → Search → Option Endpoint × Search
  | [], n => settle method n
  | piece :: rest, n =>
      let literal := match n.literal? piece with
        | some child => walk method rest child
        | none => fail
      let param := match n.param with
        | some child => capturing piece (walk method rest child)
        | none => fail
      let wildcard := match n.wildcard with
        | some child => capturing (Text.joined "/" (piece :: rest)) (settle method child)
        | none => fail
      orElse literal (orElse param wildcard)

end Node

inductive Lookup where
  | found (endpoint : Endpoint) (captures : List String)
  | methodMismatch (allowed : List String)
  | notFound
  deriving DecidableEq, Repr

def Node.lookup (n : Node) (method : Method) (pieces : List String) : Lookup :=
  match n.walk method pieces Search.start with
  | (some endpoint, s) => .found endpoint s.captures
  | (none, s) => if s.reached then .methodMismatch s.allowed else .notFound

end HttpRouting
