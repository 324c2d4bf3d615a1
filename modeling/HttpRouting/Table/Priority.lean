import HttpRouting.Table.RouteTable

/-!
# Priority among routes

Of the routes that accept one request, the one with the more specific host
goes first, then the one with the more specific path, compared segment by
segment, then the one that names its method.  Lookup in the tries does not use
this order; it is what the lookup amounts to.
-/

namespace HttpRouting

/-- One host goes before a domain, a longer domain before a shorter one, and any
of them before any host. -/
def HostPattern.precedes : HostPattern → HostPattern → Bool
  | .exact _, .suffix _ | .exact _, .any | .suffix _, .any => true
  | .suffix a, .suffix b => b.length < a.length
  | _, _ => false

/-- A literal goes before a parameter, and a parameter before a wildcard. -/
def Segment.rank : Segment → Nat
  | .literal _ => 0
  | .param _ => 1
  | .wildcard _ => 2

namespace PathPattern

def sameShape : List Segment → List Segment → Bool
  | [], [] => true
  | .literal a :: as, .literal b :: bs => a = b && sameShape as bs
  | .param _ :: as, .param _ :: bs => sameShape as bs
  | .wildcard _ :: as, .wildcard _ :: bs => sameShape as bs
  | _, _ => false

def precedes : List Segment → List Segment → Bool
  | a :: as, b :: bs => a.rank < b.rank || (a.rank == b.rank && precedes as bs)
  | _, _ => false

end PathPattern

def RouteMethod.precedes : RouteMethod → RouteMethod → Bool
  | .exact _, .any => true
  | _, _ => false

namespace Route

def outranks (a b : Route) : Bool :=
  a.host.precedes b.host ||
    (!b.host.precedes a.host &&
      (PathPattern.precedes a.segments b.segments ||
        (!PathPattern.precedes b.segments a.segments && a.method.precedes b.method)))

def clashes (a b : Route) : Bool :=
  a.method = b.method && a.host = b.host && PathPattern.sameShape a.segments b.segments

end Route

namespace RouteTable

/-- The tables that registrations lead to. -/
inductive Reached : RouteTable → Prop where
  | empty : Reached RouteTable.empty
  | add {t after : RouteTable} {r : Registration} {id : RouteId} :
      Reached t → t.add r = .ok (id, after) → Reached after

end RouteTable

theorem PathPattern.sameShape_refl (segments : List Segment) : sameShape segments segments := by
  induction segments with
  | nil => rfl
  | cons segment rest ih => cases segment <;> simp [sameShape, ih]

theorem PathPattern.precedes_irrefl (segments : List Segment) : ¬ precedes segments segments := by
  induction segments with
  | nil => simp [precedes]
  | cons segment rest ih => simpa [precedes] using ih

end HttpRouting
