import HttpRouting.Message.HostName
import HttpRouting.Pattern.Host
import HttpRouting.Table.Trie
import HttpRouting.Text.Percent

/-!
# Host tiers

Routes are kept in one trie per host pattern.  A request is looked up in the
trie of its exact host, then in those of the domains above it, the most specific
first, and last in the trie of the routes for any host.
-/

namespace HttpRouting

structure Tiers where
  exact : List (String × Node)
  /-- The most specific domain comes first. -/
  suffixes : List (String × Node)
  any : Node

namespace Tiers

def empty : Tiers := ⟨[], [], Node.empty⟩

instance : Inhabited Tiers := ⟨empty⟩

def trie (t : Tiers) : HostPattern → Node
  | .any => t.any
  | .exact host => (t.exact.lookup host).getD Node.empty
  | .suffix domain => (t.suffixes.lookup domain).getD Node.empty

def setExact (host : String) (n : Node) : List (String × Node) → List (String × Node)
  | [] => [(host, n)]
  | (other, old) :: rest =>
      if other = host then (other, n) :: rest else (other, old) :: setExact host n rest

/-- Places a new domain before the first one that is less specific. -/
def placeSuffix (domain : String) (n : Node) : List (String × Node) → List (String × Node)
  | [] => [(domain, n)]
  | (other, old) :: rest =>
      if HostPattern.lessSpecific other domain then (domain, n) :: (other, old) :: rest
      else (other, old) :: placeSuffix domain n rest

def setSuffix (domain : String) (n : Node) (suffixes : List (String × Node)) :
    List (String × Node) :=
  if suffixes.any (·.1 = domain) then
    suffixes.map fun entry => if entry.1 = domain then (entry.1, n) else entry
  else placeSuffix domain n suffixes

def setTrie (t : Tiers) (host : HostPattern) (n : Node) : Tiers :=
  match host with
  | .any => { t with any := n }
  | .exact host => { t with exact := setExact host n t.exact }
  | .suffix domain => { t with suffixes := setSuffix domain n t.suffixes }

def place (t : Tiers) (host : HostPattern) (segments : List Segment) (endpoint : Endpoint) :
    Bool × Tiers :=
  let (accepted, n) := (t.trie host).place endpoint segments
  (accepted, t.setTrie host n)

/-- The tries that serve a host, in the order in which they are asked. -/
def consulted (t : Tiers) (host : String) : List Node :=
  (t.exact.lookup host).toList ++
    (t.suffixes.filter (fun entry => HostPattern.isBelow entry.1 host)).map (·.2) ++ [t.any]

/-- The first trie that serves the request answers; if none does, the first
that knows the path tells the methods. -/
def firstAnswer (method : Method) (pieces : List String) : List Node → Lookup
  | [] => .notFound
  | n :: rest =>
      match n.lookup method pieces with
      | .found endpoint captures => .found endpoint captures
      | .notFound => firstAnswer method pieces rest
      | .methodMismatch allowed =>
          match firstAnswer method pieces rest with
          | .found endpoint captures => .found endpoint captures
          | _ => .methodMismatch allowed

def resolve (t : Tiers) (host : String) (method : Method) (path : String) : Match :=
  match firstAnswer method (Text.pieces path) (t.consulted (HostName.normalized host)) with
  | .found endpoint captures =>
      .matched endpoint.route ⟨endpoint.binders.zip (captures.map Text.Percent.decode)⟩
  | .methodMismatch allowed => .methodMismatch allowed
  | .notFound => .noMatch

end Tiers

end HttpRouting
