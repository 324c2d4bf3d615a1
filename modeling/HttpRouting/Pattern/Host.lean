import HttpRouting.Pattern.Fault
import HttpRouting.Text.Split

/-!
# Host patterns

A host pattern is any host, one host, or every host below a domain.  Hosts are
compared without regard to ASCII case.
-/

namespace HttpRouting

inductive HostPattern where
  | any
  | exact (host : String)
  | suffix (domain : String)
  deriving DecidableEq, Repr

namespace HostPattern

def sameHost (a b : String) : Bool := a.toLower = b.toLower

def isBelow (domain host : String) : Bool :=
  let labels := host.toList
  let before := labels.length - (domain.toList.length + 1)
  0 < before &&
    match labels.drop before with
    | '.' :: tail => sameHost (String.ofList tail) domain
    | _ => false

def accepts : HostPattern → String → Bool
  | .any, _ => true
  | .exact host, other => sameHost host other
  | .suffix domain, other => isBelow domain other

def text : HostPattern → String
  | .any => "*"
  | .exact host => host
  | .suffix domain => "*." ++ domain

def mention : HostPattern → String
  | .any => ""
  | pattern => pattern.text

def hasStar (label : String) : Bool := label.toList.contains '*'

def compile (pattern : String) : Except PatternError HostPattern :=
  if pattern = "" then .ok .any
  else
    match Text.fields '.' pattern with
    | [] => .ok .any
    | head :: rest =>
        if (head :: rest).contains "" then .error (.invalidHost pattern .emptyLabel)
        else if rest.any hasStar || (hasStar head && head ≠ "*") then
          .error (.misplacedWildcard pattern)
        else if head = "*" then
          if rest.isEmpty then .error (.invalidHost pattern .bareWildcard)
          else .ok (.suffix (Text.joined "." rest).toLower)
        else .ok (.exact pattern.toLower)

/-- How specific a domain is: by its labels, then by its length in bytes. -/
def specificity (domain : String) : Nat × Nat :=
  ((Text.fields '.' domain).length, domain.utf8ByteSize)

def lessSpecific (a b : String) : Bool :=
  let (labelsA, bytesA) := specificity a
  let (labelsB, bytesB) := specificity b
  labelsA < labelsB || (labelsA == labelsB && bytesA < bytesB)

end HostPattern

end HttpRouting
