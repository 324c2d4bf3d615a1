/-!
# Faults of route patterns
-/

namespace HttpRouting

inductive HostFault where
  | emptyLabel
  | bareWildcard
  deriving DecidableEq, Repr

def HostFault.text : HostFault → String
  | .emptyLabel => "empty label"
  | .bareWildcard => "wildcard without a domain"

inductive PatternError where
  | misplacedWildcard (pattern : String)
  | repeatedParam (pattern name : String)
  | unnamedParam (pattern : String)
  | invalidHost (pattern : String) (fault : HostFault)
  deriving DecidableEq, Repr

def PatternError.message : PatternError → String
  | .misplacedWildcard pattern =>
      "wildcard must be the last segment in pattern '" ++ pattern ++ "'"
  | .repeatedParam pattern name =>
      "parameter '" ++ name ++ "' is bound more than once in pattern '" ++ pattern ++ "'"
  | .unnamedParam pattern => "parameter without a name in pattern '" ++ pattern ++ "'"
  | .invalidHost pattern fault => "invalid host pattern '" ++ pattern ++ "': " ++ fault.text

end HttpRouting
