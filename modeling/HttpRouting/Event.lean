/-!
# Diagnostic events

What the library reports about its work: a level, a fixed message and named
fields in the order in which they are given.
-/

namespace HttpRouting

inductive Level where
  | debug
  | info
  | warn
  | error
  deriving DecidableEq, Repr

def Level.text : Level → String
  | .debug => "DEBUG"
  | .info => "INFO"
  | .warn => "WARN"
  | .error => "ERROR"

structure Event where
  level : Level
  message : String
  fields : List (String × String)
  deriving DecidableEq, Repr

end HttpRouting
