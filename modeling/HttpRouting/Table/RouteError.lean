import HttpRouting.Pattern.Fault

/-!
# Refused registrations
-/

namespace HttpRouting

inductive RouteError where
  | pattern (error : PatternError)
  | invalidMethod (method : String)
  | duplicateName (name : String)
  | duplicateRoute (method host path : String)
  deriving DecidableEq, Repr

def RouteError.message : RouteError → String
  | .pattern error => "invalid route pattern: " ++ error.message
  | .invalidMethod method => "invalid http method '" ++ method ++ "'"
  | .duplicateName name => "route name '" ++ name ++ "' is already registered"
  | .duplicateRoute method host path =>
      "route '" ++ method ++ " " ++ host ++ path ++ "' is already registered"

end HttpRouting
