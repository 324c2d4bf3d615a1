import HttpRouting.Message.Response
import HttpRouting.Pipeline.Failure
import HttpRouting.Pipeline.Activity

/-!
# Handlers

A handler is an activity that ends with a response or a failure.
-/

namespace HttpRouting

abbrev Outcome := Except Failure Response

abbrev Handler := Activity Outcome

namespace Outcome

def summary : Outcome → String
  | .ok response => "ok:" ++ toString response.status.code
  | .error failure => "err:" ++ toString failure.statusOf.code ++ ":" ++ failure.message

end Outcome

end HttpRouting
