import HttpRouting.Text.Split

/-!
# Host names

The host that a request names, without its port and in lower case.
-/

namespace HttpRouting.HostName

def bracketed : List Char → List Char
  | [] => []
  | ']' :: _ => [']']
  | c :: rest => c :: bracketed rest

/-- A bracketed address ends at its bracket, any other name at its last colon. -/
def withoutPort (host : String) : String :=
  match host.toList with
  | '[' :: rest => String.ofList ('[' :: bracketed rest)
  | _ => (Text.beforeLast? ':' host).getD host

def withoutRoot (host : String) : String :=
  match host.toList.reverse with
  | '.' :: rest => String.ofList rest.reverse
  | _ => host

def normalized (host : String) : String :=
  (withoutRoot (withoutPort host)).toLower

end HttpRouting.HostName
