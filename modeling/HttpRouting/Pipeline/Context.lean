import HttpRouting.Message.Request
import HttpRouting.Pipeline.Token
import HttpRouting.Table.Key
import HttpRouting.Time.Clock

/-!
# The context of a request

What travels with a request through its hooks, layers and handler: the request
itself, which they may change; the failure that routing found, if no route was
found; and the route with its parameters, the deadline and the token of the
innermost scope.
-/

namespace HttpRouting

inductive RoutingFailure where
  | notFound
  | methodNotAllowed (allowed : List String)
  deriving DecidableEq, Repr

structure Context where
  request : Request
  unserved : Option RoutingFailure
  route : Option RouteId
  params : PathParams
  token : Token
  deadline : Option Deadline
  deriving DecidableEq, Repr

namespace Context

def ofRequest (r : Request) : Context := ⟨r, none, none, PathParams.empty, Token.root, none⟩

def host (c : Context) : String := c.request.host

def path (c : Context) : String := c.request.path

def method (c : Context) : Method := c.request.method

def routeText (c : Context) : String := (c.route.map RouteId.text).getD "-"

end Context

end HttpRouting
