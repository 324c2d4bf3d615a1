import HttpRouting.Message.Headers
import HttpRouting.Message.HostName
import HttpRouting.Message.Method
import HttpRouting.Message.Target

/-!
# Requests
-/

namespace HttpRouting

open Text.Utf8 (Bytes)

inductive Version where
  | http09
  | http10
  | http11
  | http2
  | http3
  deriving DecidableEq, Repr

def Version.text : Version → String
  | .http09 => "HTTP/0.9"
  | .http10 => "HTTP/1.0"
  | .http11 => "HTTP/1.1"
  | .http2 => "HTTP/2.0"
  | .http3 => "HTTP/3.0"

structure Request where
  method : Method
  target : Target
  version : Version
  headers : Headers
  body : Bytes
  deriving DecidableEq, Repr

namespace Request

def path (r : Request) : String := r.target.path

/-- The host that the request names: a readable `Host` field, else the host of
the target, else nothing. -/
def rawHost (r : Request) : String :=
  (((r.headers.get? "host").bind Headers.visibleText?).or r.target.host).getD ""

def host (r : Request) : String := HostName.normalized r.rawHost

def forRoot : Request := ⟨Method.get, Target.root, .http11, Headers.empty, []⟩

end Request

end HttpRouting
