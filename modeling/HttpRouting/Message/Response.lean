import HttpRouting.Message.Body
import HttpRouting.Message.Status

/-!
# Responses
-/

namespace HttpRouting

structure Response where
  status : Status
  headers : Headers
  body : Body
  deriving DecidableEq, Repr

namespace Response

def ofBody (body : Body) : Response := ⟨Status.ok, Headers.empty, body⟩

def plainTextType : String := "text/plain; charset=utf-8"

def plainText (status : Status) (text : String) : Response :=
  ⟨status, Headers.empty.insert "content-type" (Text.Utf8.encode plainTextType), Body.ofText text⟩

end Response

structure RawResponse where
  status : Status
  headers : Headers
  content : Body.Content
  deriving DecidableEq, Repr

namespace RawResponse

instance : Coe Response RawResponse := ⟨fun r => ⟨r.status, r.headers, .body r.body⟩⟩

def response (r : RawResponse) : Response := ⟨r.status, r.headers, Body.ofContent r.content⟩

end RawResponse

end HttpRouting
