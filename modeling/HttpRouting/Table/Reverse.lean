import HttpRouting.Pattern.Path
import HttpRouting.Text.Form
import HttpRouting.Text.Percent

/-!
# Paths from patterns

The path of a pattern for given parameter values.  A parameter is escaped so
that it stays one piece; a wildcard is written as it is, without the slashes at
its start.
-/

namespace HttpRouting.PathPattern

def keepsByte (b : UInt8) : Bool :=
  0x20 < b && b < 0x7F &&
    !([0x22, 0x23, 0x25, 0x2F, 0x3C, 0x3E, 0x3F, 0x60, 0x7B, 0x7D].contains b)

/-- The text of one segment; a value that is missing or empty gives none. -/
def segmentText? (params : List (String × String)) : Segment → Option String
  | .literal text => some text
  | .param name => do
      let value ← params.lookup name
      if value = "" then none else some (Text.Percent.encode keepsByte value)
  | .wildcard name => do
      let value ← params.lookup name
      let value := Text.dropLeading Text.isSlash value
      if value = "" then none else some value

def build? (segments : List Segment) (params : List (String × String)) : Option String := do
  let texts ← segments.mapM (segmentText? params)
  match texts with
  | [] => return "/"
  | texts => return String.join (texts.map ("/" ++ ·))

def sortedPairs (query : List (String × String)) : List (String × String) :=
  query.mergeSort fun a b => a.1 < b.1 || (a.1 == b.1 && a.2 ≤ b.2)

def withQuery (path : String) (query : List (String × String)) : String :=
  match query with
  | [] => path
  | query =>
      let mark := if path.toList.contains '?' then "&" else "?"
      path ++ mark ++ Text.Form.encode (sortedPairs query)

end HttpRouting.PathPattern
