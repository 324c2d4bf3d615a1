import HttpRouting.Settings.JsonToken

/-!
# Skipping a JSON value

A value that nobody reads is checked for its form only, to any depth.
-/

namespace HttpRouting.Settings

namespace JsonSkip

/-- What the next token has to be; the containers still open are kept beside
it, `true` for an object. -/
inductive Expect where
  | value
  | valueOrClose
  | key
  | keyOrClose
  | colon
  | end
  deriving DecidableEq, Repr

def skip : List Bool → Expect → List JsonToken → Option (List JsonToken)
  | [], .end, tokens => some tokens
  | _, _, [] => none
  | inside, expect, token :: rest =>
      match expect, token with
      | .value, .openObject | .valueOrClose, .openObject => skip (true :: inside) .keyOrClose rest
      | .value, .openArray | .valueOrClose, .openArray => skip (false :: inside) .valueOrClose rest
      | .value, .word _ | .valueOrClose, .word _ => skip inside .end rest
      | .value, .number _ | .valueOrClose, .number _ => skip inside .end rest
      | .value, .string _ | .valueOrClose, .string _ => skip inside .end rest
      | .valueOrClose, .closeArray => skip inside.tail .end rest
      | .key, .string _ | .keyOrClose, .string _ => skip inside .colon rest
      | .keyOrClose, .closeObject => skip inside.tail .end rest
      | .colon, .colon => skip inside .value rest
      | .end, .comma => skip inside (if inside.head? = some true then .key else .value) rest
      | .end, .closeObject =>
          if inside.head? = some true then skip inside.tail .end rest else none
      | .end, .closeArray =>
          if inside.head? = some false then skip inside.tail .end rest else none
      | _, _ => none

end JsonSkip

def skipValue (tokens : List JsonToken) : Option (List JsonToken) :=
  JsonSkip.skip [] .value tokens

end HttpRouting.Settings
