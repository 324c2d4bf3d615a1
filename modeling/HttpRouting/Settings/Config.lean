import HttpRouting.Settings.JsonSkip
import HttpRouting.Time.Duration

/-!
# Settings of an application

What to do with a second route of a name, and the timeout of routes that set
none.  Settings are read from JSON: an object with the two fields in any order,
others being ignored, or an array of them; a field that is left out has its
default.
-/

namespace HttpRouting

inductive DuplicateNames where
  | skip
  | reject
  deriving DecidableEq, Repr

def DuplicateNames.text : DuplicateNames → String
  | .skip => "Skip"
  | .reject => "Reject"

structure Config where
  duplicateNames : DuplicateNames
  defaultTimeoutMillis : Option Nat
  deriving DecidableEq, Repr

namespace Config

open Settings

def standard : Config := ⟨.skip, none⟩

instance : Inhabited Config := ⟨standard⟩

def defaultTimeout (c : Config) : Option Duration :=
  c.defaultTimeoutMillis.map Duration.ofMillis

def policyNamed? : String → Option DuplicateNames
  | "skip" => some .skip
  | "reject" => some .reject
  | _ => none

/-- A policy is a string, or an object with that key and the value `null`. -/
def readPolicy : List JsonToken → Option (DuplicateNames × List JsonToken)
  | .string (some name) :: rest => do return (← policyNamed? name, rest)
  | .openObject :: .string (some name) :: .colon :: .word "null" :: .closeObject :: rest => do
      return (← policyNamed? name, rest)
  | _ => none

/-- A number is written with digits alone and fits 64 bits. -/
def readMillis : List JsonToken → Option (Option Nat × List JsonToken)
  | .word "null" :: rest => some (none, rest)
  | .number text :: rest =>
      if text.toList.all JsonToken.isDigit then
        let n := text.toList.foldl (fun n c => n * 10 + (c.toNat - 0x30)) 0
        if n ≤ Duration.maxMillis then some (some n, rest) else none
      else none
  | _ => none

structure Fields where
  duplicateNames : Option DuplicateNames
  timeout : Option (Option Nat)

def Fields.config (f : Fields) : Config :=
  ⟨f.duplicateNames.getD .skip, f.timeout.getD none⟩

def readField (f : Fields) (key : String) (tokens : List JsonToken) :
    Option (Fields × List JsonToken) :=
  if key = "duplicate_name" then
    if f.duplicateNames.isSome then none
    else do
      let (policy, rest) ← readPolicy tokens
      return ({ f with duplicateNames := some policy }, rest)
  else if key = "default_timeout_ms" then
    if f.timeout.isSome then none
    else do
      let (millis, rest) ← readMillis tokens
      return ({ f with timeout := some millis }, rest)
  else do
    let rest ← skipValue tokens
    return (f, rest)

def readFields : Nat → Fields → List JsonToken → Option Config
  | bound + 1, f, .string (some key) :: .colon :: tokens => do
      let (f, rest) ← readField f key tokens
      match rest with
      | [.closeObject] => return f.config
      | .comma :: rest => readFields bound f rest
      | _ => none
  | _, _, _ => none

def readArray (tokens : List JsonToken) : Option Config :=
  match tokens with
  | [.closeArray] => some standard
  | _ => do
      let (policy, rest) ← readPolicy tokens
      match rest with
      | [.closeArray] => return ⟨policy, none⟩
      | .comma :: rest =>
          let (millis, rest) ← readMillis rest
          match rest with
          | [.closeArray] => return ⟨policy, millis⟩
          | _ => none
      | _ => none

def parse? (s : String) : Option Config := do
  match ← JsonToken.tokens? s with
  | [.openObject, .closeObject] => return standard
  | .openObject :: tokens => readFields tokens.length ⟨none, none⟩ tokens
  | .openArray :: tokens => readArray tokens
  | _ => none

end Config

end HttpRouting
