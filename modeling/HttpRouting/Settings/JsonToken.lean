/-!
# Tokens of JSON

A JSON text as a list of tokens, refused where it is none.  A string keeps its
contents, or nothing where its escapes name half of a surrogate pair: such a
string may be skipped but not read.  A number keeps its text.
-/

namespace HttpRouting.Settings

inductive JsonToken where
  | openObject
  | closeObject
  | openArray
  | closeArray
  | colon
  | comma
  | word (text : String)
  | number (text : String)
  | string (contents : Option String)
  deriving DecidableEq, Repr

namespace JsonToken

def isSpace (c : Char) : Bool := c = ' ' || c = '\t' || c = '\n' || c = '\r'

def punctuation? (c : Char) : Option JsonToken :=
  if c.toNat = 0x7B then some .openObject
  else if c.toNat = 0x7D then some .closeObject
  else if c = '[' then some .openArray
  else if c = ']' then some .closeArray
  else if c = ':' then some .colon
  else if c = ',' then some .comma
  else none

def hexDigit? (c : Char) : Option Nat :=
  if '0' ≤ c && c ≤ '9' then some (c.toNat - 0x30)
  else if 'A' ≤ c && c ≤ 'F' then some (c.toNat - 0x37)
  else if 'a' ≤ c && c ≤ 'f' then some (c.toNat - 0x57)
  else none

inductive CodeUnit where
  | char (c : Char)
  | high (n : Nat)
  | low (n : Nat)
  deriving DecidableEq, Repr

def CodeUnit.ofNumber (n : Nat) : CodeUnit :=
  if 0xD800 ≤ n && n ≤ 0xDBFF then .high (n - 0xD800)
  else if 0xDC00 ≤ n && n ≤ 0xDFFF then .low (n - 0xDC00)
  else .char (Char.ofNat n)

def simpleEscape? (c : Char) : Option Char :=
  match c with
  | '"' => some '"'
  | '\\' => some '\\'
  | '/' => some '/'
  | 'b' => some (Char.ofNat 8)
  | 'f' => some (Char.ofNat 12)
  | 'n' => some '\n'
  | 'r' => some '\r'
  | 't' => some '\t'
  | _ => none

def stringUnits : List Char → Option (List CodeUnit × List Char)
  | [] => none
  | '"' :: rest => some ([], rest)
  | '\\' :: 'u' :: a :: b :: c :: d :: rest => do
      let a ← hexDigit? a
      let b ← hexDigit? b
      let c ← hexDigit? c
      let d ← hexDigit? d
      let (units, rest) ← stringUnits rest
      return (CodeUnit.ofNumber (((a * 16 + b) * 16 + c) * 16 + d) :: units, rest)
  | '\\' :: c :: rest => do
      let c ← simpleEscape? c
      let (units, rest) ← stringUnits rest
      return (.char c :: units, rest)
  | c :: rest =>
      if c.toNat < 0x20 || c = '\\' then none
      else do
        let (units, rest) ← stringUnits rest
        return (.char c :: units, rest)

def paired : List CodeUnit → Option (List Char)
  | [] => some []
  | .char c :: rest => (paired rest).map (c :: ·)
  | .high h :: .low l :: rest =>
      (paired rest).map (Char.ofNat (0x10000 + h * 0x400 + l) :: ·)
  | _ :: _ => none

def isDigit (c : Char) : Bool := '0' ≤ c && c ≤ '9'

def digits? (cs : List Char) : Option (List Char × List Char) :=
  match cs.takeWhile isDigit with
  | [] => none
  | digits => some (digits, cs.drop digits.length)

def whole? (cs : List Char) : Option (List Char × List Char) :=
  match cs with
  | '0' :: rest => some (['0'], rest)
  | _ => digits? cs

def fraction? (cs : List Char) : Option (List Char × List Char) :=
  match cs with
  | '.' :: rest => (digits? rest).map fun (digits, rest) => ('.' :: digits, rest)
  | _ => some ([], cs)

def exponent? (cs : List Char) : Option (List Char × List Char) :=
  match cs with
  | e :: rest =>
      if e = 'e' || e = 'E' then
        match rest with
        | sign :: more =>
            if sign = '+' || sign = '-' then
              (digits? more).map fun (digits, rest) => (e :: sign :: digits, rest)
            else (digits? rest).map fun (digits, rest) => (e :: digits, rest)
        | [] => none
      else some ([], cs)
  | [] => some ([], [])

def number? (cs : List Char) : Option (String × List Char) := do
  let (sign, cs) := match cs with
    | '-' :: rest => (['-'], rest)
    | _ => ([], cs)
  let (whole, cs) ← whole? cs
  let (fraction, cs) ← fraction? cs
  let (exponent, cs) ← exponent? cs
  return (String.ofList (sign ++ whole ++ fraction ++ exponent), cs)

def word? (cs : List Char) : Option (JsonToken × List Char) :=
  match cs with
  | 'n' :: 'u' :: 'l' :: 'l' :: rest => some (.word "null", rest)
  | 't' :: 'r' :: 'u' :: 'e' :: rest => some (.word "true", rest)
  | 'f' :: 'a' :: 'l' :: 's' :: 'e' :: rest => some (.word "false", rest)
  | _ => none

def next? (cs : List Char) : Option (JsonToken × List Char) :=
  match cs with
  | [] => none
  | '"' :: rest => do
      let (units, rest) ← stringUnits rest
      return (.string ((paired units).map String.ofList), rest)
  | c :: rest =>
      match punctuation? c with
      | some token => some (token, rest)
      | none =>
          if c = '-' || isDigit c then (number? cs).map fun (text, rest) => (.number text, rest)
          else word? cs

/-- Every token takes at least one character, so a text has no more tokens than
characters and this bound is never reached. -/
def tokensWithin : Nat → List Char → Option (List JsonToken)
  | 0, cs => if cs.all isSpace then some [] else none
  | bound + 1, cs =>
      match cs.dropWhile isSpace with
      | [] => some []
      | cs => do
          let (token, rest) ← next? cs
          let tokens ← tokensWithin bound rest
          return token :: tokens

def tokens? (s : String) : Option (List JsonToken) :=
  tokensWithin s.toList.length s.toList

end JsonToken

end HttpRouting.Settings
