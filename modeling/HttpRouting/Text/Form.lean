import HttpRouting.Text.Percent
import HttpRouting.Text.Split

/-!
# Form fields

Pairs of texts written as `key=value`, joined by `&`, with `+` for a space and
percent escapes for the bytes that are neither letters, digits nor one of
`*-._`.  Every byte text can be read.
-/

namespace HttpRouting.Text.Form

open Utf8

def isVerbatim (b : UInt8) : Bool :=
  (0x30 ≤ b && b ≤ 0x39) || (0x41 ≤ b && b ≤ 0x5A) || (0x61 ≤ b && b ≤ 0x7A) ||
    b == 0x2A || b == 0x2D || b == 0x2E || b == 0x5F

def encodeByte (b : UInt8) : List Char :=
  if b = 0x20 then ['+']
  else if isVerbatim b then [Char.ofNat b.toNat]
  else '%' :: upperHex b

def encodeText (s : String) : String :=
  String.ofList ((Utf8.encode s).flatMap encodeByte)

def encodePair (pair : String × String) : String :=
  encodeText pair.1 ++ "=" ++ encodeText pair.2

def encode (pairs : List (String × String)) : String :=
  joined "&" (pairs.map encodePair)

def splitBytes (sep : UInt8) : Bytes → List Bytes
  | [] => [[]]
  | b :: rest =>
      if b = sep then [] :: splitBytes sep rest
      else
        match splitBytes sep rest with
        | [] => [[b]]
        | piece :: more => (b :: piece) :: more

def decodeText (bytes : Bytes) : String :=
  decodeLossy (Percent.decodeBytes (bytes.map fun b => if b = 0x2B then 0x20 else b))

def decodePair (piece : Bytes) : String × String :=
  let key := piece.takeWhile (· ≠ 0x3D)
  (decodeText key, decodeText (piece.drop (key.length + 1)))

def decode (bytes : Bytes) : List (String × String) :=
  ((splitBytes 0x26 bytes).filter (· ≠ [])).map decodePair

end HttpRouting.Text.Form
