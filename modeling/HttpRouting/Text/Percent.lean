import HttpRouting.Text.Hex
import HttpRouting.Text.Utf8

/-!
# Percent coding

A byte is written as `%` and two hexadecimal digits where the character it
stands for is not allowed.  Decoding takes every well-formed escape and leaves
any other `%` as it is.
-/

namespace HttpRouting.Text.Percent

open Utf8

def percent : UInt8 := 0x25

/-- Fewer than three bytes cannot hold an escape. -/
def decodeBytes : Bytes → Bytes
  | b :: high :: low :: tail =>
      if b = percent then
        match hexByte high low with
        | some value => value :: decodeBytes tail
        | none => b :: decodeBytes (high :: low :: tail)
      else b :: decodeBytes (high :: low :: tail)
  | short => short

def decode (s : String) : String :=
  decodeLossy (decodeBytes (Utf8.encode s))

def encode (keep : UInt8 → Bool) (s : String) : String :=
  String.ofList <| (Utf8.encode s).flatMap fun b =>
    if b < 0x80 && keep b then [Char.ofNat b.toNat] else '%' :: upperHex b

end HttpRouting.Text.Percent
