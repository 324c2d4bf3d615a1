import HttpRouting.Text.Hex
import HttpRouting.Text.Shapeless
import HttpRouting.Text.Split
import HttpRouting.Text.Utf8

/-!
# Quoted text

A text or a byte text between double quotes, with escapes for the characters
that cannot be shown.
-/

namespace HttpRouting.Text

def hexDigits (n : Nat) : List Char := Nat.toDigits 16 n

def numberEscape (c : Char) : List Char :=
  ['\\', 'u', '\x7b'] ++ hexDigits c.toNat ++ ['\x7d']

def escapeChar (c : Char) : List Char :=
  if c = '\x00' then ['\\', '0']
  else if c = '\t' then ['\\', 't']
  else if c = '\r' then ['\\', 'r']
  else if c = '\n' then ['\\', 'n']
  else if c = '"' then ['\\', '"']
  else if c = '\\' then ['\\', '\\']
  else if c.toNat < 0x20 then numberEscape c
  else if c.toNat < 0x7F then [c]
  else if isShapeless c then numberEscape c
  else [c]

def quoted (s : String) : String :=
  String.ofList ('"' :: s.toList.flatMap escapeChar ++ ['"'])

def escapeByte (b : UInt8) : List Char :=
  if b = 0 then ['\\', '0']
  else if b = 9 then ['\\', 't']
  else if b = 10 then ['\\', 'n']
  else if b = 13 then ['\\', 'r']
  else if b = 0x22 then ['\\', '"']
  else if b = 0x5C then ['\\', '\\']
  else if 0x20 ≤ b && b < 0x7F then [Char.ofNat b.toNat]
  else '\\' :: 'x' :: lowerHex b

def quotedBytes (bytes : Utf8.Bytes) : String :=
  String.ofList ('b' :: '"' :: bytes.flatMap escapeByte ++ ['"'])

def quotedList (items : List String) : String :=
  "[" ++ joined ", " (items.map quoted) ++ "]"

end HttpRouting.Text
