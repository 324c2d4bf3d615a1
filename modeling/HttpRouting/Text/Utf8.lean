/-!
# UTF-8

A text as bytes and bytes as a text.  The decoder reads one byte at a time.
Where the bytes are no UTF-8, each longest start of a character that cannot be
completed counts as one malformed spot: `decodeLossy` writes U+FFFD there and
`decode?` refuses the whole.
-/

namespace HttpRouting.Text.Utf8

abbrev Bytes := List UInt8

def encode (s : String) : Bytes :=
  s.toList.flatMap String.utf8EncodeChar

inductive Pending where
  | none
  | awaiting (bits left : Nat) (low high : UInt8)
  deriving DecidableEq, Repr

/-- Reads a byte where a character may start.  The ranges of the second byte
exclude overlong forms, surrogates and numbers above U+10FFFF. -/
def first (b : UInt8) : List (Option Char) × Pending :=
  if b < 0x80 then ([some (Char.ofNat b.toNat)], .none)
  else if b < 0xC2 then ([none], .none)
  else if b < 0xE0 then ([], .awaiting (b.toNat - 0xC0) 1 0x80 0xBF)
  else if b < 0xF0 then
    ([], .awaiting (b.toNat - 0xE0) 2 (if b = 0xE0 then 0xA0 else 0x80)
      (if b = 0xED then 0x9F else 0xBF))
  else if b < 0xF5 then
    ([], .awaiting (b.toNat - 0xF0) 3 (if b = 0xF0 then 0x90 else 0x80)
      (if b = 0xF4 then 0x8F else 0xBF))
  else ([none], .none)

/-- Reads one byte.  A byte that does not continue the pending character ends
it as a malformed spot and is itself read afresh. -/
def feed (pending : Pending) (b : UInt8) : List (Option Char) × Pending :=
  match pending with
  | .none => first b
  | .awaiting bits left low high =>
      if low ≤ b ∧ b ≤ high then
        let bits := bits * 64 + (b.toNat - 0x80)
        if left ≤ 1 then ([some (Char.ofNat bits)], .none)
        else ([], .awaiting bits (left - 1) 0x80 0xBF)
      else
        let (read, pending) := first b
        (none :: read, pending)

def scanFrom : Pending → Bytes → List (Option Char)
  | .none, [] => []
  | .awaiting .., [] => [none]
  | pending, b :: rest =>
      let (read, pending) := feed pending b
      read ++ scanFrom pending rest

def scan (bytes : Bytes) : List (Option Char) := scanFrom .none bytes

def replacement : Char := Char.ofNat 0xFFFD

def decodeLossy (bytes : Bytes) : String :=
  String.ofList ((scan bytes).map (·.getD replacement))

def decode? (bytes : Bytes) : Option String :=
  ((scan bytes).mapM id).map String.ofList

end HttpRouting.Text.Utf8
