/-!
# Durations

A duration is a number of nanoseconds.  Its text takes the largest unit of
which it has at least one, and the exact decimal fraction of that unit without
trailing zeros.
-/

namespace HttpRouting

structure Duration where
  nanos : Nat
  deriving DecidableEq, Repr

namespace Duration

def nanosPerSecond : Nat := 1000000000

def nanosPerMilli : Nat := 1000000

def ofMillis (n : Nat) : Duration := ⟨n * nanosPerMilli⟩

def ofParts (seconds nanos : Nat) : Duration := ⟨seconds * nanosPerSecond + nanos⟩

def millis (d : Duration) : Nat := d.nanos / nanosPerMilli

def maxMillis : Nat := UInt64.size - 1

def decimalDigits : (width : Nat) → (n : Nat) → List Char
  | 0, _ => []
  | width + 1, n => decimalDigits width (n / 10) ++ [Char.ofNat (0x30 + n % 10)]

def fractionDigits (width n : Nat) : List Char :=
  ((decimalDigits width n).reverse.dropWhile (· = '0')).reverse

/-- `n` counted in units of `10 ^ places`. -/
def inUnits (places n : Nat) (unit : String) : String :=
  let scale := Nat.pow 10 places
  let whole := toString (n / scale)
  match fractionDigits places (n % scale) with
  | [] => whole ++ unit
  | digits => whole ++ "." ++ String.ofList digits ++ unit

def text (d : Duration) : String :=
  if nanosPerSecond ≤ d.nanos then inUnits 9 d.nanos "s"
  else if nanosPerMilli ≤ d.nanos then inUnits 6 d.nanos "ms"
  else if 1000 ≤ d.nanos then inUnits 3 d.nanos "µs"
  else inUnits 0 d.nanos "ns"

theorem millis_ofMillis (n : Nat) : (ofMillis n).millis = n := by
  simp [ofMillis, millis, nanosPerMilli]

end Duration

end HttpRouting
