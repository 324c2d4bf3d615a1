import HttpRouting.Text.Utf8

/-!
# Header fields

Names are kept in lower case and values are byte texts.  A name may occur more
than once; its values keep their order.
-/

namespace HttpRouting

open Text.Utf8 (Bytes)

structure Headers where
  entries : List (String × Bytes)
  deriving DecidableEq, Repr

namespace Headers

def empty : Headers := ⟨[]⟩

instance : Inhabited Headers := ⟨empty⟩

def values (h : Headers) (name : String) : List Bytes :=
  (h.entries.filter (·.1 = name.toLower)).map (·.2)

def get? (h : Headers) (name : String) : Option Bytes :=
  (h.values name).head?

def append (h : Headers) (name : String) (value : Bytes) : Headers :=
  ⟨h.entries ++ [(name.toLower, value)]⟩

def insert (h : Headers) (name : String) (value : Bytes) : Headers :=
  ⟨h.entries.filter (·.1 ≠ name.toLower) ++ [(name.toLower, value)]⟩

def insertIfAbsent (h : Headers) (name : String) (value : Bytes) : Headers :=
  if (h.get? name).isSome then h else h.append name value

def appendAll (h : Headers) (fields : List (String × Bytes)) : Headers :=
  fields.foldl (fun h field => h.append field.1 field.2) h

def insertAll (h : Headers) (fields : List (String × Bytes)) : Headers :=
  fields.foldl (fun h field => h.insert field.1 field.2) h

def ofList (fields : List (String × Bytes)) : Headers := empty.appendAll fields

/-- Sorted by name; the values of one name keep their order. -/
def sorted (h : Headers) : List (String × Bytes) :=
  h.entries.mergeSort fun a b => a.1 ≤ b.1

def isLegalByte (b : UInt8) : Bool := b == 9 || (0x20 ≤ b && b != 0x7F)

def isVisibleByte (b : UInt8) : Bool := b == 9 || (0x20 ≤ b && b < 0x7F)

/-- The value that a text stands for, unless it holds a control character. -/
def value? (s : String) : Option Bytes :=
  let bytes := Text.Utf8.encode s
  if bytes.all isLegalByte then some bytes else none

def visibleText? (value : Bytes) : Option String :=
  if value.all isVisibleByte then
    some (String.ofList (value.map fun b => Char.ofNat b.toNat))
  else none

def invisibleText : String := "failed to convert header to a str"

theorem values_append (h : Headers) (name other : String) (value : Bytes) :
    (h.append name value).values other =
      h.values other ++ if name.toLower = other.toLower then [value] else [] := by
  by_cases same : name.toLower = other.toLower <;> simp [append, values, same]

theorem values_insert (h : Headers) (name : String) (value : Bytes) :
    (h.insert name value).values name = [value] := by
  simp [insert, values, List.filter_filter]

theorem values_insertIfAbsent (h : Headers) (name : String) (value : Bytes) :
    (h.insertIfAbsent name value).values name =
      if h.values name = [] then [value] else h.values name := by
  by_cases hv : h.values name = []
  · simp [insertIfAbsent, get?, values_append, hv]
  · simp [insertIfAbsent, get?, hv]

end Headers

end HttpRouting
