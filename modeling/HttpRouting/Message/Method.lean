/-!
# Request methods

A method is a token: one or more letters, digits or marks from a fixed set.
Methods are compared with regard to case.
-/

namespace HttpRouting

def isTokenChar (c : Char) : Bool :=
  c.isAlphanum || "!#$%&'*+-.^_`|~".toList.contains c

def isToken (s : String) : Bool :=
  !s.toList.isEmpty && s.toList.all isTokenChar

structure Method where
  text : String
  isToken_text : isToken text = true
  deriving DecidableEq, Repr

namespace Method

def parse? (s : String) : Option Method :=
  if h : isToken s = true then some ⟨s, h⟩ else none

def get : Method := ⟨"GET", by decide⟩

def post : Method := ⟨"POST", by decide⟩

def invalidText : String := "invalid HTTP method"

theorem parse?_text (m : Method) : parse? m.text = some m := by
  simp [parse?, m.isToken_text]

theorem text_of_parse? {s : String} {m : Method} (h : parse? s = some m) :
    m.text = s := by
  simp only [parse?] at h
  split at h
  · cases h; rfl
  · cases h

theorem parse?_isSome {s : String} : (parse? s).isSome = isToken s := by
  simp only [parse?]
  split <;> simp_all

end Method

end HttpRouting
