import HttpRouting.Pattern.Fault
import HttpRouting.Text.Split

/-!
# Path patterns

A path pattern is a list of segments: a literal piece, a parameter that stands
for one piece, or a wildcard that stands for all remaining pieces and comes
last.  Empty pieces are dropped, so slashes at the ends and repeated slashes say
nothing.
-/

namespace HttpRouting

inductive Segment where
  | literal (text : String)
  | param (name : String)
  | wildcard (name : String)
  deriving DecidableEq, Repr

namespace Segment

def binder : Segment → Option String
  | .literal _ => none
  | .param name | .wildcard name => some name

def isWildcard : Segment → Bool
  | .wildcard _ => true
  | _ => false

def text : Segment → String
  | .literal text => text
  | .param name => ":" ++ name
  | .wildcard name => "*" ++ name

def ofPiece (piece : String) : Segment :=
  match piece.toList with
  | ':' :: name => .param (String.ofList name)
  | '*' :: name => .wildcard (String.ofList name)
  | _ => .literal piece

end Segment

namespace PathPattern

def binders (segments : List Segment) : List String :=
  segments.filterMap Segment.binder

/-- The fault of the leftmost segment that has one, given the names bound
before: a wildcard that is not last, then a missing name, then a name that is
bound already. -/
def fault? (pattern : String) (bound : List String) : List Segment → Option PatternError
  | [] => none
  | segment :: rest =>
      if segment.isWildcard && !rest.isEmpty then some (.misplacedWildcard pattern)
      else
        match segment.binder with
        | none => fault? pattern bound rest
        | some name =>
            if name = "" then some (.unnamedParam pattern)
            else if bound.contains name then some (.repeatedParam pattern name)
            else fault? pattern (name :: bound) rest

def compile (pattern : String) : Except PatternError (List Segment) :=
  let segments := (Text.pieces pattern).map Segment.ofPiece
  match fault? pattern [] segments with
  | some fault => .error fault
  | none => .ok segments

/-- The pieces that the parameters of a pattern stand for, if the pattern
matches: a wildcard takes one piece or more, put together with slashes. -/
def captures? : List Segment → List String → Option (List String)
  | [], [] => some []
  | [], _ :: _ => none
  | _ :: _, [] => none
  | .literal text :: segments, piece :: pieces =>
      if text = piece then captures? segments pieces else none
  | .param _ :: segments, piece :: pieces => (captures? segments pieces).map (piece :: ·)
  | .wildcard _ :: [], pieces => some [Text.joined "/" pieces]
  | .wildcard _ :: _ :: _, _ => none

def accepts (segments : List Segment) (pieces : List String) : Bool :=
  (captures? segments pieces).isSome

theorem compile_eq_ok_iff {pattern : String} {segments : List Segment} :
    compile pattern = .ok segments ↔
      segments = (Text.pieces pattern).map Segment.ofPiece ∧
        fault? pattern [] segments = none := by
  simp only [compile]
  split
  · next fault h =>
      constructor
      · intro same; cases same
      · rintro ⟨rfl, free⟩; simp [h] at free
  · next h =>
      constructor
      · intro same; cases same; exact ⟨rfl, h⟩
      · rintro ⟨rfl, _⟩; rfl

end PathPattern

end HttpRouting
