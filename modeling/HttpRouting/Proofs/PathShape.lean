import HttpRouting.Table.Priority

/-!
# The shape of a path pattern

What a lookup sees of a pattern is its shape, the pattern without the names of
its parameters.  Patterns of one shape match the same paths, take the same
pieces from them and have the same rank, and of two patterns that match one path
either one precedes the other or they have the same shape.
-/

namespace HttpRouting

namespace Segment

def nameless : Segment → Segment
  | .literal text => .literal text
  | .param _ => .param ""
  | .wildcard _ => .wildcard ""

@[simp] theorem nameless_nameless (segment : Segment) :
    segment.nameless.nameless = segment.nameless := by
  cases segment <;> rfl

@[simp] theorem rank_nameless (segment : Segment) : segment.nameless.rank = segment.rank := by
  cases segment <;> rfl

end Segment

namespace PathPattern

def shape (segments : List Segment) : List Segment := segments.map Segment.nameless

@[simp] theorem shape_nil : shape [] = [] := rfl

@[simp] theorem shape_cons (segment : Segment) (rest : List Segment) :
    shape (segment :: rest) = segment.nameless :: shape rest := rfl

@[simp] theorem shape_shape (segments : List Segment) :
    shape (shape segments) = shape segments := by
  simp [shape, Function.comp_def]

theorem sameShape_iff {first second : List Segment} :
    sameShape first second = true ↔ shape first = shape second := by
  induction first generalizing second with
  | nil => cases second <;> simp [sameShape]
  | cons segment rest ih =>
      cases second with
      | nil => cases segment <;> simp [sameShape]
      | cons other more =>
          cases segment <;> cases other <;> simp [sameShape, Segment.nameless, ih]

theorem captures?_shape (segments : List Segment) (pieces : List String) :
    captures? (shape segments) pieces = captures? segments pieces := by
  induction segments generalizing pieces with
  | nil => rfl
  | cons segment rest ih =>
      cases pieces with
      | nil => cases segment <;> rfl
      | cons piece pieces =>
          cases segment with
          | literal text => simp only [shape_cons, Segment.nameless, captures?, ih]
          | param name => simp only [shape_cons, Segment.nameless, captures?, ih]
          | wildcard name => cases rest <;> rfl

theorem captures?_congr {first second : List Segment} (h : shape first = shape second)
    (pieces : List String) : captures? first pieces = captures? second pieces := by
  rw [← captures?_shape first, h, captures?_shape]

@[simp] theorem binders_nil : binders [] = [] := rfl

@[simp] theorem binders_literal (text : String) (rest : List Segment) :
    binders (.literal text :: rest) = binders rest := rfl

@[simp] theorem binders_param (name : String) (rest : List Segment) :
    binders (.param name :: rest) = name :: binders rest := rfl

@[simp] theorem binders_wildcard (name : String) (rest : List Segment) :
    binders (.wildcard name :: rest) = name :: binders rest := rfl

theorem length_captures? {segments : List Segment} {pieces captures : List String}
    (h : captures? segments pieces = some captures) :
    captures.length = (binders segments).length := by
  induction segments generalizing pieces captures with
  | nil =>
      cases pieces with
      | nil =>
          simp only [captures?, Option.some.injEq] at h
          simp [← h]
      | cons piece pieces => simp [captures?] at h
  | cons segment rest ih =>
      cases pieces with
      | nil => simp [captures?] at h
      | cons piece pieces =>
          cases segment with
          | literal text =>
              simp only [captures?] at h
              split at h
              · simpa using ih h
              · contradiction
          | param name =>
              simp only [captures?, Option.map_eq_some_iff] at h
              obtain ⟨taken, htaken, rfl⟩ := h
              simpa using ih htaken
          | wildcard name =>
              cases rest with
              | nil =>
                  simp only [captures?, Option.some.injEq] at h
                  simp [← h]
              | cons next rest => simp [captures?] at h

theorem mem_zip_captures? {segments : List Segment} {pieces captures : List String}
    (h : captures? segments pieces = some captures) (i : Nat) (name : String) :
    (segments[i]? = some (.param name) →
        ∃ piece, pieces[i]? = some piece ∧ (name, piece) ∈ (binders segments).zip captures) ∧
      (segments[i]? = some (.wildcard name) →
        i < pieces.length ∧
          (name, Text.joined "/" (pieces.drop i)) ∈ (binders segments).zip captures) := by
  induction segments generalizing pieces captures i with
  | nil => simp
  | cons segment rest ih =>
      cases pieces with
      | nil => simp [captures?] at h
      | cons piece pieces =>
          cases segment with
          | literal text =>
              simp only [captures?] at h
              split at h
              · cases i with
                | zero => simp
                | succ i => simpa using ih h i
              · contradiction
          | param own =>
              obtain ⟨taken, htaken, rfl⟩ := Option.map_eq_some_iff.mp h
              cases i with
              | zero =>
                  constructor
                  · intro hsegment
                    obtain rfl : own = name := by simpa using hsegment
                    exact ⟨piece, rfl, by simp⟩
                  · intro hsegment
                    simp at hsegment
              | succ i =>
                  obtain ⟨hparam, hwildcard⟩ := ih htaken i
                  constructor
                  · intro hsegment
                    obtain ⟨value, hvalue, hmem⟩ := hparam (by simpa using hsegment)
                    exact ⟨value, by simpa using hvalue, by simp [hmem]⟩
                  · intro hsegment
                    obtain ⟨hlength, hmem⟩ := hwildcard (by simpa using hsegment)
                    exact ⟨by simpa using hlength, by simp [hmem]⟩
          | wildcard own =>
              cases rest with
              | nil =>
                  cases h
                  cases i with
                  | zero => simp [eq_comm]
                  | succ i => simp
              | cons next rest => simp [captures?] at h

/-! ## The order of patterns -/

theorem precedes_shape (first second : List Segment) :
    precedes (shape first) (shape second) = precedes first second := by
  induction first generalizing second with
  | nil => cases second <;> rfl
  | cons segment rest ih => cases second <;> simp [precedes, ih]

theorem precedes_congr {first second first' second' : List Segment}
    (hfirst : shape first = shape first') (hsecond : shape second = shape second') :
    precedes first second = precedes first' second' := by
  rw [← precedes_shape first second, hfirst, hsecond, precedes_shape]

theorem precedes_asymm {first second : List Segment} (h : precedes first second = true) :
    precedes second first = false := by
  induction first generalizing second with
  | nil => simp [precedes] at h
  | cons segment rest ih =>
      cases second with
      | nil => rfl
      | cons other more =>
          simp only [precedes, Bool.or_eq_true, Bool.and_eq_true, decide_eq_true_eq,
            beq_iff_eq] at h
          simp only [precedes, Bool.or_eq_false_iff, Bool.and_eq_false_iff, decide_eq_false_iff_not,
            beq_eq_false_iff_ne]
          rcases h with hrank | ⟨hrank, hrest⟩
          · exact ⟨by omega, .inl (by omega)⟩
          · exact ⟨by omega, .inr (ih hrest)⟩

theorem precedes_of_shape_eq {first second : List Segment} (h : shape first = shape second) :
    precedes first second = false := by
  rw [precedes_congr rfl h.symm]
  simpa using precedes_irrefl first

end PathPattern

end HttpRouting
