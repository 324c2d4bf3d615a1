import HttpRouting.Proofs.BuiltPath

/-!
# The grammar of path patterns

A text is a path pattern if a star begins at most its last piece, every mark is followed by a name
and no name comes twice.  Otherwise it is refused for the leftmost piece that breaks one of these
rules.  A compiled pattern is written as the pieces it was read from, and read back from them.
-/

namespace HttpRouting

namespace Segment

def markedName? (piece : String) : Option String :=
  match piece.toList with
  | ':' :: name | '*' :: name => some (String.ofList name)
  | _ => none

def isStarred (piece : String) : Bool := piece.toList.head? = some '*'

theorem binder_ofPiece (piece : String) : (ofPiece piece).binder = markedName? piece := by
  unfold ofPiece markedName?
  split <;> simp_all [binder]

theorem isWildcard_ofPiece (piece : String) : (ofPiece piece).isWildcard = isStarred piece := by
  rw [isStarred]
  unfold ofPiece
  split
  · next hchars => simp [hchars, isWildcard]
  · next hchars => simp [hchars, isWildcard]
  · next hstar =>
      cases hchars : piece.toList with
      | nil => rfl
      | cons c cs =>
          have hc : c ≠ '*' := fun same => hstar cs (by rw [hchars, same])
          simp [hc, isWildcard]

@[simp] theorem text_ofPiece (piece : String) : (ofPiece piece).text = piece := by
  apply String.toList_inj.mp
  unfold ofPiece
  split <;> simp_all [text]

/-- Whether a segment is written as one piece that is read as this segment. -/
def IsCanonical : Segment → Prop
  | .literal text => text ≠ "" ∧ '/' ∉ text.toList ∧ markedName? text = none
  | .param name | .wildcard name => name ≠ "" ∧ '/' ∉ name.toList

theorem IsCanonical.text {segment : Segment} (h : segment.IsCanonical) :
    segment.text ≠ "" ∧ '/' ∉ segment.text.toList := by
  cases segment with
  | literal text => exact ⟨h.1, h.2.1⟩
  | param name => simpa [Segment.text] using h.2
  | wildcard name => simpa [Segment.text] using h.2

theorem IsCanonical.ofPiece_text {segment : Segment} (h : segment.IsCanonical) :
    ofPiece segment.text = segment := by
  cases segment with
  | literal text =>
      have hunmarked := h.2.2
      unfold markedName? at hunmarked
      unfold ofPiece
      split <;> simp_all [Segment.text]
  | param name => simp [ofPiece, Segment.text]
  | wildcard name => simp [ofPiece, Segment.text]

theorem IsCanonical.binder {segment : Segment} (h : segment.IsCanonical) {name : String}
    (hname : segment.binder = some name) : name ≠ "" := by
  cases segment with
  | literal text => cases hname
  | param own =>
      cases hname
      exact h.1
  | wildcard own =>
      cases hname
      exact h.1

theorem isCanonical_ofPiece {piece : String} (hne : piece ≠ "") (hslash : '/' ∉ piece.toList)
    (hnamed : markedName? piece ≠ some "") : (ofPiece piece).IsCanonical := by
  unfold markedName? at hnamed
  unfold ofPiece
  split <;> simp_all [IsCanonical, markedName?]

end Segment

theorem pairwise_left_iff {α : Type} {p : α → Prop} {items : List α} :
    (items.Pairwise fun first _ => p first) ↔ ∀ item ∈ items.dropLast, p item := by
  induction items with
  | nil => simp
  | cons item rest ih =>
      cases rest with
      | nil => simp
      | cons next rest =>
          rw [List.pairwise_cons, ih, List.dropLast_cons_cons]
          simp +contextual

namespace PathPattern

open Segment (markedName? isStarred)

/-! ## What is accepted -/

/-- Pieces that can be read as a pattern. -/
structure Grammatical (pieces : List String) : Prop where
  starLast : ∀ piece ∈ pieces.dropLast, isStarred piece = false
  named : ∀ piece ∈ pieces, markedName? piece ≠ some ""
  distinct : (pieces.filterMap markedName?).Nodup

theorem binders_map_ofPiece (pieces : List String) :
    binders (pieces.map Segment.ofPiece) = pieces.filterMap markedName? := by
  simp only [binders, List.filterMap_map, Function.comp_def, Segment.binder_ofPiece]

theorem fault?_map_ofPiece_eq_none_iff {pattern : String} {pieces : List String} :
    fault? pattern [] (pieces.map Segment.ofPiece) = none ↔ Grammatical pieces := by
  have hnamed : (∀ name ∈ pieces.filterMap markedName?, name ≠ "" ∧ name ∉ []) ↔
      ∀ piece ∈ pieces, markedName? piece ≠ some "" := by
    simp only [List.mem_filterMap, List.not_mem_nil, not_false_eq_true, and_true]
    constructor
    · rintro h piece hpiece hempty
      exact h "" ⟨piece, hpiece, hempty⟩ rfl
    · rintro h name ⟨piece, hpiece, hname⟩ rfl
      exact h piece hpiece hname
  rw [fault?_eq_none_iff, pairwise_left_iff, binders_map_ofPiece, hnamed, ← List.map_dropLast]
  simp only [List.forall_mem_map, Segment.isWildcard_ofPiece]
  exact ⟨fun ⟨hlast, hdistinct, hnamed⟩ => ⟨hlast, hnamed, hdistinct⟩,
    fun ⟨hlast, hnamed, hdistinct⟩ => ⟨hlast, hdistinct, hnamed⟩⟩

/-! ## What is refused, and for what -/

/-- What is wrong with a piece, given the pieces on both sides of it: a star before other pieces,
then a mark without a name, then a name that stands before it. -/
def offence? (pattern : String) (before : List String) (piece : String) (after : List String) :
    Option PatternError :=
  if isStarred piece && !after.isEmpty then some (.misplacedWildcard pattern)
  else
    (markedName? piece).bind fun name =>
      if name = "" then some (.unnamedParam pattern)
      else if name ∈ before.filterMap markedName? then some (.repeatedParam pattern name)
      else none

def Offends (pattern : String) (before pieces : List String) (fault : PatternError) : Prop :=
  ∃ sound piece after, pieces = sound ++ piece :: after ∧
    offence? pattern (before ++ sound) piece after = some fault ∧
      ∀ earlier other later, sound = earlier ++ other :: later →
        offence? pattern (before ++ earlier) other (later ++ piece :: after) = none

theorem offends_cons_iff {pattern : String} {before rest : List String} {piece : String}
    {fault : PatternError} :
    Offends pattern before (piece :: rest) fault ↔
      offence? pattern before piece rest = some fault ∨
        offence? pattern before piece rest = none ∧
          Offends pattern (before ++ [piece]) rest fault := by
  constructor
  · rintro ⟨sound, own, after, hsplit, hfault, hsound⟩
    cases sound with
    | nil =>
        cases hsplit
        exact .inl (by simpa using hfault)
    | cons first sound =>
        cases hsplit
        refine .inr ⟨by simpa using hsound [] piece sound rfl, sound, own, after, rfl, ?_, ?_⟩
        · simpa using hfault
        · rintro earlier other later rfl
          simpa using hsound (piece :: earlier) other later rfl
  · rintro (hfault | ⟨hpiece, sound, own, after, rfl, hfault, hsound⟩)
    · exact ⟨[], piece, rest, rfl, by simpa using hfault, by simp⟩
    · refine ⟨piece :: sound, own, after, rfl, by simpa using hfault, ?_⟩
      intro earlier other later hsplit
      cases earlier with
      | nil =>
          cases hsplit
          simpa using hpiece
      | cons first earlier =>
          cases hsplit
          simpa using hsound earlier other later rfl

theorem fault?_cons_map_ofPiece {pattern : String} {bound before : List String}
    (hbound : ∀ name, name ∈ bound ↔ name ∈ before.filterMap markedName?) (piece : String)
    (rest : List String) :
    fault? pattern bound ((piece :: rest).map Segment.ofPiece) =
      (offence? pattern before piece rest).or
        (fault? pattern ((markedName? piece).toList ++ bound) (rest.map Segment.ofPiece)) := by
  rw [List.map_cons, fault?, offence?, Segment.isWildcard_ofPiece, Segment.binder_ofPiece,
    List.isEmpty_map]
  split
  · rfl
  · cases markedName? piece with
    | none => rfl
    | some name =>
        simp only [Option.bind_some, List.contains_iff_mem, hbound]
        split
        · rfl
        · split <;> rfl

theorem fault?_map_ofPiece_eq_some_iff {pattern : String} {bound before pieces : List String}
    (hbound : ∀ name, name ∈ bound ↔ name ∈ before.filterMap markedName?) {fault : PatternError} :
    fault? pattern bound (pieces.map Segment.ofPiece) = some fault ↔
      Offends pattern before pieces fault := by
  induction pieces generalizing bound before with
  | nil => simp [fault?, Offends]
  | cons piece rest ih =>
      have hbound' : ∀ name, name ∈ (markedName? piece).toList ++ bound ↔
          name ∈ (before ++ [piece]).filterMap markedName? := by
        intro name
        rw [List.filterMap_append, List.mem_append, List.mem_append, hbound, or_comm]
        simp
      rw [fault?_cons_map_ofPiece hbound, offends_cons_iff, ← ih hbound']
      cases offence? pattern before piece rest <;> simp

/-! ## What is read is written again -/

structure Canonical (segments : List Segment) : Prop where
  written : ∀ segment ∈ segments, segment.IsCanonical
  wildcardLast : ∀ segment ∈ segments.dropLast, segment.isWildcard = false
  distinct : (binders segments).Nodup

def rendered (segments : List Segment) : String := Text.joined "/" (segments.map Segment.text)

theorem canonical_of_compile {pattern : String} {segments : List Segment}
    (h : compile pattern = .ok segments) :
    Canonical segments ∧ segments.map Segment.text = Text.pieces pattern := by
  obtain ⟨rfl, hfault⟩ := compile_eq_ok_iff.mp h
  obtain ⟨hlast, hnamed, hdistinct⟩ := fault?_map_ofPiece_eq_none_iff.mp hfault
  refine ⟨⟨?_, ?_, ?_⟩, ?_⟩
  · intro segment hsegment
    obtain ⟨piece, hpiece, rfl⟩ := List.mem_map.mp hsegment
    obtain ⟨hne, hslash⟩ := Text.mem_pieces hpiece
    exact Segment.isCanonical_ofPiece hne hslash (hnamed piece hpiece)
  · simpa [← List.map_dropLast, Segment.isWildcard_ofPiece] using hlast
  · rwa [binders_map_ofPiece]
  · simp [Function.comp_def]

theorem compile_rendered {segments : List Segment} (h : Canonical segments) :
    compile (rendered segments) = .ok segments := by
  have hpieces : Text.pieces (rendered segments) = segments.map Segment.text := by
    apply Text.pieces_joined
    intro text htext
    obtain ⟨segment, hsegment, rfl⟩ := List.mem_map.mp htext
    exact (h.written segment hsegment).text
  have hread : (segments.map Segment.text).map Segment.ofPiece = segments := by
    rw [List.map_map]
    exact (List.map_congr_left fun segment hsegment =>
      (h.written segment hsegment).ofPiece_text).trans (List.map_id segments)
  have hnamed : ∀ name ∈ binders segments, name ≠ "" ∧ name ∉ [] := by
    intro name hname
    obtain ⟨segment, hsegment, hbinder⟩ := List.mem_filterMap.mp hname
    exact ⟨(h.written segment hsegment).binder hbinder, List.not_mem_nil⟩
  rw [compile_eq_ok_iff, hpieces, hread, fault?_eq_none_iff, pairwise_left_iff]
  exact ⟨rfl, h.wildcardLast, h.distinct, hnamed⟩

/-- A pattern is accepted exactly if its pieces keep the grammar, and otherwise refused for the
leftmost piece that does not.  The segments of an accepted pattern are canonical and are written as
its pieces, and canonical segments are read back from what is written. -/
theorem compile_grammatical (pattern : String) :
    ((∃ segments, compile pattern = .ok segments) ↔ Grammatical (Text.pieces pattern)) ∧
      (∀ fault, compile pattern = .error fault ↔ Offends pattern [] (Text.pieces pattern) fault) ∧
      (∀ segments, compile pattern = .ok segments →
        Canonical segments ∧ segments.map Segment.text = Text.pieces pattern ∧
          compile (rendered segments) = .ok segments) ∧
      ∀ segments, Canonical segments → compile (rendered segments) = .ok segments := by
  refine ⟨?_, fun fault => ?_, fun segments h => ?_, fun segments => compile_rendered⟩
  · simp only [compile_eq_ok_iff, exists_eq_left, fault?_map_ofPiece_eq_none_iff]
  · have hnone : ∀ name : String, name ∈ [] ↔ name ∈ [].filterMap markedName? := by simp
    rw [← fault?_map_ofPiece_eq_some_iff hnone, compile]
    split <;> simp_all
  · obtain ⟨hcanonical, htexts⟩ := canonical_of_compile h
    exact ⟨hcanonical, htexts, compile_rendered hcanonical⟩

theorem compile_grammatical_marks :
    Offends "/::/:*x/*:" [] ["::", ":*x", "*:"] (.repeatedParam "/::/:*x/*:" ":") ∧
      Offends "/:/*/b" [] [":", "*", "b"] (.unnamedParam "/:/*/b") ∧
      Offends "*/:" [] ["*", ":"] (.misplacedWildcard "*/:") ∧
      Canonical [.param ":", .literal "a:", .wildcard "*:"] ∧
      compile (rendered [.param ":", .literal "a:", .wildcard "*:"]) =
        .ok [.param ":", .literal "a:", .wildcard "*:"] := by
  have hrepeated := ((compile_grammatical "/::/:*x/*:").2.1 (.repeatedParam "/::/:*x/*:" ":")).mp
    (by decide +kernel)
  have hunnamed := ((compile_grammatical "/:/*/b").2.1 (.unnamedParam "/:/*/b")).mp
    (by decide +kernel)
  have hmisplaced := ((compile_grammatical "*/:").2.1 (.misplacedWildcard "*/:")).mp
    (by decide +kernel)
  obtain ⟨hcanonical, -, hread⟩ := (compile_grammatical "//::/a:/**:").2.2.1
    [.param ":", .literal "a:", .wildcard "*:"] (by decide +kernel)
  have hpieces : Text.pieces "/::/:*x/*:" = ["::", ":*x", "*:"] := by decide +kernel
  have hpieces' : Text.pieces "/:/*/b" = [":", "*", "b"] := by decide +kernel
  have hpieces'' : Text.pieces "*/:" = ["*", ":"] := by decide +kernel
  rw [hpieces] at hrepeated
  rw [hpieces'] at hunnamed
  rw [hpieces''] at hmisplaced
  exact ⟨hrepeated, hunnamed, hmisplaced, hcanonical, hread⟩

end PathPattern

end HttpRouting
