import HttpRouting.Proofs.PathShape

/-!
# Compiled path patterns

What the compilation of a pattern promises about its segments: literals are
pieces of a path, parameters have names, each its own, and a wildcard comes last.
-/

namespace HttpRouting.PathPattern

structure WellFormed (segments : List Segment) : Prop where
  literals : ∀ text, .literal text ∈ segments → text ≠ "" ∧ '/' ∉ text.toList
  wildcardLast : segments.Pairwise fun first _ => first.isWildcard = false
  named : ∀ name ∈ binders segments, name ≠ ""
  distinct : (binders segments).Nodup

theorem binders_cons (segment : Segment) (rest : List Segment) :
    binders (segment :: rest) = segment.binder.toList ++ binders rest := by
  cases segment <;> rfl

theorem fault?_cons_eq_none_iff {pattern : String} {bound : List String} {segment : Segment}
    {rest : List Segment} :
    fault? pattern bound (segment :: rest) = none ↔
      (∀ other ∈ rest, segment.isWildcard = false) ∧
        (∀ name ∈ segment.binder, name ≠ "" ∧ name ∉ bound) ∧
          fault? pattern (segment.binder.toList ++ bound) rest = none := by
  have hplace : (∀ other ∈ rest, segment.isWildcard = false) ↔
      (segment.isWildcard && !rest.isEmpty) = false := by
    cases rest <;> simp +contextual
  rw [hplace, fault?]
  cases segment.isWildcard && !rest.isEmpty with
  | true => simp
  | false =>
      cases segment.binder with
      | none => simp
      | some name =>
          by_cases hempty : name = ""
          · simp [hempty]
          · by_cases hbound : name ∈ bound <;> simp [hempty, hbound]

theorem fault?_eq_none_iff {pattern : String} {bound : List String} {segments : List Segment} :
    fault? pattern bound segments = none ↔
      (segments.Pairwise fun first _ => first.isWildcard = false) ∧
        (binders segments).Nodup ∧ ∀ name ∈ binders segments, name ≠ "" ∧ name ∉ bound := by
  induction segments generalizing bound with
  | nil => simp [fault?]
  | cons segment rest ih =>
      rw [fault?_cons_eq_none_iff, ih, List.pairwise_cons, binders_cons, List.nodup_append]
      cases segment.binder with
      | none => simp [and_assoc]
      | some name => grind

theorem ofPiece_eq_literal {piece text : String} (h : Segment.ofPiece piece = .literal text) :
    piece = text := by
  unfold Segment.ofPiece at h
  split at h
  · contradiction
  · contradiction
  · exact Segment.literal.inj h

theorem wellFormed_of_compile {pattern : String} {segments : List Segment}
    (h : compile pattern = .ok segments) : WellFormed segments := by
  obtain ⟨hsegments, hfault⟩ := compile_eq_ok_iff.mp h
  obtain ⟨hlast, hnodup, hnames⟩ := fault?_eq_none_iff.mp hfault
  refine ⟨?_, hlast, fun name hname => (hnames name hname).1, hnodup⟩
  intro text htext
  rw [hsegments] at htext
  obtain ⟨piece, hpiece, hliteral⟩ := List.mem_map.mp htext
  rw [← ofPiece_eq_literal hliteral]
  exact Text.mem_pieces hpiece

end HttpRouting.PathPattern
