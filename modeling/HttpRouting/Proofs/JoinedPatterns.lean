import HttpRouting.Proofs.JoinedPath
import HttpRouting.Proofs.PathGrammar
import Mathlib.Data.List.Nodup

/-!
# Patterns put together

Of three paths it does not matter which two are joined first, and a joined path has the pieces of
one path and then those of the other.  So a joined pattern is accepted exactly if both patterns are,
no wildcard of the first has a piece after it and no name is in both, and it is compiled to the
segments of both.
-/

namespace HttpRouting

open Text

namespace Text

theorem pieces_dropTrailing (text : String) :
    pieces (dropTrailing isSlash text) = pieces text := by
  have hchars : ∀ cs : List Char,
      ((splitChars '/' (cs.rdropWhile isSlash)).map String.ofList).filter (· ≠ "") =
        ((splitChars '/' cs).map String.ofList).filter (· ≠ "") := by
    intro cs
    induction cs using List.reverseRecOn with
    | nil => rfl
    | append_singleton cs c ih =>
        by_cases hc : c = '/'
        · subst hc
          rw [List.rdropWhile_concat_pos _ _ _ rfl, ih, splitChars_append]
          simp [splitChars]
        · rw [List.rdropWhile_concat_neg]
          simpa [isSlash] using hc
  simpa [pieces, fields, dropTrailing, List.rdropWhile] using hchars text.toList

theorem dropTrailing_append (first : String) {last : String} (h : dropTrailing isSlash last ≠ "") :
    dropTrailing isSlash (first ++ last) = first ++ dropTrailing isSlash last := by
  have hsome : (last.toList.reverse.dropWhile isSlash).isEmpty = false := by
    simpa [dropTrailing, String.ofList_eq_empty_iff] using h
  apply String.toList_inj.mp
  simp [dropTrailing, List.dropWhile_append, hsome]

end Text

/-! ## Joined paths -/

@[simp] theorem pieces_bare (base : String) : pieces (bare base) = pieces base := by
  rw [bare, pieces_dropTrailing, pieces_dropLeading]

theorem dropTrailing_bare (base : String) : dropTrailing isSlash (bare base) = bare base := by
  apply String.toList_inj.mp
  have hidem := List.rdropWhile_idempotent isSlash (dropLeading isSlash base).toList
  simpa [bare, dropTrailing, List.rdropWhile] using hidem

theorem bare_ne_empty {path : String} (h : dropLeading isSlash path ≠ "") : bare path ≠ "" := by
  intro hempty
  have hall : ∀ c ∈ (dropLeading isSlash path).toList, isSlash c = true := by
    rw [← List.rdropWhile_eq_nil_iff]
    simpa [bare, dropTrailing, List.rdropWhile, String.ofList_eq_empty_iff] using hempty
  apply h
  rw [← dropLeading_idem, dropLeading_eq_empty_iff]
  simpa [isSlash] using hall

theorem bare_eq_empty {path : String} (h : dropLeading isSlash path = "") : bare path = "" := by
  rw [bare, h]
  rfl

theorem bare_joinPath_of_bare_eq_empty {a : String} (ha : bare a = "") (b : String) :
    bare (joinPath a b) = bare b := by
  rw [joinPath_eq, ha]
  by_cases hb : dropLeading isSlash b = ""
  · rw [bare_eq_empty hb, hb]
    decide
  · have hjoined : slashed ["", dropLeading isSlash b] = "/" ++ dropLeading isSlash b ++ "" := by
      simp [slashed, segmented_cons, hb]
    rw [hjoined, bare, dropLeading_slash_append _ hb (dropLeading_idem b), String.append_empty, bare]

theorem bare_joinPath_of_leading_eq_empty (a : String) {b : String}
    (hb : dropLeading isSlash b = "") : bare (joinPath a b) = bare a := by
  by_cases ha : bare a = ""
  · rw [bare_joinPath_of_bare_eq_empty ha, bare_eq_empty hb, ha]
  · have hjoined : joinPath a b = "/" ++ bare a ++ "" := by
      simp [joinPath_eq, slashed, segmented_cons, ha, hb]
    rw [hjoined, bare, dropLeading_slash_append _ ha (dropLeading_bare a), String.append_empty,
      dropTrailing_bare]

theorem bare_joinPath {a b : String} (ha : bare a ≠ "") (hb : dropLeading isSlash b ≠ "") :
    bare (joinPath a b) = bare a ++ ("/" ++ bare b) := by
  have hjoined : joinPath a b = "/" ++ bare a ++ ("/" ++ dropLeading isSlash b) := by
    simp [joinPath_eq, slashed, segmented_cons, ha, hb]
  have htrailing : dropTrailing isSlash ("/" ++ dropLeading isSlash b) = "/" ++ bare b :=
    dropTrailing_append "/" (bare_ne_empty hb)
  have hne : dropTrailing isSlash ("/" ++ dropLeading isSlash b) ≠ "" := by
    simp [htrailing]
  rw [hjoined, bare, dropLeading_slash_append _ ha (dropLeading_bare a),
    dropTrailing_append _ hne, htrailing]

theorem segmented_bare_joinPath (a b : String) :
    segmented [bare (joinPath a b)] = segmented [bare a, bare b] := by
  by_cases ha : bare a = ""
  · rw [bare_joinPath_of_bare_eq_empty ha]
    simp [segmented_cons, ha]
  · by_cases hb : dropLeading isSlash b = ""
    · rw [bare_joinPath_of_leading_eq_empty a hb, bare_eq_empty hb]
      simp [segmented_cons]
    · rw [bare_joinPath ha hb]
      simp [segmented_cons, ha, bare_ne_empty hb, String.append_assoc]

theorem joinPath_assoc (a b c : String) :
    joinPath a (joinPath b c) = joinPath (joinPath a b) c := by
  have hinner : joinPath b c = joinedPath [b] c := joinPath_eq b c
  have hsegmented : segmented [bare (joinPath a b), dropLeading isSlash c] =
      segmented [bare a, bare b, dropLeading isSlash c] := by
    have htwo := segmented_bare_joinPath a b
    simp only [segmented_cons, segmented_nil, String.append_empty] at htwo ⊢
    rw [htwo, String.append_assoc]
  rw [hinner, joinPath_joinedPath, joinPath_eq (joinPath a b) c, joinedPath]
  simp only [slashed, List.map_cons, List.map_nil, List.cons_append, List.nil_append, hsegmented]

theorem head?_joinPath (a b : String) : (joinPath a b).toList.head? = some '/' := by
  rw [joinPath_eq, slashed]
  split
  · rfl
  · next hsome =>
      rw [segmented_eq_empty_iff] at hsome
      obtain ⟨part, rest, hparts⟩ := List.exists_cons_of_ne_nil hsome
      rw [segmented, hparts, List.map_cons, String.join_cons]
      simp

theorem pieces_slashed (parts : List String) : pieces (slashed parts) = parts.flatMap pieces := by
  have hempty : pieces "" = [] := by decide
  have hfilter : (parts.filter (· ≠ "")).flatMap pieces = parts.flatMap pieces := by
    induction parts with
    | nil => rfl
    | cons part rest ih =>
        by_cases hpart : part = "" <;> simp_all
  rw [slashed]
  split
  · next hnone =>
      rw [← hfilter, segmented_eq_empty_iff.mp hnone]
      decide
  · rw [segmented, pieces_join, hfilter]

theorem pieces_joinPath (a b : String) : pieces (joinPath a b) = pieces a ++ pieces b := by
  rw [joinPath_eq, pieces_slashed]
  simp [pieces_dropLeading]

/-! ## Joined patterns -/

namespace PathPattern

open Segment (markedName? isStarred)

theorem compile_eq_ok_iff_grammatical {pattern : String} {segments : List Segment} :
    compile pattern = .ok segments ↔
      segments = (pieces pattern).map Segment.ofPiece ∧ Grammatical (pieces pattern) := by
  rw [compile_eq_ok_iff]
  refine and_congr_right fun hsegments => ?_
  rw [hsegments, fault?_map_ofPiece_eq_none_iff]

theorem grammatical_iff_pairwise {texts : List String} :
    Grammatical texts ↔
      (texts.Pairwise fun first _ => isStarred first = false) ∧
        (∀ text ∈ texts, markedName? text ≠ some "") ∧ (texts.filterMap markedName?).Nodup := by
  rw [pairwise_left_iff]
  exact ⟨fun ⟨hlast, hnamed, hdistinct⟩ => ⟨hlast, hnamed, hdistinct⟩,
    fun ⟨hlast, hnamed, hdistinct⟩ => ⟨hlast, hnamed, hdistinct⟩⟩

theorem grammatical_append_iff {first second : List String} :
    Grammatical (first ++ second) ↔
      Grammatical first ∧ Grammatical second ∧
        ((∀ text ∈ first, isStarred text = false) ∨ second = []) ∧
          ∀ name ∈ first.filterMap markedName?, name ∉ second.filterMap markedName? := by
  have hstars : (∀ text ∈ first, ∀ other ∈ second, isStarred text = false) ↔
      (∀ text ∈ first, isStarred text = false) ∨ second = [] := by
    cases second with
    | nil => simp
    | cons other rest =>
        have hother : ∀ text, (∀ item ∈ other :: rest, isStarred text = false) ↔
            isStarred text = false :=
          fun text => ⟨fun h => h other List.mem_cons_self, fun h item hitem => h⟩
        simp only [hother, reduceCtorEq, or_false]
  rw [grammatical_iff_pairwise, grammatical_iff_pairwise, grammatical_iff_pairwise,
    List.pairwise_append, List.forall_mem_append, List.filterMap_append, List.nodup_append', hstars]
  unfold List.Disjoint
  tauto

/-- Two patterns of which one can stand before the other. -/
structure Joins (a b : String) (first second : List Segment) : Prop where
  left : compile a = .ok first
  right : compile b = .ok second
  wildcardLast : (∀ segment ∈ first, segment.isWildcard = false) ∨ pieces b = []
  disjoint : ∀ name ∈ binders first, name ∉ binders second

theorem compile_joinPath_eq_ok_iff {a b : String} {segments : List Segment} :
    compile (joinPath a b) = .ok segments ↔
      ∃ first second, Joins a b first second ∧ segments = first ++ second := by
  have hstars : (∀ segment ∈ (pieces a).map Segment.ofPiece, segment.isWildcard = false) ↔
      ∀ text ∈ pieces a, isStarred text = false := by
    simp [Segment.isWildcard_ofPiece]
  rw [compile_eq_ok_iff_grammatical, pieces_joinPath, List.map_append, grammatical_append_iff,
    ← hstars, ← binders_map_ofPiece, ← binders_map_ofPiece]
  constructor
  · rintro ⟨rfl, ha, hb, hlast, hdisjoint⟩
    exact ⟨_, _, ⟨compile_eq_ok_iff_grammatical.mpr ⟨rfl, ha⟩,
      compile_eq_ok_iff_grammatical.mpr ⟨rfl, hb⟩, hlast, hdisjoint⟩, rfl⟩
  · rintro ⟨first, second, ⟨hfirst, hsecond, hlast, hdisjoint⟩, rfl⟩
    obtain ⟨rfl, ha⟩ := compile_eq_ok_iff_grammatical.mp hfirst
    obtain ⟨rfl, hb⟩ := compile_eq_ok_iff_grammatical.mp hsecond
    exact ⟨rfl, ha, hb, hlast, hdisjoint⟩

/-- Joining paths is associative, a joined path begins with a slash and has the pieces of both, and
a joined pattern is compiled to the segments of both if one can stand before the other, and refused
if not. -/
theorem joinPath_concatenates (a b c : String) :
    joinPath a (joinPath b c) = joinPath (joinPath a b) c ∧
      (joinPath a b).toList.head? = some '/' ∧
      pieces (joinPath a b) = pieces a ++ pieces b ∧
      (∀ first second, Joins a b first second →
        compile (joinPath a b) = .ok (first ++ second)) ∧
      ((¬ ∃ first second, Joins a b first second) →
        ∃ fault, compile (joinPath a b) = .error fault) := by
  refine ⟨joinPath_assoc a b c, head?_joinPath a b, pieces_joinPath a b, ?_, ?_⟩
  · intro first second hjoins
    exact compile_joinPath_eq_ok_iff.mpr ⟨first, second, hjoins, rfl⟩
  · intro hnone
    cases hcompiled : compile (joinPath a b) with
    | error fault => exact ⟨fault, rfl⟩
    | ok segments =>
        obtain ⟨first, second, hjoins, -⟩ := compile_joinPath_eq_ok_iff.mp hcompiled
        exact absurd ⟨first, second, hjoins⟩ hnone

theorem joinPath_concatenates_shelves :
    joinPath "//shelves/:id//" (joinPath "//" ":page/*rest/") =
        joinPath (joinPath "//shelves/:id//" "//") ":page/*rest/" ∧
      compile (joinPath "//shelves/:id//" ":page/*rest/") =
        .ok [.literal "shelves", .param "id", .param "page", .wildcard "rest"] ∧
      compile (joinPath ":page/*rest/" "//") = .ok [.param "page", .wildcard "rest"] ∧
      ∃ fault, compile (joinPath "//shelves/:id//" "*id") = .error fault := by
  have hshelves : compile "//shelves/:id//" = .ok [.literal "shelves", .param "id"] := by
    decide +kernel
  have hpage : compile ":page/*rest/" = .ok [.param "page", .wildcard "rest"] := by
    decide +kernel
  have hid : compile "*id" = .ok [.wildcard "id"] := by decide +kernel
  refine ⟨?_, ?_, ?_, ?_⟩
  · exact (joinPath_concatenates "//shelves/:id//" "//" ":page/*rest/").1
  · have hjoins : Joins "//shelves/:id//" ":page/*rest/" [.literal "shelves", .param "id"]
        [.param "page", .wildcard "rest"] :=
      ⟨hshelves, hpage, .inl (by decide), by decide⟩
    exact (joinPath_concatenates _ _ "").2.2.2.1 _ _ hjoins
  · have hjoins : Joins ":page/*rest/" "//" [.param "page", .wildcard "rest"] [] :=
      ⟨hpage, by decide +kernel, .inr (by decide +kernel), by decide⟩
    exact (joinPath_concatenates _ _ "").2.2.2.1 _ _ hjoins
  · apply (joinPath_concatenates _ _ "").2.2.2.2
    rintro ⟨first, second, hjoins⟩
    obtain rfl : [.literal "shelves", .param "id"] = first := by
      simpa [hshelves] using hjoins.left
    obtain rfl : [.wildcard "id"] = second := by simpa [hid] using hjoins.right
    exact absurd hjoins.disjoint (by decide)

end PathPattern

end HttpRouting
