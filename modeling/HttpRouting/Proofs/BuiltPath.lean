import HttpRouting.Proofs.PathCompile
import HttpRouting.Proofs.ReadBack
import HttpRouting.Table.Reverse
import Mathlib.Data.List.TakeWhile

/-!
# The pieces of a built path

A path that is built from a pattern falls back into the texts of its segments.
The text of a literal or of a parameter is one piece, that of a wildcard one
piece or more, so the pattern matches every path that is built from it and takes
from it what the path was built from.
-/

namespace HttpRouting

namespace Text

theorem pieces_append_join (first : String) (texts : List String) :
    pieces (first ++ String.join (texts.map ("/" ++ ·))) =
      pieces first ++ texts.flatMap pieces := by
  induction texts generalizing first with
  | nil => simp
  | cons text rest ih =>
      have hsplit : (first ++ String.join ((text :: rest).map ("/" ++ ·))).toList =
          first.toList ++ '/' :: (text ++ String.join (rest.map ("/" ++ ·))).toList := by
        simp [String.join_cons]
      rw [pieces_append hsplit, ih text, List.flatMap_cons]

theorem pieces_join (texts : List String) :
    pieces (String.join (texts.map ("/" ++ ·))) = texts.flatMap pieces := by
  have hempty : pieces "" = [] := by decide
  have h := pieces_append_join "" texts
  rwa [hempty, List.nil_append, String.empty_append] at h

theorem pieces_ne_nil {text : String} {c : Char} {rest : List Char} (h : text.toList = c :: rest)
    (hc : c ≠ '/') : pieces text ≠ [] := by
  have hfields : ∃ piece more, splitChars '/' text.toList = (c :: piece) :: more := by
    rw [h, splitChars, if_neg hc]
    cases hrest : splitChars '/' rest with
    | nil => exact absurd hrest (splitChars_ne_nil '/' rest)
    | cons piece more => exact ⟨piece, more, rfl⟩
  obtain ⟨piece, more, hsplit⟩ := hfields
  simp [pieces, fields, hsplit]

theorem pieces_dropLeading (text : String) : pieces (dropLeading isSlash text) = pieces text := by
  have hchars : ∀ cs : List Char,
      ((splitChars '/' (cs.dropWhile isSlash)).map String.ofList).filter (· ≠ "") =
        ((splitChars '/' cs).map String.ofList).filter (· ≠ "") := by
    intro cs
    induction cs with
    | nil => rfl
    | cons c rest ih =>
        by_cases hc : c = '/'
        · simpa [hc, isSlash, splitChars] using ih
        · simp [hc, isSlash]
  simpa [pieces, fields, dropLeading] using hchars text.toList

theorem dropLeading_eq_empty_iff {text : String} :
    dropLeading isSlash text = "" ↔ ∀ c ∈ text.toList, c = '/' := by
  simp [dropLeading, String.ofList_eq_empty_iff, List.dropWhile_eq_nil_iff, isSlash]

namespace Percent

theorem slash_not_mem_upperHex (b : UInt8) : '/' ∉ upperHex b := by
  have hdigit : ∀ n < 16, upperDigit n ≠ '/' := by decide
  have hbound := b.toNat_lt
  have hhigh := hdigit (b.toNat / 16) (by omega)
  have hlow := hdigit (b.toNat % 16) (by omega)
  simp [upperHex, hhigh.symm, hlow.symm]

theorem slash_not_mem_encode {keep : UInt8 → Bool} (hkeep : keep 0x2F = false) (s : String) :
    '/' ∉ (encode keep s).toList := by
  intro hmem
  rw [encode, String.toList_ofList, List.mem_flatMap] at hmem
  obtain ⟨b, -, hb⟩ := hmem
  split at hb
  · next hkept =>
      rw [Bool.and_eq_true, decide_eq_true_eq, UInt8.lt_iff_toNat_lt] at hkept
      have hcode : ∀ n < 128, Char.ofNat n = '/' → n = 47 := by decide
      have hslash : Char.ofNat b.toNat = '/' := (List.mem_singleton.mp hb).symm
      have hbyte : b = 0x2F := UInt8.toNat_inj.mp (hcode b.toNat hkept.1 hslash)
      rw [hbyte, hkeep] at hkept
      exact absurd hkept.2 Bool.false_ne_true
  · rcases List.mem_cons.mp hb with hpercent | hhex
    · exact absurd hpercent (by decide)
    · exact slash_not_mem_upperHex b hhex

theorem encode_ne_empty (keep : UInt8 → Bool) {s : String} (h : s ≠ "") : encode keep s ≠ "" := by
  obtain ⟨b, bytes, hbytes⟩ := List.exists_cons_of_ne_nil (Utf8.encode_ne_nil h)
  intro hempty
  rw [encode, hbytes, List.flatMap_cons, String.ofList_eq_empty_iff, List.append_eq_nil_iff]
    at hempty
  obtain ⟨hfirst, -⟩ := hempty
  split at hfirst <;> simp at hfirst

end Percent

end Text

namespace PathPattern

theorem WellFormed.tail {segment : Segment} {rest : List Segment}
    (h : WellFormed (segment :: rest)) : WellFormed rest := by
  have hnamed := h.named
  have hdistinct := h.distinct
  rw [binders_cons] at hnamed hdistinct
  constructor
  · intro text htext
    exact h.literals text (List.mem_cons_of_mem _ htext)
  · exact (List.pairwise_cons.mp h.wildcardLast).2
  · intro name hname
    exact hnamed name (List.mem_append_right _ hname)
  · exact (List.nodup_append.mp hdistinct).2.1

/-! ## The text of one segment -/

theorem pieces_param {params : List (String × String)} {name text : String}
    (h : segmentText? params (.param name) = some text) :
    ∃ value, params.lookup name = some value ∧
      Text.pieces text = [Text.Percent.encode keepsByte value] := by
  obtain ⟨value, hvalue, htext⟩ := Option.bind_eq_some_iff.mp h
  split at htext
  · contradiction
  · next hne =>
      cases htext
      have hslash : '/' ∉ (Text.Percent.encode keepsByte value).toList :=
        Text.Percent.slash_not_mem_encode (by decide) value
      have hnonempty := Text.Percent.encode_ne_empty keepsByte hne
      exact ⟨value, hvalue, Text.pieces_of_not_mem hnonempty hslash⟩

theorem pieces_wildcard {params : List (String × String)} {name text : String}
    (h : segmentText? params (.wildcard name) = some text) :
    ∃ value, params.lookup name = some value ∧ Text.pieces text = Text.pieces value ∧
      Text.pieces value ≠ [] := by
  obtain ⟨value, hlookup, hvalue⟩ := Option.bind_eq_some_iff.mp h
  have htext : (if Text.dropLeading Text.isSlash value = "" then none
      else some (Text.dropLeading Text.isSlash value)) = some text := hvalue
  split at htext
  · contradiction
  · next hne =>
      cases htext
      refine ⟨value, hlookup, Text.pieces_dropLeading value, ?_⟩
      rw [← Text.pieces_dropLeading value]
      cases hdrop : value.toList.dropWhile Text.isSlash with
      | nil => simp [Text.dropLeading, hdrop] at hne
      | cons c rest =>
          have hc : c ≠ '/' := by
            have hhead := List.head?_dropWhile_not Text.isSlash value.toList
            simpa [hdrop, Text.isSlash] using hhead
          have hlist : (Text.dropLeading Text.isSlash value).toList = c :: rest := by
            rw [Text.dropLeading, hdrop, String.toList_ofList]
          exact Text.pieces_ne_nil hlist hc

def Lacks (params : List (String × String)) : Segment → Prop
  | .literal _ => False
  | .param name => params.lookup name = none ∨ params.lookup name = some ""
  | .wildcard name =>
      params.lookup name = none ∨
        ∃ value, params.lookup name = some value ∧ ∀ c ∈ value.toList, c = '/'

theorem segmentText?_eq_none_iff {params : List (String × String)} {segment : Segment} :
    segmentText? params segment = none ↔ Lacks params segment := by
  cases segment with
  | literal text => simp [segmentText?, Lacks]
  | param name => cases hvalue : params.lookup name <;> simp [segmentText?, Lacks, hvalue]
  | wildcard name =>
      cases hvalue : params.lookup name with
      | none => simp [segmentText?, Lacks, hvalue]
      | some value =>
          simp only [segmentText?, Lacks, hvalue, ← Text.dropLeading_eq_empty_iff]
          simp

/-! ## The path -/

theorem mapM_eq_none_iff {f : Segment → Option String} {segments : List Segment} :
    segments.mapM f = none ↔ ∃ segment ∈ segments, f segment = none := by
  induction segments with
  | nil => simp
  | cons segment rest ih =>
      rw [List.mapM_cons]
      cases hfirst : f segment with
      | none => simp [hfirst]
      | some text => cases hrest : rest.mapM f <;> simp [hfirst, hrest, ← ih]

theorem build?_eq_none_iff {segments : List Segment} {params : List (String × String)} :
    build? segments params = none ↔ ∃ segment ∈ segments, Lacks params segment := by
  have htexts : build? segments params = none ↔ segments.mapM (segmentText? params) = none := by
    cases hmap : segments.mapM (segmentText? params) with
    | none => simp [build?, hmap]
    | some texts => cases texts <;> simp [build?, hmap]
  simp only [htexts, mapM_eq_none_iff, segmentText?_eq_none_iff]

theorem exists_texts_of_build? {segments : List Segment} {params : List (String × String)}
    {path : String} (h : build? segments params = some path) :
    ∃ texts, segments.mapM (segmentText? params) = some texts ∧
      Text.pieces path = texts.flatMap Text.pieces := by
  obtain ⟨texts, htexts, hpath⟩ := Option.bind_eq_some_iff.mp h
  refine ⟨texts, htexts, ?_⟩
  cases texts with
  | nil =>
      cases hpath
      decide
  | cons text rest =>
      cases hpath
      exact Text.pieces_join (text :: rest)

/-- What a segment gives back of the parameters that a path was built from. -/
def restored? (params : List (String × String)) : Segment → Option (String × String)
  | .literal _ => none
  | .param name => (params.lookup name).map fun value => (name, value)
  | .wildcard name =>
      (params.lookup name).map fun value =>
        (name, Text.Percent.decode (Text.joined "/" (Text.pieces value)))

theorem exists_captures_of_texts {segments : List Segment} (hwell : WellFormed segments)
    {params : List (String × String)} {texts : List String}
    (h : segments.mapM (segmentText? params) = some texts) :
    ∃ captures, captures? segments (texts.flatMap Text.pieces) = some captures ∧
      (binders segments).zip (captures.map Text.Percent.decode) =
        segments.filterMap (restored? params) := by
  induction segments generalizing texts with
  | nil =>
      cases h
      exact ⟨[], rfl, rfl⟩
  | cons segment rest ih =>
      rw [List.mapM_cons] at h
      obtain ⟨text, htext, hrest⟩ := Option.bind_eq_some_iff.mp h
      obtain ⟨more, hmore, hsame⟩ := Option.bind_eq_some_iff.mp hrest
      cases hsame
      rw [List.flatMap_cons]
      cases segment with
      | literal own =>
          obtain rfl : own = text := Option.some.inj htext
          obtain ⟨hne, hslash⟩ := hwell.literals own (by simp)
          obtain ⟨captures, hcaptures, hzip⟩ := ih hwell.tail hmore
          rw [Text.pieces_of_not_mem hne hslash]
          refine ⟨captures, by simpa [captures?] using hcaptures, ?_⟩
          simpa [List.filterMap_cons, restored?] using hzip
      | param name =>
          obtain ⟨value, hvalue, hpieces⟩ := pieces_param htext
          obtain ⟨captures, hcaptures, hzip⟩ := ih hwell.tail hmore
          have hdecode : Text.Percent.decode (Text.Percent.encode keepsByte value) = value :=
            Text.Percent.decode_encode (by decide) value
          rw [hpieces]
          refine ⟨Text.Percent.encode keepsByte value :: captures, ?_, ?_⟩
          · simp [captures?, hcaptures]
          · simp [restored?, hvalue, hdecode, hzip]
      | wildcard name =>
          have hlast : rest = [] := by
            cases rest with
            | nil => rfl
            | cons next rest =>
                have hplace := (List.pairwise_cons.mp hwell.wildcardLast).1 next (by simp)
                simp [Segment.isWildcard] at hplace
          subst hlast
          cases hmore
          obtain ⟨value, hvalue, hsame, hnonempty⟩ := pieces_wildcard htext
          obtain ⟨piece, pieces, hpieces⟩ := List.exists_cons_of_ne_nil hnonempty
          rw [hsame, hpieces]
          exact ⟨_, rfl, by simp [restored?, hvalue, hpieces]⟩

theorem exists_captures_of_build? {segments : List Segment} (hwell : WellFormed segments)
    {params : List (String × String)} {path : String} (h : build? segments params = some path) :
    ∃ captures, captures? segments (Text.pieces path) = some captures ∧
      (binders segments).zip (captures.map Text.Percent.decode) =
        segments.filterMap (restored? params) := by
  obtain ⟨texts, htexts, hpieces⟩ := exists_texts_of_build? h
  rw [hpieces]
  exact exists_captures_of_texts hwell htexts

theorem accepts_build? {segments : List Segment} (hwell : WellFormed segments)
    {params : List (String × String)} {path : String} (h : build? segments params = some path) :
    accepts segments (Text.pieces path) = true := by
  obtain ⟨captures, hcaptures, -⟩ := exists_captures_of_build? hwell h
  rw [accepts, hcaptures]
  rfl

end PathPattern

end HttpRouting
