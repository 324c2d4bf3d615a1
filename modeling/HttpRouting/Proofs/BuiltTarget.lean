import HttpRouting.Proofs.FormReadBack
import HttpRouting.Proofs.PathRoundTrip
import HttpRouting.Proofs.ReverseRouting

/-!
# Built paths as request targets

A path and a query that are built for a route are legal in the target of a request, which
is cut again where the two were put together.  A request for the target has the path, the
pairs of the query in ascending order and, at the route, the parameters.
-/

namespace HttpRouting

/-! ## Targets that are cut at the question mark -/

namespace Target

theorem ne_of_isPathChar {c : Char} (h : isPathChar c = true) : c ≠ '#' ∧ c ≠ '?' := by
  constructor <;> rintro rfl <;> revert h <;> decide

theorem ne_of_isQueryChar {c : Char} (h : isQueryChar c = true) : c ≠ '#' := by
  rintro rfl
  revert h
  decide

theorem pathAndQuery_path {path : List Char} (hne : path ≠ [])
    (hpath : ∀ c ∈ path, isPathChar c = true) :
    pathAndQuery path = some (String.ofList path, none) := by
  have hfragment : path.takeWhile (· ≠ '#') = path := by
    rw [List.takeWhile_eq_self_iff]
    exact fun c hc => decide_eq_true (ne_of_isPathChar (hpath c hc)).1
  have hmark : path.takeWhile (· ≠ '?') = path := by
    rw [List.takeWhile_eq_self_iff]
    exact fun c hc => decide_eq_true (ne_of_isPathChar (hpath c hc)).2
  have hlegal : path.all isPathChar = true := List.all_eq_true.mpr hpath
  simp only [pathAndQuery, hfragment, hmark, hlegal, hne, List.drop_length, if_true, if_false]

theorem pathAndQuery_query {path query : List Char} (hne : path ≠ [])
    (hpath : ∀ c ∈ path, isPathChar c = true) (hquery : ∀ c ∈ query, isQueryChar c = true) :
    pathAndQuery (path ++ '?' :: query) =
      some (String.ofList path, some (String.ofList query)) := by
  have hfragment : (path ++ '?' :: query).takeWhile (· ≠ '#') = path ++ '?' :: query := by
    rw [List.takeWhile_eq_self_iff]
    intro c hc
    rcases List.mem_append.mp hc with hc | hc
    · exact decide_eq_true (ne_of_isPathChar (hpath c hc)).1
    rcases List.mem_cons.mp hc with rfl | hc
    · decide
    · exact decide_eq_true (ne_of_isQueryChar (hquery c hc))
  have hmark : (path ++ '?' :: query).takeWhile (· ≠ '?') = path := by
    rw [List.takeWhile_append_of_pos]
    · simp
    · exact fun c hc => decide_eq_true (ne_of_isPathChar (hpath c hc)).2
  have hlegal : path.all isPathChar = true := List.all_eq_true.mpr hpath
  have hlegal' : query.all isQueryChar = true := List.all_eq_true.mpr hquery
  simp only [pathAndQuery, hfragment, hmark, hlegal, hlegal', hne, List.drop_left, if_true,
    if_false]

theorem parse?_slash {s : String} {rest : List Char} (hslash : s.toList = '/' :: rest)
    (hsize : s.utf8ByteSize ≤ maxBytes) :
    parse? s = (pathAndQuery s.toList).map fun cut => ⟨none, cut.1, cut.2⟩ := by
  rw [parse?, if_neg (Nat.not_lt.mpr hsize), hslash, Option.map_eq_bind]
  cases rest <;> rfl

end Target

/-! ## The characters of a built path -/

namespace PathPattern

theorem isPathChar_encode (value : String) :
    ∀ c ∈ (Text.Percent.encode keepsByte value).toList, Target.isPathChar c = true := by
  have hbyte : ∀ b : UInt8,
      (if b < 0x80 && keepsByte b then [Char.ofNat b.toNat] else '%' :: Text.upperHex b).all
        Target.isPathChar = true := Text.forall_byte (by decide +kernel)
  intro c hc
  rw [Text.Percent.encode, String.toList_ofList] at hc
  obtain ⟨b, -, hb⟩ := List.mem_flatMap.mp hc
  exact List.all_eq_true.mp (hbyte b) c hb

/-- No wildcard is in a pattern, and its literals are legal in the path of a target. -/
structure Legal (segments : List Segment) : Prop where
  noWildcard : ∀ segment ∈ segments, segment.isWildcard = false
  literals : ∀ text, .literal text ∈ segments → ∀ c ∈ text.toList, Target.isPathChar c = true

theorem Legal.isPathChar_text {segments : List Segment} (h : Legal segments) {segment : Segment}
    (hsegment : segment ∈ segments) {params : List (String × String)} {text : String}
    (htext : segmentText? params segment = some text) :
    ∀ c ∈ text.toList, Target.isPathChar c = true := by
  cases segment with
  | literal own =>
      cases htext
      exact h.literals _ hsegment
  | param name =>
      obtain ⟨value, -, hvalue⟩ := Option.bind_eq_some_iff.mp htext
      split at hvalue
      · contradiction
      · cases hvalue
        exact isPathChar_encode value
  | wildcard name => exact absurd (h.noWildcard _ hsegment) (by simp [Segment.isWildcard])

theorem exists_of_mem_mapM {f : Segment → Option String} {segments : List Segment}
    {texts : List String} (h : segments.mapM f = some texts) {text : String}
    (htext : text ∈ texts) : ∃ segment ∈ segments, f segment = some text := by
  induction segments generalizing texts with
  | nil =>
      cases h
      contradiction
  | cons segment rest ih =>
      rw [List.mapM_cons] at h
      obtain ⟨first, hfirst, hrest⟩ := Option.bind_eq_some_iff.mp h
      obtain ⟨more, hmore, hsame⟩ := Option.bind_eq_some_iff.mp hrest
      cases hsame
      rcases List.mem_cons.mp htext with rfl | hmem
      · exact ⟨segment, by simp, hfirst⟩
      · obtain ⟨other, hother, hsome⟩ := ih hmore hmem
        exact ⟨other, List.mem_cons_of_mem _ hother, hsome⟩

theorem exists_slash_of_build? {segments : List Segment} {params : List (String × String)}
    {path : String} (h : build? segments params = some path) :
    ∃ rest, path.toList = '/' :: rest := by
  obtain ⟨texts, -, hpath⟩ := Option.bind_eq_some_iff.mp h
  cases texts with
  | nil =>
      cases hpath
      exact ⟨[], by decide⟩
  | cons text rest =>
      cases hpath
      exact ⟨(text ++ String.join (rest.map ("/" ++ ·))).toList, by simp [String.join_cons]⟩

theorem Legal.isPathChar_path {segments : List Segment} (h : Legal segments)
    {params : List (String × String)} {path : String}
    (hbuild : build? segments params = some path) :
    ∀ c ∈ path.toList, Target.isPathChar c = true := by
  obtain ⟨texts, htexts, hpath⟩ := Option.bind_eq_some_iff.mp hbuild
  cases texts with
  | nil =>
      cases hpath
      exact List.all_eq_true.mp (by decide)
  | cons first rest =>
      cases hpath
      intro c hc
      have hmem : ∃ text ∈ first :: rest, c = '/' ∨ c ∈ text.toList := by
        rw [String.toList_join, List.mem_flatMap] at hc
        simpa using hc
      obtain ⟨text, htext, rfl | hin⟩ := hmem
      · decide
      · obtain ⟨segment, hsegment, hsome⟩ := exists_of_mem_mapM htexts htext
        exact h.isPathChar_text hsegment hsome c hin

/-! ## The query of a map -/

theorem isQueryChar_encode (pairs : List (String × String)) :
    ∀ c ∈ (Text.Form.encode pairs).toList, Target.isQueryChar c = true := by
  have hbyte : ∀ b : UInt8, (Text.Form.encodeByte b).all Target.isQueryChar = true :=
    Text.forall_byte (by decide +kernel)
  have htext : ∀ s : String, ∀ c ∈ (Text.Form.encodeText s).toList,
      Target.isQueryChar c = true := by
    intro s c hc
    rw [Text.Form.encodeText, String.toList_ofList] at hc
    obtain ⟨b, -, hb⟩ := List.mem_flatMap.mp hc
    exact List.all_eq_true.mp (hbyte b) c hb
  have hand : "&".toList.all Target.isQueryChar = true := by decide
  have hmark : "=".toList.all Target.isQueryChar = true := by decide
  refine Text.forall_mem_joined (P := fun c => Target.isQueryChar c = true)
    (List.all_eq_true.mp hand) ?_
  intro part hpart c hc
  obtain ⟨pair, -, rfl⟩ := List.mem_map.mp hpart
  rw [Text.Form.encodePair, String.toList_append, String.toList_append, List.mem_append,
    List.mem_append] at hc
  rcases hc with (hc | hc) | hc
  · exact htext pair.1 c hc
  · exact List.all_eq_true.mp hmark c hc
  · exact htext pair.2 c hc

def PairLe (a b : String × String) : Prop := a.1 < b.1 ∨ a.1 = b.1 ∧ a.2 ≤ b.2

theorem pairLe_iff {a b : String × String} :
    (a.1 < b.1 || (a.1 == b.1 && a.2 ≤ b.2)) = true ↔ PairLe a b := by
  simp only [PairLe, Bool.or_eq_true, Bool.and_eq_true, decide_eq_true_eq, beq_iff_eq]

theorem PairLe.trans {a b c : String × String} (hab : PairLe a b) (hbc : PairLe b c) :
    PairLe a c := by
  rcases hab with hab | ⟨hab, hab'⟩ <;> rcases hbc with hbc | ⟨hbc, hbc'⟩
  · exact .inl (String.lt_trans hab hbc)
  · exact .inl (hbc ▸ hab)
  · exact .inl (hab ▸ hbc)
  · exact .inr ⟨hab.trans hbc, String.le_trans hab' hbc'⟩

theorem pairLe_total (a b : String × String) : PairLe a b ∨ PairLe b a := by
  by_cases hlt : a.1 < b.1
  · exact .inl (.inl hlt)
  by_cases hgt : b.1 < a.1
  · exact .inr (.inl hgt)
  have hsame : a.1 = b.1 := String.le_antisymm (String.not_lt.mp hgt) (String.not_lt.mp hlt)
  rcases String.le_total a.2 b.2 with hle | hle
  · exact .inl (.inr ⟨hsame, hle⟩)
  · exact .inr (.inr ⟨hsame.symm, hle⟩)

theorem pairwise_sortedPairs (query : List (String × String)) :
    (sortedPairs query).Pairwise PairLe := by
  refine (List.pairwise_mergeSort ?_ ?_ query).imp pairLe_iff.mp
  · intro a b c hab hbc
    exact pairLe_iff.mpr ((pairLe_iff.mp hab).trans (pairLe_iff.mp hbc))
  · intro a b
    rw [Bool.or_eq_true]
    exact (pairLe_total a b).imp pairLe_iff.mpr pairLe_iff.mpr

theorem PairLe.antisymm {a b : String × String} (hab : PairLe a b) (hba : PairLe b a) : a = b := by
  rcases hab with hab | ⟨hkey, hab⟩ <;> rcases hba with hba | ⟨hkey', hba⟩
  · exact absurd hba (String.lt_asymm hab)
  · exact absurd hab (hkey' ▸ String.lt_irrefl _)
  · exact absurd hba (hkey ▸ String.lt_irrefl _)
  · exact Prod.ext hkey (String.le_antisymm hab hba)

theorem sortedPairs_eq {query pairs : List (String × String)} (hperm : pairs.Perm query)
    (hpairs : pairs.Pairwise PairLe) : sortedPairs query = pairs :=
  ((List.mergeSort_perm query _).trans hperm.symm).eq_of_pairwise
    (fun _ _ _ _ => PairLe.antisymm) (pairwise_sortedPairs query) hpairs

/-- What a query says of a map: an empty map has none, and else it is a form with exactly
the pairs of the map, in ascending order. -/
structure Spells (query : List (String × String)) (shown : Option String) : Prop where
  none_iff : shown = none ↔ query = []
  pairs : ∀ text, shown = some text → (Text.Form.decode (Text.Utf8.encode text)).Perm query
  ascending : ∀ text, shown = some text →
    (Text.Form.decode (Text.Utf8.encode text)).Pairwise PairLe

def shownQuery (query : List (String × String)) : Option String :=
  if query = [] then none else some (Text.Form.encode (sortedPairs query))

theorem spells_shownQuery (query : List (String × String)) : Spells query (shownQuery query) := by
  constructor
  · simp [shownQuery]
  all_goals
    intro text htext
    obtain ⟨-, rfl⟩ : query ≠ [] ∧ Text.Form.encode (sortedPairs query) = text := by
      simpa [shownQuery] using htext
    rw [Text.Form.decode_encode]
  · exact List.mergeSort_perm query _
  · exact pairwise_sortedPairs query

theorem parse?_withQuery {path : String} {rest : List Char} (hslash : path.toList = '/' :: rest)
    (hlegal : ∀ c ∈ path.toList, Target.isPathChar c = true) (query : List (String × String))
    (hsize : (withQuery path query).utf8ByteSize ≤ Target.maxBytes) :
    Target.parse? (withQuery path query) = some ⟨none, path, shownQuery query⟩ := by
  have hne : path.toList ≠ [] := by simp [hslash]
  cases query with
  | nil =>
      rw [withQuery] at hsize ⊢
      rw [Target.parse?_slash hslash hsize, Target.pathAndQuery_path hne hlegal]
      simp [shownQuery]
  | cons pair more =>
      have hmark : '?' ∉ path.toList :=
        fun hmem => (Target.ne_of_isPathChar (hlegal _ hmem)).2 rfl
      have hchars : (withQuery path (pair :: more)).toList =
          path.toList ++ '?' :: (Text.Form.encode (sortedPairs (pair :: more))).toList := by
        simp [withQuery, hmark]
      have hstart : (withQuery path (pair :: more)).toList =
          '/' :: (rest ++ '?' :: (Text.Form.encode (sortedPairs (pair :: more))).toList) := by
        rw [hchars, hslash, List.cons_append]
      rw [Target.parse?_slash hstart hsize, hchars,
        Target.pathAndQuery_query hne hlegal (isQueryChar_encode _)]
      simp [shownQuery]

end PathPattern

/-! ## A request for the target -/

theorem PathPattern.Restores.of_noWildcard {segments : List Segment}
    {params : List (String × String)} {values : PathParams} (h : Restores segments params values)
    (hlegal : Legal segments) : ∀ own ∈ binders segments,
      ∃ value, params.lookup own = some value ∧ values.get? own = some value := by
  intro own hown
  obtain ⟨segment, hsegment, hbinder⟩ := List.mem_filterMap.mp hown
  cases segment with
  | literal text => contradiction
  | param _ =>
      cases hbinder
      obtain ⟨value, hvalue, -, hget⟩ := h.param own hsegment
      exact ⟨value, hvalue, hget⟩
  | wildcard _ => exact absurd (hlegal.noWildcard _ hsegment) (by simp [Segment.isWildcard])

theorem Target.size_of_parse? {s : String} {target : Target} (h : parse? s = some target) :
    s.utf8ByteSize ≤ maxBytes := by
  by_contra hlong
  rw [parse?, if_pos (Nat.not_le.mp hlong)] at h
  contradiction

/-- A path and a query that are built for a route without wildcard are read back from the
target of a request for them: the path, the pairs of the query in ascending order and, with
the route alone in a table, the parameters that the path was built from. -/
theorem App.pathWithQuery?_read (d : Draft) (a : App) (hbuild : d.build = .ok a) (name : String)
    (params : List (String × String)) (path : String) (hpath : a.path? name params = some path) :
    ∃ route ∈ a.table.routes, route.name = some name ∧
      (∀ other ∈ a.table.routes, other.name = some name → other = route) ∧
      (∃ r : Registration, r.Yields route) ∧
      (PathPattern.Legal route.segments → ∀ query : List (String × String),
        ∃ u shown, a.pathWithQuery? name params query = some u ∧
          (u.utf8ByteSize ≤ Target.maxBytes → Target.parse? u = some ⟨none, path, shown⟩) ∧
          PathPattern.Spells query shown ∧
          ∀ r : Registration, r.Yields route →
            (RouteTable.registered [r]).routes = [{ route with id := ⟨0⟩ }] ∧
              ∀ request : Request, Target.parse? u = some request.target →
                route.host.accepts (HostName.normalized request.host) = true →
                  route.method.accepts request.method = true →
                    ∃ values,
                      (RouteTable.registered [r]).resolve request.host request.method
                          request.path = .matched ⟨0⟩ values ∧
                        values.pairs.map Prod.fst = PathPattern.binders route.segments ∧
                        ∀ own ∈ PathPattern.binders route.segments,
                          ∃ value, params.lookup own = some value ∧
                            values.get? own = some value) := by
  have h := Draft.consistent_table hbuild
  obtain ⟨route, hroute, hname, hbuilt⟩ := path?_eq_some h hpath
  refine ⟨route, hroute, hname, ?_, h.origin route hroute, ?_⟩
  · intro other hother hname'
    exact RouteTable.eq_of_name h hroute hother hname hname'
  intro hlegal query
  obtain ⟨rest, hslash⟩ := PathPattern.exists_slash_of_build? hbuilt
  have hparse := PathPattern.parse?_withQuery hslash (hlegal.isPathChar_path hbuilt) query
  refine ⟨PathPattern.withQuery path query, PathPattern.shownQuery query, ?_, hparse,
    PathPattern.spells_shownQuery query, ?_⟩
  · rw [pathWithQuery?, hpath, Option.map_some]
  intro r hyields
  refine ⟨RouteTable.routes_registered_singleton hyields, ?_⟩
  intro request htarget hhost hmethod
  have hsame : request.path = path := by
    rw [hparse (Target.size_of_parse? htarget), Option.some.injEq] at htarget
    rw [Request.path, ← htarget]
  obtain ⟨values, hmatched, hrestores⟩ := RouteTable.exists_restores hyields hbuilt hhost hmethod
  rw [← hsame] at hmatched
  exact ⟨values, hmatched, hrestores.names, hrestores.of_noWildcard hlegal⟩

def Draft.shelf : Draft :=
  Draft.empty.route "/shelf/:title" ((RouteSpec.ofMethod "GET" Handler.unserved).withName "shelf")

def Request.forShelf : Request :=
  { Request.forRoot with
    target := ⟨none, "/shelf/50%25%2F%C3%A9%3F", some "b=1+%26+2&%C3%A9=%3D%23"⟩ }

theorem PathPattern.legal_shelf : Legal [.literal "shelf", .param "title"] := by
  constructor
  · decide
  · intro text htext
    obtain rfl : text = "shelf" := by simpa using htext
    exact List.all_eq_true.mp (by decide)

theorem PathPattern.withQuery_shelf :
    withQuery "/shelf/50%25%2F%C3%A9%3F" [("é", "=#"), ("b", "1 & 2")] =
      "/shelf/50%25%2F%C3%A9%3F?b=1+%26+2&%C3%A9=%3D%23" := by
  have hsorted : sortedPairs [("é", "=#"), ("b", "1 & 2")] = [("b", "1 & 2"), ("é", "=#")] := by
    have hle : PairLe ("b", "1 & 2") ("é", "=#") := .inl (by decide)
    exact sortedPairs_eq (.swap _ _ _) (by simpa using hle)
  rw [withQuery, hsorted]
  · decide +kernel
  · simp

theorem App.pathWithQuery?_read_shelf :
    ∃ a, Draft.shelf.build = .ok a ∧
      a.path? "shelf" [("title", "50%/é?")] = some "/shelf/50%25%2F%C3%A9%3F" ∧
      PathPattern.Legal [.literal "shelf", .param "title"] ∧
      a.pathWithQuery? "shelf" [("title", "50%/é?")] [("é", "=#"), ("b", "1 & 2")] =
        some "/shelf/50%25%2F%C3%A9%3F?b=1+%26+2&%C3%A9=%3D%23" ∧
      Target.parse? "/shelf/50%25%2F%C3%A9%3F?b=1+%26+2&%C3%A9=%3D%23" =
        some Request.forShelf.target ∧
      PathPattern.Spells [("é", "=#"), ("b", "1 & 2")] Request.forShelf.target.query ∧
      ∃ (r : Registration) (values : PathParams),
        (RouteTable.registered [r]).resolve Request.forShelf.host Method.get
            Request.forShelf.path = .matched ⟨0⟩ values ∧
          values.get? "title" = some "50%/é?" := by
  have hsome : (Draft.shelf.build.toOption.bind fun a =>
      (a.path? "shelf" [("title", "50%/é?")]).map fun path =>
        (path, a.table.routes.map fun route => (route.segments, route.host, route.method))) =
      some ("/shelf/50%25%2F%C3%A9%3F",
        [([.literal "shelf", .param "title"], .any, .exact Method.get)]) := by decide +kernel
  obtain ⟨a, hbuilt, hrest⟩ := Option.bind_eq_some_iff.mp hsome
  obtain ⟨path, hpath, hpair⟩ := Option.map_eq_some_iff.mp hrest
  obtain ⟨rfl, hroutes⟩ := Prod.mk.inj hpair
  have hbuild : Draft.shelf.build = .ok a := eq_ok_iff_toOption.mpr hbuilt
  obtain ⟨route, hroute, -, -, ⟨r, hyields⟩, hread⟩ :=
    pathWithQuery?_read _ _ hbuild "shelf" [("title", "50%/é?")] _ hpath
  obtain ⟨hsegments, hhost, hmethod⟩ : route.segments = [.literal "shelf", .param "title"] ∧
      route.host = .any ∧ route.method = .exact Method.get := by
    have hmem := List.mem_map_of_mem (f := fun route : Route =>
      (route.segments, route.host, route.method)) hroute
    rw [hroutes] at hmem
    simpa using hmem
  rw [hsegments, hhost, hmethod] at hread
  obtain ⟨u, shown, hu, hparse, hspells, hserved⟩ :=
    hread PathPattern.legal_shelf [("é", "=#"), ("b", "1 & 2")]
  obtain rfl : "/shelf/50%25%2F%C3%A9%3F?b=1+%26+2&%C3%A9=%3D%23" = u := by
    rw [pathWithQuery?, hpath, Option.map_some, PathPattern.withQuery_shelf] at hu
    exact Option.some.inj hu
  have htarget : Target.parse? "/shelf/50%25%2F%C3%A9%3F?b=1+%26+2&%C3%A9=%3D%23" =
      some Request.forShelf.target := by decide +kernel
  have hshown := hparse (by decide +kernel)
  rw [htarget, Option.some.injEq] at hshown
  obtain ⟨-, hanswer⟩ := hserved r hyields
  obtain ⟨values, hmatched, -, hvalues⟩ := hanswer Request.forShelf htarget rfl (by decide +kernel)
  obtain ⟨value, hvalue, hget⟩ := hvalues "title" (by decide)
  obtain rfl : "50%/é?" = value := Option.some.inj hvalue
  refine ⟨a, hbuild, hpath, PathPattern.legal_shelf, hu, htarget, ?_, r, values, hmatched, hget⟩
  rw [hshown]
  exact hspells

end HttpRouting
