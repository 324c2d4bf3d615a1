import HttpRouting.Proofs.BuiltPath
import HttpRouting.Proofs.Matching

/-!
# From parameters to a path and back

A table with one route matches every path that is built from the pattern of that
route, and gives back the parameters it was built from.  Parameters that a request
gave build a path again; a wildcard is written as it is, so of its value what comes
back is what is read from it once more.
-/

namespace HttpRouting

/-! ## A table with one route -/

namespace RouteTable

theorem routes_registered_singleton {r : Registration} {route : Route} (h : r.Yields route) :
    (registered [r]).routes = [{ route with id := ⟨0⟩ }] := by
  have hname : empty.isTaken route.name = false := by cases route.name <;> rfl
  obtain ⟨after, hregister, hextended⟩ :=
    register_of_yields consistent_empty h hname (by simp [empty])
  have hafter : registered [r] = after := by simp [registered, hregister]
  rw [hafter, hextended.routes]
  rfl

theorem resolve_singleton {r : Registration} {route : Route} (h : r.Yields route) {host : String}
    {method : Method} {path : String} {captures : List String}
    (hhost : route.host.accepts (HostName.normalized host) = true)
    (hmethod : route.method.accepts method = true)
    (hcaptures : PathPattern.captures? route.segments (Text.pieces path) = some captures) :
    (registered [r]).resolve host method path =
      .matched ⟨0⟩
        ⟨(PathPattern.binders route.segments).zip (captures.map Text.Percent.decode)⟩ := by
  have hroutes := routes_registered_singleton h
  have hcandidate :
      { route with id := ⟨0⟩ } ∈ (registered [r]).candidates host method path := by
    simp [candidates, hroutes, Route.accepts, hhost, hmethod, PathPattern.accepts, hcaptures]
  obtain ⟨winner, taken, hforemost, htaken, hanswer⟩ :=
    firstAnswer_of_candidates (consistent_registered [r]) (List.ne_nil_of_mem hcandidate)
  obtain rfl : winner = { route with id := ⟨0⟩ } := by
    simpa [hroutes] using hforemost.mem_routes
  obtain rfl : captures = taken := Option.some.inj (hcaptures.symm.trans htaken)
  rw [resolve, Tiers.resolve, hanswer]
  rfl

end RouteTable

/-! ## From parameters to a path -/

namespace PathPattern

/-- The values that a pattern takes back of the parameters that a path was built
from. -/
structure Restores (segments : List Segment) (params : List (String × String))
    (values : PathParams) : Prop where
  names : values.pairs.map Prod.fst = binders segments
  param : ∀ name, .param name ∈ segments →
    ∃ value, params.lookup name = some value ∧ value ≠ "" ∧ values.get? name = some value
  wildcard : ∀ name, .wildcard name ∈ segments →
    ∃ value, params.lookup name = some value ∧
      values.get? name = some (Text.Percent.decode (Text.joined "/" (Text.pieces value)))

theorem restores_of_build? {segments : List Segment} (hwell : WellFormed segments)
    {params : List (String × String)} {path : String} (h : build? segments params = some path)
    {values : PathParams} (hnames : values.pairs.map Prod.fst = binders segments)
    (hvalues : values.pairs = segments.filterMap (restored? params)) :
    Restores segments params values := by
  have hcomplete : ∀ segment ∈ segments, ¬Lacks params segment := by
    intro segment hsegment hlacks
    rw [build?_eq_none_iff.mpr ⟨segment, hsegment, hlacks⟩] at h
    contradiction
  have hget : ∀ segment ∈ segments, ∀ name value,
      restored? params segment = some (name, value) → values.get? name = some value := by
    intro segment hsegment name value hrestored
    have hmem : (name, value) ∈ values.pairs := by
      rw [hvalues]
      exact List.mem_filterMap.mpr ⟨segment, hsegment, hrestored⟩
    exact lookup_of_mem (hnames.symm ▸ hwell.distinct) hmem
  refine ⟨hnames, ?_, ?_⟩
  · intro name hsegment
    have hlacks := hcomplete _ hsegment
    cases hvalue : params.lookup name with
    | none => exact absurd (.inl hvalue) hlacks
    | some value =>
        refine ⟨value, rfl, ?_, hget _ hsegment name value (by simp [restored?, hvalue])⟩
        rintro rfl
        exact hlacks (.inr hvalue)
  · intro name hsegment
    have hlacks := hcomplete _ hsegment
    cases hvalue : params.lookup name with
    | none => exact absurd (.inl hvalue) hlacks
    | some value =>
        exact ⟨value, rfl, hget _ hsegment name _ (by simp [restored?, hvalue])⟩

end PathPattern

namespace RouteTable

theorem exists_restores {r : Registration} {route : Route} (h : r.Yields route)
    {params : List (String × String)} {path : String}
    (hbuild : PathPattern.build? route.segments params = some path) {host : String}
    {method : Method} (hhost : route.host.accepts (HostName.normalized host) = true)
    (hmethod : route.method.accepts method = true) :
    ∃ values, (registered [r]).resolve host method path = .matched ⟨0⟩ values ∧
      PathPattern.Restores route.segments params values := by
  have hwell := PathPattern.wellFormed_of_compile h.segments
  obtain ⟨captures, hcaptures, hzip⟩ := PathPattern.exists_captures_of_build? hwell hbuild
  have hbinds := binds_of_captures? hwell.distinct hcaptures
  exact ⟨_, resolve_singleton h hhost hmethod hcaptures,
    PathPattern.restores_of_build? hwell hbuild hbinds.names hzip⟩

/-- A path is built unless a value is lacking, and the route of the pattern alone in
a table takes from it the values it was built from. -/
theorem resolve_build? (pattern : String) (segments : List Segment)
    (hcompile : PathPattern.compile pattern = .ok segments) (params : List (String × String)) :
    (PathPattern.build? segments params = none ↔
        ∃ segment ∈ segments, PathPattern.Lacks params segment) ∧
      ∀ path, PathPattern.build? segments params = some path →
        ∀ (r : Registration) (route : Route), r.path = pattern → r.Yields route →
          (registered [r]).routes = [{ route with id := ⟨0⟩ }] ∧
            ∀ (host : String) (method : Method),
              route.host.accepts (HostName.normalized host) = true →
                route.method.accepts method = true →
                  ∃ values, (registered [r]).resolve host method path = .matched ⟨0⟩ values ∧
                    PathPattern.Restores segments params values := by
  refine ⟨PathPattern.build?_eq_none_iff, ?_⟩
  rintro path hbuild r route rfl hyields
  have hsegments : route.segments = segments := by
    have hsame := hyields.segments
    rw [hcompile] at hsame
    exact (Except.ok.inj hsame).symm
  refine ⟨routes_registered_singleton hyields, ?_⟩
  intro host method hhost hmethod
  rw [← hsegments] at hbuild ⊢
  exact exists_restores hyields hbuild hhost hmethod

def shelfRoute : Registration := .plain "get" "/shelf/:title/*rest"

theorem resolve_build?_shelf :
    PathPattern.build? [.literal "shelf", .param "title", .wildcard "rest"]
        [("rest", "/a//b%20c"), ("title", "50%/é?")] =
          some "/shelf/50%25%2F%C3%A9%3F/a//b%20c" ∧
      ∃ values,
        (registered [shelfRoute]).resolve "localhost" Method.get
            "/shelf/50%25%2F%C3%A9%3F/a//b%20c" = .matched ⟨0⟩ values ∧
          PathPattern.Restores [.literal "shelf", .param "title", .wildcard "rest"]
            [("rest", "/a//b%20c"), ("title", "50%/é?")] values := by
  have hcompile : PathPattern.compile "/shelf/:title/*rest" =
      .ok [.literal "shelf", .param "title", .wildcard "rest"] := by decide +kernel
  have hyields : shelfRoute.Yields
      ⟨⟨0⟩, .exact Method.get, .any, "/shelf/:title/*rest",
        [.literal "shelf", .param "title", .wildcard "rest"], none, [], none,
        Handler.unserved⟩ := by
    refine ⟨rfl, ?_, hcompile, rfl, rfl, rfl, rfl, rfl⟩
    decide +kernel
  have hbuild : PathPattern.build? [.literal "shelf", .param "title", .wildcard "rest"]
      [("rest", "/a//b%20c"), ("title", "50%/é?")] =
        some "/shelf/50%25%2F%C3%A9%3F/a//b%20c" := by decide +kernel
  obtain ⟨-, hserved⟩ := (resolve_build? _ _ hcompile _).2 _ hbuild _ _ rfl hyields
  exact ⟨hbuild, hserved "localhost" Method.get rfl (by decide +kernel)⟩

/-! ## From a request to a path and back -/

theorem pairs_eq_of_lookup {first second : List (String × String)}
    (hnames : first.map Prod.fst = second.map Prod.fst) (hdistinct : (first.map Prod.fst).Nodup)
    (hlookup : ∀ name ∈ first.map Prod.fst, first.lookup name = second.lookup name) :
    first = second := by
  induction first generalizing second with
  | nil => exact (List.map_eq_nil_iff.mp hnames.symm).symm
  | cons entry rest ih =>
      obtain ⟨name, value⟩ := entry
      cases second with
      | nil => simp at hnames
      | cons entry' rest' =>
          obtain ⟨name', value'⟩ := entry'
          simp only [List.map_cons, List.cons.injEq] at hnames
          obtain ⟨rfl, hrest⟩ := hnames
          obtain ⟨hnew, hdistinct⟩ := List.nodup_cons.mp hdistinct
          have hhead := hlookup name (by simp)
          simp only [List.lookup_cons_self, Option.some.injEq] at hhead
          have htail : rest = rest' := by
            apply ih hrest hdistinct
            intro other hother
            have hne : other ≠ name := by
              rintro rfl
              exact hnew hother
            simpa [lookup_cons_ite, hne.symm] using hlookup other (List.mem_cons_of_mem _ hother)
          rw [hhead, htail]

theorem Binds.lacks_iff {route : Route} {path : String} {values : PathParams}
    (h : Binds route (Text.pieces path) values) :
    (∃ segment ∈ route.segments, PathPattern.Lacks values.pairs segment) ↔
      ∃ name value, .wildcard name ∈ route.segments ∧ values.get? name = some value ∧
        ∀ c ∈ value.toList, c = '/' := by
  constructor
  · rintro ⟨segment, hsegment, hlacks⟩
    obtain ⟨i, hi⟩ := List.mem_iff_getElem?.mp hsegment
    cases segment with
    | literal text => exact hlacks.elim
    | param name =>
        obtain ⟨piece, hpiece, hvalue⟩ := h.param i name hi
        have hlookup : values.pairs.lookup name = some (Text.Percent.decode piece) := hvalue
        have hne := Text.Percent.decode_ne_empty
          (Text.mem_pieces (List.mem_of_getElem? hpiece)).1
        simp [PathPattern.Lacks, hlookup, hne] at hlacks
    | wildcard name =>
        obtain ⟨-, hvalue⟩ := h.wildcard i name hi
        rcases hlacks with hnone | ⟨value, hsome, hslashes⟩
        · rw [PathParams.get?, hnone] at hvalue
          contradiction
        · exact ⟨name, value, hsegment, hsome, hslashes⟩
  · rintro ⟨name, value, hsegment, hvalue, hslashes⟩
    exact ⟨_, hsegment, .inr ⟨value, hvalue, hslashes⟩⟩

theorem Binds.eq_iff_of_restores {route : Route} {pieces : List String}
    {values again : PathParams} (h : Binds route pieces values)
    (hagain : PathPattern.Restores route.segments values.pairs again) :
    again = values ↔
      ∀ name value, .wildcard name ∈ route.segments → values.get? name = some value →
        Text.Percent.decode (Text.joined "/" (Text.pieces value)) = value := by
  constructor
  · rintro rfl name value hsegment hvalue
    obtain ⟨value', hvalue', hread⟩ := hagain.wildcard name hsegment
    obtain rfl : value' = value := Option.some.inj (hvalue'.symm.trans hvalue)
    exact Option.some.inj (hread.symm.trans hvalue)
  · intro hsame
    have hpairs : again.pairs = values.pairs := by
      refine pairs_eq_of_lookup (hagain.names.trans h.names.symm) ?_ ?_
      · rw [hagain.names, ← h.names]
        exact h.distinct
      · intro name hname
        rw [hagain.names] at hname
        obtain ⟨segment, hsegment, hbinder⟩ := List.mem_filterMap.mp hname
        cases segment with
        | literal text => contradiction
        | param own =>
            cases hbinder
            obtain ⟨value, hvalue, -, hget⟩ := hagain.param name hsegment
            exact hget.trans hvalue.symm
        | wildcard own =>
            cases hbinder
            obtain ⟨value, hvalue, hget⟩ := hagain.wildcard name hsegment
            rw [hsame name value hsegment hvalue] at hget
            exact hget.trans hvalue.symm
    obtain ⟨pairs⟩ := again
    obtain ⟨pairs'⟩ := values
    exact congrArg PathParams.mk hpairs

/-- The parameters of a matched request build a path, unless they have only slashes
for a wildcard, and its route alone in a table takes the same values from that path
for all but the wildcard, whose value is read once more. -/
theorem resolve_rebuilt (calls : List Registration) (host : String) (method : Method)
    (path : String) (id : RouteId) (values : PathParams)
    (hmatched : (registered calls).resolve host method path = .matched id values) :
    ∃ route, (registered calls).get? id = some route ∧
      (∃ r : Registration, r.Yields route) ∧
      route.host.accepts (HostName.normalized host) = true ∧
      route.method.accepts method = true ∧
      (PathPattern.build? route.segments values.pairs = none ↔
        ∃ name value, .wildcard name ∈ route.segments ∧ values.get? name = some value ∧
          ∀ c ∈ value.toList, c = '/') ∧
      ∀ built, PathPattern.build? route.segments values.pairs = some built →
        ∀ r : Registration, r.Yields route →
          (registered [r]).routes = [{ route with id := ⟨0⟩ }] ∧
            ∀ (host : String) (method : Method),
              route.host.accepts (HostName.normalized host) = true →
                route.method.accepts method = true →
                  ∃ again, (registered [r]).resolve host method built = .matched ⟨0⟩ again ∧
                    PathPattern.Restores route.segments values.pairs again ∧
                    (again = values ↔
                      ∀ name value, .wildcard name ∈ route.segments →
                        values.get? name = some value →
                          Text.Percent.decode (Text.joined "/" (Text.pieces value)) = value) := by
  have h := consistent_registered calls
  obtain ⟨route, captures, hforemost, rfl, hcaptures, -, hpairs⟩ := foremost_of_resolve h hmatched
  have hroute := hforemost.mem_routes
  have hbinds := binds_of_captures? (wellFormed_segments h hroute).distinct hcaptures
  rw [← hpairs] at hbinds
  obtain ⟨hcovering, hmethod⟩ := mem_candidates_iff.mp hforemost.1
  obtain ⟨hhost, -⟩ := Bool.and_eq_true_iff.mp (List.mem_filter.mp hcovering).2
  refine ⟨route, get?_id h hroute, h.origin route hroute, hhost, hmethod,
    PathPattern.build?_eq_none_iff.trans hbinds.lacks_iff, ?_⟩
  intro built hbuild r hyields
  refine ⟨routes_registered_singleton hyields, ?_⟩
  intro host method hhost hmethod
  obtain ⟨again, hagain, hrestores⟩ := exists_restores hyields hbuild hhost hmethod
  exact ⟨again, hagain, hrestores, hbinds.eq_iff_of_restores hrestores⟩

theorem resolve_rebuilt_shelf :
    (registered [shelfRoute]).resolve "localhost" Method.get "/shelf/50%25//a%20b/c/" =
        .matched ⟨0⟩ ⟨[("title", "50%"), ("rest", "a b/c")]⟩ ∧
      ∃ route, (registered [shelfRoute]).get? ⟨0⟩ = some route ∧
        PathPattern.build? route.segments [("title", "50%"), ("rest", "a b/c")] =
          some "/shelf/50%25/a b/c" ∧
        ∃ r : Registration, r.Yields route ∧ ∃ again,
          (registered [r]).resolve "localhost" Method.get "/shelf/50%25/a b/c" =
              .matched ⟨0⟩ again ∧
            PathPattern.Restores route.segments [("title", "50%"), ("rest", "a b/c")] again := by
  have hmatched :
      (registered [shelfRoute]).resolve "localhost" Method.get "/shelf/50%25//a%20b/c/" =
        .matched ⟨0⟩ ⟨[("title", "50%"), ("rest", "a b/c")]⟩ := by decide +kernel
  have hsegments : ((registered [shelfRoute]).get? ⟨0⟩).map Route.segments =
      some [.literal "shelf", .param "title", .wildcard "rest"] := by decide +kernel
  obtain ⟨route, hget, ⟨r, hyields⟩, hhost, hmethod, -, hrebuilt⟩ :=
    resolve_rebuilt _ _ _ _ _ _ hmatched
  have hbuild : PathPattern.build? route.segments [("title", "50%"), ("rest", "a b/c")] =
      some "/shelf/50%25/a b/c" := by
    rw [hget, Option.map_some, Option.some.injEq] at hsegments
    rw [hsegments]
    decide +kernel
  obtain ⟨again, hagain, hrestores, -⟩ :=
    (hrebuilt _ hbuild r hyields).2 "localhost" Method.get hhost hmethod
  exact ⟨hmatched, route, hget, hbuild, r, hyields, again, hagain, hrestores⟩

def archiveRoute : Registration := .plain "GET" "/archive/*rest"

/-- A wildcard's value may be read differently when it comes back, or build no path. -/
theorem rebuilt_wildcard_differs :
    (registered [archiveRoute]).resolve "localhost" Method.get "/archive/%2541" =
        .matched ⟨0⟩ ⟨[("rest", "%41")]⟩ ∧
      PathPattern.build? [.literal "archive", .wildcard "rest"] [("rest", "%41")] =
        some "/archive/%41" ∧
      (registered [archiveRoute]).resolve "localhost" Method.get "/archive/%41" =
        .matched ⟨0⟩ ⟨[("rest", "A")]⟩ ∧
      (registered [archiveRoute]).resolve "localhost" Method.get "/archive/%2F" =
        .matched ⟨0⟩ ⟨[("rest", "/")]⟩ ∧
      PathPattern.build? [.literal "archive", .wildcard "rest"] [("rest", "/")] = none := by
  decide +kernel

end RouteTable

end HttpRouting
