import HttpRouting.Proofs.MethodText
import HttpRouting.Proofs.PathCompile
import HttpRouting.Proofs.Search

/-!
# What a table answers

A request is answered by the foremost of the routes that accept it, with the
values of that route's own parameters.  Where none accepts it, the answer tells
the methods of the most specific host pattern with a route for the path, and
where there is no such route it tells nothing.
-/

namespace HttpRouting

def Registration.plain (method path : String) : Registration :=
  ⟨method, none, path, Handler.unserved, RouteOptions.none⟩

theorem Registration.parse?_of_parseMethod {r : Registration} {m : RouteMethod}
    (h : r.parseMethod = .ok m) : RouteMethod.parse? r.method = some m := by
  unfold parseMethod at h
  split at h
  · next parsed hparsed =>
      cases h
      exact hparsed
  · contradiction

namespace RouteTable

theorem Foremost.mem_routes {t : RouteTable} {host : String} {method : Method} {path : String}
    {route : Route} (h : t.Foremost host method path route) : route ∈ t.routes :=
  (List.mem_filter.mp h.1).1

theorem Foremost.unique {t : RouteTable} {host : String} {method : Method} {path : String}
    {route other : Route} (h : t.Foremost host method path route)
    (h' : t.Foremost host method path other) : other = route := by
  rcases h.2 other h'.1 with hsame | ⟨-, hnot⟩
  · exact hsame
  · rcases h'.2 route h.1 with hsame | ⟨hout, -⟩
    · exact hsame.symm
    · rw [hnot] at hout
      contradiction

theorem resolve_of_candidates {t : RouteTable} (h : t.Consistent) {host : String}
    {method : Method} {path : String} (hsome : t.candidates host method path ≠ []) :
    ∃ id params, t.resolve host method path = .matched id params := by
  obtain ⟨route, captures, -, -, hanswer⟩ := firstAnswer_of_candidates h hsome
  rw [resolve, Tiers.resolve, hanswer]
  exact ⟨_, _, rfl⟩

theorem candidates_of_resolve {t : RouteTable} (h : t.Consistent) {host : String}
    {method : Method} {path : String} {id : RouteId} {params : PathParams}
    (hmatched : t.resolve host method path = .matched id params) :
    t.candidates host method path ≠ [] := by
  intro hnone
  rw [resolve, Tiers.resolve, firstAnswer_of_candidates_nil h hnone] at hmatched
  cases hallowed : (t.tiers.serving (HostName.normalized host)).findSome?
      fun pattern => (t.tiers.trie pattern).methodsAt? (Text.pieces path) <;>
    simp [hallowed, Lookup.ofSearch] at hmatched

theorem foremost_of_resolve {t : RouteTable} (h : t.Consistent) {host : String} {method : Method}
    {path : String} {id : RouteId} {params : PathParams}
    (hmatched : t.resolve host method path = .matched id params) :
    ∃ route captures, t.Foremost host method path route ∧ route.id = id ∧
      PathPattern.captures? route.segments (Text.pieces path) = some captures ∧
        Tiers.firstAnswer method (Text.pieces path)
          (t.tiers.consulted (HostName.normalized host)) = .found route.endpoint captures ∧
            params.pairs =
              (PathPattern.binders route.segments).zip (captures.map Text.Percent.decode) := by
  obtain ⟨route, captures, hforemost, hcaptures, hanswer⟩ :=
    firstAnswer_of_candidates h (candidates_of_resolve h hmatched)
  rw [resolve, Tiers.resolve, hanswer] at hmatched
  cases hmatched
  exact ⟨route, captures, hforemost, rfl, hcaptures, hanswer, rfl⟩

/-- A request is answered by a route exactly when some route accepts it, and that
route is the one foremost route. -/
theorem resolve_foremost (calls : List Registration) (host : String) (method : Method)
    (path : String) :
    ((∃ id params, (registered calls).resolve host method path = .matched id params) ↔
        ∃ route, route ∈ (registered calls).candidates host method path) ∧
      ∀ id params, (registered calls).resolve host method path = .matched id params →
        ∃ route, (registered calls).get? id = some route ∧ route.id = id ∧
          (registered calls).Foremost host method path route ∧
            ∀ other, (registered calls).Foremost host method path other → other = route := by
  have h := consistent_registered calls
  refine ⟨⟨?_, ?_⟩, ?_⟩
  · rintro ⟨id, params, hmatched⟩
    exact List.exists_mem_of_ne_nil _ (candidates_of_resolve h hmatched)
  · rintro ⟨route, hroute⟩
    exact resolve_of_candidates h (List.ne_nil_of_mem hroute)
  · intro id params hmatched
    obtain ⟨route, captures, hforemost, rfl, -⟩ := foremost_of_resolve h hmatched
    exact ⟨route, get?_id h hforemost.mem_routes, rfl, hforemost,
      fun other hother => hforemost.unique hother⟩

/-! ## Parameters -/

/-- The parameters of a route, each once and in order, with the values that the
pieces of a path give them. -/
structure Binds (route : Route) (pieces : List String) (params : PathParams) : Prop where
  names : params.pairs.map Prod.fst = PathPattern.binders route.segments
  distinct : (params.pairs.map Prod.fst).Nodup
  param : ∀ (i : Nat) (name : String), route.segments[i]? = some (.param name) →
    ∃ piece, pieces[i]? = some piece ∧ params.get? name = some (Text.Percent.decode piece)
  wildcard : ∀ (i : Nat) (name : String), route.segments[i]? = some (.wildcard name) →
    i < pieces.length ∧
      params.get? name = some (Text.Percent.decode (Text.joined "/" (pieces.drop i)))

theorem binds_of_captures? {route : Route} {pieces captures : List String}
    (hdistinct : (PathPattern.binders route.segments).Nodup)
    (hcaptures : PathPattern.captures? route.segments pieces = some captures) :
    Binds route pieces
      ⟨(PathPattern.binders route.segments).zip (captures.map Text.Percent.decode)⟩ := by
  have hlength := PathPattern.length_captures? hcaptures
  have hnames : ((PathPattern.binders route.segments).zip
      (captures.map Text.Percent.decode)).map Prod.fst = PathPattern.binders route.segments := by
    apply List.map_fst_zip
    rw [List.length_map, hlength]
  have hget : ∀ name value, (name, value) ∈ (PathPattern.binders route.segments).zip captures →
      ((PathPattern.binders route.segments).zip (captures.map Text.Percent.decode)).lookup name =
        some (Text.Percent.decode value) := by
    intro name value hmem
    have hdecoded : (name, Text.Percent.decode value) ∈
        (PathPattern.binders route.segments).zip (captures.map Text.Percent.decode) := by
      rw [List.zip_map_right]
      exact List.mem_map.mpr ⟨(name, value), hmem, rfl⟩
    exact lookup_of_mem (hnames.symm ▸ hdistinct) hdecoded
  constructor
  · exact hnames
  · exact hnames.symm ▸ hdistinct
  · intro i name hsegment
    obtain ⟨piece, hpiece, hmem⟩ := (PathPattern.mem_zip_captures? hcaptures i name).1 hsegment
    exact ⟨piece, hpiece, hget name piece hmem⟩
  · intro i name hsegment
    obtain ⟨hbound, hmem⟩ := (PathPattern.mem_zip_captures? hcaptures i name).2 hsegment
    exact ⟨hbound, hget name _ hmem⟩

theorem wellFormed_segments {t : RouteTable} (h : t.Consistent) {route : Route}
    (hroute : route ∈ t.routes) : PathPattern.WellFormed route.segments := by
  obtain ⟨r, hyields⟩ := h.origin route hroute
  exact PathPattern.wellFormed_of_compile hyields.segments

/-- A matched request gives each parameter of the matched route its value: what a
lookup has captured when it ends is one piece for each name of its endpoint. -/
theorem binds_of_resolve (calls : List Registration) (host : String) (method : Method)
    (path : String) (id : RouteId) (params : PathParams)
    (hmatched : (registered calls).resolve host method path = .matched id params) :
    ∃ route, (registered calls).get? id = some route ∧ route.id = id ∧
      Binds route (Text.pieces path) params ∧
        ∃ endpoint captures,
          Tiers.firstAnswer method (Text.pieces path)
              ((registered calls).tiers.consulted (HostName.normalized host)) =
            .found endpoint captures ∧
          endpoint.route = id ∧ captures.length = endpoint.binders.length := by
  have h := consistent_registered calls
  obtain ⟨route, captures, hforemost, rfl, hcaptures, hanswer, hpairs⟩ :=
    foremost_of_resolve h hmatched
  have hwell := wellFormed_segments h hforemost.mem_routes
  have hbinds := binds_of_captures? hwell.distinct hcaptures
  rw [← hpairs] at hbinds
  exact ⟨route, get?_id h hforemost.mem_routes, rfl, hbinds, route.endpoint, captures, hanswer,
    rfl, PathPattern.length_captures? hcaptures⟩

def fileRoutes : List Registration :=
  [.plain "GET" "/:kind/*", .plain "POST" "/files/new/*tail", .plain "GET" "/files/:owner/*rest"]

theorem binds_of_resolve_files :
    (registered fileRoutes).resolve "localhost" Method.get "/files//new/a%20b/c" =
        .matched ⟨1⟩ ⟨[("owner", "new"), ("rest", "a b/c")]⟩ ∧
      ∃ route, (registered fileRoutes).get? ⟨1⟩ = some route ∧
        Binds route (Text.pieces "/files//new/a%20b/c")
          ⟨[("owner", "new"), ("rest", "a b/c")]⟩ := by
  have hmatched : (registered fileRoutes).resolve "localhost" Method.get "/files//new/a%20b/c" =
      .matched ⟨1⟩ ⟨[("owner", "new"), ("rest", "a b/c")]⟩ := by decide +kernel
  obtain ⟨route, hget, -, hbinds, -⟩ := binds_of_resolve _ _ _ _ _ _ hmatched
  exact ⟨hmatched, route, hget, hbinds⟩

/-! ## Requests that no route accepts -/

/-- The most specific host pattern with a route for the host and the path. -/
def IsForemostHost (t : RouteTable) (host path : String) (pattern : HostPattern) : Prop :=
  (∃ route ∈ t.covering host path, route.host = pattern) ∧
    ∀ route ∈ t.covering host path, route.host = pattern ∨ pattern.precedes route.host = true

theorem host_mem_serving {t : RouteTable} (h : t.Consistent) {host path : String} {route : Route}
    (hroute : route ∈ t.covering host path) :
    route.host ∈ t.tiers.serving (HostName.normalized host) := by
  obtain ⟨place, hplace, hends⟩ := exists_place h hroute
  rw [← hends.host]
  exact (mem_places_iff.mp hplace).1

theorem foremostHost_of_findSome? {t : RouteTable} (h : t.Consistent) {host path : String}
    {allowed : List String}
    (hfind : ((t.tiers.serving (HostName.normalized host)).findSome? fun pattern =>
      (t.tiers.trie pattern).methodsAt? (Text.pieces path)) = some allowed) :
    ∃ pattern ∈ t.tiers.serving (HostName.normalized host), t.IsForemostHost host path pattern ∧
      (t.tiers.trie pattern).methodsAt? (Text.pieces path) = some allowed := by
  obtain ⟨before, pattern, after, hsplit, hallowed, hbefore⟩ :=
    List.findSome?_eq_some_iff.mp hfind
  have hserving : pattern ∈ t.tiers.serving (HostName.normalized host) := by simp [hsplit]
  refine ⟨pattern, hserving, ⟨?_, ?_⟩, hallowed⟩
  · by_contra hnone
    have hempty : (t.tiers.trie pattern).methodsAt? (Text.pieces path) = none := by
      apply (methodsAt?_eq_none_iff h hserving).mpr
      intro route hroute hhost
      exact hnone ⟨route, hroute, hhost⟩
    rw [hempty] at hallowed
    contradiction
  · intro route hroute
    have hsorted := Tiers.serving_pairwise h.ordered (HostName.normalized_toLower host)
    have hmem := host_mem_serving h hroute
    rw [hsplit, List.pairwise_append, List.pairwise_cons] at hsorted
    rw [hsplit, List.mem_append, List.mem_cons] at hmem
    rcases hmem with hearlier | hsame | hlater
    · have hempty := (methodsAt?_eq_none_iff h (host_mem_serving h hroute)).mp
        (hbefore route.host hearlier) route hroute
      exact absurd rfl hempty
    · exact .inl hsame
    · exact .inr (hsorted.2.1.1 route.host hlater)

theorem findSome?_methodsAt?_eq_none_iff {t : RouteTable} (h : t.Consistent) {host path : String} :
    ((t.tiers.serving (HostName.normalized host)).findSome? fun pattern =>
        (t.tiers.trie pattern).methodsAt? (Text.pieces path)) = none ↔
      t.covering host path = [] := by
  rw [List.findSome?_eq_none_iff, List.eq_nil_iff_forall_not_mem]
  constructor
  · intro hnone route hroute
    have hserving := host_mem_serving h hroute
    exact (methodsAt?_eq_none_iff h hserving).mp (hnone route.host hserving) route hroute rfl
  · intro hnone pattern hserving
    apply (methodsAt?_eq_none_iff h hserving).mpr
    intro route hroute
    exact absurd hroute (hnone route)

theorem method_of_candidates_nil {t : RouteTable} {host : String} {method : Method}
    {path : String} (hnone : t.candidates host method path = []) {route : Route}
    (hroute : route ∈ t.covering host path) :
    ∃ own, route.method = .exact own ∧ own ≠ method := by
  have hrefused : route.method.accepts method = false := by
    rw [← Bool.not_eq_true]
    intro haccepts
    have hmem := mem_candidates_iff.mpr ⟨hroute, haccepts⟩
    simp [hnone] at hmem
  cases hmethod : route.method with
  | any => simp [hmethod, RouteMethod.accepts] at hrefused
  | exact own =>
      rw [hmethod] at hrefused
      exact ⟨own, rfl, by simpa [RouteMethod.accepts] using hrefused⟩

theorem text_ne_star {t : RouteTable} (h : t.Consistent) {route : Route} (hroute : route ∈ t.routes)
    {own : Method} (hmethod : route.method = .exact own) : own.text ≠ "*" := by
  obtain ⟨r, hyields⟩ := h.origin route hroute
  have hparse := Registration.parse?_of_parseMethod hyields.method
  rw [hmethod] at hparse
  exact RouteMethod.text_ne_star_of_parse? hparse

/-- What is told of a path that is known, but not for the method of the request:
the methods of all its routes under the foremost host pattern. -/
structure Tells (t : RouteTable) (host : String) (method : Method) (path : String)
    (allowed : List String) : Prop where
  exact : ∃ pattern, t.IsForemostHost host path pattern ∧
    ∀ text, text ∈ allowed ↔
      ∃ route ∈ t.covering host path,
        route.host = pattern ∧ route.method.explicitText? = some text
  ascending : (allowed.map Text.Utf8.encode).Pairwise (· < ·)
  nonempty : allowed ≠ []
  noStar : "*" ∉ allowed
  otherwise : method.text ∉ allowed
  served : ∀ text ∈ allowed, ∃ own : Method, own.text = text ∧
    ∃ id params, t.resolve host own path = .matched id params

theorem tells_of_findSome? {t : RouteTable} (h : t.Consistent) {host : String} {method : Method}
    {path : String} (hnone : t.candidates host method path = []) {allowed : List String}
    (hfind : ((t.tiers.serving (HostName.normalized host)).findSome? fun pattern =>
      (t.tiers.trie pattern).methodsAt? (Text.pieces path)) = some allowed) :
    t.Tells host method path allowed := by
  obtain ⟨pattern, hserving, hforemost, hmethods⟩ := foremostHost_of_findSome? h hfind
  obtain ⟨hsorted, hmem⟩ := mem_of_methodsAt?_eq_some h hserving hmethods
  have hroutes : ∀ text ∈ allowed, ∃ route ∈ t.covering host path, ∃ own : Method,
      route.method = .exact own ∧ own.text = text ∧ own ≠ method := by
    intro text htext
    obtain ⟨route, hroute, -, hexplicit⟩ := (hmem text).mp htext
    obtain ⟨own, hown, hother⟩ := method_of_candidates_nil hnone hroute
    rw [hown, RouteMethod.explicitText?, Option.some.injEq] at hexplicit
    exact ⟨route, hroute, own, hown, hexplicit, hother⟩
  constructor
  · exact ⟨pattern, hforemost, hmem⟩
  · rw [List.pairwise_map]
    refine (List.Pairwise.and_mem.mp hsorted).imp ?_
    rintro first second ⟨hfirst, hsecond, hlt⟩
    obtain ⟨-, -, own, -, rfl, -⟩ := hroutes first hfirst
    obtain ⟨-, -, own', -, rfl, -⟩ := hroutes second hsecond
    exact Method.encode_lt_encode hlt
  · obtain ⟨route, hroute, hhost⟩ := hforemost.1
    obtain ⟨own, hown, -⟩ := method_of_candidates_nil hnone hroute
    have htext : own.text ∈ allowed := (hmem own.text).mpr ⟨route, hroute, hhost, by
      rw [hown, RouteMethod.explicitText?]⟩
    exact List.ne_nil_of_mem htext
  · intro hstar
    obtain ⟨route, hroute, own, hown, htext, -⟩ := hroutes "*" hstar
    exact text_ne_star h (List.mem_filter.mp hroute).1 hown htext
  · intro hself
    obtain ⟨route, hroute, own, -, htext, hother⟩ := hroutes method.text hself
    have hsame := Method.parse?_text own
    rw [htext, Method.parse?_text, Option.some.injEq] at hsame
    exact hother hsame.symm
  · intro text htext
    obtain ⟨route, hroute, own, hown, hsame, -⟩ := hroutes text htext
    have haccepts : route.method.accepts own = true := by simp [hown, RouteMethod.accepts]
    have hcandidate := mem_candidates_iff.mpr ⟨hroute, haccepts⟩
    exact ⟨own, hsame, resolve_of_candidates h (List.ne_nil_of_mem hcandidate)⟩

/-- Where no route accepts a request, a path without routes is told from one whose
routes have other methods, and of the latter the methods are told. -/
theorem resolve_refused (calls : List Registration) (host : String) (method : Method)
    (path : String) (hnone : (registered calls).candidates host method path = []) :
    ((registered calls).resolve host method path = .noMatch ↔
        (registered calls).covering host path = []) ∧
      ((registered calls).covering host path ≠ [] →
        ∃ allowed, (registered calls).resolve host method path = .methodMismatch allowed ∧
          (registered calls).Tells host method path allowed) := by
  have h := consistent_registered calls
  rw [resolve, Tiers.resolve, firstAnswer_of_candidates_nil h hnone]
  cases hfind : ((registered calls).tiers.serving (HostName.normalized host)).findSome?
      fun pattern => ((registered calls).tiers.trie pattern).methodsAt? (Text.pieces path) with
  | none =>
      have hempty := (findSome?_methodsAt?_eq_none_iff h).mp hfind
      simp [Lookup.ofSearch, hempty]
  | some allowed =>
      have hcovered : (registered calls).covering host path ≠ [] := by
        rw [Ne, ← findSome?_methodsAt?_eq_none_iff h, hfind]
        exact Option.some_ne_none allowed
      have htells := tells_of_findSome? h hnone hfind
      simpa [Lookup.ofSearch, hcovered] using htells

def postRoutes : List Registration :=
  [.plain "put" "/posts/:id", .plain "POST" "/posts/new"]

theorem resolve_refused_posts :
    (registered postRoutes).candidates "localhost" Method.get "/posts/new" = [] ∧
      ∃ allowed,
        (registered postRoutes).resolve "localhost" Method.get "/posts/new" =
          .methodMismatch allowed ∧
        (registered postRoutes).Tells "localhost" Method.get "/posts/new" allowed := by
  have hnone : (registered postRoutes).candidates "localhost" Method.get "/posts/new" = [] :=
    List.isEmpty_iff.mp (by decide +kernel)
  have hcovered : (registered postRoutes).covering "localhost" "/posts/new" ≠ [] := by
    rw [Ne, ← List.isEmpty_iff]
    decide +kernel
  exact ⟨hnone, (resolve_refused _ _ _ _ hnone).2 hcovered⟩

end RouteTable

end HttpRouting
