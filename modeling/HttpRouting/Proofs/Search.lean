import HttpRouting.Proofs.Registration

/-!
# The search of a table

The places that a request can lead to, a host pattern and a branch of its trie
each, form one list in the order of priority, and every route that accepts the
request has its endpoint at one of them.  The first place that serves the method
therefore belongs to the foremost of the routes that accept the request.
-/

namespace HttpRouting

/-! ## The order of routes -/

namespace Route

variable {a b : Route}

theorem outranks_of_host (h : a.host.precedes b.host = true) :
    a.outranks b = true ∧ b.outranks a = false := by
  have hback := HostPattern.precedes_asymm h
  simp [outranks, h, hback]

theorem outranks_of_segments (hhost : a.host = b.host)
    (h : PathPattern.precedes a.segments b.segments = true) :
    a.outranks b = true ∧ b.outranks a = false := by
  have hsame : b.host.precedes b.host = false := HostPattern.precedes_self b.host
  have hback := PathPattern.precedes_asymm h
  simp [outranks, hhost, hsame, h, hback]

theorem outranks_of_method (hhost : a.host = b.host)
    (hshape : PathPattern.shape a.segments = PathPattern.shape b.segments)
    (h : a.method.precedes b.method = true) : a.outranks b = true ∧ b.outranks a = false := by
  have hsame : b.host.precedes b.host = false := HostPattern.precedes_self b.host
  have hpath := PathPattern.precedes_of_shape_eq hshape
  have hpath' := PathPattern.precedes_of_shape_eq hshape.symm
  have hback : b.method.precedes a.method = false := by
    cases hmethod : b.method <;> simp_all [RouteMethod.precedes]
  simp [outranks, hhost, hsame, hpath, hpath', h, hback]

theorem clashes_symm (h : a.clashes b = false) : b.clashes a = false := by
  rw [← Bool.not_eq_true] at h ⊢
  intro hback
  apply h
  simp only [clashes, Bool.and_eq_true, decide_eq_true_eq, PathPattern.sameShape_iff] at hback ⊢
  exact ⟨⟨hback.1.1.symm, hback.1.2.symm⟩, hback.2.symm⟩

end Route

/-! ## The endpoint of a node that serves a method -/

namespace Node

theorem exists_serves {method : Method} {endpoints : List Endpoint} {endpoint : Endpoint}
    (h : endpoint ∈ endpoints) (haccepts : endpoint.method.accepts method = true) :
    ∃ served, serves method endpoints = some served := by
  rw [← Option.isSome_iff_exists, serves, Option.isSome_or]
  simp only [Bool.or_eq_true, List.find?_isSome]
  cases hmethod : endpoint.method with
  | any => exact .inr ⟨endpoint, h, by simp [hmethod]⟩
  | exact own =>
      rw [hmethod] at haccepts
      have hown : own = method := by simpa [RouteMethod.accepts] using haccepts
      exact .inl ⟨endpoint, h, by simp [hmethod, hown]⟩

theorem serves_eq_some {method : Method} {endpoints : List Endpoint} {served : Endpoint}
    (h : serves method endpoints = some served) :
    served ∈ endpoints ∧ served.method.accepts method = true ∧
      ∀ other ∈ endpoints, other.method.accepts method = true →
        other.method = served.method ∨ served.method.precedes other.method = true := by
  have haccepted : ∀ m : RouteMethod, m.accepts method = true → m = .exact method ∨ m = .any := by
    intro m hm
    cases m with
    | any => exact .inr rfl
    | exact own => exact .inl (by simpa [RouteMethod.accepts] using hm)
  unfold serves at h
  rcases Option.or_eq_some_iff.mp h with hexact | ⟨hnone, hany⟩
  · have hmethod : served.method = .exact method := by simpa using List.find?_some hexact
    refine ⟨List.mem_of_find?_eq_some hexact, by simp [hmethod, RouteMethod.accepts], ?_⟩
    intro other _ hother
    rcases haccepted other.method hother with hsame | hsame
    · exact .inl (hsame.trans hmethod.symm)
    · exact .inr (by simp [hmethod, hsame, RouteMethod.precedes])
  · have hmethod : served.method = .any := by simpa using List.find?_some hany
    refine ⟨List.mem_of_find?_eq_some hany, by simp [hmethod, RouteMethod.accepts], ?_⟩
    intro other hmem hother
    rcases haccepted other.method hother with hsame | hsame
    · have hdiffer := List.find?_eq_none.mp hnone other hmem
      simp [hsame] at hdiffer
    · exact .inl (hsame.trans hmethod.symm)

end Node

namespace RouteTable

/-- The route goes before every other route that accepts the request. -/
def Foremost (t : RouteTable) (host : String) (method : Method) (path : String) (route : Route) :
    Prop :=
  route ∈ t.candidates host method path ∧
    ∀ other ∈ t.candidates host method path,
      other = route ∨ (route.outranks other = true ∧ other.outranks route = false)

/-- The routes for a host and a path, whatever their method. -/
def covering (t : RouteTable) (host path : String) : List Route :=
  t.routes.filter fun route =>
    route.host.accepts (HostName.normalized host) &&
      PathPattern.accepts route.segments (Text.pieces path)

theorem mem_candidates_iff {t : RouteTable} {host : String} {method : Method} {path : String}
    {route : Route} :
    route ∈ t.candidates host method path ↔
      route ∈ t.covering host path ∧ route.method.accepts method = true := by
  simp only [candidates, covering, List.mem_filter, Route.accepts, Bool.and_eq_true]
  constructor
  · rintro ⟨hroute, ⟨hhost, hmethod⟩, hpath⟩
    exact ⟨⟨hroute, hhost, hpath⟩, hmethod⟩
  · rintro ⟨⟨hroute, hhost, hpath⟩, hmethod⟩
    exact ⟨hroute, ⟨hhost, hmethod⟩, hpath⟩

theorem eq_of_clashes {t : RouteTable} (h : t.Consistent) {first second : Route}
    (hfirst : first ∈ t.routes) (hsecond : second ∈ t.routes) (hhost : first.host = second.host)
    (hshape : PathPattern.shape first.segments = PathPattern.shape second.segments)
    (hmethod : first.method = second.method) : first = second := by
  have : Std.Symm fun a b : Route => a.clashes b = false := ⟨fun _ _ => Route.clashes_symm⟩
  by_contra hne
  have hfree := h.free.forall hfirst hsecond hne
  simp [Route.clashes, hmethod, hhost, PathPattern.sameShape_iff.mpr hshape] at hfree

/-! ## The places of a path -/

def places (t : RouteTable) (host : String) (pieces : List String) : List (HostPattern × Branch) :=
  (t.tiers.serving host).flatMap fun pattern =>
    (Node.branches pieces (t.tiers.trie pattern)).map (Prod.mk pattern)

theorem mem_places_iff {t : RouteTable} {host : String} {pieces : List String}
    {place : HostPattern × Branch} :
    place ∈ t.places host pieces ↔
      place.1 ∈ t.tiers.serving host ∧ place.2 ∈ Node.branches pieces (t.tiers.trie place.1) := by
  obtain ⟨pattern, b⟩ := place
  simp only [places, List.mem_flatMap, List.mem_map, Prod.mk.injEq]
  constructor
  · rintro ⟨pattern, hpattern, b, hb, rfl, rfl⟩
    exact ⟨hpattern, hb⟩
  · rintro ⟨hpattern, hb⟩
    exact ⟨pattern, hpattern, b, hb, rfl, rfl⟩

theorem places_pairwise {t : RouteTable} (h : t.Consistent) {host : String}
    (hhost : host.toLower = host) (pieces : List String) :
    (t.places host pieces).Pairwise fun first second =>
      first.1.precedes second.1 = true ∨
        (first.1 = second.1 ∧
          PathPattern.precedes first.2.address second.2.address = true) := by
  rw [places, List.pairwise_flatMap]
  constructor
  · intro pattern _
    rw [List.pairwise_map]
    exact (Node.branches_pairwise pieces _).imp fun hprecedes => .inr ⟨rfl, hprecedes⟩
  · refine (Tiers.serving_pairwise h.ordered hhost).imp ?_
    intro first second hprecedes place hplace place' hplace'
    obtain ⟨b, -, rfl⟩ := List.mem_map.mp hplace
    obtain ⟨b', -, rfl⟩ := List.mem_map.mp hplace'
    exact .inl hprecedes

/-- A route has its endpoint at a place, and the place holds what its parameters
take. -/
structure EndsAt (pieces : List String) (place : HostPattern × Branch) (route : Route) : Prop where
  host : place.1 = route.host
  shape : PathPattern.shape place.2.address = PathPattern.shape route.segments
  captures : PathPattern.captures? route.segments pieces = some place.2.captures
  endpoint : route.endpoint ∈ place.2.node.endpoints

theorem exists_place {t : RouteTable} (h : t.Consistent) {host path : String} {route : Route}
    (hroute : route ∈ t.covering host path) :
    ∃ place ∈ t.places (HostName.normalized host) (Text.pieces path),
      EndsAt (Text.pieces path) place route := by
  obtain ⟨hmem, haccepts⟩ := List.mem_filter.mp hroute
  simp only [Bool.and_eq_true, PathPattern.accepts, Option.isSome_iff_exists] at haccepts
  obtain ⟨hhost, captures, hcaptures⟩ := haccepts
  have hheld : route.endpoint ∈ (t.tiers.trie route.host).endpointsAt route.segments :=
    (mem_endpointsAt_iff h).mpr ⟨route, hmem, rfl, rfl, rfl⟩
  obtain ⟨node, hfind, hendpoint⟩ := Node.exists_find?_of_mem hheld
  have hserving : route.host ∈ t.tiers.serving (HostName.normalized host) := by
    obtain ⟨r, hyields⟩ := h.origin route hmem
    apply Tiers.mem_serving_of_accepts (HostName.normalized_toLower host) hyields.isLower_host hhost
    intro hempty
    simp [hempty] at hheld
  refine ⟨(route.host, ⟨PathPattern.shape route.segments, captures, node⟩), ?_, ?_⟩
  · exact mem_places_iff.mpr ⟨hserving, Node.exists_branch hcaptures hfind⟩
  · exact ⟨rfl, PathPattern.shape_shape _, hcaptures, hendpoint⟩

theorem exists_route {t : RouteTable} (h : t.Consistent) {host path : String}
    {place : HostPattern × Branch}
    (hplace : place ∈ t.places (HostName.normalized host) (Text.pieces path))
    {endpoint : Endpoint} (hendpoint : endpoint ∈ place.2.node.endpoints) :
    ∃ route ∈ t.covering host path,
      EndsAt (Text.pieces path) place route ∧ route.endpoint = endpoint := by
  obtain ⟨hserving, hbranch⟩ := mem_places_iff.mp hplace
  obtain ⟨-, hcaptures, hfind⟩ := Node.mem_branches_iff.mp hbranch
  rw [← Node.endpointsAt_of_find? hfind, mem_endpointsAt_iff h] at hendpoint
  obtain ⟨route, hroute, hhost, hshape, rfl⟩ := hendpoint
  rw [← PathPattern.captures?_congr hshape] at hcaptures
  have haccepts := Tiers.accepts_of_mem_serving hserving
  have hends : EndsAt (Text.pieces path) place route := by
    refine ⟨hhost.symm, hshape.symm, hcaptures, ?_⟩
    rw [← Node.endpointsAt_of_find? hfind]
    exact (mem_endpointsAt_iff h).mpr ⟨route, hroute, hhost, hshape, rfl⟩
  refine ⟨route, List.mem_filter.mpr ⟨hroute, ?_⟩, hends, rfl⟩
  simp [hhost, haccepts, PathPattern.accepts, hcaptures]

/-! ## What a table answers -/

theorem firstAnswer_eq {t : RouteTable} (h : t.Consistent) (host : String) (method : Method)
    (pieces : List String) :
    Tiers.firstAnswer method pieces (t.tiers.consulted host) =
      .ofSearch ((t.places host pieces).findSome? fun place => place.2.answer? method)
        ((t.tiers.serving host).findSome? fun pattern =>
          (t.tiers.trie pattern).methodsAt? pieces) := by
  have hbranches : ((t.tiers.serving host).map t.tiers.trie).flatMap (Node.branches pieces) =
      (t.places host pieces).map Prod.snd := by
    simp [places, List.flatMap_map, List.map_flatMap, Function.comp_def]
  rw [Tiers.consulted_eq h.ordered, Tiers.firstAnswer_eq, hbranches, List.findSome?_map,
    List.findSome?_map]
  rfl

theorem EndsAt.outranks {t : RouteTable} (h : t.Consistent) {pieces : List String}
    {place place' : HostPattern × Branch} {route other : Route} (hroute : route ∈ t.routes)
    (hother : other ∈ t.routes) (hends : EndsAt pieces place route)
    (hends' : EndsAt pieces place' other)
    (horder : place.1.precedes place'.1 = true ∨
      (place.1 = place'.1 ∧
        PathPattern.precedes place.2.address place'.2.address = true) ∨
      (place = place' ∧
        (other.method = route.method ∨ route.method.precedes other.method = true))) :
    other = route ∨ (route.outranks other = true ∧ other.outranks route = false) := by
  rcases horder with hhost | ⟨hhost, hpath⟩ | ⟨rfl, hmethod⟩
  · rw [hends.host, hends'.host] at hhost
    exact .inr (Route.outranks_of_host hhost)
  · rw [hends.host, hends'.host] at hhost
    rw [PathPattern.precedes_congr hends.shape hends'.shape] at hpath
    exact .inr (Route.outranks_of_segments hhost hpath)
  · have hhost : route.host = other.host := hends.host.symm.trans hends'.host
    have hshape := hends.shape.symm.trans hends'.shape
    rcases hmethod with hsame | hprecedes
    · exact .inl (eq_of_clashes h hother hroute hhost.symm hshape.symm hsame)
    · exact .inr (Route.outranks_of_method hhost hshape hprecedes)

theorem EndsAt.answer?_ne_none {pieces : List String} {place : HostPattern × Branch}
    {route : Route} (hends : EndsAt pieces place route) {method : Method}
    (haccepts : route.method.accepts method = true) : place.2.answer? method ≠ none := by
  obtain ⟨served, hserves⟩ := Node.exists_serves hends.endpoint haccepts
  simp [Branch.answer?, hserves]

theorem foremost_of_first {t : RouteTable} (h : t.Consistent) {host : String} {method : Method}
    {path : String} {before after : List (HostPattern × Branch)} {place : HostPattern × Branch}
    {served : Endpoint}
    (hsplit : t.places (HostName.normalized host) (Text.pieces path) = before ++ place :: after)
    (hbefore : ∀ earlier ∈ before, earlier.2.answer? method = none)
    (hserves : Node.serves method place.2.node.endpoints = some served) :
    ∃ route, t.Foremost host method path route ∧ EndsAt (Text.pieces path) place route ∧
      route.endpoint = served := by
  obtain ⟨hendpoint, haccepts, hbest⟩ := Node.serves_eq_some hserves
  have hplace : place ∈ t.places (HostName.normalized host) (Text.pieces path) := by
    simp [hsplit]
  obtain ⟨route, hcovering, hends, rfl⟩ := exists_route h hplace hendpoint
  refine ⟨route, ⟨mem_candidates_iff.mpr ⟨hcovering, haccepts⟩, ?_⟩, hends, rfl⟩
  intro other hother
  obtain ⟨hcovering', haccepts'⟩ := mem_candidates_iff.mp hother
  obtain ⟨place', hplace', hends'⟩ := exists_place h hcovering'
  have hroute := (List.mem_filter.mp hcovering).1
  have hroute' := (List.mem_filter.mp hcovering').1
  have hsorted := places_pairwise h (HostName.normalized_toLower host) (Text.pieces path)
  rw [hsplit, List.pairwise_append, List.pairwise_cons] at hsorted
  rw [hsplit, List.mem_append, List.mem_cons] at hplace'
  apply hends.outranks h hroute hroute' hends'
  rcases hplace' with hearlier | rfl | hlater
  · exact absurd (hbefore place' hearlier) (hends'.answer?_ne_none haccepts')
  · exact .inr (.inr ⟨rfl, hbest other.endpoint hends'.endpoint haccepts'⟩)
  · rcases hsorted.2.1.1 place' hlater with hhost | hpath
    · exact .inl hhost
    · exact .inr (.inl hpath)

theorem firstAnswer_of_candidates {t : RouteTable} (h : t.Consistent) {host : String}
    {method : Method} {path : String} (hsome : t.candidates host method path ≠ []) :
    ∃ route captures, t.Foremost host method path route ∧
      PathPattern.captures? route.segments (Text.pieces path) = some captures ∧
        Tiers.firstAnswer method (Text.pieces path)
          (t.tiers.consulted (HostName.normalized host)) = .found route.endpoint captures := by
  rw [firstAnswer_eq h]
  cases hfind : (t.places (HostName.normalized host) (Text.pieces path)).findSome?
      fun place => place.2.answer? method with
  | none =>
      obtain ⟨route, hroute⟩ := List.exists_mem_of_ne_nil _ hsome
      obtain ⟨hcovering, haccepts⟩ := mem_candidates_iff.mp hroute
      obtain ⟨place, hplace, hends⟩ := exists_place h hcovering
      have hnone := List.findSome?_eq_none_iff.mp hfind place hplace
      exact absurd hnone (hends.answer?_ne_none haccepts)
  | some found =>
      obtain ⟨before, place, after, hsplit, hanswer, hbefore⟩ :=
        List.findSome?_eq_some_iff.mp hfind
      obtain ⟨served, hserves, rfl⟩ := Option.map_eq_some_iff.mp hanswer
      obtain ⟨route, hforemost, hends, rfl⟩ := foremost_of_first h hsplit hbefore hserves
      exact ⟨route, place.2.captures, hforemost, hends.captures, rfl⟩

theorem firstAnswer_of_candidates_nil {t : RouteTable} (h : t.Consistent) {host : String}
    {method : Method} {path : String} (hnone : t.candidates host method path = []) :
    Tiers.firstAnswer method (Text.pieces path) (t.tiers.consulted (HostName.normalized host)) =
      .ofSearch none
        ((t.tiers.serving (HostName.normalized host)).findSome?
          fun pattern => (t.tiers.trie pattern).methodsAt? (Text.pieces path)) := by
  rw [firstAnswer_eq h]
  congr 1
  apply List.findSome?_eq_none_iff.mpr
  intro place hplace
  rw [Branch.answer?, Option.map_eq_none_iff]
  cases hserves : Node.serves method place.2.node.endpoints with
  | none => rfl
  | some served =>
      obtain ⟨hendpoint, haccepts, -⟩ := Node.serves_eq_some hserves
      obtain ⟨route, hcovering, -, rfl⟩ := exists_route h hplace hendpoint
      have hroute : route ∈ t.candidates host method path :=
        mem_candidates_iff.mpr ⟨hcovering, haccepts⟩
      simp [hnone] at hroute

/-! ## The methods of a path -/

theorem mem_covering_of_host_iff {t : RouteTable} (h : t.Consistent) {host : String}
    {pattern : HostPattern} (hserving : pattern ∈ t.tiers.serving (HostName.normalized host))
    (path : String) (endpoint : Endpoint) :
    (∃ b ∈ Node.branches (Text.pieces path) (t.tiers.trie pattern), endpoint ∈ b.node.endpoints) ↔
      ∃ route ∈ t.covering host path, route.host = pattern ∧ route.endpoint = endpoint := by
  constructor
  · rintro ⟨b, hb, hendpoint⟩
    have hplace : (pattern, b) ∈ t.places (HostName.normalized host) (Text.pieces path) :=
      mem_places_iff.mpr ⟨hserving, hb⟩
    obtain ⟨route, hroute, hends, rfl⟩ := exists_route h hplace hendpoint
    exact ⟨route, hroute, hends.host.symm, rfl⟩
  · rintro ⟨route, hroute, rfl, rfl⟩
    obtain ⟨place, hplace, hends⟩ := exists_place h hroute
    refine ⟨place.2, ?_, hends.endpoint⟩
    rw [← hends.host]
    exact (mem_places_iff.mp hplace).2

theorem methodsAt?_eq_none_iff {t : RouteTable} (h : t.Consistent) {host path : String}
    {pattern : HostPattern} (hserving : pattern ∈ t.tiers.serving (HostName.normalized host)) :
    (t.tiers.trie pattern).methodsAt? (Text.pieces path) = none ↔
      ∀ route ∈ t.covering host path, route.host ≠ pattern := by
  have hroutes := mem_covering_of_host_iff h hserving path
  unfold Node.methodsAt?
  simp only [ite_eq_right_iff, reduceCtorEq, imp_false, Bool.not_eq_true, List.any_eq_false]
  constructor
  · intro hempty route hroute hhost
    obtain ⟨b, hb, hendpoint⟩ := (hroutes route.endpoint).mpr ⟨route, hroute, hhost, rfl⟩
    have hnil := hempty b hb
    simp [List.ne_nil_of_mem hendpoint] at hnil
  · intro hnone b hb
    cases hendpoints : b.node.endpoints with
    | nil => simp
    | cons endpoint rest =>
        obtain ⟨route, hroute, hhost, -⟩ :=
          (hroutes endpoint).mp ⟨b, hb, by simp [hendpoints]⟩
        exact absurd hhost (hnone route hroute)

theorem mem_of_methodsAt?_eq_some {t : RouteTable} (h : t.Consistent) {host path : String}
    {pattern : HostPattern} (hserving : pattern ∈ t.tiers.serving (HostName.normalized host))
    {allowed : List String}
    (hallowed : (t.tiers.trie pattern).methodsAt? (Text.pieces path) = some allowed) :
    allowed.Pairwise (· < ·) ∧
      ∀ text, text ∈ allowed ↔
        ∃ route ∈ t.covering host path,
          route.host = pattern ∧ route.method.explicitText? = some text := by
  have hroutes := mem_covering_of_host_iff h hserving path
  unfold Node.methodsAt? at hallowed
  split at hallowed
  · cases hallowed
    refine ⟨MethodSet.sorted_insertAll List.Pairwise.nil, ?_⟩
    intro text
    simp only [MethodSet.mem_insertAll, List.not_mem_nil, or_false, List.mem_flatMap,
      Branch.methodTexts, List.mem_filterMap]
    constructor
    · rintro ⟨b, hb, endpoint, hendpoint, htext⟩
      obtain ⟨route, hroute, hhost, rfl⟩ := (hroutes endpoint).mp ⟨b, hb, hendpoint⟩
      exact ⟨route, hroute, hhost, htext⟩
    · rintro ⟨route, hroute, hhost, htext⟩
      obtain ⟨b, hb, hendpoint⟩ := (hroutes route.endpoint).mpr ⟨route, hroute, hhost, rfl⟩
      exact ⟨b, hb, route.endpoint, hendpoint, htext⟩
  · contradiction

end RouteTable

end HttpRouting
