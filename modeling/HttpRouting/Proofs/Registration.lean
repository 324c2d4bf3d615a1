import HttpRouting.Application.Draft
import HttpRouting.Proofs.HostTiers

/-!
# What every run of registrations keeps

The routes, the names and the tries of a table are three views of one list: a
route has the number of its place, a name leads to the route that bears it, and
each trie holds at each pattern the endpoints of the routes of that host and
shape, in order of registration.  An accepted registration keeps this, a refused
one leaves the table as it was, so it holds after every run.
-/

namespace HttpRouting

theorem eq_ok_iff_toOption {ε α : Type} {result : Except ε α} {value : α} :
    result = .ok value ↔ result.toOption = some value := by
  cases result <;> simp [Except.toOption]

def Route.endpoint (r : Route) : Endpoint := ⟨r.method, r.id, PathPattern.binders r.segments⟩

/-- The route that a registration asks for, but for its number. -/
structure Registration.Yields (r : Registration) (route : Route) : Prop where
  host : r.parseHost = .ok route.host
  method : r.parseMethod = .ok route.method
  segments : PathPattern.compile r.path = .ok route.segments
  path : route.path = r.path
  name : route.name = r.options.name
  layers : route.layers = r.options.layers
  timeout : route.timeout = r.options.timeout
  handler : route.handler = r.handler

theorem Registration.isLower_of_parseHost {r : Registration} {host : HostPattern}
    (h : r.parseHost = .ok host) : host.IsLower := by
  unfold parseHost at h
  split at h
  · cases h
    trivial
  · next pattern _ =>
      cases hcompile : HostPattern.compile pattern with
      | error fault => simp [hcompile, Except.mapError] at h
      | ok compiled =>
          simp only [hcompile, Except.mapError, Except.ok.injEq] at h
          rw [← h]
          exact HostPattern.isLower_of_compile hcompile

theorem Registration.Yields.isLower_host {r : Registration} {route : Route} (h : r.Yields route) :
    route.host.IsLower :=
  isLower_of_parseHost h.host

namespace Tiers

theorem setTrie_trie {t : Tiers} (h : t.Ordered) {host : HostPattern}
    (hheld : t.trie host ≠ Node.empty) : t.setTrie host (t.trie host) = t := by
  obtain ⟨exact, suffixes, any⟩ := t
  cases host with
  | any => rfl
  | exact host =>
      cases hlookup : exact.lookup host with
      | none => simp [trie, hlookup] at hheld
      | some n => simp [setTrie, trie, hlookup, setExact_eq_setLiteral, Node.setLiteral_lookup]
  | suffix domain =>
      cases hlookup : suffixes.lookup domain with
      | none => simp [trie, hlookup] at hheld
      | some n =>
          obtain ⟨before, after, hsplit, -⟩ := List.lookup_eq_some_iff.mp hlookup
          have hany : suffixes.any (·.1 = domain) = true := by simp [hsplit]
          simp only [setTrie, trie, hlookup, setSuffix, hany, if_true, Option.getD_some,
            Tiers.mk.injEq, true_and, and_true]
          conv_rhs => rw [← List.map_id suffixes]
          apply List.map_congr_left
          rintro ⟨key, old⟩ hentry
          have hold : suffixes.lookup key = some old := lookup_of_mem h.distinct hentry
          by_cases same : key = domain
          · subst same
            rw [hlookup, Option.some.injEq] at hold
            simp [hold]
          · simp [same]

def insert? (t : Tiers) (host : HostPattern) (segments : List Segment) (endpoint : Endpoint) :
    Option Tiers :=
  ((t.trie host).insert? endpoint segments).map (t.setTrie host)

theorem place_eq {t : Tiers} (h : t.Ordered) (host : HostPattern) (segments : List Segment)
    (endpoint : Endpoint) :
    t.place host segments endpoint =
      match t.insert? host segments endpoint with
      | some after => (true, after)
      | none => (false, t) := by
  rw [place, insert?, Node.place_eq]
  cases hinsert : (t.trie host).insert? endpoint segments with
  | some n => rfl
  | none =>
      have hheld : t.trie host ≠ Node.empty := by
        intro hempty
        obtain ⟨held, hmem, -⟩ := Node.insert?_eq_none_iff.mp hinsert
        simp [hempty] at hmem
      simp [setTrie_trie h hheld]

end Tiers

namespace RouteTable

structure Consistent (t : RouteTable) : Prop where
  origin : ∀ route ∈ t.routes, ∃ r : Registration, r.Yields route
  index : ∀ i (route : Route), t.routes[i]? = some route → route.id = ⟨i⟩
  names : t.names = t.routes.filterMap fun route => route.name.map fun name => (name, route.id)
  distinct : (t.names.map Prod.fst).Nodup
  free : t.routes.Pairwise fun first second => first.clashes second = false
  ordered : t.tiers.Ordered
  endpoints : ∀ host segments,
    (t.tiers.trie host).endpointsAt segments =
      (t.routes.filter fun route =>
        route.host = host && PathPattern.sameShape route.segments segments).map Route.endpoint

theorem consistent_empty : Consistent empty := by
  constructor <;> simp [empty, Tiers.ordered_empty]

/-- One table is another with one more route, which a registration asked for. -/
structure Extended (t after : RouteTable) (r : Registration) (route : Route) : Prop where
  yields : r.Yields route
  index : route.id = ⟨t.routes.length⟩
  fresh : t.isTaken route.name = false
  inserted : t.tiers.insert? route.host route.segments route.endpoint = some after.tiers
  routes : after.routes = t.routes ++ [route]
  names : after.names = nameAdded t.names route.id route.name

theorem filter_isTaken_eq_none_iff {t : RouteTable} {name : Option String} :
    (name.filter fun name => t.isTaken (some name)) = none ↔ t.isTaken name = false := by
  cases name with
  | none => exact ⟨fun _ => rfl, fun _ => rfl⟩
  | some name => simp

theorem place_cases {t : RouteTable} (ht : t.tiers.Ordered) {method : RouteMethod}
    {host : HostPattern} {r : Registration} (hhost : r.parseHost = .ok host)
    (hmethod : r.parseMethod = .ok method) :
    (∃ refusal, t.place method host r = (.error refusal, t)) ∨
      ∃ route after, t.place method host r = (.ok route.id, after) ∧ Extended t after r route := by
  unfold place
  cases hsegments : PathPattern.compile r.path with
  | error fault => exact .inl ⟨_, rfl⟩
  | ok segments =>
      cases hname : r.options.name.filter fun name => t.isTaken (some name) with
      | some name => exact .inl ⟨_, rfl⟩
      | none =>
          simp only [Tiers.place_eq ht]
          cases hinsert : t.tiers.insert? host segments
              ⟨method, ⟨t.routes.length⟩, PathPattern.binders segments⟩ with
          | none => exact .inl ⟨_, rfl⟩
          | some tiers =>
              refine .inr ⟨⟨⟨t.routes.length⟩, method, host, r.path, segments, r.options.name,
                r.options.layers, r.options.timeout, r.handler⟩, _, rfl, ?_⟩
              exact ⟨⟨hhost, hmethod, hsegments, rfl, rfl, rfl, rfl, rfl⟩, rfl,
                filter_isTaken_eq_none_iff.mp hname, hinsert, rfl, rfl⟩

theorem register_cases {t : RouteTable} (ht : t.tiers.Ordered) (r : Registration) :
    (∃ refusal, t.register r = (.error refusal, t)) ∨
      ∃ route after, t.register r = (.ok route.id, after) ∧ Extended t after r route := by
  unfold register
  cases hhost : r.parseHost with
  | error refusal => exact .inl ⟨refusal, rfl⟩
  | ok host =>
      cases hmethod : r.parseMethod with
      | error refusal => exact .inl ⟨refusal, rfl⟩
      | ok method => exact place_cases ht hhost hmethod

theorem add_eq_ok_iff {t after : RouteTable} {r : Registration} {id : RouteId} :
    t.add r = .ok (id, after) ↔ t.register r = (.ok id, after) := by
  unfold add
  split
  · next own next heq => simp [heq]
  · next refusal next heq => simp [heq]

/-! ## Numbers and names -/

theorem get?_id {t : RouteTable} (h : t.Consistent) {route : Route} (hroute : route ∈ t.routes) :
    t.get? route.id = some route := by
  obtain ⟨i, hi, hget⟩ := List.mem_iff_getElem.mp hroute
  have hentry : t.routes[i]? = some route := List.getElem?_eq_some_iff.mpr ⟨hi, hget⟩
  rw [get?, h.index i route hentry]
  exact hentry

theorem named?_eq_some_iff {t : RouteTable} (h : t.Consistent) {name : String} {id : RouteId} :
    t.named? name = some id ↔ ∃ route ∈ t.routes, route.name = some name ∧ route.id = id := by
  have hmem : (name, id) ∈ t.names ↔
      ∃ route ∈ t.routes, route.name = some name ∧ route.id = id := by
    simp [h.names]
  rw [← hmem]
  constructor
  · intro hlookup
    obtain ⟨before, after, hsplit, -⟩ := List.lookup_eq_some_iff.mp hlookup
    simp [hsplit]
  · intro hentry
    exact lookup_of_mem h.distinct hentry

theorem eq_of_name {t : RouteTable} (h : t.Consistent) {route other : Route}
    (hroute : route ∈ t.routes) (hother : other ∈ t.routes) {name : String}
    (hname : route.name = some name) (hname' : other.name = some name) : other = route := by
  have hnamed := (named?_eq_some_iff h).mpr ⟨route, hroute, hname, rfl⟩
  have hnamed' := (named?_eq_some_iff h).mpr ⟨other, hother, hname', rfl⟩
  have hid : other.id = route.id := by
    rw [hnamed] at hnamed'
    exact (Option.some.inj hnamed').symm
  have hget := get?_id h hother
  rw [hid, get?_id h hroute] at hget
  exact (Option.some.inj hget).symm

/-! ## One registration -/

theorem mem_endpointsAt_iff {t : RouteTable} (h : t.Consistent) {host : HostPattern}
    {segments : List Segment} {endpoint : Endpoint} :
    endpoint ∈ (t.tiers.trie host).endpointsAt segments ↔
      ∃ route ∈ t.routes, route.host = host ∧
        PathPattern.shape route.segments = PathPattern.shape segments ∧
          route.endpoint = endpoint := by
  simp [h.endpoints, PathPattern.sameShape_iff, and_assoc]

theorem insert?_eq_none_iff {t : RouteTable} (h : t.Consistent) (route : Route) :
    t.tiers.insert? route.host route.segments route.endpoint = none ↔
      ∃ other ∈ t.routes, other.clashes route = true := by
  rw [Tiers.insert?, Option.map_eq_none_iff, Node.insert?_eq_none_iff]
  simp only [mem_endpointsAt_iff h]
  constructor
  · rintro ⟨held, ⟨other, hother, hhost, hshape, rfl⟩, hmethod⟩
    refine ⟨other, hother, ?_⟩
    simpa [Route.clashes, PathPattern.sameShape_iff] using ⟨⟨hmethod, hhost⟩, hshape⟩
  · rintro ⟨other, hother, hclash⟩
    simp only [Route.clashes, PathPattern.sameShape_iff, Bool.and_eq_true, decide_eq_true_eq]
      at hclash
    obtain ⟨⟨hmethod, hhost⟩, hshape⟩ := hclash
    exact ⟨other.endpoint, ⟨other, hother, hhost, hshape, rfl⟩, hmethod⟩

theorem register_of_yields {t : RouteTable} (h : t.Consistent) {r : Registration} {route : Route}
    (hyields : r.Yields route) (hname : t.isTaken route.name = false)
    (hfree : ∀ other ∈ t.routes, other.clashes route = false) :
    ∃ after, t.register r = (.ok ⟨t.routes.length⟩, after) ∧
      Extended t after r { route with id := ⟨t.routes.length⟩ } := by
  have hunnamed : r.options.name.filter (fun name => t.isTaken (some name)) = none :=
    filter_isTaken_eq_none_iff.mpr (hyields.name ▸ hname)
  have hinsert : t.tiers.insert? route.host route.segments
      ⟨route.method, ⟨t.routes.length⟩, PathPattern.binders route.segments⟩ ≠ none := by
    intro hnone
    obtain ⟨other, hother, hclash⟩ :=
      (insert?_eq_none_iff h { route with id := ⟨t.routes.length⟩ }).mp hnone
    have hclash' : other.clashes route = true := hclash
    rw [hfree other hother] at hclash'
    contradiction
  obtain ⟨tiers, htiers⟩ := Option.ne_none_iff_exists'.mp hinsert
  obtain ⟨id, method, host, path, segments, name, layers, timeout, handler⟩ := route
  obtain ⟨hhost, hmethod, hsegments, rfl, rfl, rfl, rfl, rfl⟩ := hyields
  refine ⟨⟨_, nameAdded t.names ⟨t.routes.length⟩ r.options.name, tiers⟩, ?_,
    ⟨⟨hhost, hmethod, hsegments, rfl, rfl, rfl, rfl, rfl⟩, rfl, hname, htiers, rfl, rfl⟩⟩
  simp only [register, hhost, hmethod, place, hsegments, hunnamed, Tiers.place_eq h.ordered, htiers]

theorem nameAdded_eq (names : List (String × RouteId)) (id : RouteId) (name : Option String) :
    nameAdded names id name = names ++ (name.map fun name => (name, id)).toList := by
  cases name <;> simp [nameAdded]

namespace Extended

variable {t after : RouteTable} {r : Registration} {route : Route}

theorem index_getElem? (h : Extended t after r route) (ht : t.Consistent) (i : Nat)
    (other : Route) (hother : after.routes[i]? = some other) : other.id = ⟨i⟩ := by
  rw [h.routes, List.getElem?_append] at hother
  split at hother
  · exact ht.index i other hother
  · obtain ⟨hi, rfl⟩ := List.getElem?_eq_some_iff.mp hother
    simp only [List.length_singleton] at hi
    simp only [List.getElem_singleton, h.index, RouteId.mk.injEq]
    omega

theorem names_nodup (h : Extended t after r route) (ht : t.Consistent) :
    (after.names.map Prod.fst).Nodup := by
  rw [h.names, nameAdded_eq]
  cases hname : route.name with
  | none => simpa using ht.distinct
  | some name =>
      have hfresh : ∀ id, (name, id) ∉ t.names := by
        intro id hmem
        have htaken := h.fresh
        simp only [hname, isTaken, named?, Option.isSome_eq_false_iff, Option.isNone_iff_eq_none,
          List.lookup_eq_none_iff] at htaken
        simpa using htaken _ hmem
      rw [List.map_append, List.nodup_append]
      refine ⟨ht.distinct, by simp, ?_⟩
      intro other hother new hnew
      obtain ⟨⟨key, id⟩, hmem, rfl⟩ := List.mem_map.mp hother
      simp only [Option.map_some, Option.toList_some, List.map_cons, List.map_nil,
        List.mem_singleton] at hnew
      rintro rfl
      exact hfresh id (hnew ▸ hmem)

theorem clashes_eq_false (h : Extended t after r route) (ht : t.Consistent) {other : Route}
    (hother : other ∈ t.routes) : other.clashes route = false := by
  rw [← Bool.not_eq_true]
  intro hclash
  have hrefused := (insert?_eq_none_iff ht route).mpr ⟨other, hother, hclash⟩
  rw [h.inserted] at hrefused
  cases hrefused

theorem routes_free (h : Extended t after r route) (ht : t.Consistent) :
    after.routes.Pairwise fun first second => first.clashes second = false := by
  rw [h.routes, List.pairwise_append]
  refine ⟨ht.free, List.pairwise_singleton .., ?_⟩
  intro other hother new hnew
  rw [List.mem_singleton] at hnew
  subst hnew
  exact h.clashes_eq_false ht hother

theorem endpointsAt_trie (h : Extended t after r route) (ht : t.Consistent) (host : HostPattern)
    (segments : List Segment) :
    (after.tiers.trie host).endpointsAt segments =
      (after.routes.filter fun route =>
        route.host = host && PathPattern.sameShape route.segments segments).map
          Route.endpoint := by
  obtain ⟨n, hn, htiers⟩ := Option.map_eq_some_iff.mp h.inserted
  rw [← htiers, Tiers.trie_setTrie, h.routes, List.filter_append, List.map_append]
  by_cases hhost : route.host = host
  · subst hhost
    rw [if_pos rfl, Node.endpointsAt_insert? hn, ht.endpoints]
    cases hshape : PathPattern.sameShape route.segments segments with
    | true => simp [PathPattern.sameShape_iff.mp hshape, hshape]
    | false =>
        have hdiffer : PathPattern.shape route.segments ≠ PathPattern.shape segments := by
          rw [Ne, ← PathPattern.sameShape_iff, hshape]
          exact Bool.false_ne_true
        simp [hdiffer, hshape]
  · simp [hhost, ht.endpoints]

theorem consistent (h : Extended t after r route) (ht : t.Consistent) : after.Consistent where
  origin := by
    intro other hother
    rw [h.routes, List.mem_append, List.mem_singleton] at hother
    rcases hother with hother | rfl
    · exact ht.origin other hother
    · exact ⟨r, h.yields⟩
  index := h.index_getElem? ht
  names := by
    rw [h.names, h.routes, nameAdded_eq, List.filterMap_append, ht.names]
    cases hname : route.name <;> simp [hname]
  distinct := h.names_nodup ht
  free := h.routes_free ht
  ordered := by
    obtain ⟨n, -, htiers⟩ := Option.map_eq_some_iff.mp h.inserted
    rw [← htiers]
    exact Tiers.ordered_setTrie ht.ordered h.yields.isLower_host n
  endpoints := h.endpointsAt_trie ht

end Extended

/-! ## Whole runs -/

theorem consistent_of_reached {t : RouteTable} (h : Reached t) : t.Consistent := by
  induction h with
  | empty => exact consistent_empty
  | add _ hadd ih =>
      rw [add_eq_ok_iff] at hadd
      rcases register_cases ih.ordered _ with ⟨refusal, hrefused⟩ | ⟨route, next, hok, hextended⟩
      · rw [hrefused] at hadd
        simp at hadd
      · rw [hok] at hadd
        cases hadd
        exact hextended.consistent ih

theorem reached_register {t : RouteTable} (h : Reached t) (r : Registration) :
    Reached (t.register r).2 := by
  rcases register_cases (consistent_of_reached h).ordered r with
    ⟨refusal, hrefused⟩ | ⟨route, next, hok, -⟩
  · rw [hrefused]
    exact h
  · rw [hok]
    exact .add h (add_eq_ok_iff.mpr hok)

theorem reached_registered (calls : List Registration) : Reached (registered calls) := by
  unfold registered
  generalize hstart : RouteTable.empty = start
  have h : Reached start := hstart ▸ .empty
  clear hstart
  induction calls generalizing start with
  | nil => exact h
  | cons r rest ih => exact ih (start.register r).2 (reached_register h r)

theorem consistent_registered (calls : List Registration) : (registered calls).Consistent :=
  consistent_of_reached (reached_registered calls)

end RouteTable

theorem Draft.reached_registerAll {policy : DuplicateNames} {calls : List Registration}
    {t after : RouteTable} (h : RouteTable.Reached t)
    (hall : registerAll policy t calls = .ok after) : RouteTable.Reached after := by
  induction calls generalizing t with
  | nil =>
      cases hall
      exact h
  | cons r rest ih =>
      have hnext := RouteTable.reached_register h r
      simp only [registerAll] at hall
      split at hall
      · next id next hresult =>
          rw [hresult] at hnext
          exact ih hnext hall
      · next refusal next hresult =>
          rw [hresult] at hnext
          split at hall
          · exact ih hnext hall
          · contradiction

end HttpRouting
