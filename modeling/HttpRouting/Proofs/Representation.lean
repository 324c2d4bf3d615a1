import HttpRouting.Proofs.Contents
import HttpRouting.Proofs.Matching

/-!
# Three parts of one table

After any run of registrations, accepted or refused, the numbers, the names and the tries of a
table say the same: each route has the number of its place, its name leads to it, and the tries
contain its endpoint, where its host and path put it, and nothing else.  Every number that the
table hands out leads to the route that was registered under it.  A refused registration changes
none of this.
-/

namespace HttpRouting

def Route.entry (r : Route) : HostPattern × List Segment × Endpoint :=
  (r.host, PathPattern.shape r.segments, r.endpoint)

def Registration.named (r : Registration) (name : String) : Registration :=
  { r with options := { r.options with name := some name } }

theorem Registration.Yields.unique {r : Registration} {route other : Route}
    (h : r.Yields route) (h' : r.Yields other) (hid : route.id = other.id) : route = other := by
  have hhost := h.host.symm.trans h'.host
  have hmethod := h.method.symm.trans h'.method
  have hsegments := h.segments.symm.trans h'.segments
  obtain ⟨_, _, _, hpath, hname, hlayers, htimeout, hhandler⟩ := h
  obtain ⟨_, _, _, hpath', hname', hlayers', htimeout', hhandler'⟩ := h'
  cases route
  cases other
  simp_all

theorem Registration.exists_fault_of_parseHost {r : Registration} {refusal : RouteError}
    (h : r.parseHost = .error refusal) : ∃ fault, refusal = .pattern fault := by
  unfold parseHost at h
  split at h
  · cases h
  · next pattern _ =>
      cases hcompile : HostPattern.compile pattern with
      | error fault =>
          rw [hcompile] at h
          cases h
          exact ⟨fault, rfl⟩
      | ok host =>
          rw [hcompile] at h
          cases h

theorem Registration.refusal_of_parseMethod {r : Registration} {refusal : RouteError}
    (h : r.parseMethod = .error refusal) : refusal = .invalidMethod r.method := by
  unfold parseMethod at h
  split at h <;> cases h
  rfl

theorem Tiers.perm_entries_insert? {t after : Tiers} (h : t.Ordered) {host : HostPattern}
    {segments : List Segment} {endpoint : Endpoint}
    (hinsert : t.insert? host segments endpoint = some after) :
    after.entries.Perm ((host, PathPattern.shape segments, endpoint) :: t.entries) := by
  obtain ⟨n, hn, rfl⟩ := Option.map_eq_some_iff.mp hinsert
  exact perm_entries_setTrie h (Node.perm_entries_insert? hn)

namespace RouteTable

theorem exists_extended_of_add {t after : RouteTable} (h : t.tiers.Ordered) {r : Registration}
    {id : RouteId} (hadd : t.add r = .ok (id, after)) :
    ∃ route, Extended t after r route ∧ route.id = id := by
  rw [add_eq_ok_iff] at hadd
  rcases register_cases h r with ⟨refusal, hrefused⟩ | ⟨route, next, hok, hextended⟩
  · rw [hrefused] at hadd
    cases hadd
  · rw [hok] at hadd
    cases hadd
    exact ⟨route, hextended, rfl⟩

theorem perm_entries_of_reached {t : RouteTable} (h : Reached t) :
    t.tiers.entries.Perm (t.routes.map Route.entry) := by
  induction h with
  | empty => exact .refl _
  | @add t after r id hreached hadd ih =>
      have ht := (consistent_of_reached hreached).ordered
      obtain ⟨route, hextended, -⟩ := exists_extended_of_add ht hadd
      rw [hextended.routes, List.map_append]
      calc after.tiers.entries.Perm (route.entry :: t.tiers.entries) :=
            Tiers.perm_entries_insert? ht hextended.inserted
        _ |>.Perm (route.entry :: t.routes.map Route.entry) := ih.cons _
        _ |>.Perm (t.routes.map Route.entry ++ [route.entry]) :=
            (List.perm_append_singleton _ _).symm

/-- How the parts of a table belong together. -/
structure Indexed (t : RouteTable) : Prop where
  numbered : ∀ i (route : Route), t.routes[i]? = some route → route.id = ⟨i⟩
  named : ∀ name id, t.named? name = some id ↔
    ∃ route, t.get? id = some route ∧ route.name = some name
  oncePerName : (t.names.map Prod.fst).Nodup
  contents : t.tiers.entries.Perm (t.routes.map Route.entry)
  located : ∀ route ∈ t.routes, ∃ node,
    Node.find? route.segments (t.tiers.trie route.host) = some node ∧
      route.endpoint ∈ node.endpoints
  oncePerMethod : ∀ host segments node,
    Node.find? segments (t.tiers.trie host) = some node →
      (node.endpoints.map Endpoint.method).Nodup

theorem methods_nodup {t : RouteTable} (h : t.Consistent) {host : HostPattern}
    {segments : List Segment} {node : Node}
    (hfind : Node.find? segments (t.tiers.trie host) = some node) :
    (node.endpoints.map Endpoint.method).Nodup := by
  have hnode := h.endpoints host segments
  rw [Node.endpointsAt_of_find? hfind] at hnode
  rw [hnode, List.map_map, List.Nodup, List.pairwise_map, List.pairwise_filter]
  refine h.free.imp fun {first second} hfree hfirst hsecond hmethod => ?_
  simp only [Bool.and_eq_true, decide_eq_true_eq, PathPattern.sameShape_iff] at hfirst hsecond
  have hclash : first.clashes second = true := by
    simp only [Route.clashes, Bool.and_eq_true, decide_eq_true_eq, PathPattern.sameShape_iff]
    exact ⟨⟨hmethod, hfirst.1.trans hsecond.1.symm⟩, hfirst.2.trans hsecond.2.symm⟩
  rw [hfree] at hclash
  contradiction

theorem indexed_of_reached {t : RouteTable} (h : Reached t) : t.Indexed := by
  have ht := consistent_of_reached h
  constructor
  · exact ht.index
  · intro name id
    rw [named?_eq_some_iff ht]
    constructor
    · rintro ⟨route, hroute, hname, rfl⟩
      exact ⟨route, get?_id ht hroute, hname⟩
    · rintro ⟨route, hget, hname⟩
      exact ⟨route, List.mem_of_getElem? hget, hname, ht.index id.index route hget⟩
  · exact ht.distinct
  · exact perm_entries_of_reached h
  · intro route hroute
    exact Node.exists_find?_of_mem ((mem_endpointsAt_iff ht).mpr ⟨route, hroute, rfl, rfl, rfl⟩)
  · intro host segments node hfind
    exact methods_nodup ht hfind

/-! ## Runs of registrations -/

/-- The table after a run of registrations on a table, accepted or refused. -/
def continued (t : RouteTable) (calls : List Registration) : RouteTable :=
  calls.foldl (fun t r => (t.register r).2) t

theorem registered_append (calls more : List Registration) :
    registered (calls ++ more) = (registered calls).continued more :=
  List.foldl_append

theorem get?_register_of_get? {t : RouteTable} (h : t.tiers.Ordered) {id : RouteId} {route : Route}
    (hget : t.get? id = some route) (r : Registration) :
    (t.register r).2.get? id = some route := by
  rcases register_cases h r with ⟨refusal, hrefused⟩ | ⟨new, after, hok, hextended⟩
  · rwa [hrefused]
  · rw [hok]
    obtain ⟨hi, -⟩ := List.getElem?_eq_some_iff.mp hget
    change after.routes[id.index]? = some route
    rw [hextended.routes, List.getElem?_append_left hi]
    exact hget

theorem get?_continued_of_get? {t : RouteTable} (h : Reached t) {id : RouteId} {route : Route}
    (hget : t.get? id = some route) (calls : List Registration) :
    (t.continued calls).get? id = some route := by
  induction calls generalizing t with
  | nil => exact hget
  | cons r rest ih =>
      exact ih (reached_register h r)
        (get?_register_of_get? (consistent_of_reached h).ordered hget r)

theorem exists_call_of_get?_continued {t : RouteTable} (h : Reached t) {id : RouteId}
    {route : Route} {calls : List Registration} (hget : (t.continued calls).get? id = some route) :
    t.get? id = some route ∨
      ∃ before r after, calls = before ++ r :: after ∧
        ((t.continued before).register r).1 = .ok id ∧ r.Yields route := by
  induction calls generalizing t with
  | nil => exact .inl hget
  | cons r rest ih =>
      rcases ih (reached_register h r) hget with hnext | ⟨before, r', after, rfl, hok, hyields⟩
      · rcases register_cases (consistent_of_reached h).ordered r with
          ⟨refusal, hrefused⟩ | ⟨new, after, hok, hextended⟩
        · rw [hrefused] at hnext
          exact .inl hnext
        · rw [hok] at hnext
          change after.routes[id.index]? = some route at hnext
          rw [hextended.routes, List.getElem?_append] at hnext
          split at hnext
          · exact .inl hnext
          · obtain ⟨hi, rfl⟩ := List.getElem?_eq_some_iff.mp hnext
            rw [List.length_singleton] at hi
            have hlast : id.index = t.routes.length := by omega
            have hid : new.id = id := by rw [hextended.index, ← hlast]
            refine .inr ⟨[], r, rest, rfl, ?_, by simpa using hextended.yields⟩
            rw [← hid]
            exact congrArg Prod.fst hok
      · exact .inr ⟨r :: before, r', after, rfl, hok, hyields⟩

theorem get?_registered_of_call {before after : List Registration} {r : Registration}
    {id : RouteId} {route : Route} (hok : ((registered before).register r).1 = .ok id)
    (hyields : r.Yields route) (hid : route.id = id) :
    (registered (before ++ r :: after)).get? id = some route := by
  have hbefore := reached_registered before
  have hconsistent := consistent_of_reached hbefore
  rcases register_cases hconsistent.ordered r with
    ⟨refusal, hrefused⟩ | ⟨new, next, hadded, hextended⟩
  · rw [hrefused] at hok
    cases hok
  · rw [hadded] at hok
    cases hok
    obtain rfl := hyields.unique hextended.yields hid
    have hheld : next.get? route.id = some route :=
      get?_id (hextended.consistent hconsistent) (by simp [hextended.routes])
    rw [registered_append]
    change (((registered before).register r).2.continued after).get? route.id = some route
    refine get?_continued_of_get? (reached_register hbefore r) ?_ after
    rwa [hadded]

/-- After any run of registrations the parts of the table belong together, a number leads to the
route of the registration that it was handed out for, and to none without one, and a matched
request has the number of a route that accepts it. -/
theorem registered_indexed (calls : List Registration) :
    (registered calls).Indexed ∧
      (∀ id route, (registered calls).get? id = some route ↔
        route.id = id ∧ ∃ before r after, calls = before ++ r :: after ∧
          ((registered before).register r).1 = .ok id ∧ r.Yields route) ∧
      ∀ host method path id params,
        (registered calls).resolve host method path = .matched id params →
          ∃ route ∈ (registered calls).candidates host method path,
            (registered calls).get? id = some route := by
  have hreached := reached_registered calls
  have hconsistent := consistent_of_reached hreached
  refine ⟨indexed_of_reached hreached, fun id route => ⟨fun hget => ?_, ?_⟩, ?_⟩
  · refine ⟨hconsistent.index id.index route hget, ?_⟩
    rcases exists_call_of_get?_continued .empty hget with hnone | hcall
    · cases hnone
    · exact hcall
  · rintro ⟨hid, before, r, after, rfl, hok, hyields⟩
    exact get?_registered_of_call hok hyields hid
  · intro host method path id params hmatched
    obtain ⟨route, -, hforemost, rfl, -⟩ := foremost_of_resolve hconsistent hmatched
    exact ⟨route, hforemost.1, get?_id hconsistent hforemost.mem_routes⟩

def articleRoutes : List Registration :=
  [.plain "put" "/articles/:id", .plain "no method" "/articles", .plain "POST" "/articles/new"]

theorem registered_indexed_articles :
    (registered articleRoutes).Indexed ∧
      (registered articleRoutes).resolve "localhost" Method.post "/articles/new" =
        .matched ⟨1⟩ PathParams.empty ∧
      ∃ route, (registered articleRoutes).get? ⟨1⟩ = some route ∧
        (Registration.plain "POST" "/articles/new").Yields route ∧
        route ∈ (registered articleRoutes).candidates "localhost" Method.post "/articles/new" := by
  obtain ⟨hindexed, hnumbers, hmatches⟩ := registered_indexed articleRoutes
  have hmatched : (registered articleRoutes).resolve "localhost" Method.post "/articles/new" =
      .matched ⟨1⟩ PathParams.empty := by decide +kernel
  obtain ⟨route, hcandidate, hget⟩ := hmatches _ _ _ _ _ hmatched
  let new : Route := ⟨⟨1⟩, .exact Method.post, .any, "/articles/new",
    [.literal "articles", .literal "new"], none, [], none, Handler.unserved⟩
  have hyields : (Registration.plain "POST" "/articles/new").Yields new := by
    refine ⟨rfl, ?_, ?_, rfl, rfl, rfl, rfl, rfl⟩ <;> decide +kernel
  have hnew : (registered articleRoutes).get? ⟨1⟩ = some new :=
    (hnumbers _ _).mpr ⟨rfl, articleRoutes.take 2, _, [], rfl, by decide +kernel, hyields⟩
  obtain rfl : new = route := Option.some.inj (hnew.symm.trans hget)
  exact ⟨hindexed, hmatched, new, hget, hyields, hcandidate⟩

/-! ## Refused registrations -/

theorem isTaken_of_duplicateRoute {t : RouteTable} {r : Registration}
    {method host path : String}
    (h : (t.register r).1 = .error (.duplicateRoute method host path)) :
    t.isTaken r.options.name = false := by
  unfold register at h
  split at h
  · next hhost =>
      cases h
      obtain ⟨fault, hfault⟩ := Registration.exists_fault_of_parseHost hhost
      cases hfault
  · split at h
    · next hmethod =>
        cases h
        cases Registration.refusal_of_parseMethod hmethod
    · unfold place at h
      split at h
      · cases h
      · split at h
        · cases h
        · next hname => exact filter_isTaken_eq_none_iff.mp hname

theorem register_of_refused {t : RouteTable} (h : t.tiers.Ordered) {r : Registration}
    {refusal : RouteError} (hrefused : (t.register r).1 = .error refusal) :
    (t.register r).2 = t := by
  rcases register_cases h r with ⟨_, hsame⟩ | ⟨_, _, hok, -⟩
  · rw [hsame]
  · rw [hok] at hrefused
    cases hrefused

/-- A refused registration leaves the very same table, so all that is registered after it goes
as if it had not been tried.  A route that is refused because it is there already has a free
name, and a name that was free can still be given to the next route. -/
theorem refused_leaves_no_trace {calls : List Registration} {r : Registration}
    {refusal : RouteError} (h : ((registered calls).register r).1 = .error refusal) :
    ((registered calls).register r).2 = registered calls ∧
      (∀ more, registered (calls ++ r :: more) = registered (calls ++ more)) ∧
      (∀ method host path, refusal = .duplicateRoute method host path →
        (registered calls).isTaken r.options.name = false) ∧
      ∀ (next : Registration) (route : Route), next.Yields route →
        route.name = r.options.name → (registered calls).isTaken r.options.name = false →
          (∀ other ∈ (registered calls).routes, other.clashes route = false) →
            (((registered calls).register r).2.register next).1 =
              .ok ⟨(registered calls).size⟩ := by
  have hconsistent := consistent_registered calls
  have hsame := register_of_refused hconsistent.ordered h
  refine ⟨hsame, fun more => ?_, ?_, ?_⟩
  · rw [registered_append, registered_append]
    change ((registered calls).register r).2.continued more = _
    rw [hsame]
  · rintro method host path rfl
    exact isTaken_of_duplicateRoute h
  · intro next route hyields hname hfree hclear
    obtain ⟨after, hok, -⟩ := register_of_yields hconsistent hyields (hname ▸ hfree) hclear
    rw [hsame, hok]
    rfl

def twinRoute : Registration := (Registration.plain "GET" "/a/").named "a"

theorem refused_leaves_no_trace_twin :
    ((registered [.plain "GET" "/a"]).register twinRoute).1 =
        .error (.duplicateRoute "GET" "" "/a/") ∧
      ((registered [.plain "GET" "/a"]).register twinRoute).2 = registered [.plain "GET" "/a"] ∧
      (((registered [.plain "GET" "/a"]).register twinRoute).2.register
        ((Registration.plain "POST" "/a").named "a")).1 = .ok ⟨1⟩ := by
  have hrefused : ((registered [.plain "GET" "/a"]).register twinRoute).1 =
      .error (.duplicateRoute "GET" "" "/a/") := by decide +kernel
  obtain ⟨hsame, -, hfree, hnext⟩ := refused_leaves_no_trace hrefused
  let next : Route := ⟨⟨0⟩, .exact Method.post, .any, "/a", [.literal "a"], some "a", [], none,
    Handler.unserved⟩
  have hyields : ((Registration.plain "POST" "/a").named "a").Yields next := by
    refine ⟨rfl, ?_, ?_, rfl, rfl, rfl, rfl, rfl⟩ <;> decide +kernel
  have hclear : ∀ other ∈ (registered [.plain "GET" "/a"]).routes,
      other.clashes next = false := by decide +kernel
  have hplaced := hnext _ next hyields rfl (hfree _ _ _ rfl) hclear
  have hsize : (registered [.plain "GET" "/a"]).size = 1 := by decide +kernel
  rw [hsize] at hplaced
  exact ⟨hrefused, hsame, hplaced⟩

end RouteTable

end HttpRouting
