import HttpRouting.Proofs.Matching

/-!
# What a walk leaves behind

A walk through a trie starts with whatever an earlier one has gathered.  If it fails it has taken
back every piece that it captured, and has added the methods of all nodes at which the pieces can
end, none of which serves the request.  If it finds an endpoint it has captured what the pattern of
this endpoint takes of the pieces, and no node that goes before serves the request.
-/

namespace HttpRouting

namespace Node

/-! ## Where pieces can end -/

structure Ends (n : Node) (pieces : List String) (segments : List Segment) (last : Node) :
    Prop where
  matched : PathPattern.accepts segments pieces = true
  leads : find? segments n = some last

variable {n last : Node} {pieces : List String} {segments : List Segment} {method : Method}

theorem ends_of_mem_branches {b : Branch} (h : b ∈ branches pieces n) :
    n.Ends pieces b.address b.node := by
  obtain ⟨-, hcaptures, hfind⟩ := mem_branches_iff.mp h
  exact ⟨by simp [PathPattern.accepts, hcaptures], hfind⟩

theorem Ends.exists_branch (h : n.Ends pieces segments last) :
    ∃ b ∈ branches pieces n, b.address = PathPattern.shape segments ∧ b.node = last := by
  obtain ⟨captures, hcaptures⟩ := Option.isSome_iff_exists.mp h.matched
  exact ⟨_, Node.exists_branch hcaptures h.leads, rfl, rfl⟩

theorem serves_eq_none_iff {endpoints : List Endpoint} :
    serves method endpoints = none ↔ ∀ e ∈ endpoints, e.method.accepts method = false := by
  constructor
  · intro hnone e he
    by_contra haccepts
    obtain ⟨served, hserved⟩ := exists_serves he (by simpa using haccepts)
    rw [hnone] at hserved
    contradiction
  · intro hrefused
    cases hserved : serves method endpoints with
    | none => rfl
    | some served =>
        obtain ⟨hmem, haccepts, -⟩ := serves_eq_some hserved
        rw [hrefused served hmem] at haccepts
        contradiction

theorem answer?_eq_none_iff {b : Branch} :
    b.answer? method = none ↔ ∀ e ∈ b.node.endpoints, e.method.accepts method = false := by
  rw [Branch.answer?, Option.map_eq_none_iff, serves_eq_none_iff]

/-! ## A walk that fails -/

/-- What a walk that fails leaves behind. -/
structure Exhausted (method : Method) (pieces : List String) (n : Node) (before after : Search) :
    Prop where
  captures : after.captures = before.captures
  allowed : ∀ text, text ∈ after.allowed ↔
    text ∈ before.allowed ∨ ∃ segments last, n.Ends pieces segments last ∧
      ∃ e ∈ last.endpoints, e.method.explicitText? = some text
  ascending : before.allowed.Pairwise (· < ·) → after.allowed.Pairwise (· < ·)
  reached : after.reached = true ↔
    before.reached = true ∨ ∃ segments last, n.Ends pieces segments last ∧ last.endpoints ≠ []
  refused : ∀ segments last, n.Ends pieces segments last →
    ∀ e ∈ last.endpoints, e.method.accepts method = false

theorem exhausted_of_branches
    (h : ∀ b ∈ branches pieces n, b.answer? method = none) (before : Search) :
    Exhausted method pieces n before
      { captures := before.captures
        reached := before.reached || (branches pieces n).any (!·.node.endpoints.isEmpty)
        allowed := MethodSet.insertAll ((branches pieces n).flatMap Branch.methodTexts)
          before.allowed } := by
  constructor
  · rfl
  · intro text
    simp only [MethodSet.mem_insertAll, List.mem_flatMap, Branch.methodTexts, List.mem_filterMap]
    rw [or_comm]
    refine or_congr_right ⟨?_, ?_⟩
    · rintro ⟨b, hb, he⟩
      exact ⟨b.address, b.node, ends_of_mem_branches hb, he⟩
    · rintro ⟨segments, last, hends, he⟩
      obtain ⟨b, hb, -, rfl⟩ := hends.exists_branch
      exact ⟨b, hb, he⟩
  · exact MethodSet.sorted_insertAll
  · simp only [Bool.or_eq_true, List.any_eq_true, Bool.not_eq_true', List.isEmpty_eq_false_iff]
    refine or_congr_right ⟨?_, ?_⟩
    · rintro ⟨b, hb, hne⟩
      exact ⟨b.address, b.node, ends_of_mem_branches hb, hne⟩
    · rintro ⟨segments, last, hends, hne⟩
      obtain ⟨b, hb, -, rfl⟩ := hends.exists_branch
      exact ⟨b, hb, hne⟩
  · intro segments last hends
    obtain ⟨b, hb, -, rfl⟩ := hends.exists_branch
    exact answer?_eq_none_iff.mp (h b hb)

/-! ## A walk that finds an endpoint -/

/-- An endpoint serves the method at the end of the segments, and no node that goes before serves
it: of two nodes at which the pieces can end one goes before the other. -/
structure Foremost (method : Method) (pieces : List String) (n : Node) (segments : List Segment)
    (last : Node) (endpoint : Endpoint) : Prop where
  ends : n.Ends pieces segments last
  held : endpoint ∈ last.endpoints
  accepts : endpoint.method.accepts method = true
  explicit : ∀ e ∈ last.endpoints, e.method.accepts method = true →
    e.method = endpoint.method ∨ endpoint.method.precedes e.method = true
  ordered : ∀ other last', n.Ends pieces other last' →
    PathPattern.shape other = PathPattern.shape segments ∨
      PathPattern.precedes other segments = true ∨ PathPattern.precedes segments other = true
  refused : ∀ other last', n.Ends pieces other last' →
    PathPattern.precedes other segments = true →
      ∀ e ∈ last'.endpoints, e.method.accepts method = false

theorem foremost_of_branches {earlier later : List Branch} {b : Branch} {endpoint : Endpoint}
    (hsplit : branches pieces n = earlier ++ b :: later)
    (hserves : serves method b.node.endpoints = some endpoint)
    (hearlier : ∀ b ∈ earlier, b.answer? method = none) :
    Foremost method pieces n b.address b.node endpoint := by
  obtain ⟨hheld, haccepts, hexplicit⟩ := serves_eq_some hserves
  have hsorted := branches_pairwise pieces n
  rw [hsplit, List.pairwise_append, List.pairwise_cons] at hsorted
  obtain ⟨-, ⟨hlater, -⟩, hcross⟩ := hsorted
  have hplace : ∀ other last', n.Ends pieces other last' →
      ∃ b' ∈ earlier ++ b :: later, PathPattern.shape b'.address = PathPattern.shape other ∧
        b'.node = last' := by
    intro other last' hends
    obtain ⟨b', hb', haddress, rfl⟩ := hends.exists_branch
    exact ⟨b', hsplit ▸ hb', by rw [haddress, PathPattern.shape_shape], rfl⟩
  refine ⟨ends_of_mem_branches (by simp [hsplit]), hheld, haccepts, hexplicit, ?_, ?_⟩
  · intro other last' hends
    obtain ⟨b', hb', hshape, -⟩ := hplace other last' hends
    rw [← hshape, ← PathPattern.precedes_congr hshape rfl, ← PathPattern.precedes_congr rfl hshape]
    rcases List.mem_append.mp hb' with hb' | hb'
    · exact .inr (.inl (hcross b' hb' b List.mem_cons_self))
    · rcases List.mem_cons.mp hb' with rfl | hb'
      · exact .inl rfl
      · exact .inr (.inr (hlater b' hb'))
  · intro other last' hends hprecedes
    obtain ⟨b', hb', hshape, rfl⟩ := hplace other last' hends
    rw [← PathPattern.precedes_congr hshape rfl] at hprecedes
    rcases List.mem_append.mp hb' with hb' | hb'
    · exact answer?_eq_none_iff.mp (hearlier b' hb')
    · rcases List.mem_cons.mp hb' with rfl | hb'
      · exact absurd hprecedes (PathPattern.precedes_irrefl _)
      · have hback := PathPattern.precedes_asymm (hlater b' hb')
        rw [hback] at hprecedes
        contradiction

theorem find?_append (above below : List Segment) (n : Node) :
    find? (above ++ below) n = (find? above n).bind (find? below) := by
  induction above generalizing n with
  | nil => rfl
  | cons segment rest ih =>
      simp only [List.cons_append, find?, Option.bind_assoc]
      congr 1
      funext child
      exact ih child

end Node

namespace RouteTable

theorem exists_route_below {t : RouteTable} (h : t.Consistent) {host : HostPattern}
    {above segments : List Segment} {n last : Node}
    (habove : (t.tiers.trie host).find? above = some n) (hfind : n.find? segments = some last)
    {endpoint : Endpoint} (hheld : endpoint ∈ last.endpoints) :
    ∃ route ∈ t.routes, route.endpoint = endpoint ∧ route.host = host ∧
      ∃ lead own, route.segments = lead ++ own ∧
        PathPattern.shape lead = PathPattern.shape above ∧
          PathPattern.shape own = PathPattern.shape segments := by
  have hwhole : (t.tiers.trie host).find? (above ++ segments) = some last := by
    rw [Node.find?_append, habove, Option.bind_some, hfind]
  rw [← Node.endpointsAt_of_find? hwhole, mem_endpointsAt_iff h] at hheld
  obtain ⟨route, hroute, hhost, hshape, hendpoint⟩ := hheld
  have hmap : route.segments.map Segment.nameless =
      PathPattern.shape above ++ PathPattern.shape segments := by
    simpa [PathPattern.shape] using hshape
  obtain ⟨lead, own, hsegments, hlead, hown⟩ := List.map_eq_append_iff.mp hmap
  exact ⟨route, hroute, hendpoint, hhost, lead, own, hsegments, hlead, hown⟩

end RouteTable

namespace Node

/-- The pieces that an endpoint takes are those that its own pattern binds, in every table that has
the node in one of its tries. -/
def TakesOwn (n : Node) (pieces : List String) (endpoint : Endpoint) (taken : List String) : Prop :=
  ∀ calls host above, ((RouteTable.registered calls).tiers.trie host).find? above = some n →
    ∃ route ∈ (RouteTable.registered calls).routes, route.endpoint = endpoint ∧ route.host = host ∧
      ∃ lead own, route.segments = lead ++ own ∧
        PathPattern.shape lead = PathPattern.shape above ∧
          PathPattern.captures? own pieces = some taken

/-- A walk that fails leaves what it started with, but for the methods of the nodes at which the
pieces can end, and none of these serves the request.  A walk that finds an endpoint adds to what
was captured the pieces that the pattern of the endpoint takes, and no node before serves the
request. -/
theorem walk_disciplined (method : Method) (pieces : List String) (n : Node) (before : Search) :
    match n.walk method pieces before with
    | (none, after) => Exhausted method pieces n before after
    | (some endpoint, after) =>
        ∃ segments last taken, Foremost method pieces n segments last endpoint ∧
          PathPattern.captures? segments pieces = some taken ∧
          after.captures = before.captures ++ taken ∧ n.TakesOwn pieces endpoint taken := by
  rw [walk_eq_scan]
  cases hfind : (branches pieces n).findSome? (Branch.answer? method) with
  | none =>
      rw [scan_of_findSome?_eq_none hfind]
      exact exhausted_of_branches (List.findSome?_eq_none_iff.mp hfind) before
  | some found =>
      obtain ⟨endpoint, taken⟩ := found
      obtain ⟨after, hscan, hcaptures⟩ := scan_of_findSome?_eq_some hfind before
      obtain ⟨earlier, b, later, hsplit, hanswer, hearlier⟩ :=
        List.findSome?_eq_some_iff.mp hfind
      obtain ⟨served, hserves, hpair⟩ := Option.map_eq_some_iff.mp hanswer
      obtain ⟨rfl, rfl⟩ := Prod.mk.inj hpair
      have hbranch : b ∈ branches pieces n := by simp [hsplit]
      obtain ⟨-, htaken, hleads⟩ := mem_branches_iff.mp hbranch
      have hforemost := foremost_of_branches hsplit hserves hearlier
      rw [hscan]
      refine ⟨b.address, b.node, b.captures, hforemost, htaken, hcaptures, ?_⟩
      intro calls host above habove
      obtain ⟨route, hroute, hendpoint, hhost, lead, own, hsegments, hlead, hown⟩ :=
        RouteTable.exists_route_below (RouteTable.consistent_registered calls) habove hleads
          hforemost.held
      rw [← PathPattern.captures?_congr hown] at htaken
      exact ⟨route, hroute, hendpoint, hhost, lead, own, hsegments, hlead, htaken⟩

def users : Node :=
  let t := RouteTable.registered [.plain "POST" "/users/:id/posts", .plain "GET" "/users/*rest"]
  ((t.tiers.trie .any).find? [.literal "users"]).getD empty

theorem walk_disciplined_users :
    Exhausted Method.post ["7", "x"] users ⟨["a"], false, ["PUT"]⟩ ⟨["a"], true, ["GET", "PUT"]⟩ ∧
      ∃ segments last taken,
        Foremost Method.get ["7", "posts"] users segments last ⟨.exact Method.get, ⟨1⟩, ["rest"]⟩ ∧
          PathPattern.captures? segments ["7", "posts"] = some taken ∧
          ["a", "7/posts"] = ["a"] ++ taken ∧
          users.TakesOwn ["7", "posts"] ⟨.exact Method.get, ⟨1⟩, ["rest"]⟩ taken := by
  have hfailed : users.walk Method.post ["7", "x"] ⟨["a"], false, ["PUT"]⟩ =
      (none, ⟨["a"], true, ["GET", "PUT"]⟩) := by decide +kernel
  have hfound : users.walk Method.get ["7", "posts"] ⟨["a"], false, []⟩ =
      (some ⟨.exact Method.get, ⟨1⟩, ["rest"]⟩, ⟨["a", "7/posts"], true, ["GET", "POST"]⟩) := by
    decide +kernel
  have hexhausted := walk_disciplined Method.post ["7", "x"] users ⟨["a"], false, ["PUT"]⟩
  have hforemost := walk_disciplined Method.get ["7", "posts"] users ⟨["a"], false, []⟩
  rw [hfailed] at hexhausted
  rw [hfound] at hforemost
  exact ⟨hexhausted, hforemost⟩

end Node

end HttpRouting
