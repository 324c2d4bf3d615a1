import HttpRouting.Proofs.Matching

/-!
# Tables with the same routes

What a table answers depends only on which routes it has, and of these only on their methods,
hosts and segments.  Two tables whose routes agree in that give every request the same answer, up
to the numbers under which they keep the routes, however they were put together.
-/

namespace HttpRouting

/-- Two routes that are for the same requests and name the same parameters. -/
structure Route.Alike (a b : Route) : Prop where
  method : a.method = b.method
  host : a.host = b.host
  segments : a.segments = b.segments

inductive Match.Agrees (same : RouteId → RouteId → Prop) : Match → Match → Prop where
  | matched {id other : RouteId} (params : PathParams) :
      same id other → Agrees same (.matched id params) (.matched other params)
  | methodMismatch (allowed : List String) :
      Agrees same (.methodMismatch allowed) (.methodMismatch allowed)
  | noMatch : Agrees same .noMatch .noMatch

theorem Match.Agrees.mono {same same' : RouteId → RouteId → Prop}
    (himp : ∀ id other, same id other → same' id other) {first second : Match}
    (h : first.Agrees same second) : first.Agrees same' second := by
  cases h with
  | matched params hsame => exact .matched params (himp _ _ hsame)
  | methodMismatch allowed => exact .methodMismatch allowed
  | noMatch => exact .noMatch

theorem Match.Agrees.eq {first second : Match} (h : first.Agrees Eq second) : first = second := by
  cases h with
  | matched params hsame => rw [hsame]
  | methodMismatch allowed => rfl
  | noMatch => rfl

namespace Route.Alike

variable {a b c d : Route}

theorem symm (h : a.Alike b) : b.Alike a := ⟨h.method.symm, h.host.symm, h.segments.symm⟩

theorem outranks (h : a.Alike b) (h' : c.Alike d) : a.outranks c = b.outranks d := by
  simp only [Route.outranks, h.method, h.host, h.segments, h'.method, h'.host, h'.segments]

end Route.Alike

namespace RouteTable

def Within (t u : RouteTable) : Prop := ∀ route ∈ t.routes, ∃ twin ∈ u.routes, route.Alike twin

variable {t u : RouteTable} {host path : String} {method : Method}

theorem Within.covering (h : t.Within u) {route : Route} (hroute : route ∈ t.covering host path) :
    ∃ twin ∈ u.covering host path, route.Alike twin := by
  obtain ⟨hmem, haccepts⟩ := List.mem_filter.mp hroute
  obtain ⟨twin, htwin, halike⟩ := h route hmem
  rw [halike.host, halike.segments] at haccepts
  exact ⟨twin, List.mem_filter.mpr ⟨htwin, haccepts⟩, halike⟩

theorem Within.covering_eq_nil (h : t.Within u) (hnil : u.covering host path = []) :
    t.covering host path = [] := by
  rw [List.eq_nil_iff_forall_not_mem] at hnil ⊢
  intro route hroute
  obtain ⟨twin, htwin, -⟩ := h.covering hroute
  exact hnil twin htwin

theorem Within.candidates (h : t.Within u) {route : Route}
    (hroute : route ∈ t.candidates host method path) :
    ∃ twin ∈ u.candidates host method path, route.Alike twin := by
  obtain ⟨hcovering, haccepts⟩ := mem_candidates_iff.mp hroute
  obtain ⟨twin, htwin, halike⟩ := h.covering hcovering
  rw [halike.method] at haccepts
  exact ⟨twin, mem_candidates_iff.mpr ⟨htwin, haccepts⟩, halike⟩

theorem eq_of_alike (h : t.Consistent) {route other : Route} (hroute : route ∈ t.routes)
    (hother : other ∈ t.routes) (halike : route.Alike other) : route = other :=
  eq_of_clashes h hroute hother halike.host (congrArg PathPattern.shape halike.segments)
    halike.method

theorem Foremost.of_alike (hu : u.Consistent) (hin : u.Within t) {route twin : Route}
    (h : t.Foremost host method path route) (htwin : twin ∈ u.candidates host method path)
    (halike : route.Alike twin) : u.Foremost host method path twin := by
  refine ⟨htwin, fun other hother => ?_⟩
  obtain ⟨own, hown, halike'⟩ := hin.candidates hother
  rcases h.2 own hown with rfl | ⟨hout, hnot⟩
  · have hmem := (List.mem_filter.mp hother).1
    have htwin' := (List.mem_filter.mp htwin).1
    exact .inl (eq_of_alike hu hmem htwin' ⟨halike'.method.trans halike.method,
      halike'.host.trans halike.host, halike'.segments.trans halike.segments⟩)
  · rw [halike.outranks halike'.symm] at hout
    rw [halike'.symm.outranks halike] at hnot
    exact .inr ⟨hout, hnot⟩

theorem resolve_of_candidates_nil (h : t.Consistent)
    (hnone : t.candidates host method path = []) :
    (t.covering host path = [] ∧ t.resolve host method path = .noMatch) ∨
      ∃ allowed, t.covering host path ≠ [] ∧
        t.resolve host method path = .methodMismatch allowed ∧
          t.Tells host method path allowed := by
  rw [resolve, Tiers.resolve, firstAnswer_of_candidates_nil h hnone]
  cases hfind : (t.tiers.serving (HostName.normalized host)).findSome? fun pattern =>
      (t.tiers.trie pattern).methodsAt? (Text.pieces path) with
  | none => exact .inl ⟨(findSome?_methodsAt?_eq_none_iff h).mp hfind, rfl⟩
  | some allowed =>
      refine .inr ⟨allowed, ?_, rfl, tells_of_findSome? h hnone hfind⟩
      rw [Ne, ← findSome?_methodsAt?_eq_none_iff h, hfind]
      exact Option.some_ne_none allowed

theorem tells_of_told (h : t.Consistent) {allowed : List String}
    (htold : t.resolve host method path = .methodMismatch allowed) :
    t.candidates host method path = [] ∧ t.Tells host method path allowed := by
  have hnone : t.candidates host method path = [] := by
    by_contra hcandidates
    obtain ⟨id, params, hmatched⟩ := resolve_of_candidates h hcandidates
    rw [htold] at hmatched
    cases hmatched
  rcases resolve_of_candidates_nil h hnone with ⟨-, hunknown⟩ | ⟨told, -, hsame, htells⟩
  · rw [htold] at hunknown
    cases hunknown
  · rw [htold] at hsame
    cases hsame
    exact ⟨hnone, htells⟩

theorem exists_route_of_told (h : t.Consistent) {allowed : List String}
    (htold : t.resolve host method path = .methodMismatch allowed) {text : String}
    (htext : text ∈ allowed) :
    ∃ route ∈ t.routes, ∃ own : Method, route.method = .exact own ∧ own.text = text := by
  obtain ⟨hnone, htells⟩ := tells_of_told h htold
  obtain ⟨pattern, -, hmethods⟩ := htells.exact
  obtain ⟨route, hroute, -, hexplicit⟩ := (hmethods text).mp htext
  obtain ⟨own, hown, -⟩ := method_of_candidates_nil hnone hroute
  rw [hown, RouteMethod.explicitText?, Option.some.injEq] at hexplicit
  exact ⟨route, (List.mem_filter.mp hroute).1, own, hown, hexplicit⟩

theorem IsForemostHost.of_within (htu : t.Within u) (hut : u.Within t) {pattern : HostPattern}
    (h : t.IsForemostHost host path pattern) : u.IsForemostHost host path pattern := by
  obtain ⟨⟨route, hroute, hhost⟩, hfirst⟩ := h
  obtain ⟨twin, htwin, halike⟩ := htu.covering hroute
  refine ⟨⟨twin, htwin, halike.host.symm.trans hhost⟩, fun other hother => ?_⟩
  obtain ⟨own, hown, halike'⟩ := hut.covering hother
  rw [halike'.host]
  exact hfirst own hown

theorem IsForemostHost.unique {pattern other : HostPattern}
    (h : t.IsForemostHost host path pattern) (h' : t.IsForemostHost host path other) :
    pattern = other := by
  obtain ⟨⟨route, hroute, rfl⟩, hfirst⟩ := h
  obtain ⟨⟨route', hroute', rfl⟩, hfirst'⟩ := h'
  rcases hfirst route' hroute' with hsame | hprecedes
  · exact hsame.symm
  · rcases hfirst' route hroute with hsame | hprecedes'
    · exact hsame
    · rw [HostPattern.precedes_asymm hprecedes] at hprecedes'
      contradiction

theorem Tells.eq_of_within (htu : t.Within u) (hut : u.Within t) {allowed allowed' : List String}
    (h : t.Tells host method path allowed) (h' : u.Tells host method path allowed') :
    allowed = allowed' := by
  obtain ⟨pattern, hforemost, hmem⟩ := h.exact
  obtain ⟨pattern', hforemost', hmem'⟩ := h'.exact
  obtain rfl := (hforemost.of_within htu hut).unique hforemost'
  have hsub : ∀ {v w : RouteTable}, v.Within w → ∀ text,
      (∃ route ∈ v.covering host path,
        route.host = pattern ∧ route.method.explicitText? = some text) →
      ∃ route ∈ w.covering host path,
        route.host = pattern ∧ route.method.explicitText? = some text := by
    rintro v w hin text ⟨route, hroute, hhost, htext⟩
    obtain ⟨twin, htwin, halike⟩ := hin.covering hroute
    rw [halike.host] at hhost
    rw [halike.method] at htext
    exact ⟨twin, htwin, hhost, htext⟩
  have hsame : ∀ text, text ∈ allowed ↔ text ∈ allowed' := fun text => by
    rw [hmem, hmem']
    exact ⟨hsub htu text, hsub hut text⟩
  have hencoded : allowed.map Text.Utf8.encode = allowed'.map Text.Utf8.encode := by
    refine h.ascending.eq_of_mem_iff h'.ascending fun bytes => ?_
    simp only [List.mem_map, hsame]
  exact List.map_injective_iff.mpr (Function.LeftInverse.injective Text.Utf8.decodeLossy_encode)
    hencoded

/-- Tables that have the same routes, up to their numbers, give every request the same answer, up
to the number of the route. -/
theorem resolve_agrees (ht : t.Consistent) (hu : u.Consistent) (htu : t.Within u)
    (hut : u.Within t) (host : String) (method : Method) (path : String) :
    (t.resolve host method path).Agrees
      (fun id other => ∃ route twin, t.get? id = some route ∧ u.get? other = some twin ∧
        route.Alike twin)
      (u.resolve host method path) := by
  by_cases hnone : t.candidates host method path = []
  · have hnone' : u.candidates host method path = [] := by
      rw [List.eq_nil_iff_forall_not_mem]
      intro twin htwin
      obtain ⟨route, hroute, -⟩ := hut.candidates htwin
      simp [hnone] at hroute
    rcases resolve_of_candidates_nil ht hnone, resolve_of_candidates_nil hu hnone' with
      ⟨⟨hnil, hanswer⟩ | ⟨allowed, hsome, hanswer, htells⟩,
        ⟨hnil', hanswer'⟩ | ⟨allowed', hsome', hanswer', htells'⟩⟩
    · rw [hanswer, hanswer']
      exact .noMatch
    · exact absurd (hut.covering_eq_nil hnil) hsome'
    · exact absurd (htu.covering_eq_nil hnil') hsome
    · rw [hanswer, hanswer', htells.eq_of_within htu hut htells']
      exact .methodMismatch allowed'
  · obtain ⟨id, params, hmatched⟩ := resolve_of_candidates ht hnone
    obtain ⟨route, captures, hforemost, rfl, hcaptures, -, hpairs⟩ :=
      foremost_of_resolve ht hmatched
    obtain ⟨twin, htwin, halike⟩ := htu.candidates hforemost.1
    obtain ⟨other, params', hmatched'⟩ := resolve_of_candidates hu (List.ne_nil_of_mem htwin)
    obtain ⟨winner, captures', hforemost', rfl, hcaptures', -, hpairs'⟩ :=
      foremost_of_resolve hu hmatched'
    obtain rfl : twin = winner := hforemost'.unique (hforemost.of_alike hu hut htwin halike)
    rw [halike.segments, hcaptures', Option.some.injEq] at hcaptures
    have hparams : params = params' := by
      obtain ⟨pairs⟩ := params
      obtain ⟨pairs'⟩ := params'
      rw [halike.segments, ← hcaptures, ← hpairs'] at hpairs
      exact congrArg PathParams.mk hpairs
    rw [hmatched, hmatched', hparams]
    exact .matched params' ⟨route, twin, get?_id ht hforemost.mem_routes,
      get?_id hu hforemost'.mem_routes, halike⟩

end RouteTable

end HttpRouting
