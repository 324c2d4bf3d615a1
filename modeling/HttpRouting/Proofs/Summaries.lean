import HttpRouting.Proofs.HostCase
import HttpRouting.Proofs.RegistrationOrder

/-!
# Tables made again from their summaries

The summary of a route tells its method, host and path as texts that are read back as what they
were written from.  So a table can be made again from the summaries of its routes, one after the
other: each is accepted under its old number, and what the new table answers is the same.
-/

namespace HttpRouting

/-- The registration of a summary: its method, host, path and name, with a handler of one's own. -/
def RouteInfo.registration (info : RouteInfo) (handler : Handler) : Registration :=
  ⟨info.method, info.host, info.path, handler, { RouteOptions.none with name := info.name }⟩

def Route.restored (route : Route) (handler : Handler) : Route :=
  { route with layers := [], timeout := none, handler := handler }

namespace Registration

variable {r : Registration} {route : Route}

theorem compile_text_of_parseHost {host : HostPattern} (h : r.parseHost = .ok host)
    (hany : host ≠ .any) : HostPattern.compile host.text = .ok host := by
  cases hpattern : r.host with
  | none =>
      rw [parseHost, hpattern] at h
      cases h
      exact absurd rfl hany
  | some pattern => exact HostPattern.compile_text (compile_of_parseHost hpattern h) hany

theorem parseHost_info (h : r.parseHost = .ok route.host) (handler : Handler) :
    (route.info.registration handler).parseHost = .ok route.host := by
  have hread := compile_text_of_parseHost h
  unfold parseHost RouteInfo.registration Route.info
  cases hhost : route.host with
  | any => rfl
  | exact own => simp [hhost ▸ hread, Except.mapError]
  | suffix domain => simp [hhost ▸ hread, Except.mapError]

theorem Yields.restored (h : r.Yields route) (handler : Handler) :
    (route.info.registration handler).Yields (route.restored handler) where
  host := parseHost_info h.host handler
  method := by
    have hparse := RouteMethod.parse?_text (parse?_of_parseMethod h.method)
    simp [parseMethod, RouteInfo.registration, Route.info, Route.restored, hparse]
  segments := by
    rw [RouteInfo.registration, Route.info, Route.restored, h.path]
    exact h.segments
  path := rfl
  name := rfl
  layers := rfl
  timeout := rfl
  handler := rfl

end Registration

theorem Route.alike_restored (route : Route) (handler : Handler) :
    route.Alike (route.restored handler) := ⟨rfl, rfl, rfl⟩

namespace RouteTable

variable {t u : RouteTable} {handlerOf : RouteInfo → Handler}

def summarized (t : RouteTable) (handlerOf : RouteInfo → Handler) : List Registration :=
  t.infos.map fun info => info.registration (handlerOf info)

theorem summarized_eq (t : RouteTable) (handlerOf : RouteInfo → Handler) :
    t.summarized handlerOf =
      t.routes.map fun route => route.info.registration (handlerOf route.info) := by
  simp [summarized, infos, Function.comp_def]

theorem mem_of_get? (h : t.Consistent) {id : RouteId} {route : Route}
    (hget : t.get? id = some route) : route ∈ t.routes ∧ route.id = id :=
  ⟨List.mem_of_getElem? hget, h.index id.index route hget⟩

theorem names_pairwise (h : t.Consistent) :
    t.routes.Pairwise fun first second =>
      ∀ name, first.name = some name → second.name ≠ some name := by
  have hnames : t.names.map Prod.fst = t.routes.filterMap Route.name := by
    rw [h.names, List.map_filterMap]
    simp [Function.comp_def]
  have hdistinct := h.distinct
  rw [hnames, List.Nodup, List.pairwise_filterMap] at hdistinct
  exact hdistinct.imp fun hne name hfirst hsecond => hne name hfirst name hsecond rfl

theorem acceptsAll_summarized (h : t.Consistent) (handlerOf : RouteInfo → Handler) :
    AcceptsAll (t.summarized handlerOf) := by
  rw [acceptsAll_iff, summarized_eq, List.pairwise_map]
  constructor
  · intro r hr
    obtain ⟨route, hroute, rfl⟩ := List.mem_map.mp hr
    obtain ⟨asked, hasked⟩ := h.origin route hroute
    exact ⟨_, hasked.restored _⟩
  · have hpairs := List.Pairwise.and_mem.mp (h.free.and (names_pairwise h))
    refine hpairs.imp ?_
    rintro first second ⟨hfirst, hsecond, hfree, hnames⟩
    refine ⟨hnames, fun route twin hroute htwin => ?_⟩
    obtain ⟨asked, hasked⟩ := h.origin first hfirst
    obtain ⟨asked', hasked'⟩ := h.origin second hsecond
    rw [(hroute.alike (hasked.restored _)).clashes (htwin.alike (hasked'.restored _))]
    exact hfree

theorem routes_summarized (h : t.Consistent) (handlerOf : RouteInfo → Handler) :
    (registered (t.summarized handlerOf)).routes =
      t.routes.map fun route => route.restored (handlerOf route.info) := by
  have hroutes := forall₂_yields (acceptsAll_summarized h handlerOf)
  have hnew := consistent_registered (t.summarized handlerOf)
  rw [summarized_eq] at hroutes hnew ⊢
  refine List.ext_getElem (by simpa using hroutes.length_eq.symm) fun i hi hi' => ?_
  have hyields := hroutes.get (by simpa using hi') hi
  simp only [List.get_eq_getElem, List.getElem_map] at hyields ⊢
  obtain ⟨asked, hasked⟩ := h.origin _ (List.getElem_mem (by simpa using hi'))
  refine hyields.unique (hasked.restored _) ?_
  rw [hnew.index i _ (List.getElem?_eq_getElem hi)]
  exact (h.index i _ (List.getElem?_eq_getElem (by simpa using hi'))).symm

theorem AcceptsAll.register_fst {before after : List Registration} {r : Registration}
    (h : AcceptsAll (before ++ r :: after)) :
    ((registered before).register r).1 = .ok ⟨before.length⟩ := by
  have hbefore : AcceptsAll before := by
    rintro first other rest rfl
    exact h first other (rest ++ r :: after) (by simp)
  obtain ⟨id, hok⟩ := h before r after rfl
  rcases register_cases (consistent_registered before).ordered r with
    ⟨refusal, hrefused⟩ | ⟨route, after, hadded, hextended⟩
  · rw [hrefused] at hok
    cases hok
  · rw [hadded, hextended.index, ← (forall₂_yields hbefore).length_eq]

theorem within_restored (t : RouteTable) {u : RouteTable}
    (hroutes : u.routes = t.routes.map fun route => route.restored (handlerOf route.info)) :
    t.Within u ∧ u.Within t := by
  constructor
  · intro route hroute
    exact ⟨route.restored (handlerOf route.info), by rw [hroutes]; exact List.mem_map_of_mem hroute,
      route.alike_restored _⟩
  · intro twin htwin
    rw [hroutes] at htwin
    obtain ⟨route, hroute, rfl⟩ := List.mem_map.mp htwin
    exact ⟨route, hroute, (route.alike_restored _).symm⟩

theorem resolve_restored (ht : t.Consistent) (hu : u.Consistent)
    (hroutes : u.routes = t.routes.map fun route => route.restored (handlerOf route.info))
    (host : String) (method : Method) (path : String) :
    u.resolve host method path = t.resolve host method path := by
  obtain ⟨htu, hut⟩ := within_restored t hroutes
  refine ((resolve_agrees ht hu htu hut host method path).mono ?_).eq.symm
  rintro id other ⟨route, twin, hroute, htwin, halike⟩
  obtain ⟨hmem, rfl⟩ := mem_of_get? ht hroute
  obtain ⟨hmem', rfl⟩ := mem_of_get? hu htwin
  rw [hroutes] at hmem'
  obtain ⟨own, hown, rfl⟩ := List.mem_map.mp hmem'
  rw [eq_of_alike ht hmem hown ⟨halike.method, halike.host, halike.segments⟩]
  rfl

theorem named?_restored (ht : t.Consistent) (hu : u.Consistent)
    (hroutes : u.routes = t.routes.map fun route => route.restored (handlerOf route.info))
    (name : String) : u.named? name = t.named? name := by
  apply Option.ext
  intro id
  rw [named?_eq_some_iff ht, named?_eq_some_iff hu, hroutes]
  simp [Route.restored]

theorem register_summarized (h : t.Consistent) {i : Nat} {route : Route}
    (hroute : t.routes[i]? = some route) :
    ((registered ((t.summarized handlerOf).take i)).register
      (route.info.registration (handlerOf route.info))).1 = .ok route.id := by
  have hcall : (t.summarized handlerOf)[i]? =
      some (route.info.registration (handlerOf route.info)) := by
    simp [summarized_eq, hroute]
  obtain ⟨hi, hget⟩ := List.getElem?_eq_some_iff.mp hcall
  have haccepts := acceptsAll_summarized h handlerOf
  rw [← List.take_append_drop i (t.summarized handlerOf), List.drop_eq_getElem_cons hi, hget]
    at haccepts
  rw [haccepts.register_fst, List.length_take_of_le (Nat.le_of_lt hi), h.index i route hroute]

/-- A table can be made again from the summaries of its routes: registered in their order they are
all accepted, each under the number of its route, and the new table gives every request and every
name the answer of the old one. -/
theorem infos_suffice (calls : List Registration) (handlerOf : RouteInfo → Handler) :
    (∀ i info, (registered calls).infos[i]? = some info →
      ∃ route, (registered calls).get? ⟨i⟩ = some route ∧ route.info = info ∧
        ((registered (((registered calls).summarized handlerOf).take i)).register
          (info.registration (handlerOf info))).1 = .ok route.id) ∧
      (∀ host method path,
        (registered ((registered calls).summarized handlerOf)).resolve host method path =
          (registered calls).resolve host method path) ∧
      ∀ name, (registered ((registered calls).summarized handlerOf)).named? name =
        (registered calls).named? name := by
  have h := consistent_registered calls
  have hnew := consistent_registered ((registered calls).summarized handlerOf)
  have hroutes := routes_summarized h handlerOf
  refine ⟨fun i info hinfo => ?_, resolve_restored h hnew hroutes, named?_restored h hnew hroutes⟩
  rw [infos, List.getElem?_map, Option.map_eq_some_iff] at hinfo
  obtain ⟨route, hroute, rfl⟩ := hinfo
  exact ⟨route, hroute, rfl, register_summarized h hroute⟩

def mixedRoutes : List Registration :=
  [{ (Registration.plain "get" "//a/:x/").named "a" with host := some "*.A.org" },
    .plain "GET" "/a/*x/b",
    { (Registration.plain "*" "a/*rest").named "rest" with host := some "" }]

theorem infos_suffice_mixed :
    (registered mixedRoutes).infos.map (fun info => (info.method, info.host, info.path)) =
        [("GET", some "*.a.org", "//a/:x/"), ("*", none, "a/*rest")] ∧
      (registered ((registered mixedRoutes).summarized fun _ => Handler.unserved)).resolve
          "b.a.org" Method.get "/a/b" = .matched ⟨0⟩ ⟨[("x", "b")]⟩ ∧
      ∃ route, (registered mixedRoutes).get? ⟨1⟩ = some route ∧
        ((registered
            (((registered mixedRoutes).summarized fun _ => Handler.unserved).take 1)).register
          (route.info.registration Handler.unserved)).1 = .ok route.id := by
  obtain ⟨hentries, hresolve, -⟩ := infos_suffice mixedRoutes fun _ => Handler.unserved
  have hinfo : (registered mixedRoutes).infos[1]? =
      some ⟨"*", none, "a/*rest", ["rest"], some "rest", 0, none⟩ := by decide +kernel
  obtain ⟨route, hroute, hsummary, haccepted⟩ := hentries 1 _ hinfo
  refine ⟨by decide +kernel, ?_, route, hroute, hsummary ▸ haccepted⟩
  rw [hresolve]
  decide +kernel

end RouteTable

end HttpRouting
