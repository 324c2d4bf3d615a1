import HttpRouting.Proofs.BuiltPath
import HttpRouting.Proofs.Matching

/-!
# Reverse routing

A path that an application builds for a named route is served by the application:
the named route accepts it, and so the request is answered by that route or by
one that goes before it.
-/

namespace HttpRouting

theorem Draft.consistent_table {d : Draft} {a : App} (h : d.build = .ok a) :
    a.table.Consistent := by
  obtain ⟨table, hall, rfl⟩ := build_eq_ok_iff.mp h
  exact RouteTable.consistent_of_reached (reached_registerAll .empty hall)

theorem App.path?_eq_some {a : App} (h : a.table.Consistent) {name : String}
    {params : List (String × String)} {path : String} (hpath : a.path? name params = some path) :
    ∃ route ∈ a.table.routes, route.name = some name ∧
      PathPattern.build? route.segments params = some path := by
  obtain ⟨id, hid, hrest⟩ := Option.bind_eq_some_iff.mp hpath
  obtain ⟨found, hget, hbuild⟩ := Option.bind_eq_some_iff.mp hrest
  obtain ⟨route, hroute, hname, rfl⟩ := (RouteTable.named?_eq_some_iff h).mp hid
  rw [RouteTable.get?_id h hroute, Option.some.injEq] at hget
  subst hget
  exact ⟨route, hroute, hname, hbuild⟩

/-- Every request for the path of a named route is answered, by that route or by
one that outranks it. -/
theorem App.resolve_path? (d : Draft) (a : App) (hbuild : d.build = .ok a) (name : String)
    (params : List (String × String)) (path : String) (hpath : a.path? name params = some path) :
    ∃ route ∈ a.table.routes, route.name = some name ∧
      (∀ other ∈ a.table.routes, other.name = some name → other = route) ∧
        ∀ (host : String) (method : Method), route.method.accepts method = true →
          route.host.accepts (HostName.normalized host) = true →
            ∃ id taken winner, a.table.resolve host method path = .matched id taken ∧
              a.table.get? id = some winner ∧
                (winner = route ∨ winner.outranks route = true) := by
  have h := Draft.consistent_table hbuild
  obtain ⟨route, hroute, hname, hbuilt⟩ := path?_eq_some h hpath
  have haccepts := PathPattern.accepts_build? (RouteTable.wellFormed_segments h hroute) hbuilt
  refine ⟨route, hroute, hname, ?_, ?_⟩
  · intro other hother hname'
    exact RouteTable.eq_of_name h hroute hother hname hname'
  · intro host method hmethod hhost
    have hcovering : route ∈ a.table.covering host path := by
      apply List.mem_filter.mpr
      rw [hhost, haccepts]
      exact ⟨hroute, rfl⟩
    have hcandidate := RouteTable.mem_candidates_iff.mpr ⟨hcovering, hmethod⟩
    obtain ⟨id, taken, hmatched⟩ :=
      RouteTable.resolve_of_candidates h (List.ne_nil_of_mem hcandidate)
    obtain ⟨winner, captures, hforemost, rfl, -⟩ := RouteTable.foremost_of_resolve h hmatched
    refine ⟨winner.id, taken, winner, hmatched, RouteTable.get?_id h hforemost.mem_routes, ?_⟩
    rcases hforemost.2 route hcandidate with hsame | ⟨houtranks, -⟩
    · exact .inl hsame.symm
    · exact .inr houtranks

def Draft.people : Draft :=
  (Draft.empty.route "/people/:name"
      ((RouteSpec.ofMethod "GET" Handler.unserved).withName "person")).route "/people/me"
    (RouteSpec.ofMethod "*" Handler.unserved)

theorem App.resolve_path?_people :
    ∃ a, Draft.people.build = .ok a ∧ a.path? "person" [("name", "me")] = some "/people/me" ∧
      ∃ route ∈ a.table.routes, route.name = some "person" ∧
        ∀ (host : String) (method : Method), route.method.accepts method = true →
          route.host.accepts (HostName.normalized host) = true →
            ∃ id taken, a.table.resolve host method "/people/me" = .matched id taken := by
  have hsome : (Draft.people.build.toOption.bind fun a => a.path? "person" [("name", "me")]) =
      some "/people/me" := by decide +kernel
  obtain ⟨a, hbuilt, hpath⟩ := Option.bind_eq_some_iff.mp hsome
  have hbuild : Draft.people.build = .ok a := eq_ok_iff_toOption.mpr hbuilt
  obtain ⟨route, hroute, hname, -, hserved⟩ := resolve_path? _ _ hbuild _ _ _ hpath
  refine ⟨a, hbuild, hpath, route, hroute, hname, ?_⟩
  intro host method hmethod hhost
  obtain ⟨id, taken, -, hmatched, -⟩ := hserved host method hmethod hhost
  exact ⟨id, taken, hmatched⟩

end HttpRouting
