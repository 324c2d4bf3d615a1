import HttpRouting.Proofs.Admission
import HttpRouting.Proofs.AlikeTables

/-!
# The order of registrations

Whether a list of registrations is accepted as a whole is a matter of the registrations and their
pairs: each must be readable, and no two may have one name or ask for one place.  The order plays
no part in this, and none in what the table answers.
-/

namespace HttpRouting

theorem forall_split_concat {α : Type} {P : List α → α → Prop} {items : List α} {last : α} :
    (∀ before item after, items ++ [last] = before ++ item :: after → P before item) ↔
      (∀ before item after, items = before ++ item :: after → P before item) ∧ P items last := by
  constructor
  · intro h
    refine ⟨fun before item after hsplit => ?_, h items last [] rfl⟩
    exact h before item (after ++ [last]) (by simp [hsplit])
  · rintro ⟨hitems, hlast⟩ before item after hsplit
    rcases List.eq_nil_or_concat after with rfl | ⟨middle, final, rfl⟩
    · obtain ⟨rfl, hsame⟩ := List.append_inj' hsplit rfl
      obtain rfl : last = item := List.singleton_inj.mp hsame
      exact hlast
    · have hinit : items ++ [last] = (before ++ item :: middle) ++ [final] := by
        simpa using hsplit
      exact hitems before item middle (List.append_inj' hinit rfl).1

theorem Route.Alike.clashes {a b c d : Route} (h : a.Alike b) (h' : c.Alike d) :
    a.clashes c = b.clashes d := by
  simp only [Route.clashes, h.method, h.host, h.segments, h'.method, h'.host, h'.segments]

namespace Registration

theorem Yields.alike {r : Registration} {route other : Route} (h : r.Yields route)
    (h' : r.Yields other) : route.Alike other where
  method := Except.ok.inj (h.method.symm.trans h'.method)
  host := Except.ok.inj (h.host.symm.trans h'.host)
  segments := Except.ok.inj (h.segments.symm.trans h'.segments)

/-- Two registrations that can stand in one table. -/
structure Apart (r other : Registration) : Prop where
  name : ∀ name, r.options.name = some name → other.options.name ≠ some name
  place : ∀ route twin, r.Yields route → other.Yields twin → route.clashes twin = false

theorem Apart.symm {r other : Registration} (h : r.Apart other) : other.Apart r where
  name name hother hr := h.name name hr hother
  place route twin hroute htwin := Route.clashes_symm (h.place twin route htwin hroute)

variable {calls : List Registration} {routes : List Route}

theorem exists_route_of_forall₂ (h : List.Forall₂ Yields calls routes) {i : Nat}
    {r : Registration} (hr : calls[i]? = some r) :
    ∃ route, routes[i]? = some route ∧ r.Yields route := by
  obtain ⟨hi, rfl⟩ := List.getElem?_eq_some_iff.mp hr
  have hi' : i < routes.length := h.length_eq ▸ hi
  exact ⟨routes[i], List.getElem?_eq_getElem hi', h.get hi hi'⟩

theorem exists_call_of_forall₂ (h : List.Forall₂ Yields calls routes) {i : Nat} {route : Route}
    (hroute : routes[i]? = some route) : ∃ r, calls[i]? = some r ∧ r.Yields route := by
  obtain ⟨hi, rfl⟩ := List.getElem?_eq_some_iff.mp hroute
  have hi' : i < calls.length := h.length_eq ▸ hi
  exact ⟨calls[i], List.getElem?_eq_getElem hi', h.get hi' hi⟩

end Registration

namespace RouteTable

/-! ## Lists that are accepted as a whole -/

/-- Whether every one of some registrations is accepted, one after the other. -/
def AcceptsAll (calls : List Registration) : Prop :=
  ∀ before r after, calls = before ++ r :: after →
    ∃ id, ((registered before).register r).1 = .ok id

theorem acceptsAll_concat {calls : List Registration} {r : Registration} :
    AcceptsAll (calls ++ [r]) ↔
      AcceptsAll calls ∧ ∃ id, ((registered calls).register r).1 = .ok id :=
  forall_split_concat

theorem registered_concat (calls : List Registration) (r : Registration) :
    registered (calls ++ [r]) = ((registered calls).register r).2 :=
  registered_append calls [r]

theorem forall₂_yields {calls : List Registration} (h : AcceptsAll calls) :
    List.Forall₂ Registration.Yields calls (registered calls).routes := by
  induction calls using List.reverseRecOn with
  | nil => exact .nil
  | append_singleton calls r ih =>
      obtain ⟨hcalls, id, hok⟩ := acceptsAll_concat.mp h
      rw [registered_concat]
      rcases register_cases (consistent_registered calls).ordered r with
        ⟨refusal, hrefused⟩ | ⟨route, after, haccepted, hextended⟩
      · rw [hrefused] at hok
        cases hok
      · rw [haccepted, hextended.routes]
        exact List.rel_append (ih hcalls) (.cons hextended.yields .nil)

theorem register_ok_iff {t : RouteTable} (h : t.Consistent) {r : Registration} :
    (∃ id, (t.register r).1 = .ok id) ↔
      ∃ route, r.Yields route ∧ t.isTaken route.name = false ∧
        ∀ other ∈ t.routes, other.clashes route = false := by
  constructor
  · rintro ⟨id, hok⟩
    rcases register_cases h.ordered r with ⟨refusal, hrefused⟩ | ⟨route, after, -, hextended⟩
    · rw [hrefused] at hok
      cases hok
    · exact ⟨route, hextended.yields, hextended.fresh, fun other => hextended.clashes_eq_false h⟩
  · rintro ⟨route, hyields, hname, hfree⟩
    obtain ⟨after, hok, -⟩ := register_of_yields h hyields hname hfree
    rw [hok]
    exact ⟨_, rfl⟩

theorem isTaken_eq_false_iff {t : RouteTable} (h : t.Consistent) {name : Option String} :
    t.isTaken name = false ↔
      ∀ text, name = some text → ∀ route ∈ t.routes, route.name ≠ some text := by
  cases name with
  | none => simp [isTaken]
  | some name => simp [isTaken_some_eq h]

theorem register_ok_iff_apart {calls : List Registration} (h : AcceptsAll calls)
    {r : Registration} :
    (∃ id, ((registered calls).register r).1 = .ok id) ↔
      (∃ route, r.Yields route) ∧ ∀ other ∈ calls, other.Apart r := by
  have hroutes := forall₂_yields h
  have hconsistent := consistent_registered calls
  rw [register_ok_iff hconsistent]
  constructor
  · rintro ⟨route, hyields, hname, hfree⟩
    refine ⟨⟨route, hyields⟩, fun other hother => ?_⟩
    obtain ⟨i, hi⟩ := List.getElem?_of_mem hother
    obtain ⟨held, hheld, hyields'⟩ := Registration.exists_route_of_forall₂ hroutes hi
    have hmem := List.mem_of_getElem? hheld
    constructor
    · intro name hother hr
      refine (isTaken_eq_false_iff hconsistent).mp hname name ?_ held hmem ?_
      · rw [hyields.name, hr]
      · rw [hyields'.name, hother]
    · intro first second hfirst hsecond
      rw [(hfirst.alike hyields').clashes (hsecond.alike hyields)]
      exact hfree held hmem
  · rintro ⟨⟨route, hyields⟩, hapart⟩
    have hothers : ∀ held ∈ (registered calls).routes, ∃ other ∈ calls, other.Yields held := by
      intro held hmem
      obtain ⟨i, hi⟩ := List.getElem?_of_mem hmem
      obtain ⟨other, hother, hyields'⟩ := Registration.exists_call_of_forall₂ hroutes hi
      exact ⟨other, List.mem_of_getElem? hother, hyields'⟩
    refine ⟨route, hyields, (isTaken_eq_false_iff hconsistent).mpr ?_, fun held hmem => ?_⟩
    · intro name hname held hmem hheld
      obtain ⟨other, hother, hyields'⟩ := hothers held hmem
      rw [hyields.name] at hname
      rw [hyields'.name] at hheld
      exact (hapart other hother).name name hheld hname
    · obtain ⟨other, hother, hyields'⟩ := hothers held hmem
      exact (hapart other hother).place held route hyields' hyields

theorem acceptsAll_iff {calls : List Registration} :
    AcceptsAll calls ↔
      (∀ r ∈ calls, ∃ route, r.Yields route) ∧ calls.Pairwise Registration.Apart := by
  induction calls using List.reverseRecOn with
  | nil => simp [AcceptsAll]
  | append_singleton calls r ih =>
      rw [acceptsAll_concat, List.pairwise_append]
      constructor
      · rintro ⟨hcalls, hlast⟩
        obtain ⟨hroute, hapart⟩ := (register_ok_iff_apart hcalls).mp hlast
        obtain ⟨hreadable, hpairs⟩ := ih.mp hcalls
        refine ⟨?_, hpairs, List.pairwise_singleton .., ?_⟩
        · simpa [or_imp, forall_and] using ⟨hreadable, hroute⟩
        · simpa using hapart
      · rintro ⟨hreadable, hpairs, -, hapart⟩
        have hcalls : AcceptsAll calls :=
          ih.mpr ⟨fun other hother => hreadable other (by simp [hother]), hpairs⟩
        refine ⟨hcalls, (register_ok_iff_apart hcalls).mpr ⟨hreadable r (by simp), ?_⟩⟩
        simpa using hapart

theorem AcceptsAll.perm {calls others : List Registration} (h : AcceptsAll calls)
    (hperm : calls.Perm others) : AcceptsAll others := by
  rw [acceptsAll_iff] at h ⊢
  obtain ⟨hreadable, hpairs⟩ := h
  exact ⟨fun r hr => hreadable r (hperm.mem_iff.mpr hr),
    hperm.pairwise hpairs fun hapart => hapart.symm⟩

theorem AcceptsAll.eq_of_clashes {calls : List Registration} (h : AcceptsAll calls)
    {r other : Registration} (hr : r ∈ calls) (hother : other ∈ calls) {route twin : Route}
    (hroute : r.Yields route) (htwin : other.Yields twin) (hclash : route.clashes twin = true) :
    r = other := by
  have : Std.Symm Registration.Apart := ⟨fun _ _ => Registration.Apart.symm⟩
  by_contra hne
  have hapart := (acceptsAll_iff.mp h).2.forall hr hother hne
  rw [hapart.place route twin hroute htwin] at hclash
  contradiction

theorem AcceptsAll.nodup {calls : List Registration} (h : AcceptsAll calls) : calls.Nodup := by
  obtain ⟨hreadable, hpairs⟩ := acceptsAll_iff.mp h
  refine (List.Pairwise.and_mem.mp hpairs).imp ?_
  rintro r other ⟨hr, -, hapart⟩ rfl
  obtain ⟨route, hroute⟩ := hreadable r hr
  have hfree := hapart.place route route hroute hroute
  simp [Route.clashes, PathPattern.sameShape_refl] at hfree

/-! ## What the tables answer -/

theorem AcceptsAll.within {calls others : List Registration} (h : AcceptsAll calls)
    (h' : AcceptsAll others) (hperm : calls.Perm others) :
    (registered calls).Within (registered others) := by
  intro route hroute
  obtain ⟨i, hi⟩ := List.getElem?_of_mem hroute
  obtain ⟨r, hr, hyields⟩ := Registration.exists_call_of_forall₂ (forall₂_yields h) hi
  obtain ⟨j, hj⟩ := List.getElem?_of_mem (hperm.mem_iff.mp (List.mem_of_getElem? hr))
  obtain ⟨twin, htwin, hyields'⟩ := Registration.exists_route_of_forall₂ (forall₂_yields h') hj
  exact ⟨twin, List.mem_of_getElem? htwin, hyields.alike hyields'⟩

/-- A list of registrations is accepted as a whole in one order exactly if it is in any other.
Then each registration stands in it once, and both tables answer every request alike: with the same
registration, each under its number there, and the same parameters, or with the same methods. -/
theorem resolve_perm {calls others : List Registration} (hperm : calls.Perm others) :
    (AcceptsAll calls ↔ AcceptsAll others) ∧
      (AcceptsAll calls → calls.Nodup ∧ ∀ host method path,
        ((registered calls).resolve host method path).Agrees
          (fun id other => ∃ r, calls[id.index]? = some r ∧ others[other.index]? = some r)
          ((registered others).resolve host method path)) := by
  refine ⟨⟨fun h => h.perm hperm, fun h => h.perm hperm.symm⟩, fun h => ⟨h.nodup, ?_⟩⟩
  intro host method path
  have h' := h.perm hperm
  have hagrees := resolve_agrees (consistent_registered calls) (consistent_registered others)
    (h.within h' hperm) (h'.within h hperm.symm) host method path
  refine hagrees.mono ?_
  rintro id other ⟨route, twin, hroute, htwin, halike⟩
  obtain ⟨r, hr, hyields⟩ := Registration.exists_call_of_forall₂ (forall₂_yields h) hroute
  obtain ⟨r', hr', hyields'⟩ := Registration.exists_call_of_forall₂ (forall₂_yields h') htwin
  have hmem := hperm.mem_iff.mpr (List.mem_of_getElem? hr')
  obtain rfl : r = r' := by
    refine h.eq_of_clashes (List.mem_of_getElem? hr) hmem hyields hyields' ?_
    simp [Route.clashes, halike.method, halike.host, halike.segments, PathPattern.sameShape_refl]
  exact ⟨r, hr, hr'⟩

def orgRoutes : List Registration :=
  [{ Registration.plain "GET" "/:page" with host := some "*.org" },
    { Registration.plain "GET" "/:item" with host := some "*.A.org" },
    .plain "*" "/today"]

theorem acceptsAll_orgRoutes : AcceptsAll orgRoutes := by
  have hnone : AcceptsAll (orgRoutes.take 0) := by simp [AcceptsAll]
  have hfirst : AcceptsAll (orgRoutes.take 1) :=
    acceptsAll_concat.mpr ⟨hnone, ⟨0⟩, by decide +kernel⟩
  have hsecond : AcceptsAll (orgRoutes.take 2) :=
    acceptsAll_concat.mpr ⟨hfirst, ⟨1⟩, by decide +kernel⟩
  exact acceptsAll_concat.mpr ⟨hsecond, ⟨2⟩, by decide +kernel⟩

theorem resolve_perm_orgRoutes :
    orgRoutes.Perm orgRoutes.reverse ∧ AcceptsAll orgRoutes.reverse ∧
      (registered orgRoutes).resolve "b.a.org" Method.get "/today" =
        .matched ⟨1⟩ ⟨[("item", "today")]⟩ ∧
      ((registered orgRoutes).resolve "b.a.org" Method.get "/today").Agrees
        (fun id other => ∃ r, orgRoutes[id.index]? = some r ∧
          orgRoutes.reverse[other.index]? = some r)
        ((registered orgRoutes.reverse).resolve "b.a.org" Method.get "/today") := by
  have hperm : orgRoutes.Perm orgRoutes.reverse := (List.reverse_perm orgRoutes).symm
  obtain ⟨hiff, hanswers⟩ := resolve_perm hperm
  have hmatched : (registered orgRoutes).resolve "b.a.org" Method.get "/today" =
      .matched ⟨1⟩ ⟨[("item", "today")]⟩ := by decide +kernel
  exact ⟨hperm, hiff.mp acceptsAll_orgRoutes, hmatched,
    (hanswers acceptsAll_orgRoutes).2 "b.a.org" Method.get "/today"⟩

end RouteTable

end HttpRouting
