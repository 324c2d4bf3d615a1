import HttpRouting.Proofs.Representation

/-!
# What a registration is refused for

A registration can be given a place if its host, its method and its path can be read, its name is
free, and no route is there for the same method, host and path shape.  Each of these conditions
can be judged by itself, from the texts of the registration and the routes of the table.  A
registration is accepted exactly when all of them hold, and otherwise it is refused for the first
that fails.
-/

namespace HttpRouting

/-! ## Texts that are compared without regard to case -/

theorem isTokenChar_toUpper (c : Char) : isTokenChar c.toUpper = isTokenChar c := by
  by_cases hlower : c.isLower = true
  · have halpha : c.isAlpha = true := by simp [Char.isAlpha, hlower]
    have halpha' : c.toUpper.isAlpha = true := by simp [halpha]
    simp [isTokenChar, Char.isAlphanum, halpha, halpha']
  · rw [Char.toUpper_eq_of_not_isLower hlower]

theorem isToken_toUpper (s : String) : isToken s.toUpper = isToken s := by
  have hall : ∀ cs : List Char, (cs.map Char.toUpper).all isTokenChar = cs.all isTokenChar := by
    intro cs
    induction cs with
    | nil => rfl
    | cons c rest ih => simp only [List.map_cons, List.all_cons, isTokenChar_toUpper, ih]
  simp only [isToken, String.toUpper, String.toList_map, List.isEmpty_map, hall]

theorem toUpper_toUpper (s : String) : s.toUpper.toUpper = s.toUpper := by
  apply String.toList_inj.mp
  simp [String.toUpper]

namespace RouteMethod

theorem parse?_isSome_iff {s : String} :
    (parse? s).isSome = true ↔ s = "*" ∨ isToken s = true := by
  unfold parse?
  split
  · next hstar => simp [hstar]
  · next hother => simp [hother, Method.parse?_isSome, isToken_toUpper]

theorem text_of_parse? {s : String} {m : RouteMethod} (h : parse? s = some m) :
    m.text = s.toUpper := by
  unfold parse? at h
  split at h
  · next hstar =>
      cases h
      rw [hstar]
      decide +kernel
  · obtain ⟨own, hown, rfl⟩ := Option.map_eq_some_iff.mp h
    exact Method.text_of_parse? hown

theorem parse?_text {s : String} {m : RouteMethod} (h : parse? s = some m) :
    parse? m.text = some m := by
  cases m with
  | any => rfl
  | exact own =>
      have htext : own.text = s.toUpper := text_of_parse? h
      refine parse?_of_toUpper ?_ (text_ne_star_of_parse? h)
      rw [text, htext, toUpper_toUpper]

end RouteMethod

namespace HostPattern

def lowered : HostPattern → HostPattern
  | .any => .any
  | .exact host => .exact host.toLower
  | .suffix domain => .suffix domain.toLower

theorem IsLower.lowered_eq {host : HostPattern} (h : host.IsLower) : host.lowered = host := by
  cases host with
  | any => rfl
  | exact host => exact congrArg HostPattern.exact h
  | suffix domain => exact congrArg HostPattern.suffix h

end HostPattern

/-! ## The conditions -/

namespace Registration

/-- Whether a route is there for what the registration asks for: for the same method when this is
written in upper case, for the same host pattern when this is written in lower case, and for a path
of the same shape. -/
def meets (r : Registration) (host : HostPattern) (segments : List Segment) (route : Route) :
    Bool :=
  route.method.text = r.method.toUpper && route.host.lowered = host.lowered &&
    PathPattern.sameShape route.segments segments

def hostObjection? (r : Registration) : Option RouteError :=
  match r.host.map HostPattern.compile with
  | some (.error fault) => some (.pattern fault)
  | _ => none

def methodObjection? (r : Registration) : Option RouteError :=
  if r.method = "*" || isToken r.method then none else some (.invalidMethod r.method)

def pathObjection? (r : Registration) : Option RouteError :=
  match PathPattern.compile r.path with
  | .error fault => some (.pattern fault)
  | .ok _ => none

theorem hostObjection?_eq (r : Registration) :
    r.hostObjection? =
      match r.parseHost with
      | .error refusal => some refusal
      | .ok _ => none := by
  unfold hostObjection? parseHost
  cases r.host with
  | none => rfl
  | some text =>
      simp only [Option.map_some]
      cases HostPattern.compile text <;> rfl

theorem methodObjection?_eq (r : Registration) :
    r.methodObjection? =
      match r.parseMethod with
      | .error refusal => some refusal
      | .ok _ => none := by
  have hiff := RouteMethod.parse?_isSome_iff (s := r.method)
  unfold methodObjection? parseMethod
  cases hparse : RouteMethod.parse? r.method with
  | none => simpa [hparse] using hiff
  | some method => simpa [hparse, or_iff_not_imp_left] using hiff

end Registration

namespace RouteTable

def nameObjection? (t : RouteTable) (r : Registration) : Option RouteError :=
  (r.options.name.filter fun name => t.routes.any fun route => route.name = some name).map
    .duplicateName

def placeObjection? (t : RouteTable) (r : Registration) : Option RouteError :=
  match r.parseHost, PathPattern.compile r.path with
  | .ok host, .ok segments =>
      (t.routes.find? (r.meets host segments)).map fun route =>
        .duplicateRoute route.method.text route.host.mention r.path
  | _, _ => none

/-- All that stands against a registration, in the order in which it counts. -/
def objections (t : RouteTable) (r : Registration) : List RouteError :=
  r.hostObjection?.toList ++ r.methodObjection?.toList ++ r.pathObjection?.toList ++
    (t.nameObjection? r).toList ++ (t.placeObjection? r).toList

structure Admits (t : RouteTable) (r : Registration) : Prop where
  host : ∀ text, r.host = some text → ∃ pattern, HostPattern.compile text = .ok pattern
  method : r.method = "*" ∨ isToken r.method = true
  path : ∃ segments, PathPattern.compile r.path = .ok segments
  name : ∀ name, r.options.name = some name → ∀ route ∈ t.routes, route.name ≠ some name
  place : ∀ host segments, r.parseHost = .ok host → PathPattern.compile r.path = .ok segments →
    ∀ route ∈ t.routes, r.meets host segments route = false

theorem isTaken_some_eq {t : RouteTable} (h : t.Consistent) (name : String) :
    t.isTaken (some name) = t.routes.any fun route => route.name = some name := by
  rw [Bool.eq_iff_iff, isTaken, Option.isSome_iff_exists, List.any_eq_true]
  simp only [named?_eq_some_iff h, decide_eq_true_eq]
  constructor
  · rintro ⟨id, route, hroute, hname, -⟩
    exact ⟨route, hroute, hname⟩
  · rintro ⟨route, hroute, hname⟩
    exact ⟨route.id, route, hroute, hname, rfl⟩

theorem method_eq_of_text {t : RouteTable} (h : t.Consistent) {route : Route}
    (hroute : route ∈ t.routes) {method : RouteMethod} {s : String}
    (hparse : RouteMethod.parse? s = some method) :
    route.method.text = s.toUpper ↔ route.method = method := by
  rw [← RouteMethod.text_of_parse? hparse]
  constructor
  · intro htext
    cases hown : route.method with
    | any =>
        cases method with
        | any => rfl
        | exact other =>
            rw [hown] at htext
            exact absurd htext.symm (RouteMethod.text_ne_star_of_parse? hparse)
    | exact own =>
        have hstar := text_ne_star h hroute hown
        rw [hown] at htext
        cases method with
        | any => exact absurd htext hstar
        | exact other =>
            have hsame : own.text = other.text := htext
            obtain ⟨text, htoken⟩ := own
            cases hsame
            rfl
  · rintro rfl
    rfl

theorem meets_eq_clashes {t : RouteTable} (h : t.Consistent) {r : Registration} (route : Route)
    (hhost : r.parseHost = .ok route.host) (hmethod : r.parseMethod = .ok route.method)
    {other : Route} (hother : other ∈ t.routes) :
    r.meets route.host route.segments other = other.clashes route := by
  obtain ⟨asked, hasked⟩ := h.origin other hother
  have hlower := hasked.isLower_host.lowered_eq
  have hlower' := (Registration.isLower_of_parseHost hhost).lowered_eq
  have hparse := Registration.parse?_of_parseMethod hmethod
  simp only [Registration.meets, Route.clashes, method_eq_of_text h hother hparse, hlower, hlower']

theorem placeObjection?_eq {t : RouteTable} (h : t.Consistent) {r : Registration}
    {host : HostPattern} {method : RouteMethod} {segments : List Segment}
    (hhost : r.parseHost = .ok host) (hmethod : r.parseMethod = .ok method)
    (hsegments : PathPattern.compile r.path = .ok segments) (id : RouteId) :
    t.placeObjection? r =
      match t.tiers.insert? host segments ⟨method, id, PathPattern.binders segments⟩ with
      | none => some (.duplicateRoute method.text host.mention r.path)
      | some _ => none := by
  let route : Route := ⟨id, method, host, r.path, segments, r.options.name, r.options.layers,
    r.options.timeout, r.handler⟩
  have hinsert : t.tiers.insert? host segments ⟨method, id, PathPattern.binders segments⟩ = none ↔
      ∃ other ∈ t.routes, other.clashes route = true := insert?_eq_none_iff h route
  have hmeets : ∀ other ∈ t.routes, r.meets host segments other = other.clashes route :=
    fun other hother => meets_eq_clashes h route hhost hmethod hother
  simp only [placeObjection?, hhost, hsegments]
  cases hfind : t.routes.find? (r.meets host segments) with
  | none =>
      have hfree : ¬∃ other ∈ t.routes, other.clashes route = true := by
        rintro ⟨other, hother, hclash⟩
        have hmiss := List.find?_eq_none.mp hfind other hother
        rw [hmeets other hother] at hmiss
        exact hmiss hclash
      obtain ⟨tiers, htiers⟩ := Option.ne_none_iff_exists'.mp (mt hinsert.mp hfree)
      rw [htiers]
      rfl
  | some other =>
      have hother := List.mem_of_find?_eq_some hfind
      have hclash : other.clashes route = true := by
        rw [← hmeets other hother]
        exact List.find?_some hfind
      rw [hinsert.mpr ⟨other, hother, hclash⟩]
      simp only [Route.clashes, Bool.and_eq_true, decide_eq_true_eq] at hclash
      rw [Option.map_some, hclash.1.1, hclash.1.2]

theorem register_fst {t : RouteTable} (h : t.Consistent) (r : Registration) :
    (t.register r).1 =
      match t.objections r with
      | [] => .ok ⟨t.size⟩
      | first :: _ => .error first := by
  unfold register objections
  rw [r.hostObjection?_eq, r.methodObjection?_eq]
  cases hhost : r.parseHost with
  | error refusal => rfl
  | ok host =>
      cases hmethod : r.parseMethod with
      | error refusal => rfl
      | ok method =>
          simp only [place, Registration.pathObjection?, nameObjection?, ← isTaken_some_eq h]
          cases hsegments : PathPattern.compile r.path with
          | error fault => rfl
          | ok segments =>
              cases r.options.name.filter fun name => t.isTaken (some name) with
              | some name => rfl
              | none =>
                  simp only [Tiers.place_eq h.ordered,
                    placeObjection?_eq h hhost hmethod hsegments ⟨t.routes.length⟩]
                  cases t.tiers.insert? host segments
                    ⟨method, ⟨t.routes.length⟩, PathPattern.binders segments⟩ <;> rfl

theorem objections_eq_nil_iff {t : RouteTable} {r : Registration} :
    t.objections r = [] ↔ t.Admits r := by
  have hhost : r.hostObjection? = none ↔
      ∀ text, r.host = some text → ∃ pattern, HostPattern.compile text = .ok pattern := by
    unfold Registration.hostObjection?
    cases r.host with
    | none => simp
    | some text => cases hcompile : HostPattern.compile text <;> simp [hcompile]
  have hmethod : r.methodObjection? = none ↔ r.method = "*" ∨ isToken r.method = true := by
    simp [Registration.methodObjection?, or_iff_not_imp_left]
  have hpath : r.pathObjection? = none ↔
      ∃ segments, PathPattern.compile r.path = .ok segments := by
    unfold Registration.pathObjection?
    cases PathPattern.compile r.path <;> simp
  have hname : t.nameObjection? r = none ↔
      ∀ name, r.options.name = some name → ∀ route ∈ t.routes, route.name ≠ some name := by
    simp [nameObjection?, Option.filter_eq_none_iff]
  have hplace : t.placeObjection? r = none ↔
      ∀ host segments, r.parseHost = .ok host → PathPattern.compile r.path = .ok segments →
        ∀ route ∈ t.routes, r.meets host segments route = false := by
    unfold placeObjection?
    cases r.parseHost <;> cases PathPattern.compile r.path <;> simp
  simp only [objections, List.append_eq_nil_iff, Option.toList_eq_nil_iff, hhost, hmethod, hpath,
    hname, hplace]
  constructor
  · rintro ⟨⟨⟨⟨host, method⟩, path⟩, name⟩, place⟩
    exact ⟨host, method, path, name, place⟩
  · rintro ⟨host, method, path, name, place⟩
    exact ⟨⟨⟨⟨host, method⟩, path⟩, name⟩, place⟩

/-- After any run of registrations, another one is accepted exactly if its texts can be read, its
name is free and no route is there for the same method, host and path shape.  It is refused for
the first of these conditions that fails. -/
theorem register_judged (calls : List Registration) (r : Registration) :
    ((∃ id, ((registered calls).register r).1 = .ok id) ↔ (registered calls).Admits r) ∧
      ((registered calls).register r).1 =
        match (registered calls).objections r with
        | [] => .ok ⟨(registered calls).size⟩
        | first :: _ => .error first := by
  have hjudged := register_fst (consistent_registered calls) r
  refine ⟨?_, hjudged⟩
  rw [hjudged, ← objections_eq_nil_iff]
  cases (registered calls).objections r <;> simp

/-- Nothing can be read of this registration, and its name is taken. -/
example :
    ((registered [(Registration.plain "GET" "/a").named "a"]).objections
        { (Registration.plain "no method" "/*/b").named "a" with host := some "a..b" }) =
      [.pattern (.invalidHost "a..b" .emptyLabel), .invalidMethod "no method",
        .pattern (.misplacedWildcard "/*/b"), .duplicateName "a"] := by
  decide +kernel

end RouteTable

end HttpRouting
