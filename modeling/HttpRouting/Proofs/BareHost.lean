import HttpRouting.Proofs.AlikeTables
import HttpRouting.Proofs.PathRoundTrip
import HttpRouting.Proofs.RequestRun

/-!
# Bare hosts

A host is bare when it has neither a port nor a dot at its end.  Only such a host is its own
normalized form, up to case.  A request takes the port and the dot once before it tells its host,
and a table takes them once more from the host that it is asked for: a request is looked up by the
host that it tells only if that is bare.
-/

namespace HttpRouting

namespace Text

variable {sep : Char} {s before : String}

theorem eq_of_dropWhile_ne {cs rest : List Char} {c : Char}
    (h : cs.dropWhile (· ≠ sep) = c :: rest) : c = sep := by
  have hhead := List.head?_dropWhile_not (· ≠ sep) cs
  rw [h] at hhead
  simpa using hhead

theorem toList_of_beforeLast? (h : beforeLast? sep s = some before) :
    ∃ after, s.toList = before.toList ++ sep :: after := by
  unfold beforeLast? at h
  split at h
  · contradiction
  · next c rest hdrop =>
      obtain rfl := eq_of_dropWhile_ne hdrop
      cases h
      obtain ⟨after, hafter⟩ := List.dropWhile_suffix (l := s.toList.reverse) (· ≠ c)
      rw [hdrop] at hafter
      refine ⟨after.reverse, ?_⟩
      rw [← List.reverse_inj]
      simp [← hafter]

theorem beforeLast?_eq_none_iff : beforeLast? sep s = none ↔ sep ∉ s.toList := by
  constructor
  · intro h hmem
    unfold beforeLast? at h
    split at h
    · next hdrop =>
        rw [List.dropWhile_eq_nil_iff] at hdrop
        simpa using hdrop sep (List.mem_reverse.mpr hmem)
    · contradiction
  · intro hnone
    cases h : beforeLast? sep s with
    | none => rfl
    | some before =>
        obtain ⟨after, hafter⟩ := toList_of_beforeLast? h
        exact absurd (by simp [hafter]) hnone

end Text

namespace HostName

/-! ## What is taken from a host -/

theorem bracketed_isPrefix (cs : List Char) : bracketed cs <+: cs := by
  fun_induction bracketed cs with
  | case1 => exact List.prefix_rfl
  | case2 rest => exact ⟨rest, rfl⟩
  | case3 c rest hc ih => exact (List.prefix_cons_inj c).mpr ih

theorem bracketed_eq_self_iff (cs : List Char) : bracketed cs = cs ↔ ']' ∉ cs.dropLast := by
  fun_induction bracketed cs with
  | case1 => simp
  | case2 rest => cases rest <;> simp
  | case3 c rest hc ih =>
      rw [List.cons.injEq, ih]
      cases rest with
      | nil => simp
      | cons next rest => simp [List.dropLast_cons_cons, Ne.symm hc]

/-- Nothing follows a closing bracket, and a host without brackets has no colon. -/
def isPortless (host : String) : Bool :=
  match host.toList with
  | '[' :: rest => ']' ∉ rest.dropLast
  | cs => ':' ∉ cs

def isBare (host : String) : Bool :=
  isPortless host && host.toList.getLast? ≠ some '.'

section Open

variable {host : String} {rest : List Char}

theorem withoutPort_of_open (h : host.toList = '[' :: rest) :
    withoutPort host = String.ofList ('[' :: bracketed rest) := by
  simp only [withoutPort, h]

theorem withoutPort_of_not_open (h : host.toList.head? ≠ some '[') :
    withoutPort host = (Text.beforeLast? ':' host).getD host := by
  unfold withoutPort
  split
  · next rest hopen => simp [hopen] at h
  · rfl

theorem isPortless_of_open (h : host.toList = '[' :: rest) :
    isPortless host = decide (']' ∉ rest.dropLast) := by
  simp [isPortless, h]

theorem isPortless_of_not_open (h : host.toList.head? ≠ some '[') :
    isPortless host = decide (':' ∉ host.toList) := by
  unfold isPortless
  split
  · next rest hopen => simp [hopen] at h
  · rfl

end Open

theorem withoutPort_isPrefix (host : String) : (withoutPort host).toList <+: host.toList := by
  by_cases hopen : host.toList.head? = some '['
  · obtain ⟨rest, hrest⟩ := List.head?_eq_some_iff.mp hopen
    rw [withoutPort_of_open hrest, hrest, String.toList_ofList]
    exact (List.prefix_cons_inj _).mpr (bracketed_isPrefix rest)
  · rw [withoutPort_of_not_open hopen]
    cases h : Text.beforeLast? ':' host with
    | none => exact List.prefix_rfl
    | some before =>
        obtain ⟨after, hafter⟩ := Text.toList_of_beforeLast? h
        exact ⟨':' :: after, hafter.symm⟩

theorem withoutPort_eq_self_iff (host : String) :
    withoutPort host = host ↔ isPortless host = true := by
  by_cases hopen : host.toList.head? = some '['
  · obtain ⟨rest, hrest⟩ := List.head?_eq_some_iff.mp hopen
    rw [withoutPort_of_open hrest, isPortless_of_open hrest, decide_eq_true_iff,
      ← String.toList_inj, String.toList_ofList, hrest, List.cons.injEq, bracketed_eq_self_iff]
    simp
  · rw [withoutPort_of_not_open hopen, isPortless_of_not_open hopen, decide_eq_true_iff]
    cases h : Text.beforeLast? ':' host with
    | none => simpa using Text.beforeLast?_eq_none_iff.mp h
    | some before =>
        obtain ⟨after, hafter⟩ := Text.toList_of_beforeLast? h
        have hne : before ≠ host := by
          rintro rfl
          have hlength := congrArg List.length hafter
          simp at hlength
        simp [hne, hafter]

theorem withoutRoot_isPrefix (host : String) : (withoutRoot host).toList <+: host.toList := by
  unfold withoutRoot
  split
  · next rest h =>
      refine ⟨['.'], ?_⟩
      rw [← List.reverse_inj]
      simp [h]
  · exact List.prefix_rfl

theorem withoutRoot_eq_self_iff (host : String) :
    withoutRoot host = host ↔ host.toList.getLast? ≠ some '.' := by
  rw [← List.head?_reverse]
  unfold withoutRoot
  split
  · next rest h =>
      have hne : String.ofList rest.reverse ≠ host := by
        rintro rfl
        have hlength := congrArg List.length h
        simp at hlength
      simp [h, hne]
  · next h =>
      simp only [true_iff]
      intro hhead
      cases hrev : host.toList.reverse with
      | nil => simp [hrev] at hhead
      | cons c rest =>
          rw [hrev, List.head?_cons, Option.some.injEq] at hhead
          subst hhead
          exact h rest hrev

theorem withoutRoot_withoutPort_eq_self_iff (host : String) :
    withoutRoot (withoutPort host) = host ↔ isBare host = true := by
  rw [isBare, Bool.and_eq_true, ← withoutPort_eq_self_iff, decide_eq_true_iff,
    ← withoutRoot_eq_self_iff]
  constructor
  · intro h
    have hport : withoutPort host = host := by
      apply String.toList_inj.mp
      apply (withoutPort_isPrefix host).eq_of_length_le
      have := (withoutRoot_isPrefix (withoutPort host)).length_le
      rwa [h] at this
    exact ⟨hport, by rwa [hport] at h⟩
  · rintro ⟨hport, hroot⟩
    rw [hport, hroot]

theorem normalized_eq_toLower_iff (host : String) :
    normalized host = host.toLower ↔ isBare host = true := by
  rw [← withoutRoot_withoutPort_eq_self_iff]
  constructor
  · intro h
    have hlength := congrArg (fun s : String => s.toList.length) h
    simp only [normalized, String.toLower, String.toList_map, List.length_map] at hlength
    apply String.toList_inj.mp
    apply ((withoutRoot_isPrefix _).trans (withoutPort_isPrefix host)).eq_of_length
    exact hlength
  · intro h
    rw [normalized, h]

theorem isBare_normalized_iff (host : String) :
    normalized (normalized host) = normalized host ↔ isBare (normalized host) = true := by
  rw [← normalized_eq_toLower_iff, normalized_toLower]

end HostName

namespace HostPattern

theorem exact_accepts_iff {own host : String} (hown : own.toLower = own)
    (hhost : host.toLower = host) : (exact own).accepts host = true ↔ own = host := by
  simp [accepts, sameHost, hown, hhost]

end HostPattern

/-! ## Looking up a request by its host -/

namespace RouteTable

variable {r : Registration} {route : Route} {host path : String} {method : Method}

theorem exists_resolve_singleton (h : r.Yields route)
    (hhost : route.host.accepts (HostName.normalized host) = true)
    (hmethod : route.method.accepts method = true)
    (hpath : PathPattern.accepts route.segments (Text.pieces path) = true) :
    ∃ params, (registered [r]).resolve host method path = .matched ⟨0⟩ params := by
  obtain ⟨captures, hcaptures⟩ := Option.isSome_iff_exists.mp hpath
  exact ⟨_, resolve_singleton h hhost hmethod hcaptures⟩

theorem resolve_singleton_of_not_accepts (h : r.Yields route)
    (hhost : route.host.accepts (HostName.normalized host) = false) :
    (registered [r]).resolve host method path = .noMatch := by
  have hcovering : (registered [r]).covering host path = [] := by
    simp [covering, routes_registered_singleton h, hhost]
  have hnone : (registered [r]).candidates host method path = [] := by
    rw [List.eq_nil_iff_forall_not_mem]
    intro other hother
    have := (mem_candidates_iff.mp hother).1
    simp [hcovering] at this
  rcases resolve_of_candidates_nil (consistent_registered [r]) hnone with
    ⟨-, hanswer⟩ | ⟨-, hsome, -⟩
  · exact hanswer
  · exact absurd hcovering hsome

end RouteTable

open HostName RouteTable

/-- To take the port and the last dot from a host a second time changes it unless it is bare.  So
a request whose host is bare is looked up by that host, in every table; any other is served by the
route of a host that it does not tell. -/
theorem Request.looked_up_by_bare_host (q : Request) :
    (∀ host : String,
        normalized (normalized host) = normalized host ↔ isBare (normalized host) = true) ∧
      (isBare q.host = true → ∀ (t : RouteTable) (method : Method) (path : String),
        t.tiers.consulted (normalized q.host) = t.tiers.consulted q.host ∧
          t.resolve q.host method path = t.resolve q.rawHost method path) ∧
      (isBare q.host = false → ∀ (r : Registration) (route : Route), r.Yields route →
        route.host = .exact (normalized q.host) → ∀ (method : Method) (path : String),
          route.method.accepts method = true →
            PathPattern.accepts route.segments (Text.pieces path) = true →
              (∃ params, (registered [r]).resolve q.host method path = .matched ⟨0⟩ params) ∧
                (registered [r]).resolve q.rawHost method path = .noMatch) := by
  have hiff : normalized q.host = q.host ↔ isBare q.host = true := isBare_normalized_iff q.rawHost
  refine ⟨isBare_normalized_iff, ?_, ?_⟩
  · intro hbare t method path
    have hsame := hiff.mpr hbare
    refine ⟨by rw [hsame], ?_⟩
    unfold resolve Tiers.resolve
    rw [hsame, Request.host]
  · intro hbare r route hyields hexact method path hmethod hpath
    have hdiffer : normalized q.host ≠ q.host := by
      rw [Ne, hiff, hbare]
      exact Bool.false_ne_true
    have hlower : (normalized q.host).toLower = normalized q.host := normalized_toLower _
    have hlower' : q.host.toLower = q.host := normalized_toLower _
    constructor
    · refine exists_resolve_singleton hyields ?_ hmethod hpath
      rw [hexact, HostPattern.exact_accepts_iff hlower hlower]
    · refine resolve_singleton_of_not_accepts hyields ?_
      rw [hexact, Bool.eq_false_iff, Ne, ← Request.host,
        HostPattern.exact_accepts_iff hlower hlower']
      exact hdiffer

def Request.toHost (field : String) : Request :=
  { forRoot with headers := Headers.ofList [("host", Text.Utf8.encode field)] }

def Registration.rootOf (host : String) : Registration :=
  { Registration.plain "GET" "/" with host := some host }

theorem Registration.yields_rootOf_shop :
    (rootOf "Shop.example").Yields
      ⟨⟨0⟩, .exact Method.get, .exact "shop.example", "/", [], none, [], none,
        Handler.unserved⟩ := by
  refine ⟨?_, ?_, ?_, rfl, rfl, rfl, rfl, rfl⟩ <;> decide +kernel

theorem Request.looked_up_by_bare_host_shop :
    (toHost "SHOP.example.:80").host = "shop.example" ∧
      (∀ t : RouteTable, t.resolve "shop.example" Method.get "/" =
        t.resolve "SHOP.example.:80" Method.get "/") ∧
      (toHost "shop.example:80:80").host = "shop.example:80" ∧
        (∃ params, (registered [.rootOf "Shop.example"]).resolve "shop.example:80" Method.get "/" =
          .matched ⟨0⟩ params) ∧
        (registered [.rootOf "Shop.example"]).resolve "shop.example:80:80" Method.get "/" =
          .noMatch := by
  have htold : (toHost "SHOP.example.:80").host = "shop.example" := by decide +kernel
  have hraw : (toHost "SHOP.example.:80").rawHost = "SHOP.example.:80" := by decide +kernel
  have htold' : (toHost "shop.example:80:80").host = "shop.example:80" := by decide +kernel
  have hraw' : (toHost "shop.example:80:80").rawHost = "shop.example:80:80" := by decide +kernel
  have hbare := (looked_up_by_bare_host (toHost "SHOP.example.:80")).2.1
  have hported := (looked_up_by_bare_host (toHost "shop.example:80:80")).2.2
  rw [htold, hraw] at hbare
  rw [htold', hraw'] at hported
  have hserved := hported (by decide +kernel) _ _ Registration.yields_rootOf_shop
    (by decide +kernel) Method.get "/" (by decide +kernel) (by decide +kernel)
  exact ⟨htold, fun t => (hbare (by decide +kernel) t _ _).2, htold', hserved⟩

def Draft.shop : Draft :=
  Draft.empty.route "/" ((RouteSpec.ofMethod "GET" Handler.unserved).withHost "shop.example")

/-- A request may be served by the route of a host that it does not tell. -/
theorem Request.served_by_untold_host :
    ∃ a, Draft.shop.build = .ok a ∧
      (a.handle.run (World.start (toHost "shop.example:80:80"))).2.context.route = some ⟨0⟩ ∧
      (a.handle.run (World.start (toHost "shop.example:80:80"))).2.context.host =
        "shop.example:80" ∧
      a.table.resolve "shop.example:80:80" Method.get "/" = .noMatch := by
  have hruns : (Draft.shop.build.toOption.map fun a =>
      ((a.handle.run (World.start (toHost "shop.example:80:80"))).2.context.route,
        (a.handle.run (World.start (toHost "shop.example:80:80"))).2.context.host,
        a.table.resolve "shop.example:80:80" Method.get "/")) =
      some (some ⟨0⟩, "shop.example:80", .noMatch) := by decide +kernel
  obtain ⟨a, hbuild, hresults⟩ := Draft.exists_build_of_toOption_map hruns
  simp only [Prod.mk.injEq] at hresults
  exact ⟨a, hbuild, hresults⟩

end HttpRouting
