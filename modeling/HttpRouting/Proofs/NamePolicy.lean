import HttpRouting.Proofs.RegistrationOrder
import HttpRouting.Proofs.TimeBound

/-!
# Routes that bear one name

A build passes over a route whose name is taken, or ends at it, as the settings say.  Where it
passes over such routes, the application is the one that the draft without them gives: of all
routes with one name it has the first, and nothing in it tells that there were others.
-/

namespace HttpRouting

/-! ## The first of each name -/

section

variable {α β : Type} {name? : α → Option String}

def repeats (name? : α → Option String) (others : List α) (item : α) : Bool :=
  (name? item).isSome && others.any fun other => name? other = name? item

/-- The items without those whose name is borne by an earlier one that stays. -/
def firstHolders (name? : α → Option String) (items : List α) : List α :=
  items.foldl (fun held item => if repeats name? held item then held else held ++ [item]) []

theorem firstHolders_concat (items : List α) (item : α) :
    firstHolders name? (items ++ [item]) =
      if repeats name? (firstHolders name? items) item then firstHolders name? items
      else firstHolders name? items ++ [item] := by
  rw [firstHolders, List.foldl_append]
  rfl

theorem map_firstHolders (f : β → α) (items : List β) :
    (firstHolders (name? ∘ f) items).map f = firstHolders name? (items.map f) := by
  induction items using List.reverseRecOn with
  | nil => rfl
  | append_singleton items item ih =>
      have hrepeats : repeats (name? ∘ f) (firstHolders (name? ∘ f) items) item =
          repeats name? (firstHolders name? (items.map f)) (f item) := by
        rw [← ih, repeats, repeats, List.any_map]
        rfl
      rw [List.map_append, List.map_singleton, firstHolders_concat, firstHolders_concat, hrepeats]
      split
      · exact ih
      · rw [List.map_append, ih, List.map_singleton]

theorem find?_firstHolders (name : String) (items : List α) :
    (firstHolders name? items).find? (fun item => name? item = some name) =
      items.find? fun item => name? item = some name := by
  induction items using List.reverseRecOn with
  | nil => rfl
  | append_singleton items item ih =>
      rw [firstHolders_concat, List.find?_append, ← ih]
      split
      · next hrepeats =>
          by_cases hname : name? item = some name
          · have hheld : ((firstHolders name? items).find? fun other =>
                name? other = some name).isSome = true := by
              simpa [repeats, hname] using hrepeats
            rw [Option.or_of_isSome hheld]
          · simp [hname]
      · rw [List.find?_append]

theorem map_eq_map_of_forall₂ {γ : Type} {f : α → γ} {g : β → γ} {items : List α}
    {others : List β} (h : List.Forall₂ (fun item other => f item = g other) items others) :
    items.map f = others.map g := by
  rwa [← List.forall₂_eq_eq_eq, List.forall₂_map_left_iff, List.forall₂_map_right_iff]

end

namespace Registration

def name? (r : Registration) : Option String := r.options.name

def path? (r : Registration) (params : List (String × String)) : Option String :=
  (PathPattern.compile r.path).toOption.bind (PathPattern.build? · params)

end Registration

/-! ## The error that ends a build -/

namespace RouteTable

variable {ends : RouteError → Prop} {calls : List Registration} {r : Registration}

def Unended (ends : RouteError → Prop) (calls : List Registration) : Prop :=
  ∀ before r after, calls = before ++ r :: after →
    ∀ e, ((registered before).register r).1 = .error e → ¬ends e

/-- The error at which some registrations end: the first of those that end them. -/
def EndsWith (ends : RouteError → Prop) (calls : List Registration) (e : RouteError) : Prop :=
  ∃ before r after, calls = before ++ r :: after ∧ Unended ends before ∧
    ((registered before).register r).1 = .error e ∧ ends e

@[simp] theorem unended_nil : Unended ends [] := by simp [Unended]

theorem unended_concat :
    Unended ends (calls ++ [r]) ↔
      Unended ends calls ∧ ∀ e, ((registered calls).register r).1 = .error e → ¬ends e :=
  forall_split_concat

theorem Unended.mono {other : RouteError → Prop} (h : Unended ends calls)
    (himp : ∀ e, other e → ends e) : Unended other calls :=
  fun before r after hsplit e hrefused hother => h before r after hsplit e hrefused (himp e hother)

theorem isTaken_of_duplicateName {t : RouteTable} (h : t.Consistent) {name : String}
    (hrefused : (t.register r).1 = .error (.duplicateName name)) :
    r.options.name = some name ∧ t.isTaken (some name) = true := by
  rw [register_fst h] at hrefused
  split at hrefused
  · cases hrefused
  · next first rest hobjections =>
      cases hrefused
      have hmem : RouteError.duplicateName name ∈ t.objections r := by simp [hobjections]
      simp only [objections, List.mem_append, Option.mem_toList] at hmem
      rcases hmem with (((hhost | hmethod) | hpath) | hname) | hplace
      · unfold Registration.hostObjection? at hhost
        split at hhost <;> cases hhost
      · unfold Registration.methodObjection? at hmethod
        split at hmethod <;> cases hmethod
      · unfold Registration.pathObjection? at hpath
        split at hpath <;> cases hpath
      · rw [nameObjection?, Option.map_eq_some_iff] at hname
        obtain ⟨_, hfilter, ⟨⟩⟩ := hname
        obtain ⟨hown, hheld⟩ := Option.filter_eq_some_iff.mp hfilter
        exact ⟨hown, (isTaken_some_eq h name).trans hheld⟩
      · unfold placeObjection? at hplace
        split at hplace
        · obtain ⟨_, -, ⟨⟩⟩ := Option.map_eq_some_iff.mp hplace
        · cases hplace

/-! ## What is registered -/

theorem map_name_routes (h : AcceptsAll calls) :
    (registered calls).routes.map Route.name = calls.map Registration.name? :=
  (map_eq_map_of_forall₂ ((forall₂_yields h).imp fun _ _ hyields => hyields.name.symm)).symm

theorem repeats_eq_isTaken (h : AcceptsAll calls) (r : Registration) :
    repeats Registration.name? calls r = (registered calls).isTaken r.name? := by
  cases hname : r.name? with
  | none => simp [repeats, hname, isTaken]
  | some name =>
      have hany : (calls.map Registration.name?).any (fun held => held = some name) =
          ((registered calls).routes.map Route.name).any fun held => held = some name := by
        rw [map_name_routes h]
      rw [isTaken_some_eq (consistent_registered calls)]
      simpa [repeats, hname, List.any_map, Function.comp_def] using hany

theorem acceptsAll_firstHolders (h : Unended (fun e => ∀ name, e ≠ .duplicateName name) calls) :
    AcceptsAll (firstHolders Registration.name? calls) ∧
      registered (firstHolders Registration.name? calls) = registered calls := by
  induction calls using List.reverseRecOn with
  | nil => exact ⟨by simp [AcceptsAll, firstHolders], rfl⟩
  | append_singleton calls r ih =>
      obtain ⟨hcalls, hlast⟩ := unended_concat.mp h
      obtain ⟨haccepts, hsame⟩ := ih hcalls
      have hconsistent := consistent_registered calls
      rw [firstHolders_concat, repeats_eq_isTaken haccepts, hsame, registered_concat]
      cases hresult : ((registered calls).register r).1 with
      | ok id =>
          obtain ⟨route, hyields, hfree, -⟩ := (register_ok_iff hconsistent).mp ⟨id, hresult⟩
          have hname : (registered calls).isTaken r.name? = false := by
            rw [Registration.name?, ← hyields.name]
            exact hfree
          rw [hname, if_neg Bool.false_ne_true, acceptsAll_concat, registered_concat, hsame]
          exact ⟨⟨haccepts, id, hresult⟩, rfl⟩
      | error e =>
          obtain ⟨name, rfl⟩ := not_forall_not.mp (hlast e hresult)
          obtain ⟨hname, htaken⟩ := isTaken_of_duplicateName hconsistent hresult
          rw [Registration.name?, hname, htaken, if_pos rfl,
            register_of_refused hconsistent.ordered hresult]
          exact ⟨haccepts, hsame⟩

end RouteTable

/-! ## Builds -/

namespace Draft

open RouteTable

variable {policy : DuplicateNames} {calls : List Registration} {t : RouteTable} {e : RouteError}

theorem registerAll_append (policy : DuplicateNames) (t : RouteTable)
    (calls more : List Registration) :
    registerAll policy t (calls ++ more) =
      (registerAll policy t calls).bind fun after => registerAll policy after more := by
  induction calls generalizing t with
  | nil => rfl
  | cons r rest ih =>
      simp only [List.cons_append, registerAll]
      split
      · exact ih _
      · split
        · exact ih _
        · rfl

theorem registerAll_singleton (policy : DuplicateNames) (t : RouteTable) (r : Registration) :
    registerAll policy t [r] =
      match (t.register r).1 with
      | .ok _ => .ok (t.register r).2
      | .error e => if tolerates policy e then .ok (t.register r).2 else .error e := by
  simp only [registerAll]
  split <;> simp_all

theorem registerAll_eq_ok_iff :
    registerAll policy RouteTable.empty calls = .ok t ↔
      Unended (fun e => tolerates policy e = false) calls ∧ registered calls = t := by
  induction calls using List.reverseRecOn generalizing t with
  | nil => simp [registerAll, Unended, registered]
  | append_singleton calls r ih =>
      rw [registerAll_append, unended_concat, registered_concat]
      cases hall : registerAll policy RouteTable.empty calls with
      | error e =>
          constructor
          · intro h
            cases h
          · intro h
            rw [ih.mpr ⟨h.1.1, rfl⟩] at hall
            cases hall
      | ok after =>
          obtain ⟨hcalls, rfl⟩ := ih.mp hall
          rw [Except.bind, registerAll_singleton]
          cases ((registered calls).register r).1 with
          | ok id => simp [hcalls]
          | error e => cases hends : tolerates policy e <;> simp [hcalls, hends]

theorem registerAll_eq_error_iff :
    registerAll policy RouteTable.empty calls = .error e ↔
      EndsWith (fun e => tolerates policy e = false) calls e := by
  constructor
  · intro h
    induction calls using List.reverseRecOn with
    | nil => cases h
    | append_singleton calls r ih =>
        rw [registerAll_append] at h
        cases hall : registerAll policy RouteTable.empty calls with
        | error refusal =>
            rw [hall] at h
            cases h
            obtain ⟨before, other, after, rfl, hends⟩ := ih hall
            exact ⟨before, other, after ++ [r], by simp, hends⟩
        | ok after =>
            obtain ⟨hcalls, rfl⟩ := registerAll_eq_ok_iff.mp hall
            rw [hall, Except.bind, registerAll_singleton] at h
            split at h
            · cases h
            · next refusal hrefused =>
                split at h
                · cases h
                · next hends =>
                    cases h
                    exact ⟨calls, r, [], rfl, hcalls, hrefused, by simpa using hends⟩
  · rintro ⟨before, r, after, rfl, hbefore, hrefused, hends⟩
    have hr : registerAll policy (registered before) [r] = .error e := by
      rw [registerAll_singleton, hrefused]
      simp [hends]
    rw [registerAll_append, registerAll_eq_ok_iff.mpr ⟨hbefore, rfl⟩]
    change registerAll policy (registered before) ([r] ++ after) = .error e
    rw [registerAll_append, hr]
    rfl

theorem tolerates_skip_eq_false_iff :
    tolerates .skip e = false ↔ ∀ name, e ≠ .duplicateName name := by
  cases e <;> simp [tolerates]

theorem tolerates_eq_false_of_ne (policy : DuplicateNames) (h : ∀ name, e ≠ .duplicateName name) :
    tolerates policy e = false := by
  cases e <;> simp_all [tolerates]

theorem tolerates_reject (e : RouteError) : tolerates .reject e = false := by
  cases e <;> simp [tolerates]

def withoutRepeats (d : Draft) : Draft :=
  { d with routes := firstHolders (fun entry => entry.2.options.name) d.routes }

theorem registrations_withoutRepeats (d : Draft) :
    d.withoutRepeats.registrations = firstHolders Registration.name? d.registrations :=
  @map_firstHolders _ _ Registration.name? _ d.routes

theorem build_eq_error_iff {d : Draft} :
    d.build = .error e ↔
      EndsWith (fun e => tolerates d.config.duplicateNames e = false) d.registrations e := by
  rw [← registerAll_eq_error_iff, build]
  cases registerAll d.config.duplicateNames RouteTable.empty d.registrations with
  | error refusal =>
      constructor <;>
        · rintro ⟨⟩
          rfl
  | ok table => exact ⟨nofun, nofun⟩

end Draft

/-- What an application holds of the registrations that it was built from: a route of each, in
order and numbered without a gap, and no answer that does not come from one of them. -/
structure App.Serves (a : App) (calls : List Registration) : Prop where
  routes : List.Forall₂ Registration.Yields calls a.table.routes
  numbered : ∀ i (route : Route), a.table.routes[i]? = some route → route.id = ⟨i⟩
  matched : ∀ host method path id params, a.table.resolve host method path = .matched id params →
    ∃ r route, calls[id.index]? = some r ∧ a.table.get? id = some route ∧ r.Yields route
  allowed : ∀ host method path allowed,
    a.table.resolve host method path = .methodMismatch allowed → ∀ text ∈ allowed,
      ∃ r ∈ calls, ∃ own : Method, r.parseMethod = .ok (.exact own) ∧ own.text = text

section

open RouteTable

variable {a : App} {calls : List Registration}

theorem App.serves_of_acceptsAll (h : AcceptsAll calls) (ha : a.table = registered calls) :
    a.Serves calls := by
  have hroutes := forall₂_yields h
  have hconsistent := consistent_registered calls
  constructor
  · rw [ha]
    exact hroutes
  · rw [ha]
    exact hconsistent.index
  · intro host method path id params hmatched
    rw [ha] at hmatched ⊢
    obtain ⟨route, -, hforemost, rfl, -⟩ := foremost_of_resolve hconsistent hmatched
    have hget := get?_id hconsistent hforemost.mem_routes
    obtain ⟨r, hr, hyields⟩ := Registration.exists_call_of_forall₂ hroutes hget
    exact ⟨r, route, hr, hget, hyields⟩
  · intro host method path allowed htold text htext
    rw [ha] at htold
    obtain ⟨route, hroute, own, hown, rfl⟩ := exists_route_of_told hconsistent htold htext
    obtain ⟨i, hi⟩ := List.getElem?_of_mem hroute
    obtain ⟨r, hr, hyields⟩ := Registration.exists_call_of_forall₂ hroutes hi
    exact ⟨r, List.mem_of_getElem? hr, own, hown ▸ hyields.method, rfl⟩

theorem App.path?_of_acceptsAll (h : AcceptsAll calls) (ha : a.table = registered calls)
    (name : String) (params : List (String × String)) :
    a.path? name params = (calls.find? fun r => r.name? = some name).bind (·.path? params) := by
  have hroutes := forall₂_yields h
  have hconsistent := consistent_registered calls
  rw [path?, ha]
  cases hfind : calls.find? fun r => r.name? = some name with
  | none =>
      have hnamed : (registered calls).named? name = none := by
        rw [Option.eq_none_iff_forall_ne_some]
        intro id hnamed
        obtain ⟨route, hroute, hname, -⟩ := (named?_eq_some_iff hconsistent).mp hnamed
        obtain ⟨i, hi⟩ := List.getElem?_of_mem hroute
        obtain ⟨r, hr, hyields⟩ := Registration.exists_call_of_forall₂ hroutes hi
        have hmiss := List.find?_eq_none.mp hfind r (List.mem_of_getElem? hr)
        rw [hyields.name] at hname
        simp [Registration.name?, hname] at hmiss
      rw [hnamed]
      rfl
  | some r =>
      obtain ⟨i, hi⟩ := List.getElem?_of_mem (List.mem_of_find?_eq_some hfind)
      obtain ⟨route, hroute, hyields⟩ := Registration.exists_route_of_forall₂ hroutes hi
      have hmem := List.mem_of_getElem? hroute
      have hown : r.name? = some name := by simpa using List.find?_some hfind
      have hnamed : (registered calls).named? name = some route.id :=
        (named?_eq_some_iff hconsistent).mpr ⟨route, hmem, hyields.name.trans hown, rfl⟩
      simp [hnamed, get?_id hconsistent hmem, Registration.path?, hyields.segments,
        Except.toOption]

end

namespace Draft

open RouteTable

theorem build_withoutRepeats {d : Draft} {a : App} (hbuild : d.build = .ok a) :
    d.withoutRepeats.build = .ok a ∧ AcceptsAll d.withoutRepeats.registrations ∧
      a.table = registered d.withoutRepeats.registrations := by
  obtain ⟨table, hall, rfl⟩ := build_eq_ok_iff.mp hbuild
  obtain ⟨hunended, hsame⟩ := registerAll_eq_ok_iff.mp hall
  obtain ⟨haccepts, hkept⟩ :=
    acceptsAll_firstHolders (hunended.mono fun e => tolerates_eq_false_of_ne _)
  rw [← registrations_withoutRepeats] at haccepts hkept
  have htable := hkept.trans hsame
  refine ⟨build_eq_ok_iff.mpr ⟨table, ?_, rfl⟩, haccepts, htable.symm⟩
  refine registerAll_eq_ok_iff.mpr ⟨fun before r after hsplit e hrefused => ?_, htable⟩
  obtain ⟨id, hok⟩ := haccepts before r after hsplit
  rw [hrefused] at hok
  cases hok

/-- Where names that are taken are passed over, a build ends with its first other error, or it
gives the application of the draft without the repeated names, in which a name leads to its first
holder.  Where they are not, it ends with its first error.  In every application that is built, the
chain of a number is that of the route with this number, and a matched request goes through it. -/
theorem build_by_policy (d : Draft) :
    (d.config.duplicateNames = .skip →
      (∀ e, d.build = .error e ↔ EndsWith (fun e => ∀ name, e ≠ .duplicateName name)
        d.registrations e) ∧
      ∀ a, d.build = .ok a → d.withoutRepeats.build = .ok a ∧
        a.Serves d.withoutRepeats.registrations ∧
        ∀ name params, a.path? name params =
          (d.registrations.find? fun r => r.name? = some name).bind (·.path? params)) ∧
    (d.config.duplicateNames = .reject → ∀ e,
      d.build = .error e ↔ EndsWith (fun _ => True) d.registrations e) ∧
    ∀ a, d.build = .ok a → a.chains.length = a.table.size ∧
      (∀ id route, a.table.get? id = some route →
        route.id = id ∧ a.chains[id.index]? = some (chainOf d.layers route)) ∧
      ∀ (w : World) (id : RouteId) (params : PathParams),
        a.table.resolve w.context.host w.context.method w.context.path = .matched id params →
          ∃ route, a.table.get? id = some route ∧
            a.route.run w = (chainOf d.layers route).run (w.routed id params) := by
  refine ⟨fun hpolicy => ⟨fun e => ?_, fun a hbuild => ?_⟩, fun hpolicy e => ?_,
    fun a hbuild => ⟨?_, fun id route hget => ?_, fun w id params hmatched => ?_⟩⟩
  · simp only [build_eq_error_iff, hpolicy, tolerates_skip_eq_false_iff]
  · obtain ⟨hkept, haccepts, htable⟩ := build_withoutRepeats hbuild
    refine ⟨hkept, App.serves_of_acceptsAll haccepts htable, fun name params => ?_⟩
    rw [App.path?_of_acceptsAll haccepts htable, registrations_withoutRepeats,
      find?_firstHolders]
  · simp only [build_eq_error_iff, hpolicy, tolerates_reject]
  · rw [chains_eq hbuild, List.length_map]
    rfl
  · exact ⟨(consistent_table hbuild).index id.index route hget, chains_getElem? hbuild hget⟩
  · have hconsistent := consistent_table hbuild
    obtain ⟨route, -, hforemost, rfl, -⟩ := foremost_of_resolve hconsistent hmatched
    have hget := get?_id hconsistent hforemost.mem_routes
    exact ⟨route, hget, App.run_route_of_matched hmatched (chains_getElem? hbuild hget)⟩

def twoHomes : Draft :=
  ((Draft.empty.route "/" ((RouteSpec.ofMethod "GET" Handler.unserved).withName "home")).route
      "/start" ((RouteSpec.ofMethod "GET" Handler.unserved).withName "home")).route
    "/about" (RouteSpec.ofMethod "GET" Handler.unserved)

theorem build_by_policy_twoHomes :
    (∃ a, twoHomes.build = .ok a ∧ twoHomes.withoutRepeats.build = .ok a ∧
      a.Serves twoHomes.withoutRepeats.registrations ∧ a.path? "home" [] = some "/") ∧
    (twoHomes.withConfig ⟨.reject, none⟩).build = .error (.duplicateName "home") := by
  constructor
  · have hok : twoHomes.build.toOption.map (fun a => a.table.size) = some 2 := by decide +kernel
    obtain ⟨a, hbuild, -⟩ := exists_build_of_toOption_map hok
    obtain ⟨hkept, hserves, hpath⟩ := ((build_by_policy twoHomes).1 rfl).2 a hbuild
    refine ⟨a, hbuild, hkept, hserves, ?_⟩
    rw [hpath]
    decide +kernel
  · refine ((build_by_policy (twoHomes.withConfig ⟨.reject, none⟩)).2.1 rfl _).mpr ?_
    let home : Registration :=
      ((RouteSpec.ofMethod "GET" Handler.unserved).withName "home").registration "/"
    have hhome : ((registered []).register home).1 = .ok ⟨0⟩ := by decide +kernel
    refine ⟨[home], _, _, rfl, unended_concat.mpr ⟨unended_nil, fun e hrefused => ?_⟩, ?_, trivial⟩
    · rw [hhome] at hrefused
      cases hrefused
    · decide +kernel

end Draft

end HttpRouting
