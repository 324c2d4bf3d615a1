import HttpRouting.Proofs.Admission
import HttpRouting.Proofs.AlikeTables
import HttpRouting.Proofs.RequestRun

/-!
# The `Allow` field of a refused request

A response leaves with the `Allow` field that the failure asks for, unless whatever made the
response has set one.  Only a failure that brings a list of methods asks for it.  Where routing
fails, the list holds methods of routes, each of which can stand in a header field.
-/

namespace HttpRouting

/-! ## Texts that are legal in a header field -/

theorem isLegalByte_of_isTokenChar {c : Char} (h : isTokenChar c = true) :
    Headers.isLegalByte (UInt8.ofNat c.toNat) = true := by
  have hall : ∀ n < 128, isTokenChar (Char.ofNat n) = true →
      Headers.isLegalByte (UInt8.ofNat n) = true := by decide +kernel
  refine hall c.toNat (isAscii_of_isTokenChar h) ?_
  rw [Char.ofNat_toNat]
  exact h

namespace Headers

theorem values_insertIfAbsent_of_ne (h : Headers) {name other : String}
    (hother : name.toLower ≠ other.toLower) (value : Text.Utf8.Bytes) :
    (h.insertIfAbsent name value).values other = h.values other := by
  unfold insertIfAbsent
  split
  · rfl
  · rw [values_append, if_neg hother, List.append_nil]

def IsLegalChar (c : Char) : Prop :=
  c.toNat < 128 ∧ isLegalByte (UInt8.ofNat c.toNat) = true

theorem value?_of_isLegalChar {s : String} (h : ∀ c ∈ s.toList, IsLegalChar c) :
    value? s = some (Text.Utf8.encode s) := by
  have hbytes : (Text.Utf8.encode s).all isLegalByte = true := by
    rw [List.all_eq_true]
    intro b hb
    obtain ⟨c, hc, hcb⟩ := List.mem_flatMap.mp hb
    obtain ⟨hascii, hlegal⟩ := h c hc
    rw [Text.Utf8.utf8EncodeChar_of_lt hascii, List.mem_singleton] at hcb
    rw [hcb]
    exact hlegal
  simp only [value?, hbytes, if_true]

end Headers

theorem Method.isLegalChar_text (m : Method) : ∀ c ∈ m.text.toList, Headers.IsLegalChar c := by
  have htoken := m.isToken_text
  unfold isToken at htoken
  rw [Bool.and_eq_true, List.all_eq_true] at htoken
  exact fun c hc => ⟨m.isAscii_text c hc, isLegalByte_of_isTokenChar (htoken.2 c hc)⟩

theorem RouteMethod.value?_text (m : RouteMethod) :
    Headers.value? m.text = some (Text.Utf8.encode m.text) := by
  apply Headers.value?_of_isLegalChar
  cases m with
  | any =>
      have hstar : RouteMethod.any.text.toList = ['*'] := rfl
      rw [hstar]
      simp only [List.mem_singleton, forall_eq]
      exact ⟨by decide, by decide⟩
  | exact own => exact own.isLegalChar_text

theorem Headers.value?_joined {allowed : List String}
    (hmethods : ∀ text ∈ allowed, ∃ own : Method, own.text = text) :
    Headers.value? (Text.joined ", " allowed) =
      some (Text.Utf8.encode (Text.joined ", " allowed)) := by
  apply Headers.value?_of_isLegalChar
  apply Text.forall_mem_joined
  · have hsep : ", ".toList = [',', ' '] := rfl
    rw [hsep]
    simp only [List.mem_cons, List.not_mem_nil, or_false, forall_eq_or_imp, forall_eq]
    exact ⟨⟨by decide, by decide⟩, ⟨by decide, by decide⟩⟩
  · intro text htext
    obtain ⟨own, rfl⟩ := hmethods text htext
    exact own.isLegalChar_text

/-! ## Responses with the field added -/

namespace Response

/-- What is sent for a response where the `Allow` field is to have a value: nothing else is
changed, and a field that is there is left as it is. -/
structure AllowAdded (made sent : Response) (value : Text.Utf8.Bytes) : Prop where
  status : sent.status = made.status
  body : sent.body = made.body
  others : ∀ name, name.toLower ≠ "allow" → sent.headers.values name = made.headers.values name
  allow : sent.headers.values "allow" =
    if made.headers.values "allow" = [] then [value] else made.headers.values "allow"

theorem status_withAllow (r : Response) (f : Failure) : (r.withAllow f).status = r.status := by
  unfold withAllow
  cases f.allowValue? <;> rfl

theorem body_withAllow (r : Response) (f : Failure) : (r.withAllow f).body = r.body := by
  unfold withAllow
  cases f.allowValue? <;> rfl

theorem allowAdded_withAllow (r : Response) {f : Failure} {value : Text.Utf8.Bytes}
    (hvalue : f.allowValue? = some value) : r.AllowAdded (r.withAllow f) value := by
  have hlower : "allow".toLower = "allow" := by decide +kernel
  have hwith : r.withAllow f = { r with headers := r.headers.insertIfAbsent "allow" value } := by
    simp only [withAllow, hvalue]
  rw [hwith]
  refine ⟨rfl, rfl, fun name hname => ?_, Headers.values_insertIfAbsent _ _ _⟩
  apply Headers.values_insertIfAbsent_of_ne
  rw [hlower]
  exact hname.symm

theorem values_withAllow_ne_nil (r : Response) (f : Failure) :
    (r.withAllow f).headers.values "allow" ≠ [] ↔
      r.headers.values "allow" ≠ [] ∨ f.allowValue?.isSome = true := by
  cases hvalue : f.allowValue? with
  | none => simp [withAllow, hvalue]
  | some value =>
      rw [(r.allowAdded_withAllow hvalue).allow]
      by_cases habsent : r.headers.values "allow" = [] <;> simp [habsent]

end Response

/-! ## Requests that routing refuses -/

/-- If routing finds a path that is served for other methods only, and the shared layers pass that
failure on, then the response leaves with these methods in its `Allow` field, unless the error
handler has set one.  Every method of a registration can stand in the field. -/
theorem allow_of_mismatch :
    (∀ (r : Registration) (m : RouteMethod), r.parseMethod = .ok m →
        m.text = r.method.toUpper ∧ Headers.value? m.text = some (Text.Utf8.encode m.text)) ∧
      ∀ (d : Draft) (a : App), d.build = .ok a → ∀ (w u v : World) (allowed : List String),
        (Hook.runAll d.hooks).run w = (.ok (.ok ()), u) →
        a.table.resolve u.context.host u.context.method u.context.path =
          .methodMismatch allowed →
        (Layer.around d.layers Handler.unserved).run (u.refused (.methodNotAllowed allowed)) =
          (.ok (.error (.methodNotAllowed allowed)), v) →
        (allowed.map Text.Utf8.encode).Pairwise (· < ·) ∧
          Headers.value? (Text.joined ", " allowed) =
            some (Text.Utf8.encode (Text.joined ", " allowed)) ∧
          ∀ made, d.errorHandler.answer v.context (.methodNotAllowed allowed) = .ok made →
            ∃ sent z, a.dispatch.run w = (.ok sent, z) ∧
              made.AllowAdded sent (Text.Utf8.encode (Text.joined ", " allowed)) := by
  refine ⟨fun r m hparse => ⟨?_, m.value?_text⟩, ?_⟩
  · exact RouteMethod.text_of_parse? (Registration.parse?_of_parseMethod hparse)
  intro d a hbuild w u v allowed hhooks hmismatch hpassed
  obtain ⟨-, htells⟩ := RouteTable.tells_of_told (Draft.consistent_table hbuild) hmismatch
  have hvalue := Headers.value?_joined fun text htext => by
    obtain ⟨own, hown, -⟩ := htells.served text htext
    exact ⟨own, hown⟩
  refine ⟨htells.ascending, hvalue, fun made hmade => ?_⟩
  have hhandle : a.handle.run w = (.ok (.error (.methodNotAllowed allowed)), v) := by
    rw [Draft.run_handle_of_refusal hbuild hhooks (congrArg Match.refusal? hmismatch)]
    exact hpassed
  rw [← Draft.errorHandler_eq hbuild] at hmade
  exact ⟨_, _, App.run_dispatch_of_failure hhandle hmade, made.allowAdded_withAllow hvalue⟩

def Draft.corners : Draft :=
  ((Draft.empty.wrap (Layer.ofScript Script.retry)).route "/"
    (RouteSpec.ofMethod "POST" Handler.unserved)).route "/"
      (RouteSpec.ofMethod "delete" Handler.unserved)

theorem allow_of_mismatch_corners :
    Headers.value? "DELETE" = some (Text.Utf8.encode "DELETE") ∧
      ∃ a, Draft.corners.build = .ok a ∧
        ∃ sent z, a.dispatch.run (World.start Request.forRoot) = (.ok sent, z) ∧
          sent.status = Status.methodNotAllowed ∧
            sent.headers.values "allow" = [Text.Utf8.encode "DELETE, POST"] := by
  constructor
  · exact (allow_of_mismatch.1 (Registration.plain "delete" "/")
      (.exact ⟨"DELETE", by decide +kernel⟩) (by decide +kernel)).2
  · have hresolved : (Draft.corners.build.toOption.map fun a =>
        a.table.resolve (Context.ofRequest Request.forRoot).host
          (Context.ofRequest Request.forRoot).method (Context.ofRequest Request.forRoot).path) =
        some (.methodMismatch ["DELETE", "POST"]) := by decide +kernel
    obtain ⟨a, hbuild, hmismatch⟩ := Draft.exists_build_of_toOption_map hresolved
    obtain ⟨-, -, hsends⟩ := allow_of_mismatch.2 _ _ hbuild (World.start Request.forRoot) _ _ _ rfl
      hmismatch rfl
    obtain ⟨sent, z, hdispatch, hadded⟩ := hsends _ rfl
    refine ⟨a, hbuild, sent, z, hdispatch, hadded.status, ?_⟩
    rw [hadded.allow]
    decide +kernel

/-! ## Every response with the status of a refused method -/

theorem Failure.isSome_allowValue? {f : Failure} :
    f.allowValue?.isSome = true ↔
      ∃ allowed, f = .methodNotAllowed allowed ∧
        (Headers.value? (Text.joined ", " allowed)).isSome = true := by
  cases f with
  | methodNotAllowed allowed =>
      constructor
      · exact fun hvalue => ⟨allowed, rfl, hvalue⟩
      · rintro ⟨_, ⟨⟩, hvalue⟩
        exact hvalue
  | _ => exact ⟨nofun, nofun⟩

/-- What makes the response of a dispatch: the chain, or the error handler for the failure of the
chain. -/
inductive App.Makes (a : App) (w : World) : Option Failure → Response → Prop where
  | chain {v : World} {made : Response} :
      a.handle.run w = (.ok (.ok made), v) → Makes a w none made
  | errorHandler {v : World} {failure : Failure} {made : Response} :
      a.handle.run w = (.ok (.error failure), v) →
        a.errorHandler.answer v.context failure = .ok made → Makes a w (some failure) made

theorem App.makes_of_dispatch {a : App} {w z : World} {sent : Response}
    (h : a.dispatch.run w = (.ok sent, z)) :
    a.Makes w none sent ∨
      ∃ failure made, a.Makes w (some failure) made ∧ sent = made.withAllow failure := by
  rw [run_dispatch] at h
  rcases hhandle : a.handle.run w with ⟨p | failure | made, v⟩
  · rw [hhandle] at h
    cases h
  · rw [hhandle] at h
    dsimp only at h
    rw [run_answerFailure] at h
    obtain ⟨hsent, -⟩ := Prod.mk.inj h
    cases hmade : a.errorHandler.answer v.context failure with
    | error p =>
        rw [hmade] at hsent
        cases hsent
    | ok made =>
        rw [hmade] at hsent
        cases hsent
        exact .inr ⟨failure, made, .errorHandler hhandle hmade, rfl⟩
  · rw [hhandle] at h
    cases h
    exact .inl (.chain hhandle)

theorem ErrorHandler.values_page_ne_nil (f : Failure) :
    (page f).headers.values "allow" ≠ [] ↔ f.allowValue?.isSome = true := by
  unfold page
  cases f.allowValue? with
  | none =>
      have hother : "content-type".toLower ≠ "allow".toLower := by decide +kernel
      simp [Response.plainText, Headers.insert, Headers.empty, Headers.values, hother]
  | some value => simp [Headers.values_insert]

theorem ErrorHandler.status_page (f : Failure) : (page f).status = f.statusOf := by
  unfold page
  cases f.allowValue? <;> rfl

/-- A dispatch changes nothing of the response that was made but the `Allow` field, which is there
exactly if it was there before or the request failed with a list of methods that can stand in it.
The standard error handler sets it for these failures only, whatever their status. -/
theorem allow_of_dispatch (a : App) (w : World) :
    (∀ sent z, a.dispatch.run w = (.ok sent, z) →
        ∃ failure? made, a.Makes w failure? made ∧ sent.status = made.status ∧
          sent.body = made.body ∧
          (sent.headers.values "allow" ≠ [] ↔ made.headers.values "allow" ≠ [] ∨
            ∃ allowed, failure? = some (.methodNotAllowed allowed) ∧
              (Headers.value? (Text.joined ", " allowed)).isSome = true)) ∧
      (a.errorHandler = ErrorHandler.standard → ∀ failure v,
        a.handle.run w = (.ok (.error failure), v) →
          ∃ sent z, a.dispatch.run w = (.ok sent, z) ∧ sent.status = failure.statusOf ∧
            (sent.headers.values "allow" ≠ [] ↔
              ∃ allowed, failure = .methodNotAllowed allowed ∧
                (Headers.value? (Text.joined ", " allowed)).isSome = true)) := by
  constructor
  · intro sent z hdispatch
    rcases App.makes_of_dispatch hdispatch with hchain | ⟨failure, made, hmakes, rfl⟩
    · exact ⟨none, sent, hchain, rfl, rfl, by simp⟩
    · refine ⟨some failure, made, hmakes, made.status_withAllow failure,
        made.body_withAllow failure, ?_⟩
      simp only [made.values_withAllow_ne_nil failure, Failure.isSome_allowValue?,
        Option.some.injEq]
  · intro hstandard failure v hfailed
    have hmade : a.errorHandler.answer v.context failure = .ok (ErrorHandler.page failure) := by
      rw [hstandard]
      rfl
    refine ⟨_, _, App.run_dispatch_of_failure hfailed hmade, ?_, ?_⟩
    · rw [Response.status_withAllow, ErrorHandler.status_page]
    · rw [Response.values_withAllow_ne_nil, ErrorHandler.values_page_ne_nil, or_self,
        Failure.isSome_allowValue?]

def Draft.choosy : Draft :=
  Draft.empty.route "/" (RouteSpec.ofMethod "GET" (.done (.error (.methodNotAllowed ["PUT"]))))

theorem allow_of_dispatch_choosy :
    ∃ a, Draft.choosy.build = .ok a ∧
      ∃ sent z, a.dispatch.run (World.start Request.forRoot) = (.ok sent, z) ∧
        sent.status = Status.methodNotAllowed ∧ sent.headers.values "allow" ≠ [] := by
  have hruns : (Draft.choosy.build.toOption.map fun a =>
      (a.handle.run (World.start Request.forRoot)).1) =
      some (.ok (.error (.methodNotAllowed ["PUT"]))) := by decide +kernel
  obtain ⟨a, hbuild, hfirst⟩ := Draft.exists_build_of_toOption_map hruns
  obtain ⟨sent, z, hdispatch, hstatus, hallow⟩ :=
    (allow_of_dispatch a (World.start Request.forRoot)).2 (Draft.errorHandler_eq hbuild) _ _
      (Prod.ext hfirst rfl)
  exact ⟨a, hbuild, sent, z, hdispatch, hstatus, hallow.mpr ⟨_, rfl, by decide +kernel⟩⟩

def Draft.evasive : Draft :=
  (Draft.empty.wrap (Layer.ofScript (Script.failAfter (.status ⟨405⟩ "no")))).route "/"
    (RouteSpec.ofMethod "POST" Handler.unserved)

/-- The status of a refused method does not always come with the `Allow` field. -/
theorem evasive_lacks_allow :
    ∃ a, Draft.evasive.build = .ok a ∧
      ∃ sent, (a.dispatch.run (World.start Request.forRoot)).1 = .ok sent ∧
        sent.status = Status.methodNotAllowed ∧ sent.headers.values "allow" = [] := by
  have hruns : (Draft.evasive.build.toOption.map fun a =>
      (a.dispatch.run (World.start Request.forRoot)).1) =
      some (.ok (ErrorHandler.page (.status ⟨405⟩ "no"))) := by decide +kernel
  obtain ⟨a, hbuild, hsent⟩ := Draft.exists_build_of_toOption_map hruns
  exact ⟨a, hbuild, _, hsent, by decide +kernel, by decide +kernel⟩

end HttpRouting
