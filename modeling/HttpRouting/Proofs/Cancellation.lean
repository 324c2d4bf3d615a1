import HttpRouting.Proofs.SharedLayers

/-!
# Cancellation goes inward

A layer that gives up cancels the token of the innermost timeout around what it drops.
Every token that was present inside is inside that one, so all of them are cancelled.
Numbers of tokens are given out once, so a token that was present outside that
timeout is not inside its token and stays as it was.  Nothing else cancels a token.
Where another layer drops a timeout, the token of that timeout stays behind, and an
enforced deadline around both may find it in place of its own.
-/

namespace HttpRouting

open Activity

/-- Neither enters nor leaves a scope, nor cancels a token. -/
def Action.KeepsTokens : Action → Prop
  | .scope _ _ | .cancel _ => False
  | _ => True

namespace Action

theorem KeepsTokens.keepsScope {action : Action} (h : action.KeepsTokens) :
    action.KeepsScope := by
  cases action with
  | scope => exact h.elim
  | _ => trivial

theorem KeepsTokens.cancelled_perform {action : Action} (h : action.KeepsTokens) (w : World) :
    (action.perform w).2.tokens.cancelled = w.tokens.cancelled := by
  cases action with
  | scope | cancel => exact h.elim
  | _ => rfl

theorem given_le_perform (action : Action) (w : World) :
    w.tokens.given ≤ (action.perform w).2.tokens.given := by
  cases action with
  | fork => exact Nat.le_succ _
  | _ => exact Nat.le_refl _

end Action

/-! ## Each timeout has a token of its own -/

namespace Activity

theorem Passes.given_le {α : Type} {p q : Activity α} {w v : World} (h : Passes p w q v) :
    w.tokens.given ≤ v.tokens.given := by
  induction h with
  | here => exact Nat.le_refl _
  | @later p q w v _ ih =>
      refine Nat.le_trans ?_ ih
      cases p with
      | done | panic | sleep => exact Nat.le_refl _
      | act action rest => exact action.given_le_perform w

theorem passes_call {α : Type} {frame : Handler → Activity α}
    (hact : ∀ action rest, frame (.act action rest) = .act action fun reply => frame (rest reply))
    {duration : Duration} {h : Handler} {w v : World} {q : Activity α}
    (hrange : (w.deadline? duration).isSome = true)
    (hpasses : Passes (frame (h.withTimeout duration)) w q v) :
    v = w ∨ w.tokens.given < v.tokens.given := by
  obtain ⟨next, hasks, hrest⟩ := withTimeout_asks duration h w
  obtain ⟨deadline, hdeadline⟩ := Option.isSome_iff_exists.mp hrange
  obtain ⟨rest, hfork⟩ := hrest.2 deadline hdeadline
  rw [hasks, clock_bind_eq, hact] at hpasses
  cases hpasses with
  | here => exact .inl rfl
  | later hpasses =>
      change Passes (frame (context.bind (next w.tick))) w q v at hpasses
      rw [context_bind_eq, hact] at hpasses
      cases hpasses with
      | here => exact .inl rfl
      | later hpasses =>
          change Passes (frame (next w.tick w.context)) w q v at hpasses
          rw [hfork, hact] at hpasses
          cases hpasses with
          | here => exact .inl rfl
          | later hpasses => exact .inr hpasses.given_le

variable {part : {α : Type} → Activity α → World → Prop} {α β : Type} {p : Activity α}
  {w v : World} {inside outside : List Enclosure}

theorem Begins.entry_unique {h h' : Handler} {duration duration' : Duration} {u u' : World}
    (hbegins : Begins part (h.withTimeout duration) u p w inside)
    (hrange : (u.deadline? duration).isSome = true)
    (hbegins' : Begins part (h'.withTimeout duration') u' p w outside)
    (hrange' : (u'.deadline? duration').isSome = true)
    (hgiven : u.tokens.given = u'.tokens.given) : u = u' := by
  obtain ⟨frame, hact, hpasses⟩ := hbegins.passes
  obtain ⟨frame', hact', hpasses'⟩ := hbegins'.passes
  rcases hpasses.ordered hpasses' with hlater | hlater
  · rcases passes_call hact hrange hlater with hsame | hlt
    · exact hsame.symm
    · omega
  · rcases passes_call hact' hrange' hlater with hsame | hlt
    · exact hsame
    · omega

end Activity

/-- Outside all timeouts, with a token whose numbers were all given out before. -/
structure World.Outermost (w : World) : Prop where
  free : w.context.deadline = none
  given : ∀ n ∈ w.context.token.lineage, n < w.tokens.given

theorem World.outermost_start (r : Request) : (World.start r).Outermost :=
  ⟨rfl, fun n hn => by obtain rfl := List.mem_singleton.mp hn; exact Nat.one_pos⟩

theorem Activity.Begins.number_not_mem {part : {α : Type} → Activity α → World → Prop} {α β : Type}
    {p : Activity α} {r : Activity β} {w v : World} {inside outside : List Enclosure}
    {e : Enclosure} {inner : Handler}
    (hpart : ∀ {γ : Type} (r : Activity γ) (u : World), part r u → r.KeepsScopeFrom u) (hw : w.Outermost)
    (hcall : Begins part (inner.withTimeout e.duration) e.entry p w inside)
    (hrange : (e.entry.deadline? e.duration).isSome = true)
    (houtside : Begins part r v p w outside) (hne : ∀ o ∈ outside, o.entry ≠ e.entry) :
    e.number ∉ v.context.token.lineage := by
  rw [(houtside.scope hpart).1, List.mem_append]
  rintro (hmem | hmem)
  · obtain ⟨o, ho, hnumber⟩ := List.mem_map.mp hmem
    obtain ⟨inner', enclosing, hcall', hrange', -⟩ := houtside.exists_call ho
    exact hne o ho (hcall'.entry_unique hrange' hcall hrange hnumber)
  · obtain ⟨_, -, hpasses⟩ := hcall.passes
    have hbefore := hw.given _ hmem
    exact Nat.lt_irrefl _ (Nat.lt_of_lt_of_le hbefore hpasses.given_le)

/-! ## What a layer that gives up cancels -/

/-- The token that a layer cancels when it gives up: a timeout the one that it gave out, an
enforced deadline the one that it finds after it has dropped what it bounds. -/
def Expiry.token (x : Expiry) : Token :=
  match x.opened with
  | [] => x.dropped.context.token
  | _ :: _ => x.start.context.token

namespace TokenLedger

theorem isCancelled_eq_true_iff {l : TokenLedger} {t : Token} :
    l.isCancelled t = true ↔ ∃ n ∈ t.lineage, n ∈ l.cancelled := by
  simp only [isCancelled, List.any_eq_true, List.contains_iff_mem]

end TokenLedger

namespace Expires

variable {layer : Handler} {u : World} {x : Expiry}

theorem lineage_start (hx : Expires layer u x) :
    x.start.context.token.lineage =
      x.opened.map Enclosure.number ++ u.context.token.lineage := by
  cases hx <;> rfl

theorem exists_call {part : {α : Type} → Activity α → World → Prop} {α : Type} {p : Activity α}
    {w : World} {inside : List Enclosure} (hx : Expires layer u x)
    (hbegins : Begins part layer u p w inside) {e : Enclosure} (he : e ∈ x.opened ++ inside) :
    ∃ (inner : Handler) (outside : List Enclosure),
      Begins part (inner.withTimeout e.duration) e.entry p w outside ∧
        (e.entry.deadline? e.duration).isSome = true := by
  rcases List.mem_append.mp he with hopened | hinside
  · cases hx with
    | @timeout h _ _ _ _ hdeadline =>
        obtain rfl := List.mem_singleton.mp hopened
        exact ⟨h, inside, hbegins, by rw [hdeadline]; rfl⟩
    | enforced => cases hopened
  · obtain ⟨inner, outside, hcall, hrange, -⟩ := hbegins.exists_call hinside
    exact ⟨inner, outside, hcall, hrange⟩

theorem run_tokens (hx : Expires layer u x) :
    (layer.run u).2.tokens = x.dropped.tokens.cancel x.token := by
  cases hx with
  | timeout hdeadline hdropped =>
      rw [Handler.run_withTimeout hdeadline, hdropped]
      rfl
  | enforced hdeadline hdropped =>
      rw [Handler.run_withDeadline hdeadline, hdropped]
      rfl

theorem isCancelled_start (hx : Expires layer u x) (hopened : x.opened ≠ []) :
    (layer.run u).2.tokens.isCancelled x.start.context.token = true := by
  have htoken : x.token = x.start.context.token := by
    unfold Expiry.token
    cases hall : x.opened with
    | nil => exact absurd hall hopened
    | cons e rest => rfl
  rw [hx.run_tokens, htoken, TokenLedger.isCancelled_eq_true_iff]
  exact ⟨_, List.mem_cons_self, List.mem_cons_self⟩

theorem all_cancelled_iff (hinner : x.inner.Composed Plain) {reported : World} :
    (∀ q v, Passes (x.inner.withinTick x.deadline.due.tick) x.start q v →
        reported.tokens.isCancelled v.context.token = true) ↔
      reported.tokens.isCancelled x.start.context.token = true := by
  constructor
  · exact fun hall => hall _ _ (.here _ _)
  · intro hstart q v hpasses
    obtain ⟨n, hn, hcancelled⟩ := TokenLedger.isCancelled_eq_true_iff.mp hstart
    have hlineage := (hinner.within x.deadline.due.tick).along_lineage x.start q v hpasses
    exact TokenLedger.isCancelled_eq_true_iff.mpr ⟨n, hlineage.subset hn, hcancelled⟩

theorem run_eq (hx : Expires layer u x) (hkeeps : x.inner.KeepsScopeFrom x.start) :
    layer.run u =
      (.ok (.error (.timeout x.deadline.after)),
        (x.dropped.rescoped u.context).expired x.start.context.token x.deadline.after) := by
  cases hx with
  | timeout hdeadline hdropped => rw [Handler.run_withTimeout hdeadline, hdropped]
  | @enforced h u v deadline hdeadline hdropped =>
      have hsame := hkeeps.dropped _ deadline v hdeadline (Nat.le_refl _) hdropped
      have hback : v.rescoped u.context = v := by
        rw [World.rescoped, ← hsame.token, ← hsame.deadline]
      rw [Handler.run_withDeadline hdeadline, hdropped]
      simp only [hback, hsame.token]

variable {part : {α : Type} → Activity α → World → Prop}
  (hpart : ∀ {γ : Type} (r : Activity γ) (u : World), part r u → r.KeepsScopeFrom u)
  {α : Type} {p : Activity α} {w : World} {inside : List Enclosure}

include hpart

theorem exists_innermost (hx : Expires layer u x) (hbegins : Begins part layer u p w inside)
    (hfree : w.context.deadline = none) : ∃ e enclosing, x.opened ++ inside = e :: enclosing := by
  have hforce := hx.inForce_start
  rw [(hbegins.scope hpart).2, hfree, ← Enclosure.inForce_append] at hforce
  cases hall : x.opened ++ inside with
  | nil =>
      rw [hall] at hforce
      cases hforce
  | cons e enclosing => exact ⟨e, enclosing, rfl⟩

theorem own_start (hx : Expires layer u x) (hbegins : Begins part layer u p w inside)
    {e : Enclosure} {enclosing : List Enclosure} (hall : x.opened ++ inside = e :: enclosing) :
    x.start.context.token.own = e.number := by
  have hlineage := hx.lineage_start
  rw [(hbegins.scope hpart).1, ← List.append_assoc, ← List.map_append, hall] at hlineage
  exact (List.cons.inj hlineage).1

end Expires

theorem Activity.Calm.along_lineage {h : Handler} {w : World}
    (hh : h.Calm Action.KeepsScope w) (bound : Nat) :
    Along (fun v => w.context.token.lineage <:+ v.context.token.lineage)
      (h.withinTick bound) w := by
  have hcovered : Along (fun v => ∃ inside, Covered Action.KeepsScope h w inside v)
      (h.withinTick bound) w := by
    refine along_withinTick lasting_covered.later ?_
    exact (hh.along_covered fun _ haction => haction).mono fun _ hv _ => hv
  refine hcovered.mono ?_
  rintro v ⟨inside, γ, r, u, hbegins, hsame, -⟩
  rw [hsame.token, (hbegins.scope fun _ _ hr => hr.keepsScopeFrom).1]
  exact List.suffix_append _ _

/-! ## Nothing else cancels -/

namespace Activity

variable {α : Type} {p : Activity α} {w : World}

theorem Uses.cancelled_run (hp : p.Uses Action.KeepsTokens) (w : World) :
    (p.run w).2.tokens.cancelled = w.tokens.cancelled := by
  induction p generalizing w with
  | done | panic => rfl
  | sleep tick rest ih => exact ih hp _
  | act action rest ih => exact (ih _ (hp.2 _) _).trans (hp.1.cancelled_perform w)

theorem Calm.cancelled_run (hp : p.Calm Action.KeepsTokens w)
    (hnone : ∀ inside layer u x, Begins (Calm Action.KeepsTokens) layer u p w inside →
      ¬ Expires layer u x) :
    (p.run w).2.tokens.cancelled = w.tokens.cancelled := by
  induction hp with
  | plain hp => exact hp.cancelled_run _
  | @bind _ _ p next w hfirst _ ihfirst ihnext =>
      have hcancelled := ihfirst fun inside layer u x hbegins =>
        hnone inside layer u x hbegins.first
      rw [run_bind]
      rcases hrun : p.run w with ⟨_ | value, u⟩ <;> rw [hrun] at hcancelled
      · exact hcancelled
      · refine (ihnext value u hrun ?_).trans hcancelled
        exact fun inside layer u' x hbegins =>
          hnone inside layer u' x (.rest hfirst hrun hbegins)
  | @timeout h duration w hh ih =>
      cases hdeadline : w.deadline? duration with
      | none => rw [Handler.run_withTimeout_none hdeadline]
      | some deadline =>
          rcases Nat.lt_or_ge (max w.tick deadline.due.tick) (h.run (w.entered deadline)).2.tick
            with hlate | hends
          · obtain ⟨_, _, _, -, -, -, hdropped⟩ :=
              run_withinTick_of_lt (w := w.entered deadline) hlate
            exact absurd (.timeout hdeadline hdropped) (hnone _ _ _ _ .here)
          · have hcancelled := ih deadline hdeadline fun inside layer u x hbegins =>
              hnone _ layer u x
                (.timeout hdeadline hbegins (Nat.le_trans hbegins.tick_le_run hends))
            rw [Handler.run_withTimeout hdeadline,
              run_withinTick_of_le (w := w.entered deadline) hends]
            rcases hrun : h.run (w.entered deadline) with ⟨_ | _, v⟩ <;>
              rw [hrun] at hcancelled <;> exact hcancelled
  | @enforced h w hh ih =>
      cases hdeadline : w.context.deadline with
      | none =>
          rw [Handler.run_withDeadline_none hdeadline]
          exact ih fun inside layer u x hbegins =>
            hnone inside layer u x (.enforced hbegins (by simp [hdeadline]))
      | some deadline =>
          rcases Nat.lt_or_ge (max w.tick deadline.due.tick) (h.run w).2.tick with hlate | hends
          · obtain ⟨_, _, _, -, -, -, hdropped⟩ := run_withinTick_of_lt hlate
            exact absurd (.enforced hdeadline hdropped) (hnone _ _ _ _ .here)
          · have hcancelled := ih fun inside layer u x hbegins => by
              refine hnone inside layer u x (.enforced hbegins fun other hother => ?_)
              obtain rfl := Option.some.inj (hdeadline.symm.trans hother)
              exact Nat.le_trans hbegins.tick_le_run hends
            rw [Handler.run_withDeadline hdeadline, run_withinTick_of_le hends]
            rcases hrun : h.run w with ⟨_ | _, v⟩ <;> rw [hrun] at hcancelled <;> exact hcancelled
  | caught _ _ ih =>
      rw [run_contained]
      exact ih fun inside layer u x hbegins => hnone inside layer u x (.caught hbegins)
  | within _ hends ih =>
      rw [run_withinTick_of_le hends]
      exact ih fun inside layer u x hbegins => hnone inside layer u x (.within hbegins hends)

end Activity

/-- What the report of a layer that gives up cancels: every token that was present in what
it drops, and none that is present outside the innermost timeout around that.  A timeout
is known by the world in which it is called. -/
structure Expiry.CancelsInward {α : Type} (x : Expiry) (inside : List Enclosure)
    (p : Activity α) (w reported : World) : Prop where
  inner : ∀ q v, Passes (x.inner.withinTick x.deadline.due.tick) x.start q v →
    reported.tokens.isCancelled v.context.token = true
  outer : ∃ e enclosing, x.opened ++ inside = e :: enclosing ∧
    ∀ (outside : List Enclosure) (v : World), Covered Action.KeepsTokens p w outside v →
      (∀ o ∈ outside, o.entry ≠ e.entry) →
        reported.tokens.isCancelled v.context.token =
          x.dropped.tokens.isCancelled v.context.token

theorem Expires.cancelsInward {layer : Handler} {u : World} {x : Expiry} {α : Type}
    {p : Activity α} {w : World} {inside : List Enclosure} (hx : Expires layer u x)
    (hbegins : Begins (Calm Action.KeepsTokens) layer u p w inside)
    (hinner : x.inner.Calm Action.KeepsTokens x.start) (hw : w.Outermost) :
    x.CancelsInward inside p w
      ((x.dropped.rescoped u.context).expired x.start.context.token x.deadline.after) := by
  have hpart : ∀ {γ : Type} (r : Activity γ) (u : World),
      r.Calm Action.KeepsTokens u → r.KeepsScopeFrom u :=
    fun _ _ hr => (hr.mono fun _ haction => haction.keepsScope).keepsScopeFrom
  constructor
  · intro q v hpasses
    have hlineage : x.start.context.token.lineage <:+ v.context.token.lineage :=
      (hinner.mono fun _ haction => haction.keepsScope).along_lineage _ q v hpasses
    have hown : x.start.context.token.own ∈ v.context.token.lineage :=
      hlineage.subset List.mem_cons_self
    simp only [World.expired, TokenLedger.isCancelled_cancel, List.contains_iff_mem.mpr hown,
      Bool.true_or]
  · obtain ⟨e, enclosing, hall⟩ := hx.exists_innermost hpart hbegins hw.free
    refine ⟨e, enclosing, hall, ?_⟩
    rintro outside v ⟨β, r, u', hbegins', hsame, -⟩ hne
    have hown := hx.own_start hpart hbegins hall
    obtain ⟨inner, around, hcall, hrange⟩ := hx.exists_call hbegins (hall ▸ List.mem_cons_self)
    have habsent : e.number ∉ v.context.token.lineage := by
      rw [hsame.token]
      exact hcall.number_not_mem hpart hw hrange hbegins' hne
    simp only [World.expired, World.rescoped, TokenLedger.isCancelled_cancel, hown,
      List.contains_eq_mem, habsent, decide_false, Bool.false_or]

/-- In a run in which no panic is caught, nothing is dropped but by the deadlines of the library
and only layers that give up cancel tokens, every token that is present is that of some
part of the run.  A layer that gives up cancels the tokens inside it, and where none gives
up none is cancelled.  In every run, a timeout that gives up cancels the tokens inside it.  An
enforced deadline cancels the token that it finds when it has dropped what it bounds, and
so all the tokens inside it only if that cancels the one with which it was called. -/
theorem cancelled_inward {α : Type} {p : Activity α} {w : World}
    (hp : p.Calm Action.KeepsTokens w) (hw : w.Outermost) :
    Along (fun v => ∃ inside, Covered Action.KeepsTokens p w inside v) p w ∧
      (∀ (inside : List Enclosure) (layer : Handler) (u : World) (x : Expiry),
        Begins (Calm Action.KeepsTokens) layer u p w inside → Expires layer u x →
        x.inner.Calm Action.KeepsTokens x.start →
          ∃ z, layer.run u = (.ok (.error (.timeout x.deadline.after)), z) ∧
            x.CancelsInward inside p w z) ∧
      ((∀ (inside : List Enclosure) (layer : Handler) (u : World) (x : Expiry),
          Begins (Calm Action.KeepsTokens) layer u p w inside → ¬ Expires layer u x) →
        (p.run w).2.tokens.cancelled = w.tokens.cancelled) ∧
      ∀ (layer : Handler) (u : World) (x : Expiry), Expires layer u x → x.inner.Composed Plain →
        ∃ z, layer.run u = (.ok (.error (.timeout x.deadline.after)), z) ∧
          z.tokens = x.dropped.tokens.cancel x.token ∧
          ((∀ q v, Passes (x.inner.withinTick x.deadline.due.tick) x.start q v →
              z.tokens.isCancelled v.context.token = true) ↔
            z.tokens.isCancelled x.start.context.token = true) ∧
          (x.opened ≠ [] → z.tokens.isCancelled x.start.context.token = true) := by
  refine ⟨hp.along_covered fun _ haction => haction.keepsScope, ?_, hp.cancelled_run, ?_⟩
  · intro inside layer u x hbegins hexpires hinner
    have hkeeps := (hinner.mono fun _ haction => haction.keepsScope).keepsScopeFrom
    exact ⟨_, hexpires.run_eq hkeeps, hexpires.cancelsInward hbegins hinner hw⟩
  · intro layer u x hexpires hinner
    exact ⟨_, Prod.ext hexpires.run_fst rfl, hexpires.run_tokens,
      Expires.all_cancelled_iff hinner, hexpires.isCancelled_start⟩

theorem cancelled_inward_nested :
    ∃ (u v : World) (x : Expiry) (z : World), Expires Handler.overdue v x ∧
      Handler.overdue.run v = (.ok (.error (.timeout (Duration.ofMillis 50))), z) ∧
      z.tokens.isCancelled v.context.token = true ∧
      z.tokens.isCancelled u.context.token = x.dropped.tokens.isCancelled u.context.token := by
  obtain ⟨u, v, x, hnested, hinner, hcall, hbegins, hexpires, htick, hopened, hstart, hdeadline⟩ :=
    Handler.nested_expires Action.KeepsTokens trivial trivial fun _ => trivial
  obtain ⟨z, hrun, hinside, e, enclosing, hall, houtside⟩ :=
    (cancelled_inward hnested (World.outermost_start _)).2.1 _ _ _ _ hbegins hexpires hinner
  rw [hdeadline] at hrun
  rw [hopened, List.nil_append] at hall
  obtain ⟨rfl, rfl⟩ := List.cons.inj hall
  have hne : World.start Request.forRoot ≠ u := by
    rintro rfl
    cases htick
  refine ⟨u, v, x, z, hexpires, hrun, hstart ▸ hinside _ _ (.here _ _), ?_⟩
  refine houtside _ u ⟨_, _, u, hcall, .refl u, Nat.le_refl _⟩ fun o ho => ?_
  obtain rfl := List.mem_singleton.mp ho
  exact hne

/-! ## A layer that drops what it calls -/

def Layer.impatient (patience linger : Nat) : Layer where
  decorate := fun h => do
    let now ← Activity.clock
    let result ← Activity.withinTick (now + patience) h
    match result with
    | some outcome => return outcome
    | none =>
        Activity.sleepFor linger
        return .error .notFound

def Activity.LeavesTokens {α : Type} (p : Activity α) : Prop := p.Uses Action.KeepsTokens

theorem Layer.composed_impatient {h : Handler} (hh : h.Composed LeavesTokens)
    (patience linger : Nat) : ((impatient patience linger).decorate h).Composed LeavesTokens := by
  have hclock : Composed LeavesTokens Activity.clock := .leaf ⟨trivial, fun _ => trivial⟩
  refine .bind hclock fun now => .bind (.within _ hh) fun result => .leaf ?_
  cases result with
  | some outcome => trivial
  | none => exact ⟨trivial, fun _ => trivial⟩

def Handler.abandoned : Handler :=
  Layer.around [Layer.impatient 10 200, Layer.timeout (Duration.ofMillis 100)]
    ((Script.stall 200).around (.done (.error .notFound)))

def Draft.abandoning : Draft :=
  (Draft.empty.wrap (Layer.chain [])).route "/"
    ((((RouteSpec.ofMethod "GET" ((Script.stall 200).around (.done (.error .notFound)))).withTimeout
      (Duration.ofMillis 50)).wrap (Layer.impatient 10 200)).wrap
        (Layer.timeout (Duration.ofMillis 100)))

theorem Draft.chains_abandoning :
    ∃ a, abandoning.build = .ok a ∧
      a.chains = [Handler.abandoned.withDeadline.withTimeout (Duration.ofMillis 50)] := by
  let h : Handler := (Script.stall 200).around (.done (.error .notFound))
  let layers := [Layer.impatient 10 200, Layer.timeout (Duration.ofMillis 100)]
  let r : Registration := ⟨"GET", none, "/", h,
    { RouteOptions.none with timeout := some (Duration.ofMillis 50), layers := layers }⟩
  let route : Route := ⟨⟨0⟩, .exact Method.get, .any, "/", [], none, layers,
    some (Duration.ofMillis 50), h⟩
  have hyields : r.Yields route := by
    refine ⟨rfl, ?_, by decide +kernel, rfl, rfl, rfl, rfl, rfl⟩
    decide +kernel
  have honly : abandoning.registrations = [r] := rfl
  obtain ⟨a, hbuild, htable⟩ := Draft.build_of_yields honly hyields
  refine ⟨a, hbuild, ?_⟩
  have hshared : abandoning.layers ≠ [] := List.cons_ne_nil _ _
  have htimeout : route.timeout = some (Duration.ofMillis 50) := rfl
  have halone : ∀ inner : Handler, Layer.around abandoning.layers inner = inner := fun _ => rfl
  rw [chains_eq hbuild, htable, RouteTable.routes_registered_singleton hyields, List.map_singleton,
    chainOf_shared hshared htimeout, halone, Route.bounded, Handler.abandoned]

theorem Handler.composed_abandoned : abandoned.Composed LeavesTokens := by
  have hstall : Composed LeavesTokens ((Script.stall 200).around (.done (.error .notFound))) := by
    rw [Script.around_stall]
    exact .bind (.leaf ⟨trivial, fun _ => trivial⟩) fun _ => .leaf trivial
  rw [abandoned, Layer.around_cons, Layer.around_cons, Layer.decorate_timeout]
  exact Layer.composed_impatient (hstall.timeout _) 10 200

/-- The enforced deadline of the fifty ticks finds the token of the timeout that was dropped, and
leaves the one with which it was called.  Nothing panics, and no layer cancels a token itself. -/
theorem abandoned_scope_not_cancelled :
    ∃ (a : App) (u z : World) (x : Expiry), Draft.abandoning.build = .ok a ∧
      a.chains = [Handler.abandoned.withDeadline.withTimeout (Duration.ofMillis 50)] ∧
      (a.handle.run (World.start Request.forRoot)).1 =
        .ok (.error (.timeout (Duration.ofMillis 50))) ∧
      Handler.abandoned.Composed LeavesTokens ∧ u = (World.start Request.forRoot).entered x.deadline ∧
      Expires Handler.abandoned.withDeadline u x ∧
      Handler.abandoned.withDeadline.run u = (.ok (.error (.timeout x.deadline.after)), z) ∧
      z.tokens.isCancelled u.context.token = false := by
  obtain ⟨a, hbuild, hchains⟩ := Draft.chains_abandoning
  have hresult : (Draft.abandoning.build.toOption.map fun a =>
      (a.handle.run (World.start Request.forRoot)).1) =
      some (.ok (.error (.timeout (Duration.ofMillis 50)))) := by decide +kernel
  rw [hbuild] at hresult
  let deadline : Deadline := ⟨⟨50000000⟩, Duration.ofMillis 50⟩
  let u := (World.start Request.forRoot).entered deadline
  have hlate : max u.tick deadline.due.tick < (Handler.abandoned.run u).2.tick := by
    decide +kernel
  obtain ⟨_, _, _, -, -, -, hdropped⟩ := run_withinTick_of_lt hlate
  have hexpires : Expires Handler.abandoned.withDeadline u _ := .enforced rfl hdropped
  have hkept : (Handler.abandoned.withDeadline.run u).2.tokens.isCancelled u.context.token =
      false := by decide +kernel
  have hreport := hexpires.run_fst
  rcases hrun : Handler.abandoned.withDeadline.run u with ⟨report, z⟩
  rw [hrun] at hreport hkept
  obtain rfl : report = .ok (.error (.timeout deadline.after)) := hreport
  exact ⟨a, u, z, _, hbuild, hchains, Option.some.inj hresult, Handler.composed_abandoned, rfl,
    hexpires, hrun, hkept⟩

end HttpRouting
