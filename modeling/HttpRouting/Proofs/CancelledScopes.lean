import HttpRouting.Proofs.Cancellation

/-!
# Which tokens are cancelled in the end

A layer that gives up cancels the token of the innermost timeout around what it drops, and a
cancelled token stays cancelled.  So a token is cancelled at the end of a run if a layer gave up
inside a timeout that was under way while the token was present, and only then.  Which deadline
had passed makes no difference: a timeout that takes over the deadline of one around it still
cancels only its own token.
-/

namespace HttpRouting

open Activity

/-! ## Cancelled tokens stay cancelled -/

theorem Action.cancelled_subset_perform (action : Action) (w : World) :
    w.tokens.cancelled ⊆ (action.perform w).2.tokens.cancelled := by
  cases action with
  | cancel token => exact List.subset_cons_self _ _
  | _ => exact List.Subset.refl _

theorem Activity.cancelled_subset_run {α : Type} (p : Activity α) (w : World) :
    w.tokens.cancelled ⊆ (p.run w).2.tokens.cancelled := by
  induction p generalizing w with
  | done | panic => exact List.Subset.refl _
  | sleep tick rest ih => exact ih { w with tick := max w.tick tick }
  | act action rest ih => exact List.Subset.trans (action.cancelled_subset_perform w) (ih _ _)

/-! ## Layers that give up -/

namespace Expires

variable {layer : Handler} {u : World} {x : Expiry} {allowed : Action → Prop}

theorem calm (hx : Expires layer u x) (hinner : x.inner.Calm allowed x.start) :
    layer.Calm allowed u := by
  cases hx with
  | timeout hdeadline _ =>
      refine .timeout fun other hother => ?_
      obtain rfl := Option.some.inj (hdeadline.symm.trans hother)
      exact hinner
  | enforced => exact .enforced hinner

theorem prompt (hx : Expires layer u x) {bound : Nat} (hu : u.DueBy bound) :
    (layer.run u).2.tick ≤ max u.tick bound := by
  obtain ⟨outer, houter, hdue⟩ := hu
  cases hx with
  | @timeout h _ _ _ _ hdeadline _ =>
      have htick := Handler.tick_run_withTimeout_le hdeadline h
      have htighter := World.due_deadline?_le hdeadline houter
      omega
  | @enforced h _ _ _ _ _ =>
      have htick := Handler.tick_run_withDeadline_le houter h
      omega

theorem tick_le (hx : Expires layer u x) : u.tick ≤ x.dropped.tick := by
  cases hx with
  | @timeout h _ _ _ deadline _ hdropped =>
      have htick := tick_le_run (h.withinTick deadline.due.tick) (u.entered deadline)
      rwa [hdropped] at htick
  | @enforced h _ _ deadline _ hdropped =>
      have htick := tick_le_run (h.withinTick deadline.due.tick) u
      rwa [hdropped] at htick

end Expires

namespace Activity

def GivesUp (allowed : Action → Prop) {α : Type} (p : Activity α) (w : World) (bound number : Nat) :
    Prop :=
  ∃ (inside : List Enclosure) (layer : Handler) (u : World) (x : Expiry),
    Begins (Calm allowed) layer u p w inside ∧ Expires layer u x ∧
      x.inner.Calm allowed x.start ∧ x.start.context.token.own = number ∧ u.tick ≤ bound

/-- Whether a layer gives up during a run, and the innermost timeout around what it drops is
one of the given ones.  A timeout is known by the world in which it is called. -/
def GivesUpIn (allowed : Action → Prop) {α : Type} (p : Activity α) (w : World)
    (outside : List Enclosure) : Prop :=
  ∃ (inside : List Enclosure) (layer : Handler) (u : World) (x : Expiry),
    Begins (Calm allowed) layer u p w inside ∧ Expires layer u x ∧
      x.inner.Calm allowed x.start ∧
        ∃ e enclosing, x.opened ++ inside = e :: enclosing ∧ ∃ o ∈ outside, o.entry = e.entry

variable {allowed : Action → Prop} {α β : Type} {p : Activity α} {w v : World}

theorem Begins.own_mem_cancelled (hallowed : ∀ action, allowed action → action.KeepsScope)
    {layer : Handler} {x : Expiry} {inside : List Enclosure}
    (hbegins : Begins (Calm allowed) layer v p w inside) (hx : Expires layer v x)
    (hinner : x.inner.Calm allowed x.start) :
    x.start.context.token.own ∈ (p.run w).2.tokens.cancelled := by
  have hpart : ∀ {γ : Type} (r : Activity γ) (u : World), r.Calm allowed u → r.ReturnsDue u :=
    fun _ _ hr => (hr.mono hallowed).keepsScopeFrom.returnsDue
  have hreport := hx.run_eq (hinner.mono hallowed).keepsScopeFrom
  have hrest : Begins (Calm allowed) (.done (.error (.timeout x.deadline.after)) : Handler) _
      (layer.bind .done) v [] := .rest (hx.calm hinner) hreport .here
  rw [bind_done] at hrest
  have hprompt : ∀ bound, v.DueBy bound →
      ((x.dropped.rescoped v.context).expired x.start.context.token x.deadline.after).tick ≤
        max v.tick bound := by
    intro bound hv
    have htick := hx.prompt hv
    rwa [hreport] at htick
  obtain ⟨frame, -, hpasses⟩ := (hbegins.trans hpart hrest hprompt).passes
  rw [hpasses.run_eq]
  exact cancelled_subset_run _ _ List.mem_cons_self

theorem GivesUp.mono {bound later number : Nat} (hle : bound ≤ later)
    (h : p.GivesUp allowed w bound number) : p.GivesUp allowed w later number := by
  obtain ⟨inside, layer, u, x, hbegins, hx, hinner, hnumber, htick⟩ := h
  exact ⟨inside, layer, u, x, hbegins, hx, hinner, hnumber, Nat.le_trans htick hle⟩

/-- Whether every token that is cancelled was so at the start of a run or is that of a layer
that has given up since. -/
def Accounted (allowed : Action → Prop) (p : Activity α) (w v : World) : Prop :=
  ∀ n ∈ v.tokens.cancelled, n ∈ w.tokens.cancelled ∨ p.GivesUp allowed w v.tick n

theorem accounted_start : Accounted allowed p w w := fun _ hn => .inl hn

theorem Accounted.later {tick : Nat} (h : Accounted allowed p w v) (htick : v.tick ≤ tick) :
    Accounted allowed p w { v with tick := tick } :=
  fun n hn => (h n hn).imp_right (GivesUp.mono htick)

theorem Uses.along_accounted {r : Activity β} {u : World} (hr : r.Uses Action.KeepsTokens)
    (hu : Accounted allowed p w u) : Along (Accounted allowed p w) r u := by
  refine hr.along (fun v tick hv htick => hv.later htick) ?_ hu
  intro action v haction hv n hn
  rw [haction.cancelled_perform] at hn
  rw [tick_perform]
  exact hv n hn

theorem along_expire_accounted {token : Token} {after : Duration}
    (hv : Accounted allowed p w v) (htoken : p.GivesUp allowed w v.tick token.own) :
    Along (Accounted allowed p w) (Handler.expire token after) v := by
  refine along_act_iff.mpr ⟨hv, Uses.along_accounted ?_ ?_⟩
  · exact ⟨trivial, fun _ => ⟨trivial, fun _ => trivial⟩⟩
  · intro n hn
    rcases List.mem_cons.mp hn with rfl | hn
    · exact .inr htoken
    · exact hv n hn

theorem Accounted.of_part {r : Activity β} {u : World} (hr : Accounted allowed r u v)
    (hu : ∀ n ∈ u.tokens.cancelled, n ∈ w.tokens.cancelled ∨ p.GivesUp allowed w v.tick n)
    (hbegins : ∀ (inside : List Enclosure) (layer : Handler) (z : World),
      Begins (Calm allowed) layer z r u inside → z.tick ≤ v.tick →
        ∃ outside, Begins (Calm allowed) layer z p w outside) :
    Accounted allowed p w v := by
  intro n hn
  rcases hr n hn with hbefore | ⟨inside, layer, z, x, hlayer, hx, hinner, hnumber, htick⟩
  · exact hu n hbefore
  · obtain ⟨outside, hlayer⟩ := hbegins inside layer z hlayer htick
    exact .inr ⟨outside, layer, z, x, hlayer, hx, hinner, hnumber, htick⟩

theorem Calm.along_accounted (hp : p.Calm Action.KeepsTokens w) :
    Along (Accounted Action.KeepsTokens p w) p w := by
  induction hp with
  | plain hp => exact hp.along_accounted accounted_start
  | @bind _ _ p next w hfirst _ ihfirst ihnext =>
      refine along_bind (ihfirst.mono fun v hv => ?_) fun value u hrun r v hpasses => ?_
      · exact hv.of_part (fun _ hn => .inl hn) fun _ _ _ hbegins _ => ⟨_, hbegins.first⟩
      · have hends := ihfirst.of_run hrun
        refine (ihnext value u hrun r v hpasses).of_part (fun n hn => ?_)
          fun _ _ _ hbegins _ => ⟨_, .rest hfirst hrun hbegins⟩
        rcases hends n hn with hbefore | ⟨_, _, _, _, hbegins, hx, hinner, hnumber, htick⟩
        · exact .inl hbefore
        · exact .inr ⟨_, _, _, _, hbegins.first, hx, hinner, hnumber,
            Nat.le_trans htick hpasses.tick_le⟩
  | @timeout h duration w hh ih =>
      refine along_withTimeout_of_expire (fun v tick hv htick => hv.later htick) accounted_start
        (fun _ hn => .inl hn) (fun deadline hdeadline => ?_) (fun v hv _ => hv) ?_
      · refine (ih deadline hdeadline).mono fun v hv hbound => hv.of_part (fun _ hn => .inl hn) ?_
        intro _ _ _ hbegins htick
        exact ⟨_, .timeout hdeadline hbegins (Nat.le_trans htick hbound)⟩
      · intro deadline v hdeadline hdropped hleft
        have hx : Expires (h.withTimeout duration) w _ := .timeout hdeadline hdropped
        exact along_expire_accounted hleft
          ⟨[], _, w, _, .here, hx, hh deadline hdeadline, rfl, hx.tick_le⟩
  | @enforced h w hh ih =>
      refine along_withDeadline_of_expire (fun v tick hv htick => hv.later htick) accounted_start
        (fun hdeadline => ih.mono fun v hv => ?_) (fun deadline hdeadline => ?_) ?_
      · exact hv.of_part (fun _ hn => .inl hn) fun _ _ _ hbegins _ =>
          ⟨_, .enforced hbegins (by simp [hdeadline])⟩
      · refine ih.mono fun v hv hbound => hv.of_part (fun _ hn => .inl hn) ?_
        intro _ _ _ hbegins htick
        refine ⟨_, .enforced hbegins fun other hother => ?_⟩
        obtain rfl := Option.some.inj (hdeadline.symm.trans hother)
        exact Nat.le_trans htick hbound
      · intro deadline v hdeadline hdropped hends
        have hkeeps := (hh.mono fun _ haction => haction.keepsScope).keepsScopeFrom
        have hsame := hkeeps.dropped _ deadline v hdeadline (Nat.le_refl _) hdropped
        have hx : Expires h.withDeadline w _ := .enforced hdeadline hdropped
        exact along_expire_accounted hends
          ⟨[], _, w, _, .here, hx, hh, congrArg Token.own hsame.token.symm, hx.tick_le⟩
  | caught _ _ ih =>
      refine along_contained (ih.mono fun v hv => ?_)
      exact hv.of_part (fun _ hn => .inl hn) fun _ _ _ hbegins _ => ⟨_, .caught hbegins⟩
  | within _ hends ih =>
      refine along_withinTick (fun v tick hv htick => hv.later htick) (ih.mono fun v hv _ => ?_)
      exact hv.of_part (fun _ hn => .inl hn) fun _ _ _ hbegins _ => ⟨_, .within hbegins hends⟩

theorem Covered.isCancelled_of_givesUpIn
    (hallowed : ∀ action, allowed action → action.KeepsScope) {outside : List Enclosure}
    (hcovered : Covered allowed p w outside v) (hgives : p.GivesUpIn allowed w outside) :
    (p.run w).2.tokens.isCancelled v.context.token = true := by
  obtain ⟨inside, layer, u, x, hbegins, hx, hinner, e, enclosing, hall, o, ho, hentry⟩ := hgives
  obtain ⟨γ, r, z, hr, hsame, -⟩ := hcovered
  have hpart : ∀ {γ : Type} (r : Activity γ) (u : World), r.Calm allowed u → r.KeepsScopeFrom u :=
    fun _ _ hr => (hr.mono hallowed).keepsScopeFrom
  have hown := hx.own_start hpart hbegins hall
  have hnumber : o.number = e.number := congrArg (fun entry => entry.tokens.given) hentry
  refine TokenLedger.isCancelled_eq_true_iff.mpr
    ⟨e.number, ?_, hown ▸ hbegins.own_mem_cancelled hallowed hx hinner⟩
  rw [hsame.token, (hr.scope hpart).1, ← hnumber]
  exact List.mem_append_left _ (List.mem_map_of_mem ho)

theorem Covered.givesUpIn_of_isCancelled (hp : p.Calm Action.KeepsTokens w) (hw : w.Outermost)
    (hnone : w.tokens.cancelled = []) {outside : List Enclosure}
    (hcovered : Covered Action.KeepsTokens p w outside v)
    (hcancelled : (p.run w).2.tokens.isCancelled v.context.token = true) :
    p.GivesUpIn Action.KeepsTokens w outside := by
  have hpart : ∀ {γ : Type} (r : Activity γ) (u : World),
      r.Calm Action.KeepsTokens u → r.KeepsScopeFrom u :=
    fun _ _ hr => (hr.mono fun _ haction => haction.keepsScope).keepsScopeFrom
  obtain ⟨n, hn, hmem⟩ := TokenLedger.isCancelled_eq_true_iff.mp hcancelled
  obtain ⟨γ, r, z, hr, hsame, -⟩ := hcovered
  rcases hp.along_accounted.run n hmem with
    hbefore | ⟨inside, layer, u, x, hbegins, hx, hinner, hnumber, -⟩
  · rw [hnone] at hbefore
    cases hbefore
  · obtain ⟨e, enclosing, hall⟩ := hx.exists_innermost hpart hbegins hw.free
    refine ⟨inside, layer, u, x, hbegins, hx, hinner, e, enclosing, hall, ?_⟩
    obtain ⟨inner, around, hcall, hrange⟩ := hx.exists_call hbegins (hall ▸ List.mem_cons_self)
    by_contra hnowhere
    have hne : ∀ o ∈ outside, o.entry ≠ e.entry := fun o ho hentry => hnowhere ⟨o, ho, hentry⟩
    refine hcall.number_not_mem hpart hw hrange hr hne ?_
    rwa [← hsame.token, ← hx.own_start hpart hbegins hall, hnumber]

end Activity

/-- Every world that a calm run goes through has the token of the timeouts that are under way
there.  It is cancelled at the end if a layer gave up with one of them as the innermost timeout
around what it dropped, and, where only layers that give up cancel tokens, only then.  Layers
that drop what they call by a bound of their own are left out, as those that catch a panic. -/
theorem cancelled_iff_givesUpIn {α : Type} {p : Activity α} {w : World}
    (hp : p.Calm Action.KeepsScope w) (hw : w.Outermost) :
    Along (fun v => ∃ outside, Covered Action.KeepsScope p w outside v) p w ∧
      (∀ (outside : List Enclosure) (v : World), Covered Action.KeepsScope p w outside v →
        p.GivesUpIn Action.KeepsScope w outside →
          (p.run w).2.tokens.isCancelled v.context.token = true) ∧
      (p.Calm Action.KeepsTokens w → w.tokens.cancelled = [] →
        ∀ (outside : List Enclosure) (v : World), Covered Action.KeepsTokens p w outside v →
          ((p.run w).2.tokens.isCancelled v.context.token = true ↔
            p.GivesUpIn Action.KeepsTokens w outside)) := by
  refine ⟨hp.along_covered fun _ haction => haction, ?_, ?_⟩
  · exact fun outside v hcovered hgives =>
      hcovered.isCancelled_of_givesUpIn (fun _ haction => haction) hgives
  · intro htokens hnone outside v hcovered
    exact ⟨hcovered.givesUpIn_of_isCancelled htokens hw hnone,
      hcovered.isCancelled_of_givesUpIn fun _ haction => haction.keepsScope⟩

/-! ## A deadline that passes in an inner scope -/

def Activity.after {α : Type} : Nat → Activity α → World → Activity α × World
  | 0, p, w => (p, w)
  | n + 1, p, w => after n (p.step w).1 (p.step w).2

theorem Activity.passes_after {α : Type} (n : Nat) (p : Activity α) (w : World) :
    Passes p w (p.after n w).1 (p.after n w).2 := by
  induction n generalizing p w with
  | zero => exact .here p w
  | succ n ih => exact .later (ih _ _)

def Draft.adopting : Draft :=
  Draft.empty.route "/"
    (((((RouteSpec.ofMethod "GET" (.done (.ok (Response.ofBody Body.empty)))).withTimeout
      (Duration.ofMillis 50)).wrap (Layer.ofScript Script.watch)).wrap
        (Layer.timeout (Duration.ofMillis 100))).wrap (Layer.ofScript (Script.stall 200)))

/-- The layer of the hundred ticks reports that the fifty have passed, and the token that was
present with that deadline outside it is not cancelled. -/
theorem adopted_deadline_not_cancelled :
    ∃ (a : App) (deadline : Deadline) (q : Handler) (v : World), Draft.adopting.build = .ok a ∧
      Passes a.handle (World.start Request.forRoot) q v ∧ v.context.deadline = some deadline ∧
      (a.handle.run (World.start Request.forRoot)).1 = .ok (.error (.timeout deadline.after)) ∧
      (a.handle.run (World.start Request.forRoot)).2.tick = deadline.due.tick ∧
      (a.handle.run (World.start Request.forRoot)).2.tokens.isCancelled v.context.token = false := by
  have hresults : (Draft.adopting.build.toOption.map fun a =>
      ((a.handle.after 7 (World.start Request.forRoot)).2.context.deadline,
        (a.handle.run (World.start Request.forRoot)).1,
        (a.handle.run (World.start Request.forRoot)).2.tick,
        (a.handle.run (World.start Request.forRoot)).2.tokens.isCancelled
          (a.handle.after 7 (World.start Request.forRoot)).2.context.token)) =
      some (some ⟨⟨50000000⟩, Duration.ofMillis 50⟩,
        .ok (.error (.timeout (Duration.ofMillis 50))), 50, false) := by decide +kernel
  obtain ⟨a, hbuild, hall⟩ := Draft.exists_build_of_toOption_map hresults
  simp only [Prod.mk.injEq] at hall
  obtain ⟨hdeadline, hreport, htick, hcancelled⟩ := hall
  exact ⟨a, _, _, _, hbuild, passes_after 7 _ _, hdeadline, hreport, htick, hcancelled⟩

theorem cancelled_iff_givesUpIn_nested :
    ∃ u v, Begins (Calm Action.KeepsTokens) Handler.overdue v Handler.nested
        (World.start Request.forRoot)
        [⟨u, Duration.ofMillis 30⟩, ⟨World.start Request.forRoot, Duration.ofMillis 50⟩] ∧
      (Handler.nested.run (World.start Request.forRoot)).2.tokens.isCancelled v.context.token =
        true ∧
      ¬Handler.nested.GivesUpIn Action.KeepsTokens (World.start Request.forRoot)
        [⟨World.start Request.forRoot, Duration.ofMillis 50⟩] := by
  obtain ⟨u, v, x, hnested, hinner, hcall, hbegins, hexpires, -, hopened, -, -⟩ :=
    Handler.nested_expires Action.KeepsTokens trivial trivial fun _ => trivial
  have hiff := (cancelled_iff_givesUpIn (hnested.mono fun _ haction => haction.keepsScope)
    (World.outermost_start _)).2.2 hnested rfl
  refine ⟨u, v, hbegins, ?_, ?_⟩
  · refine (hiff _ v ⟨_, _, v, hbegins, .refl v, Nat.le_refl _⟩).mpr ?_
    exact ⟨_, _, v, x, hbegins, hexpires, hinner, ⟨u, Duration.ofMillis 30⟩, _,
      by rw [hopened, List.nil_append], _, List.mem_cons_self, rfl⟩
  · intro hgives
    have hcancelled := (hiff _ u ⟨_, _, u, hcall, .refl u, Nat.le_refl _⟩).mpr hgives
    have hend : (Handler.nested.run (World.start Request.forRoot)).2.tokens.cancelled = [2] := rfl
    obtain ⟨n, hn, hmem⟩ := TokenLedger.isCancelled_eq_true_iff.mp hcancelled
    rw [hend, List.mem_singleton] at hmem
    rw [(hcall.scope fun _ _ hr =>
      (hr.mono fun _ haction => haction.keepsScope).keepsScopeFrom).1, hmem] at hn
    revert hn
    decide

end HttpRouting
