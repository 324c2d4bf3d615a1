import HttpRouting.Proofs.ScopeFrame

/-!
# All along a run

What holds in every world that a run goes through.  A property that looks only at the
present scope, and is kept as time goes on, holds all along a handler with a timeout or
an enforced deadline if it holds where the handler is called and all along what is
bounded, up to the deadline.
-/

namespace HttpRouting

namespace Activity

variable {α β : Type}

/-! ## Worlds that a run goes through -/

theorem Passes.trans {γ : Type} {p q r : Activity γ} {w v u : World} (first : Passes p w q v)
    (second : Passes q v r u) : Passes p w r u := by
  induction first with
  | here => exact second
  | later _ ih => exact .later (ih second)

theorem Passes.ordered {p q r : Activity α} {w v u : World} (hq : Passes p w q v)
    (hr : Passes p w r u) : Passes q v r u ∨ Passes r u q v := by
  induction hq with
  | here => exact .inl hr
  | @later p q w v htail ih =>
      cases hr with
      | here => exact .inr (.later htail)
      | later hr => exact ih hr

theorem Passes.tick_le {p q : Activity α} {w v : World} (h : Passes p w q v) :
    w.tick ≤ v.tick := by
  induction h with
  | here => exact Nat.le_refl _
  | @later p q w v _ ih =>
      refine Nat.le_trans ?_ ih
      cases p with
      | done | panic => exact Nat.le_refl _
      | sleep tick rest => exact Nat.le_max_left _ _
      | act action rest => exact Nat.le_of_eq (tick_perform action w).symm

theorem Passes.tick_le_run {p q : Activity α} {w v : World} (h : Passes p w q v) :
    v.tick ≤ (p.run w).2.tick := by
  rw [h.run_eq]
  exact Activity.tick_le_run q v

theorem Passes.bind {p q : Activity α} {w v : World} (h : Passes p w q v)
    (next : α → Activity β) : Passes (p.bind next) w (q.bind next) v := by
  induction h with
  | here => exact .here _ _
  | @later p q w v htail ih =>
      cases p with
      | done | panic => exact ih
      | sleep | act => exact .later ih

theorem Passes.of_run {p : Activity α} {w v : World} {value : α}
    (h : p.run w = (.ok value, v)) : Passes p w (.done value) v := by
  induction p generalizing w with
  | done value => cases h; exact .here _ _
  | panic p => cases h
  | sleep tick rest ih => exact .later (ih h)
  | act action rest ih => exact .later (ih _ h)

theorem Passes.contained {p q : Activity α} {w v : World} (h : Passes p w q v) :
    Passes p.contained w q.contained v := by
  induction h with
  | here => exact .here _ _
  | @later p q w v htail ih =>
      cases p with
      | done | panic => exact ih
      | sleep | act => exact .later ih

theorem Passes.withinTick {bound : Nat} {p q : Activity α} {w v : World} (h : Passes p w q v)
    (hv : v.tick ≤ max w.tick bound) : Passes (p.withinTick bound) w (q.withinTick bound) v := by
  induction h with
  | here => exact .here _ _
  | @later p q w v htail ih =>
      cases p with
      | done | panic => exact ih hv
      | act action rest =>
          refine .later (ih ?_)
          simpa only [step, tick_perform] using hv
      | sleep tick rest =>
          have hreached : max w.tick tick ≤ v.tick := htail.tick_le
          have hrest := ih (by simp only [step]; omega)
          simp only [Activity.withinTick]
          split
          · exact .later hrest
          · have hcome : tick ≤ w.tick := by omega
            have hsame : { w with tick := max w.tick tick } = w := by rw [Nat.max_eq_left hcome]
            refine .later ?_
            simp only [step, Action.perform, hcome, if_true]
            simpa only [step, hsame] using hrest

/-! ## Properties of all these worlds -/

/-- Whether a property holds in every world that a run goes through. -/
def Along (I : World → Prop) (p : Activity α) (w : World) : Prop :=
  ∀ q v, Passes p w q v → I v

variable {I J : World → Prop}

theorem Along.start {p : Activity α} {w : World} (h : Along I p w) : I w := h p w (.here p w)

theorem Along.mono {p : Activity α} {w : World} (h : Along I p w) (himp : ∀ v, I v → J v) :
    Along J p w :=
  fun q v hpasses => himp v (h q v hpasses)

theorem along_done (value : α) {w : World} (hw : I w) : Along I (.done value) w := by
  suffices hall : ∀ {q r : Activity α} {u v : World}, Passes q u r v → q = .done value → v = u from
    fun q v hpasses => hall hpasses rfl ▸ hw
  intro q r u v hpasses
  induction hpasses with
  | here => exact fun _ => rfl
  | later _ ih =>
      rintro rfl
      exact ih rfl

theorem along_panic (p : Panic) {w : World} (hw : I w) :
    Along I (.panic p : Activity α) w := by
  suffices hall : ∀ {q r : Activity α} {u v : World}, Passes q u r v → q = .panic p → v = u from
    fun q v hpasses => hall hpasses rfl ▸ hw
  intro q r u v hpasses
  induction hpasses with
  | here => exact fun _ => rfl
  | later _ ih =>
      rintro rfl
      exact ih rfl

theorem along_sleep_iff {tick : Nat} {rest : Activity α} {w : World} :
    Along I (.sleep tick rest) w ↔ I w ∧ Along I rest { w with tick := max w.tick tick } := by
  constructor
  · exact fun h => ⟨h.start, fun q v hpasses => h q v (.later hpasses)⟩
  · rintro ⟨hw, hrest⟩ q v hpasses
    cases hpasses with
    | here => exact hw
    | later hlater => exact hrest q v hlater

theorem along_act_iff {action : Action} {rest : action.Reply → Activity α} {w : World} :
    Along I (.act action rest) w ↔
      I w ∧ Along I (rest (action.perform w).1) (action.perform w).2 := by
  constructor
  · exact fun h => ⟨h.start, fun q v hpasses => h q v (.later hpasses)⟩
  · rintro ⟨hw, hrest⟩ q v hpasses
    cases hpasses with
    | here => exact hw
    | later hlater => exact hrest q v hlater

theorem Along.run {p : Activity α} {w : World} (h : Along I p w) : I (p.run w).2 := by
  induction p generalizing w with
  | done | panic => exact h.start
  | sleep tick rest ih => exact ih (along_sleep_iff.mp h).2
  | act action rest ih => exact ih _ (along_act_iff.mp h).2

theorem Along.of_run {p : Activity α} {w v : World} {result : Except Panic α}
    (h : Along I p w) (hrun : p.run w = (result, v)) : I v := by
  have hends := h.run
  rwa [hrun] at hends

theorem along_tick_le (p : Activity α) (w : World) : Along (fun v => w.tick ≤ v.tick) p w :=
  fun _ _ hpasses => hpasses.tick_le

theorem along_bind {p : Activity α} {next : α → Activity β} {w : World} (hp : Along I p w)
    (hnext : ∀ value u, p.run w = (.ok value, u) → Along I (next value) u) :
    Along I (p.bind next) w := by
  induction p generalizing w with
  | done value => exact hnext value w rfl
  | panic p => exact along_panic p hp.start
  | sleep tick rest ih =>
      obtain ⟨hw, hrest⟩ := along_sleep_iff.mp hp
      exact along_sleep_iff.mpr ⟨hw, ih hrest hnext⟩
  | act action rest ih =>
      obtain ⟨hw, hrest⟩ := along_act_iff.mp hp
      exact along_act_iff.mpr ⟨hw, ih _ hrest hnext⟩

theorem along_clock_bind {next : Nat → Activity α} {w : World} :
    Along I (clock.bind next) w ↔ I w ∧ Along I (next w.tick) w := along_act_iff

theorem along_context_bind {next : Context → Activity α} {w : World} :
    Along I (context.bind next) w ↔ I w ∧ Along I (next w.context) w := along_act_iff

theorem along_contained {p : Activity α} {w : World} (hp : Along I p w) :
    Along I p.contained w := by
  induction p generalizing w with
  | done | panic => exact along_done _ hp.start
  | sleep tick rest ih =>
      obtain ⟨hw, hrest⟩ := along_sleep_iff.mp hp
      exact along_sleep_iff.mpr ⟨hw, ih hrest⟩
  | act action rest ih =>
      obtain ⟨hw, hrest⟩ := along_act_iff.mp hp
      exact along_act_iff.mpr ⟨hw, ih _ hrest⟩

/-- A property that is kept as time goes on holds all along a bounded run if it holds
in the worlds that the run goes through up to the bound. -/
theorem along_withinTick (hlater : ∀ v tick, I v → v.tick ≤ tick → I { v with tick := tick })
    {bound : Nat} {p : Activity α} {w : World}
    (hp : Along (fun v => v.tick ≤ max w.tick bound → I v) p w) :
    Along I (p.withinTick bound) w := by
  have hw : I w := hp.start (Nat.le_max_left _ _)
  induction p generalizing w with
  | done value => exact along_done _ hw
  | panic p => exact along_panic p hw
  | act action rest ih =>
      obtain ⟨-, hrest⟩ := along_act_iff.mp hp
      rw [← tick_perform action w] at hrest
      exact along_act_iff.mpr ⟨hw, ih _ hrest (hrest.start (Nat.le_max_left _ _))⟩
  | sleep tick rest ih =>
      obtain ⟨-, hrest⟩ := along_sleep_iff.mp hp
      have hafter : I { w with tick := max w.tick bound } := hlater w _ hw (Nat.le_max_left _ _)
      simp only [withinTick]
      split
      · next hwithin =>
          have hlimit : max w.tick bound = max (max w.tick tick) bound := by omega
          rw [hlimit] at hrest
          exact along_sleep_iff.mpr ⟨hw, ih hrest (hlater w _ hw (Nat.le_max_left _ _))⟩
      · next hbeyond =>
          refine along_act_iff.mpr ⟨hw, ?_⟩
          by_cases hcome : tick ≤ w.tick
          · have hsame : { w with tick := max w.tick tick } = w := by rw [Nat.max_eq_left hcome]
            rw [hsame] at hrest
            simp only [Action.perform, hcome, if_true]
            exact ih hrest hw
          · simp only [Action.perform, hcome, if_false]
            exact along_sleep_iff.mpr ⟨hw, along_done _ hafter⟩

theorem Uses.along {allowed : Action → Prop}
    (hlater : ∀ v tick, I v → v.tick ≤ tick → I { v with tick := tick })
    (hperform : ∀ action v, allowed action → I v → I (action.perform v).2) {p : Activity α}
    (hp : p.Uses allowed) {w : World} (hw : I w) : Along I p w := by
  induction p generalizing w with
  | done value => exact along_done value hw
  | panic p => exact along_panic p hw
  | sleep tick rest ih =>
      exact along_sleep_iff.mpr ⟨hw, ih hp (hlater w _ hw (Nat.le_max_left _ _))⟩
  | act action rest ih =>
      exact along_act_iff.mpr ⟨hw, ih _ (hp.2 _) (hperform action w hp.1 hw)⟩

end Activity

/-! ## Properties of the present scope -/

namespace World

/-- Whether a property looks only at the present scope and is kept as time goes on. -/
def Lasting (I : World → Prop) : Prop :=
  ∀ w v, I w → w.SameScope v → w.tick ≤ v.tick → I v

variable {I : World → Prop}

theorem Lasting.later (hI : Lasting I) (v : World) (tick : Nat) (hv : I v)
    (htick : v.tick ≤ tick) : I { v with tick := tick } :=
  hI v _ hv ⟨rfl, rfl⟩ htick

end World

namespace Activity

variable {α : Type} {I : World → Prop}

theorem Uses.along_lasting (hI : World.Lasting I) {p : Activity α}
    (hp : p.Uses Action.KeepsScope) {w : World} (hw : I w) : Along I p w :=
  hp.along hI.later
    (fun action v hkeeps hv =>
      hI v _ hv (hkeeps.sameScope_perform v) (Nat.le_of_eq (tick_perform action v).symm)) hw

theorem along_expire (hI : World.Lasting I) (token : Token) (after : Duration) {w : World}
    (hw : I w) : Along I (Handler.expire token after) w := by
  have huses : (Handler.expire token after).Uses Action.KeepsScope :=
    ⟨trivial, fun _ => ⟨trivial, fun _ => ⟨trivial, fun _ => trivial⟩⟩⟩
  exact huses.along_lasting hI hw

theorem along_withTimeout_of_expire
    (hlater : ∀ v tick, I v → v.tick ≤ tick → I { v with tick := tick })
    {duration : Duration} {h : Handler} {w : World} (hw : I w)
    (hfork : I (Action.fork.perform w).2)
    (hinner : ∀ deadline, w.deadline? duration = some deadline →
      Along (fun v => v.tick ≤ max w.tick deadline.due.tick → I v) h (w.entered deadline))
    (hleave : ∀ v, I v → w.tick ≤ v.tick → I (v.rescoped w.context))
    (hexpire : ∀ deadline v, w.deadline? duration = some deadline →
      (withinTick deadline.due.tick h).run (w.entered deadline) = (.ok none, v) →
        I (v.rescoped w.context) →
          Along I (Handler.expire (w.entered deadline).context.token deadline.after)
            (v.rescoped w.context)) :
    Along I (h.withTimeout duration) w := by
  unfold Handler.withTimeout
  rw [bind_eq, along_clock_bind, bind_eq, along_context_bind]
  refine ⟨hw, hw, ?_⟩
  cases hdeadline : w.deadline? duration with
  | none =>
      have hnow : (Moment.ofTick w.tick).later? duration = none :=
        Option.map_eq_none_iff.mp hdeadline
      rw [hnow]
      exact along_panic _ hw
  | some deadline =>
      have hbounded := along_withinTick hlater (hinner deadline hdeadline)
      have hexpired := hexpire deadline
      obtain ⟨due, hdue, hsame⟩ := Option.map_eq_some_iff.mp hdeadline
      have hnow : (Moment.ofTick w.tick).later? duration = some due := hdue
      rw [hnow]
      dsimp only
      rw [hsame]
      refine along_act_iff.mpr ⟨hw, along_act_iff.mpr ⟨hfork, ?_⟩⟩
      change Along I ((withinTick deadline.due.tick h).bind _) (w.entered deadline)
      refine along_bind hbounded ?_
      intro result v hrun
      have hends := hbounded.of_run hrun
      have hlate := (along_tick_le (withinTick deadline.due.tick h) (w.entered deadline)).of_run hrun
      have hleft : I (v.rescoped w.context) := hleave v hends hlate
      refine along_act_iff.mpr ⟨hends, ?_⟩
      cases result with
      | some outcome => exact along_done outcome hleft
      | none => exact hexpired v hdeadline hrun hleft

theorem along_withDeadline_of_expire
    (hlater : ∀ v tick, I v → v.tick ≤ tick → I { v with tick := tick }) {h : Handler} {w : World}
    (hw : I w) (hfree : w.context.deadline = none → Along I h w)
    (hinner : ∀ deadline, w.context.deadline = some deadline →
      Along (fun v => v.tick ≤ max w.tick deadline.due.tick → I v) h w)
    (hexpire : ∀ deadline v, w.context.deadline = some deadline →
      (withinTick deadline.due.tick h).run w = (.ok none, v) → I v →
        Along I (Handler.expire v.context.token deadline.after) v) :
    Along I h.withDeadline w := by
  unfold Handler.withDeadline
  rw [bind_eq, along_context_bind]
  refine ⟨hw, ?_⟩
  cases hdeadline : w.context.deadline with
  | none => exact hfree hdeadline
  | some deadline =>
      have hbounded := along_withinTick hlater (hinner deadline hdeadline)
      refine along_bind hbounded ?_
      intro result v hrun
      have hends := hbounded.of_run hrun
      cases result with
      | some outcome => exact along_done outcome hends
      | none => exact along_context_bind.mpr ⟨hends, hexpire deadline v hdeadline hrun hends⟩

theorem along_withTimeout (hI : World.Lasting I) {duration : Duration} {h : Handler} {w : World}
    (hw : I w)
    (hinner : ∀ deadline, w.deadline? duration = some deadline →
      Along (fun v => v.tick ≤ max w.tick deadline.due.tick → I v) h (w.entered deadline)) :
    Along I (h.withTimeout duration) w :=
  along_withTimeout_of_expire hI.later hw (hI w _ hw ⟨rfl, rfl⟩ (Nat.le_refl _)) hinner
    (fun _ _ hlate => hI w _ hw ⟨rfl, rfl⟩ hlate) fun _ _ _ _ hleft => along_expire hI _ _ hleft

theorem along_withDeadline (hI : World.Lasting I) {h : Handler} {w : World} (hw : I w)
    (hfree : w.context.deadline = none → Along I h w)
    (hinner : ∀ deadline, w.context.deadline = some deadline →
      Along (fun v => v.tick ≤ max w.tick deadline.due.tick → I v) h w) :
    Along I h.withDeadline w :=
  along_withDeadline_of_expire hI.later hw hfree hinner fun _ _ _ _ hends =>
    along_expire hI _ _ hends

end Activity

end HttpRouting
