import HttpRouting.Proofs.Along
import HttpRouting.Proofs.Calm

/-!
# Where a run is

A run of nested handlers is followed from a call to the calls inside it: `Begins` says that
an activity begins to run somewhere, and which timeouts are under way there.  The
present token and deadline are those of the timeouts under way, and every world that
a run goes through has the scope of a world in which some part of it began.
-/

namespace HttpRouting

open Activity

/-- A timeout under way: the world in which it was called, and its duration. -/
structure Enclosure where
  entry : World
  duration : Duration

namespace Enclosure

def number (e : Enclosure) : Nat := e.entry.tokens.given

def own (e : Enclosure) : Deadline := ⟨⟨e.entry.now.nanos + e.duration.nanos⟩, e.duration⟩

def inForce (outer : Option Deadline) : List Enclosure → Option Deadline
  | [] => outer
  | e :: rest => some (Deadline.tighter (inForce outer rest) e.own)

theorem inForce_append (outer : Option Deadline) (inner enclosing : List Enclosure) :
    inForce outer (inner ++ enclosing) = inForce (inForce outer enclosing) inner := by
  induction inner with
  | nil => rfl
  | cons e rest ih => simp only [List.cons_append, inForce, ih]

end Enclosure

theorem World.deadline?_eq_some {w : World} {duration : Duration} {deadline : Deadline}
    (h : w.deadline? duration = some deadline) :
    deadline = Deadline.tighter w.context.deadline (Enclosure.own ⟨w, duration⟩) := by
  obtain ⟨due, hdue, rfl⟩ := Option.map_eq_some_iff.mp h
  unfold Moment.later? at hdue
  split at hdue
  · cases hdue
    rfl
  · contradiction

/-- While `p` runs from `w`, the activity `q` begins to run in `v`, inside some timeouts, the
innermost first.  The run is followed through parts of a given kind, and into what is bounded
by hand where that ends in time. -/
inductive Activity.Begins (part : {α : Type} → Activity α → World → Prop) {β : Type}
    (q : Activity β) (v : World) : {α : Type} → Activity α → World → List Enclosure → Prop where
  | here : Begins part q v q v []
  | first {α γ : Type} {p : Activity α} {next : α → Activity γ} {w : World}
      {inside : List Enclosure} :
      Begins part q v p w inside → Begins part q v (p.bind next) w inside
  | rest {α γ : Type} {p : Activity α} {next : α → Activity γ} {w u : World} {value : α}
      {inside : List Enclosure} :
      part p w → p.run w = (.ok value, u) → Begins part q v (next value) u inside →
        Begins part q v (p.bind next) w inside
  | timeout {h : Handler} {w : World} {duration : Duration} {deadline : Deadline}
      {inside : List Enclosure} :
      w.deadline? duration = some deadline → Begins part q v h (w.entered deadline) inside →
        v.tick ≤ max w.tick deadline.due.tick →
          Begins part q v (h.withTimeout duration) w (inside ++ [⟨w, duration⟩])
  | enforced {h : Handler} {w : World} {inside : List Enclosure} :
      Begins part q v h w inside →
        (∀ deadline, w.context.deadline = some deadline →
          v.tick ≤ max w.tick deadline.due.tick) →
          Begins part q v h.withDeadline w inside
  | caught {α : Type} {p : Activity α} {w : World} {inside : List Enclosure} :
      Begins part q v p w inside → Begins part q v p.contained w inside
  | within {α : Type} {p : Activity α} {w : World} {bound : Nat} {inside : List Enclosure} :
      Begins part q v p w inside → (p.run w).2.tick ≤ max w.tick bound →
        Begins part q v (p.withinTick bound) w inside

namespace Activity

/-! ## Calls are points of the run -/

theorem passes_clock_bind {α : Type} {next : Nat → Activity α} {w v : World} {q : Activity α}
    (h : Passes (next w.tick) w q v) : Passes (clock.bind next) w q v := .later h

theorem passes_context_bind {α : Type} {next : Context → Activity α} {w v : World}
    {q : Activity α} (h : Passes (next w.context) w q v) : Passes (context.bind next) w q v :=
  .later h

theorem clock_bind_eq {α : Type} (next : Nat → Activity α) :
    clock.bind next = .act .clock next := rfl

theorem context_bind_eq {α : Type} (next : Context → Activity α) :
    context.bind next = .act .context next := rfl

theorem withTimeout_asks (duration : Duration) (h : Handler) (w : World) :
    ∃ next : Nat → Context → Handler,
      h.withTimeout duration = clock.bind (fun tick => context.bind (next tick)) ∧
      (w.deadline? duration = none → next w.tick w.context = .panic Deadline.outOfRange) ∧
      ∀ deadline, w.deadline? duration = some deadline →
        ∃ rest, next w.tick w.context = .act .fork rest := by
  unfold Handler.withTimeout
  refine ⟨_, rfl, fun hnone => ?_, fun deadline hdeadline => ?_⟩
  · have hnow : (Moment.ofTick w.tick).later? duration = none :=
      Option.map_eq_none_iff.mp hnone
    rw [hnow]
  · obtain ⟨due, hdue, -⟩ := Option.map_eq_some_iff.mp hdeadline
    have hnow : (Moment.ofTick w.tick).later? duration = some due := hdue
    rw [hnow]
    exact ⟨_, rfl⟩

theorem passes_withTimeout {duration : Duration} {w : World} {deadline : Deadline}
    (hdeadline : w.deadline? duration = some deadline) (h : Handler) :
    ∃ leave, Passes (h.withTimeout duration) w ((h.withinTick deadline.due.tick).bind leave)
      (w.entered deadline) := by
  obtain ⟨due, hdue, rfl⟩ := Option.map_eq_some_iff.mp hdeadline
  have hnow : (Moment.ofTick w.tick).later? duration = some due := hdue
  generalize hsame : Deadline.tighter w.context.deadline ⟨due, duration⟩ = deadline
  apply Exists.intro
  unfold Handler.withTimeout
  rw [bind_eq]
  refine passes_clock_bind ?_
  rw [bind_eq]
  refine passes_context_bind ?_
  rw [hnow]
  dsimp only
  rw [hsame]
  exact .later (.later (.here _ _))

theorem passes_withDeadline {w : World} {deadline : Deadline}
    (hdeadline : w.context.deadline = some deadline) (h : Handler) :
    ∃ leave, Passes h.withDeadline w ((h.withinTick deadline.due.tick).bind leave) w := by
  apply Exists.intro
  unfold Handler.withDeadline
  rw [bind_eq]
  refine passes_context_bind ?_
  rw [hdeadline]
  exact .here _ _

theorem passes_withDeadline_none {w : World} (hdeadline : w.context.deadline = none)
    (h : Handler) : Passes h.withDeadline w h w := by
  unfold Handler.withDeadline
  rw [bind_eq]
  refine passes_context_bind ?_
  rw [hdeadline]
  exact .here _ _

variable {part : {α : Type} → Activity α → World → Prop} {α β : Type} {p : Activity α}
  {q : Activity β} {w v : World} {inside : List Enclosure}

theorem Begins.passes (h : Begins part q v p w inside) :
    ∃ frame : Activity β → Activity α,
      (∀ action rest, frame (.act action rest) = .act action fun reply => frame (rest reply)) ∧
        Passes p w (frame q) v := by
  induction h with
  | here => exact ⟨id, fun _ _ => rfl, .here _ _⟩
  | @first _ _ p next w _ _ ih =>
      obtain ⟨frame, hact, hpasses⟩ := ih
      exact ⟨fun x => (frame x).bind next, fun _ _ => by simp only [hact, Activity.bind],
        hpasses.bind next⟩
  | @rest _ _ p next w u value _ _ hrun _ ih =>
      obtain ⟨frame, hact, hpasses⟩ := ih
      exact ⟨frame, hact, ((Passes.of_run hrun).bind next).trans hpasses⟩
  | @timeout h w duration deadline _ hdeadline _ htick ih =>
      obtain ⟨frame, hact, hpasses⟩ := ih
      obtain ⟨leave, hinner⟩ := passes_withTimeout hdeadline h
      exact ⟨fun x => ((frame x).withinTick deadline.due.tick).bind leave,
        fun _ _ => by simp only [hact, Activity.withinTick, Activity.bind],
        hinner.trans ((hpasses.withinTick htick).bind leave)⟩
  | @enforced h w _ _ htick ih =>
      obtain ⟨frame, hact, hpasses⟩ := ih
      cases hdeadline : w.context.deadline with
      | none => exact ⟨frame, hact, (passes_withDeadline_none hdeadline h).trans hpasses⟩
      | some deadline =>
          obtain ⟨leave, hinner⟩ := passes_withDeadline hdeadline h
          exact ⟨fun x => ((frame x).withinTick deadline.due.tick).bind leave,
            fun _ _ => by simp only [hact, Activity.withinTick, Activity.bind],
            hinner.trans ((hpasses.withinTick (htick deadline hdeadline)).bind leave)⟩
  | caught _ ih =>
      obtain ⟨frame, hact, hpasses⟩ := ih
      exact ⟨fun x => (frame x).contained, fun _ _ => by simp only [hact, Activity.contained],
        hpasses.contained⟩
  | @within _ p w bound _ _ hends ih =>
      obtain ⟨frame, hact, hpasses⟩ := ih
      exact ⟨fun x => (frame x).withinTick bound,
        fun _ _ => by simp only [hact, Activity.withinTick],
        hpasses.withinTick (Nat.le_trans hpasses.tick_le_run hends)⟩

theorem Begins.tick_le (h : Begins part q v p w inside) : w.tick ≤ v.tick := by
  obtain ⟨_, -, hpasses⟩ := h.passes
  exact hpasses.tick_le

theorem Begins.tick_le_run (h : Begins part q v p w inside) : v.tick ≤ (p.run w).2.tick := by
  obtain ⟨_, -, hpasses⟩ := h.passes
  exact hpasses.tick_le_run

/-! ## The scope is that of the timeouts under way -/

theorem Begins.scope
    (hpart : ∀ {γ : Type} (r : Activity γ) (u : World), part r u → r.KeepsScopeFrom u)
    (h : Begins part q v p w inside) :
    v.context.token.lineage = inside.map Enclosure.number ++ w.context.token.lineage ∧
      v.context.deadline = Enclosure.inForce w.context.deadline inside := by
  induction h with
  | here => exact ⟨rfl, rfl⟩
  | first _ ih => exact ih
  | @rest _ _ p _ w u value _ hp hrun _ ih =>
      have hsame := (hpart p w hp).returned u value hrun
      rwa [hsame.token, hsame.deadline] at ih
  | @timeout h w duration deadline inside hdeadline _ _ ih =>
      obtain ⟨htoken, hforce⟩ := ih
      constructor
      · rw [htoken, List.map_append, List.append_assoc]
        rfl
      · rw [hforce, Enclosure.inForce_append, Enclosure.inForce, Enclosure.inForce,
          ← World.deadline?_eq_some hdeadline]
        rfl
  | enforced _ _ ih => exact ih
  | caught _ ih => exact ih
  | within _ _ ih => exact ih

theorem Begins.exists_call (h : Begins part q v p w inside) {e : Enclosure} (he : e ∈ inside) :
    ∃ (inner : Handler) (outside : List Enclosure),
      Begins part (inner.withTimeout e.duration) e.entry p w outside ∧
        (e.entry.deadline? e.duration).isSome = true ∧ e.entry.tick ≤ v.tick := by
  induction h with
  | here => cases he
  | first _ ih =>
      obtain ⟨inner, outside, hcall, hrange, htick⟩ := ih he
      exact ⟨inner, outside, .first hcall, hrange, htick⟩
  | rest hp hrun _ ih =>
      obtain ⟨inner, outside, hcall, hrange, htick⟩ := ih he
      exact ⟨inner, outside, .rest hp hrun hcall, hrange, htick⟩
  | @timeout h w duration deadline inside hdeadline hbegins hbound ih =>
      rcases List.mem_append.mp he with hinner | hself
      · obtain ⟨inner, outside, hcall, hrange, htick⟩ := ih hinner
        exact ⟨inner, _, .timeout hdeadline hcall (Nat.le_trans htick hbound), hrange, htick⟩
      · obtain rfl := List.mem_singleton.mp hself
        exact ⟨h, [], .here, by rw [hdeadline]; rfl, hbegins.tick_le⟩
  | enforced _ hbound ih =>
      obtain ⟨inner, outside, hcall, hrange, htick⟩ := ih he
      exact ⟨inner, outside,
        .enforced hcall fun deadline hdeadline =>
          Nat.le_trans htick (hbound deadline hdeadline), hrange, htick⟩
  | caught _ ih =>
      obtain ⟨inner, outside, hcall, hrange, htick⟩ := ih he
      exact ⟨inner, outside, .caught hcall, hrange, htick⟩
  | within _ hends ih =>
      obtain ⟨inner, outside, hcall, hrange, htick⟩ := ih he
      exact ⟨inner, outside, .within hcall hends, hrange, htick⟩

/-! ## Every world of a run is accounted for -/

variable {allowed : Action → Prop}

/-- Whether the scope of a world is that of an earlier one in which a part of a run began,
inside some timeouts. -/
def Covered (allowed : Action → Prop) (p : Activity α) (w : World) (inside : List Enclosure)
    (v : World) : Prop :=
  ∃ (γ : Type) (r : Activity γ) (u : World),
    Begins (Calm allowed) r u p w inside ∧ u.SameScope v ∧ u.tick ≤ v.tick

theorem lasting_covered : World.Lasting fun v => ∃ inside, Covered allowed p w inside v := by
  rintro v v' ⟨inside, γ, r, u, hbegins, hscope, htick⟩ hsame hlater
  exact ⟨inside, γ, r, u, hbegins, hscope.trans hsame, Nat.le_trans htick hlater⟩

theorem covered_start : ∃ inside, Covered allowed p w inside w :=
  ⟨[], α, p, w, .here, .refl w, Nat.le_refl _⟩

theorem Calm.along_covered (hallowed : ∀ action, allowed action → action.KeepsScope)
    (hp : p.Calm allowed w) : Along (fun v => ∃ inside, Covered allowed p w inside v) p w := by
  induction hp with
  | plain hp => exact (hp.mono hallowed).along_lasting lasting_covered covered_start
  | bind hfirst _ ihfirst ihnext =>
      refine along_bind (ihfirst.mono ?_) ?_
      · rintro v ⟨inside, γ, r, u, hbegins, hscope⟩
        exact ⟨inside, γ, r, u, .first hbegins, hscope⟩
      · intro value u hrun
        refine (ihnext value u hrun).mono ?_
        rintro v ⟨inside, γ, r, u', hbegins, hscope⟩
        exact ⟨inside, γ, r, u', .rest hfirst hrun hbegins, hscope⟩
  | timeout _ ih =>
      refine along_withTimeout lasting_covered covered_start fun deadline hdeadline => ?_
      refine (ih deadline hdeadline).mono ?_
      rintro v ⟨inside, γ, r, u, hbegins, hscope, htick⟩ hbound
      exact ⟨_, γ, r, u, .timeout hdeadline hbegins (Nat.le_trans htick hbound), hscope, htick⟩
  | enforced _ ih =>
      refine along_withDeadline lasting_covered covered_start (fun hdeadline => ?_) ?_
      · refine ih.mono ?_
        rintro v ⟨inside, γ, r, u, hbegins, hscope⟩
        exact ⟨inside, γ, r, u, .enforced hbegins (by simp [hdeadline]), hscope⟩
      · intro deadline hdeadline
        refine ih.mono ?_
        rintro v ⟨inside, γ, r, u, hbegins, hscope, htick⟩ hbound
        refine ⟨inside, γ, r, u, .enforced hbegins ?_, hscope, htick⟩
        intro other hother
        obtain rfl := Option.some.inj (hdeadline.symm.trans hother)
        exact Nat.le_trans htick hbound
  | caught _ _ ih =>
      refine along_contained (ih.mono ?_)
      rintro v ⟨inside, γ, r, u, hbegins, hscope⟩
      exact ⟨inside, γ, r, u, .caught hbegins, hscope⟩
  | within _ hends ih =>
      refine along_withinTick lasting_covered.later (ih.mono ?_)
      rintro v ⟨inside, γ, r, u, hbegins, hscope⟩ _
      exact ⟨inside, γ, r, u, .within hbegins hends, hscope⟩

end Activity

/-! ## Layers that give up -/

/-- What a layer gives up: the handler that it bounds, the scope that it opened for it if
it is a timeout, the world in which it called it, the deadline, and the world in which
it drops it. -/
structure Expiry where
  inner : Handler
  opened : List Enclosure
  start : World
  deadline : Deadline
  dropped : World

inductive Expires : Handler → World → Expiry → Prop where
  | timeout {h : Handler} {duration : Duration} {u v : World} {deadline : Deadline} :
      u.deadline? duration = some deadline →
        (h.withinTick deadline.due.tick).run (u.entered deadline) = (.ok none, v) →
          Expires (h.withTimeout duration) u
            ⟨h, [⟨u, duration⟩], u.entered deadline, deadline, v⟩
  | enforced {h : Handler} {u v : World} {deadline : Deadline} :
      u.context.deadline = some deadline →
        (h.withinTick deadline.due.tick).run u = (.ok none, v) →
          Expires h.withDeadline u ⟨h, [], u, deadline, v⟩

namespace Expires

variable {layer : Handler} {u : World} {x : Expiry}

theorem deadline_start (hx : Expires layer u x) :
    x.start.context.deadline = some x.deadline := by
  cases hx with
  | timeout => rfl
  | enforced hdeadline => exact hdeadline

theorem inForce_start (hx : Expires layer u x) :
    Enclosure.inForce u.context.deadline x.opened = some x.deadline := by
  cases hx with
  | timeout hdeadline =>
      exact congrArg some (World.deadline?_eq_some hdeadline).symm
  | enforced hdeadline => exact hdeadline

theorem run_fst (hx : Expires layer u x) :
    (layer.run u).1 = .ok (.error (.timeout x.deadline.after)) := by
  cases hx with
  | timeout hdeadline hdropped => rw [Handler.run_withTimeout hdeadline, hdropped]
  | enforced hdeadline hdropped => rw [Handler.run_withDeadline hdeadline, hdropped]

end Expires

end HttpRouting
