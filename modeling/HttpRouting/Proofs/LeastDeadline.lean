import HttpRouting.Pipeline.Probe
import HttpRouting.Proofs.Nesting

/-!
# The deadline in force

Wherever no panic is caught and no layer drops what it calls by a bound of its own, the
deadline of a context is the least of those that the timeouts under way set by themselves, and
of equal ones that of the outermost.  A layer that gives up names the duration of the deadline
in force inside it, whichever timeout that deadline comes from.
-/

namespace HttpRouting

open Activity

namespace Enclosure

/-- Whether a deadline is the least of those that some timeouts set, the innermost first, and
of equal ones the outermost.  Without timeouts there is none. -/
def Least (inside : List Enclosure) : Option Deadline → Prop
  | none => inside = []
  | some deadline =>
      ∃ inner e outer, inside = inner ++ e :: outer ∧ deadline = e.own ∧
        (∀ other ∈ inner, deadline.due.nanos ≤ other.own.due.nanos) ∧
          ∀ other ∈ outer, deadline.due.nanos < other.own.due.nanos

theorem Least.due_le {inside : List Enclosure} {deadline : Deadline}
    (h : Least inside (some deadline)) {other : Enclosure} (hother : other ∈ inside) :
    deadline.due.nanos ≤ other.own.due.nanos := by
  obtain ⟨inner, e, outer, rfl, rfl, hinner, houter⟩ := h
  rcases List.mem_append.mp hother with hother | hother
  · exact hinner other hother
  · rcases List.mem_cons.mp hother with rfl | hother
    · exact Nat.le_refl _
    · exact Nat.le_of_lt (houter other hother)

theorem least_inForce (inside : List Enclosure) : Least inside (inForce none inside) := by
  induction inside with
  | nil => rfl
  | cons e rest ih =>
      cases hrest : inForce none rest with
      | none =>
          rw [hrest] at ih
          obtain rfl : rest = [] := ih
          exact ⟨[], e, [], rfl, rfl, by simp, by simp⟩
      | some deadline =>
          rw [hrest] at ih
          simp only [inForce, hrest, Deadline.tighter]
          split
          · next hle =>
              obtain ⟨inner, e', outer, rfl, hown, hinner, houter⟩ := ih
              refine ⟨e :: inner, e', outer, rfl, hown, ?_, houter⟩
              intro other hother
              rcases List.mem_cons.mp hother with rfl | hinside
              · exact hle
              · exact hinner other hinside
          · next hlt =>
              refine ⟨[], e, rest, rfl, rfl, by simp, fun other hother => ?_⟩
              have hle := ih.due_le hother
              omega

end Enclosure

theorem Activity.Begins.least {part : {α : Type} → Activity α → World → Prop} {α β : Type}
    {p : Activity α} {q : Activity β} {w v : World} {inside : List Enclosure}
    (hpart : ∀ {γ : Type} (r : Activity γ) (u : World), part r u → r.KeepsScopeFrom u)
    (h : Begins part q v p w inside) (hfree : w.context.deadline = none) :
    Enclosure.Least inside v.context.deadline := by
  rw [(h.scope hpart).2, hfree]
  exact Enclosure.least_inForce inside

/-- All along a run in which no panic is caught and nothing is dropped but by the deadlines of
the library, and where each part of it begins, the deadline is the least of those that the
timeouts under way set.  A layer that gives up names the least deadline of the timeouts around
what it drops.  Layers with bounds of their own are left out where they drop what they call. -/
theorem deadline_least {α : Type} {p : Activity α} {w : World}
    (hp : p.Calm Action.KeepsScope w) (hfree : w.context.deadline = none) :
    Along (fun v => ∃ inside, Covered Action.KeepsScope p w inside v ∧
        Enclosure.Least inside v.context.deadline) p w ∧
      (∀ (inside : List Enclosure) (β : Type) (r : Activity β) (v : World),
        Begins (Calm Action.KeepsScope) r v p w inside →
          Enclosure.Least inside v.context.deadline) ∧
      ∀ (inside : List Enclosure) (layer : Handler) (u : World) (x : Expiry),
        Begins (Calm Action.KeepsScope) layer u p w inside → Expires layer u x →
          (layer.run u).1 = .ok (.error (.timeout x.deadline.after)) ∧
            x.start.context.deadline = some x.deadline ∧
              Enclosure.Least (x.opened ++ inside) (some x.deadline) := by
  have hpart : ∀ {γ : Type} (r : Activity γ) (u : World),
      r.Calm Action.KeepsScope u → r.KeepsScopeFrom u := fun _ _ hr => hr.keepsScopeFrom
  refine ⟨?_, fun inside β r v hbegins => hbegins.least hpart hfree, ?_⟩
  · refine (hp.along_covered fun _ haction => haction).mono ?_
    rintro v ⟨inside, γ, r, u, hbegins, hsame, htick⟩
    refine ⟨inside, ⟨γ, r, u, hbegins, hsame, htick⟩, ?_⟩
    rw [hsame.deadline]
    exact hbegins.least hpart hfree
  · intro inside layer u x hbegins hexpires
    refine ⟨hexpires.run_fst, hexpires.deadline_start, ?_⟩
    have hforce := (hbegins.scope hpart).2
    rw [hfree] at hforce
    have hstart := hexpires.inForce_start
    rw [hforce, ← Enclosure.inForce_append] at hstart
    rw [← hstart]
    exact Enclosure.least_inForce _

theorem Script.around_stall (ticks : Nat) (h : Handler) :
    (Script.stall ticks).around h = (Activity.sleepFor ticks).bind fun _ => h := by
  change ((Script.ofActivity (Activity.sleepFor ticks)).bind fun _ => Script.inner).around h = _
  rw [Script.around_bind, Script.around_ofActivity]
  refine congrArg (Activity.bind _) (funext fun _ => ?_)
  exact Activity.bind_done h

def Handler.overdue : Handler :=
  Handler.withDeadline ((Script.stall 200).around (.done (.error .notFound)))

def Handler.nested : Handler :=
  Handler.withTimeout (Duration.ofMillis 50)
    ((Script.stall 20).around (Handler.overdue.withTimeout (Duration.ofMillis 30)).recovering)

theorem Handler.nested_expires (allowed : Action → Prop) (hclock : allowed .clock)
    (hcontext : allowed .context) (hreport : ∀ event, allowed (.report event)) :
    ∃ u v x, Handler.nested.Calm allowed (World.start Request.forRoot) ∧
      x.inner.Calm allowed x.start ∧
      Begins (Calm allowed) (Handler.overdue.withTimeout (Duration.ofMillis 30)) u
        Handler.nested (World.start Request.forRoot)
        [⟨World.start Request.forRoot, Duration.ofMillis 50⟩] ∧
      Begins (Calm allowed) Handler.overdue v Handler.nested (World.start Request.forRoot)
        [⟨u, Duration.ofMillis 30⟩, ⟨World.start Request.forRoot, Duration.ofMillis 50⟩] ∧
      Expires Handler.overdue v x ∧ u.tick = 20 ∧ x.opened = [] ∧ x.start = v ∧
      x.deadline = ⟨⟨50000000⟩, Duration.ofMillis 50⟩ := by
  let deadline : Deadline := ⟨⟨50000000⟩, Duration.ofMillis 50⟩
  let w := World.start Request.forRoot
  let u : World := { w.entered deadline with tick := 20 }
  have houter : w.deadline? (Duration.ofMillis 50) = some deadline := by decide +kernel
  have hnested : u.deadline? (Duration.ofMillis 30) = some deadline := by decide +kernel
  have hstall : ∀ ticks, (Script.stall ticks).Uses allowed :=
    fun _ => ⟨hclock, fun _ _ => trivial⟩
  have hinner : ((Script.stall 200).around (.done (.error .notFound))).Uncaught allowed :=
    Script.uncaught_around (hstall 200) (.plain trivial)
  have hthirty : (Handler.overdue.withTimeout (Duration.ofMillis 30)).Calm allowed u :=
    (hinner.enforced.timeout _).calm u
  have hlate : max (u.entered deadline).tick deadline.due.tick <
      (((Script.stall 200).around (.done (.error .notFound))).run (u.entered deadline)).2.tick := by
    decide +kernel
  obtain ⟨_, _, _, -, -, -, hdropped⟩ := Activity.run_withinTick_of_lt hlate
  have hexpires : Expires Handler.overdue (u.entered deadline) _ := .enforced rfl hdropped
  obtain ⟨_, _, hreturns⟩ := returns_withTimeout hnested (Prod.ext hexpires.run_fst rfl)
  have hcalm : Handler.nested.Calm allowed w := by
    refine .timeout fun other hother => ?_
    obtain rfl := Option.some.inj (houter.symm.trans hother)
    rw [Script.around_stall]
    refine .bind (.plain ⟨hclock, fun _ => trivial⟩) fun _ u' hslept => ?_
    cases hslept
    exact hthirty.recovering hcontext hreport hreturns
  have hcall : ∀ {α : Type} {q : Activity α} {v : World} {inside : List Enclosure},
      Begins (Calm allowed) q v (Handler.overdue.withTimeout (Duration.ofMillis 30)) u inside →
        v.tick ≤ max w.tick deadline.due.tick →
          Begins (Calm allowed) q v Handler.nested w
            (inside ++ [⟨w, Duration.ofMillis 50⟩]) := by
    intro α q v inside hbegins htick
    refine .timeout houter ?_ htick
    rw [Script.around_stall]
    exact .rest (.plain ⟨hclock, fun _ => trivial⟩) rfl (.first (.caught hbegins))
  have hoverdue : Begins (Calm allowed) Handler.overdue (u.entered deadline)
      (Handler.overdue.withTimeout (Duration.ofMillis 30)) u
      ([] ++ [⟨u, Duration.ofMillis 30⟩]) :=
    .timeout hnested .here (by decide +kernel)
  exact ⟨u, u.entered deadline, _, hcalm, hinner.calm _, hcall .here (by decide +kernel),
    hcall hoverdue (by decide +kernel), hexpires, rfl, rfl, rfl, rfl⟩

theorem deadline_least_nested :
    ∃ inside u x, Begins (Calm Action.KeepsScope) Handler.overdue u Handler.nested
        (World.start Request.forRoot) inside ∧
      inside.map Enclosure.duration = [Duration.ofMillis 30, Duration.ofMillis 50] ∧
      Expires Handler.overdue u x ∧
      (Handler.overdue.run u).1 = .ok (.error (.timeout (Duration.ofMillis 50))) ∧
      Enclosure.Least inside (some ⟨⟨50000000⟩, Duration.ofMillis 50⟩) := by
  obtain ⟨_, u, x, hnested, -, -, hbegins, hexpires, -, hopened, -, hdeadline⟩ :=
    Handler.nested_expires Action.KeepsScope trivial trivial fun _ => trivial
  obtain ⟨hreport, -, hleast⟩ := (deadline_least hnested rfl).2.2 _ _ _ _ hbegins hexpires
  rw [hopened] at hleast
  rw [hdeadline] at hreport hleast
  exact ⟨_, u, x, hbegins, rfl, hexpires, hreport, hleast⟩

end HttpRouting
