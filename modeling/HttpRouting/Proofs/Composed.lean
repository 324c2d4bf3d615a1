import HttpRouting.Proofs.Along

/-!
# What is put together from given parts

Handlers and layers are put together from parts: one after another, under timeouts and enforced
deadlines, under bounds of their own, with panics contained.  A property of the present
scope that the parts keep, and that a timeout keeps where it enters its scope, holds all along
what is put together from them.
-/

namespace HttpRouting

open Activity

namespace Activity

inductive Composed (leaf : {α : Type} → Activity α → Prop) : {α : Type} → Activity α → Prop where
  | leaf {α : Type} {p : Activity α} : leaf p → Composed leaf p
  | bind {α β : Type} {p : Activity α} {next : α → Activity β} :
      Composed leaf p → (∀ value, Composed leaf (next value)) → Composed leaf (p.bind next)
  | timeout {h : Handler} (duration : Duration) :
      Composed leaf h → Composed leaf (h.withTimeout duration)
  | enforced {h : Handler} : Composed leaf h → Composed leaf h.withDeadline
  | caught {α : Type} {p : Activity α} : Composed leaf p → Composed leaf p.contained
  | within {α : Type} {p : Activity α} (bound : Nat) :
      Composed leaf p → Composed leaf (p.withinTick bound)

/-- The activities that leave scopes to the library. -/
def Plain {α : Type} (p : Activity α) : Prop := p.Uses Action.KeepsScope

variable {α : Type} {p : Activity α} {leaf : {α : Type} → Activity α → Prop} {I : World → Prop}

theorem Composed.along (hI : World.Lasting I)
    (hentered : ∀ {w : World} {duration : Duration} {deadline : Deadline}, I w →
      w.deadline? duration = some deadline → I (w.entered deadline))
    (hleaf : ∀ {γ : Type} (r : Activity γ) (w : World), leaf r → I w → Along I r w)
    (hp : p.Composed leaf) {w : World} (hw : I w) : Along I p w := by
  induction hp generalizing w with
  | leaf hr => exact hleaf _ w hr hw
  | bind _ _ ih ihnext =>
      exact along_bind (ih hw) fun value u hrun => ihnext value ((ih hw).of_run hrun)
  | timeout duration _ ih =>
      refine along_withTimeout hI hw fun deadline hdeadline => ?_
      exact (ih (hentered hw hdeadline)).mono fun _ hv _ => hv
  | enforced _ ih =>
      exact along_withDeadline hI hw (fun _ => ih hw) fun _ _ => (ih hw).mono fun _ hv _ => hv
  | caught _ ih => exact along_contained (ih hw)
  | within bound _ ih => exact along_withinTick hI.later ((ih hw).mono fun _ hv _ => hv)

end Activity

/-! ## The deadline in force -/

namespace World

/-- Whether a deadline is in force that ends by a tick. -/
def DueBy (bound : Nat) (w : World) : Prop :=
  ∃ deadline, w.context.deadline = some deadline ∧ deadline.due.tick ≤ bound

theorem lasting_dueBy (bound : Nat) : Lasting (DueBy bound) := by
  rintro w v ⟨deadline, hdeadline, hdue⟩ hsame -
  exact ⟨deadline, hsame.deadline.trans hdeadline, hdue⟩

theorem dueBy_entered (w : World) (deadline : Deadline) :
    (w.entered deadline).DueBy deadline.due.tick :=
  ⟨deadline, rfl, Nat.le_refl _⟩

theorem DueBy.entered {bound : Nat} {w : World} (hw : w.DueBy bound) {duration : Duration}
    {deadline : Deadline} (hdeadline : w.deadline? duration = some deadline) :
    (w.entered deadline).DueBy bound := by
  obtain ⟨outer, houter, hdue⟩ := hw
  exact ⟨deadline, rfl, Nat.le_trans (due_deadline?_le hdeadline houter) hdue⟩

end World

namespace Activity

variable {α : Type} {p : Activity α} {leaf : {α : Type} → Activity α → Prop}

/-- Whether a deadline in force is never put off, in any world that a run goes through. -/
def KeepsDue {α : Type} (p : Activity α) : Prop :=
  ∀ bound w, World.DueBy bound w → Along (World.DueBy bound) p w

def EndsInTime {α : Type} (p : Activity α) : Prop :=
  ∀ bound w, World.DueBy bound w → (p.run w).2.tick ≤ max w.tick bound

theorem endsInTime_withDeadline (h : Handler) : EndsInTime h.withDeadline := by
  rintro bound w ⟨deadline, hdeadline, hbound⟩
  have htick := Handler.tick_run_withDeadline_le hdeadline h
  omega

theorem Plain.keepsDue (hp : p.Plain) : p.KeepsDue :=
  fun bound _ hw => Uses.along_lasting (World.lasting_dueBy bound) hp hw

theorem Composed.keepsDue (hleaf : ∀ {γ : Type} (r : Activity γ), leaf r → r.KeepsDue)
    (hp : p.Composed leaf) : p.KeepsDue :=
  fun bound _ hw => hp.along (World.lasting_dueBy bound) (fun hv => hv.entered)
    (fun r w hr hw => hleaf r hr bound w hw) hw

theorem Composed.endsInTime (hdue : ∀ {γ : Type} (r : Activity γ), leaf r → r.KeepsDue)
    (hends : ∀ {γ : Type} (r : Activity γ), leaf r → r.EndsInTime) (hp : p.Composed leaf) :
    p.EndsInTime := by
  intro bound w hw
  induction hp generalizing w with
  | leaf hr => exact hends _ hr bound w hw
  | @bind _ _ p next hp _ ih ihnext =>
      have hfirst := ih w hw
      have hafter := (hp.keepsDue hdue bound w hw).run
      rw [run_bind]
      rcases hrun : p.run w with ⟨_ | value, u⟩ <;> rw [hrun] at hfirst hafter
      · exact hfirst
      · have hrest := ihnext value u hafter
        simp only at hfirst hrest ⊢
        omega
  | @timeout h duration _ _ =>
      cases hdeadline : w.deadline? duration with
      | none =>
          rw [Handler.run_withTimeout_none hdeadline]
          exact Nat.le_max_left _ _
      | some deadline =>
          obtain ⟨outer, houter, hbound⟩ := hw
          have htick := Handler.tick_run_withTimeout_le hdeadline h
          have htighter := World.due_deadline?_le hdeadline houter
          omega
  | enforced _ _ => exact endsInTime_withDeadline _ bound w hw
  | caught _ ih =>
      rw [run_contained]
      exact ih w hw
  | within own _ ih =>
      exact Nat.le_trans (tick_run_withinTick_le_run own _ w) (ih w hw)

/-! ## The tokens inside -/

theorem Composed.along_lineage (hp : p.Composed Plain) (w : World) :
    Along (fun v => w.context.token.lineage <:+ v.context.token.lineage) p w := by
  have hlasting : World.Lasting fun v => w.context.token.lineage <:+ v.context.token.lineage := by
    intro v u hv hsame _
    rwa [hsame.token]
  refine hp.along hlasting (fun hv _ => ?_) ?_ (List.suffix_refl _)
  · exact hv.trans (List.suffix_cons _ _)
  · exact fun r v hr hv => Uses.along_lasting hlasting hr hv

end Activity

end HttpRouting
