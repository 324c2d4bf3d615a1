import HttpRouting.Proofs.BoundedRun

/-!
# The bindings of a run

A run binds the request to a route any number of times, also through the applications that it
calls.  The context tells the last binding, or what it told before where there is none.
-/

namespace HttpRouting

def Action.KeepsRoute : Action → Prop
  | .bind _ _ => False
  | _ => True

structure Binding where
  entry : World
  route : RouteId
  params : PathParams

namespace Activity

variable {α β γ : Type}

/-! ## The bindings of a run -/

def binding? : Activity α → World → Option Binding
  | .act (.bind route params) _, w => some ⟨w, route, params⟩
  | _, _ => none

/-- A run leads to a point through some bindings, the first of them first. -/
inductive Leads : Activity α → World → List Binding → Activity α → World → Prop where
  | here (p : Activity α) (w : World) : Leads p w [] p w
  | later {p q : Activity α} {w v : World} {made : List Binding} :
      Leads (p.step w).1 (p.step w).2 made q v →
        Leads p w ((p.binding? w).toList ++ made) q v

variable {p q r : Activity α} {w v u : World} {made more : List Binding}

theorem Leads.trans (first : Leads p w made q v) (second : Leads q v more r u) :
    Leads p w (made ++ more) r u := by
  induction first with
  | here => exact second
  | later _ ih =>
      rw [List.append_assoc]
      exact .later (ih second)

theorem Passes.exists_leads (h : Passes p w q v) : ∃ made, Leads p w made q v := by
  induction h with
  | here => exact ⟨[], .here _ _⟩
  | later _ ih =>
      obtain ⟨made, hleads⟩ := ih
      exact ⟨_, .later hleads⟩

theorem binding?_eq_none {action : Action} (h : action.KeepsRoute)
    (rest : action.Reply → Activity α) (w : World) : binding? (.act action rest) w = none := by
  cases action with
  | bind => exact h.elim
  | _ => rfl

theorem Leads.act {action : Action} (h : action.KeepsRoute) {rest : action.Reply → Activity α}
    (hrest : Leads (rest (action.perform w).1) (action.perform w).2 made q v) :
    Leads (.act action rest) w made q v := by
  have hleads := Leads.later (p := .act action rest) (w := w) hrest
  rwa [binding?_eq_none h] at hleads

end Activity

/-- What a context tells after some bindings: the last of them, or what it told before. -/
def World.told (w : World) (made : List Binding) : Option RouteId × PathParams :=
  match made.getLast? with
  | some b => (some b.route, b.params)
  | none => (w.context.route, w.context.params)

namespace Activity

variable {α β γ : Type} {p q r : Activity α} {w v u : World} {made more : List Binding}

theorem told_step (p : Activity α) (w : World) (made : List Binding) :
    (p.step w).2.told made = w.told ((p.binding? w).toList ++ made) := by
  have hlast : ((p.binding? w).toList ++ made).getLast? = made.getLast?.or (p.binding? w) := by
    cases p.binding? w <;> simp [List.getLast?_cons]
  unfold World.told
  rw [hlast]
  cases made.getLast? with
  | some b => rfl
  | none =>
      cases p with
      | done | panic | sleep => rfl
      | act action rest => cases action <;> rfl

theorem Leads.told (h : Leads p w made q v) :
    (v.context.route, v.context.params) = w.told made := by
  induction h with
  | here => rfl
  | later _ ih => rw [ih, told_step]

/-! ## What is bound along a run -/

def BindsAlong (J : Binding → Prop) : Activity α → World → Prop
  | .done _, _ | .panic _, _ => True
  | .sleep tick rest, w => rest.BindsAlong J { w with tick := max w.tick tick }
  | .act action rest, w =>
      (∀ route params, action = .bind route params → J ⟨w, route, params⟩) ∧
        (rest (action.perform w).1).BindsAlong J (action.perform w).2

variable {J : Binding → Prop}

theorem Leads.forall_of_bindsAlong (h : Leads p w made q v) (hp : p.BindsAlong J w) :
    ∀ b ∈ made, J b := by
  induction h with
  | here => simp
  | @later p q w v made _ ih =>
      cases p with
      | done | panic => exact ih hp
      | sleep tick rest => exact ih hp
      | act action rest =>
          intro b hb
          rcases List.mem_append.mp hb with hb | hb
          · cases action with
            | bind route params =>
                cases List.mem_singleton.mp hb
                exact hp.1 route params rfl
            | _ => cases hb
          · exact ih hp.2 b hb

theorem BindsAlong.act {action : Action} (h : action.KeepsRoute)
    {rest : action.Reply → Activity α}
    (hrest : (rest (action.perform w).1).BindsAlong J (action.perform w).2) :
    (Activity.act action rest).BindsAlong J w := by
  refine ⟨?_, hrest⟩
  rintro route params rfl
  exact h.elim

theorem Uses.bindsAlong (hp : p.Uses Action.KeepsRoute) : p.BindsAlong J w := by
  induction p generalizing w with
  | done | panic => trivial
  | sleep tick rest ih => exact ih hp
  | act action rest ih => exact .act hp.1 (ih _ (hp.2 _))

theorem BindsAlong.bind {next : α → Activity β} (hp : p.BindsAlong J w)
    (hnext : ∀ value u, p.run w = (.ok value, u) → (next value).BindsAlong J u) :
    (p.bind next).BindsAlong J w := by
  induction p generalizing w with
  | done value => exact hnext value w rfl
  | panic => trivial
  | sleep tick rest ih => exact ih hp hnext
  | act action rest ih => exact ⟨hp.1, ih _ hp.2 hnext⟩

theorem BindsAlong.contained (hp : p.BindsAlong J w) : p.contained.BindsAlong J w := by
  induction p generalizing w with
  | done | panic => trivial
  | sleep tick rest ih => exact ih hp
  | act action rest ih => exact ⟨hp.1, ih _ hp.2⟩

theorem BindsAlong.withinTick (hp : p.BindsAlong J w) (bound : Nat) :
    (p.withinTick bound).BindsAlong J w := by
  induction p generalizing w with
  | done | panic => trivial
  | act action rest ih => exact ⟨hp.1, ih _ hp.2⟩
  | sleep tick rest ih =>
      simp only [Activity.withinTick]
      split
      · exact ih hp
      · refine .act (by trivial) ?_
        by_cases hcome : tick ≤ w.tick
        · have hsame : { w with tick := max w.tick tick } = w := by rw [Nat.max_eq_left hcome]
          rw [BindsAlong, hsame] at hp
          simpa only [Action.perform, hcome, if_true] using ih hp
        · simp only [Action.perform, hcome, if_false]
          trivial

end Activity

namespace World

theorem told_fst_eq_none_iff {w : World} (h : w.context.route = none) {made : List Binding} :
    (w.told made).1 = none ↔ made = [] := by
  unfold told
  cases hlast : made.getLast? with
  | none => simpa [h] using List.getLast?_eq_none_iff.mp hlast
  | some b =>
      have hne : made ≠ [] := by
        rintro rfl
        simp at hlast
      simp [hne]

end World

end HttpRouting
