import HttpRouting.Application.Live

/-!
# Runs under a bound

An activity bounded by a tick runs as it would alone if it ends by that tick or
needs no wait beyond it.  Otherwise it is stopped where it would begin to wait for a
later tick: the run goes through the same states up to there, and nothing of the
activity happens afterwards.
-/

namespace HttpRouting

namespace Activity

variable {α β : Type}

/-- A run goes through a state: an activity that is left to do, and a world. -/
inductive Passes : Activity α → World → Activity α → World → Prop where
  | here (p : Activity α) (w : World) : Passes p w p w
  | later {p q : Activity α} {w v : World} :
      Passes (p.step w).1 (p.step w).2 q v → Passes p w q v

theorem Passes.run_eq {p q : Activity α} {w v : World} (h : Passes p w q v) :
    p.run w = q.run v := by
  induction h with
  | here p w => rfl
  | later _ ih => rw [← ih, run_step]

theorem uses_withinTick {allowed : Action → Prop} (hclock : allowed .clock) {p : Activity α}
    (h : p.Uses allowed) (bound : Nat) : (p.withinTick bound).Uses allowed := by
  induction p with
  | done | panic => trivial
  | act action rest ih => exact ⟨h.1, fun reply => ih reply (h.2 reply)⟩
  | sleep tick rest ih =>
      simp only [withinTick]
      split
      · exact ih h
      · refine ⟨hclock, fun now => ?_⟩
        simp only
        split
        · exact ih h
        · trivial

theorem withinTick_bind (bound : Nat) (p : Activity α) (next : α → Activity β) :
    (p.bind next).withinTick bound =
      (p.withinTick bound).bind fun
        | some value => (next value).withinTick bound
        | none => .done none := by
  induction p with
  | done | panic => rfl
  | act action rest ih => simp only [bind, withinTick, ih]
  | sleep tick rest ih =>
      simp only [bind, withinTick]
      split
      · simp only [bind, ih]
      · simp only [bind, act.injEq, heq_eq_eq, true_and]
        funext now
        split
        · exact ih
        · rfl

theorem run_withinTick_sleep (bound tick : Nat) (rest : Activity α) (w : World) :
    ((Activity.sleep tick rest).withinTick bound).run w =
      if tick ≤ max w.tick bound then
        (rest.withinTick bound).run { w with tick := max w.tick tick }
      else (.ok none, { w with tick := max w.tick bound }) := by
  rw [withinTick]
  by_cases hwithin : tick ≤ bound
  · rw [if_pos hwithin, if_pos (by omega)]
    rfl
  · rw [if_neg hwithin]
    by_cases hcome : tick ≤ w.tick
    · have hsame : { w with tick := max w.tick tick } = w := by rw [Nat.max_eq_left hcome]
      simp only [run, Action.perform, hcome, if_true]
      rw [if_pos (by omega), hsame]
    · simp only [run, Action.perform, hcome, if_false]
      rw [if_neg (by omega)]

theorem run_withinTick_of_le {bound : Nat} {p : Activity α} {w : World}
    (h : (p.run w).2.tick ≤ max w.tick bound) :
    (p.withinTick bound).run w = ((p.run w).1.map some, (p.run w).2) := by
  induction p generalizing w with
  | done | panic => rfl
  | act action rest ih =>
      have hrest := ih (action.perform w).1 (w := (action.perform w).2)
      rw [tick_perform] at hrest
      exact hrest h
  | sleep tick rest ih =>
      have hreached := tick_le_run rest { w with tick := max w.tick tick }
      simp only [run] at h hreached
      have hlimit : max (max w.tick tick) bound = max w.tick bound := by omega
      have hrest := ih (w := { w with tick := max w.tick tick })
      simp only [hlimit] at hrest
      rw [run_withinTick_sleep, if_pos (by omega), hrest h]
      rfl

theorem run_withinTick_of_lt {bound : Nat} {p : Activity α} {w : World}
    (h : max w.tick bound < (p.run w).2.tick) :
    ∃ tick rest v, Passes p w (.sleep tick rest) v ∧ v.tick ≤ max w.tick bound ∧
      max w.tick bound < tick ∧
        (p.withinTick bound).run w = (.ok none, { v with tick := max w.tick bound }) := by
  induction p generalizing w with
  | done | panic =>
      simp only [run] at h
      omega
  | act action rest ih =>
      have hrest := ih (action.perform w).1 (w := (action.perform w).2)
      rw [tick_perform] at hrest
      obtain ⟨tick, left, v, hpasses, hv⟩ := hrest h
      exact ⟨tick, left, v, .later hpasses, hv⟩
  | sleep tick rest ih =>
      simp only [run] at h
      rw [run_withinTick_sleep]
      split
      · next hcome =>
          have hlimit : max (max w.tick tick) bound = max w.tick bound := by omega
          have hrest := ih (w := { w with tick := max w.tick tick })
          simp only [hlimit] at hrest
          obtain ⟨tick', left, v, hpasses, hv⟩ := hrest h
          exact ⟨tick', left, v, .later hpasses, hv⟩
      · exact ⟨tick, rest, w, .here _ w, Nat.le_max_left _ _, by omega, rfl⟩

theorem tick_run_withinTick_le (bound : Nat) (p : Activity α) (w : World) :
    ((p.withinTick bound).run w).2.tick ≤ max w.tick bound := by
  rcases Nat.lt_or_ge (max w.tick bound) (p.run w).2.tick with hlt | hle
  · obtain ⟨tick, rest, v, -, -, -, hrun⟩ := run_withinTick_of_lt hlt
    exact Nat.le_of_eq (by rw [hrun])
  · rw [run_withinTick_of_le hle]
    exact hle

theorem tick_run_withinTick_le_run (bound : Nat) (p : Activity α) (w : World) :
    ((p.withinTick bound).run w).2.tick ≤ (p.run w).2.tick := by
  rcases Nat.lt_or_ge (max w.tick bound) (p.run w).2.tick with hlt | hle
  · exact Nat.le_trans (tick_run_withinTick_le bound p w) (Nat.le_of_lt hlt)
  · exact Nat.le_of_eq (by rw [run_withinTick_of_le hle])

theorem run_withinTick_ne_none {bound : Nat} {p : Activity α} {w v : World}
    (h : (p.run w).2.tick ≤ max w.tick bound) : (p.withinTick bound).run w ≠ (.ok none, v) := by
  rw [run_withinTick_of_le h]
  rcases p.run w with ⟨_ | value, u⟩ <;> simp [Except.map]

theorem run_of_run_withinTick {bound : Nat} {p : Activity α} {w v : World} {value : α}
    (h : (p.withinTick bound).run w = (.ok (some value), v)) : p.run w = (.ok value, v) := by
  rcases Nat.lt_or_ge (max w.tick bound) (p.run w).2.tick with hlt | hle
  · obtain ⟨tick, rest, v', -, -, -, hrun⟩ := run_withinTick_of_lt hlt
    rw [hrun] at h
    cases h
  · rw [run_withinTick_of_le hle] at h
    rcases hp : p.run w with ⟨_ | value', v'⟩ <;> rw [hp] at h <;> cases h
    rfl

theorem run_of_panic_withinTick {bound : Nat} {p : Activity α} {w v : World} {reason : Panic}
    (h : (p.withinTick bound).run w = (.error reason, v)) : p.run w = (.error reason, v) := by
  rcases Nat.lt_or_ge (max w.tick bound) (p.run w).2.tick with hlt | hle
  · obtain ⟨tick, rest, v', -, -, -, hrun⟩ := run_withinTick_of_lt hlt
    rw [hrun] at h
    cases h
  · rw [run_withinTick_of_le hle] at h
    rcases hp : p.run w with ⟨_ | value, v'⟩ <;> rw [hp] at h <;> cases h
    rfl

theorem run_of_dropped_withinTick {bound outer : Nat} {p : Activity α} {w v : World}
    (h : ((p.withinTick bound).withinTick outer).run w = (.ok none, v)) :
    (p.withinTick outer).run w = (.ok none, v) := by
  induction p generalizing w with
  | done | panic => cases h
  | act action rest ih => exact ih _ h
  | sleep tick rest ih =>
      rw [run_withinTick_sleep]
      rw [withinTick] at h
      by_cases hwithin : tick ≤ bound
      · rw [if_pos hwithin, run_withinTick_sleep] at h
        split at h
        · next hcome => rw [if_pos hcome, ih h]
        · next hwaits =>
            cases h
            rw [if_neg hwaits]
      · rw [if_neg hwithin] at h
        change ((if tick ≤ w.tick then rest.withinTick bound
          else .sleep bound (.done none)).withinTick outer).run w = _ at h
        by_cases hcome : tick ≤ w.tick
        · have hsame : { w with tick := max w.tick tick } = w := by rw [Nat.max_eq_left hcome]
          rw [if_pos hcome] at h
          rw [if_pos (by omega), hsame, ih h]
        · rw [if_neg hcome, run_withinTick_sleep] at h
          split at h
          · cases h
          · cases h
            rw [if_neg (by omega)]

end Activity

end HttpRouting
