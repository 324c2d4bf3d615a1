import HttpRouting.Proofs.OverriddenMethod

/-!
# Overriding a method twice

The hook that gives a request the method that it stands for changes nothing else, and nothing where
it fails.  What it reads to find the method is what it leaves alone, so it is done after one run: a
second one ends as the first did and changes nothing.
-/

namespace HttpRouting

namespace MethodOverride

variable {o : MethodOverride} {q : Request} {m : Method} {w : World}

/-! ## What one run does -/

/-- How the hook ends for a request. -/
def ending (o : MethodOverride) (q : Request) : Except Failure Unit :=
  (o.substitute q).map fun _ => ()

def settled (o : MethodOverride) (q : Request) : Request :=
  match o.substitute q with
  | .ok (some m) => q.setMethod m
  | .ok none | .error _ => q

def reported (o : MethodOverride) (q : Request) : List Event :=
  match o.substitute q with
  | .ok (some m) => [overridden q m]
  | .ok none | .error _ => []

def settledWorld (o : MethodOverride) (w : World) : World :=
  { w with
    context := { w.context with request := o.settled w.context.request }
    events := w.events ++ (o.reported w.context.request).map (w.tick, ·) }

theorem run_hook_settled (o : MethodOverride) (w : World) :
    o.hook.before.run w = (.ok (o.ending w.context.request), o.settledWorld w) := by
  rw [run_hook, ending, settledWorld, settled, reported]
  rcases o.substitute w.context.request with failure | _ | m
  · simp [Except.map]
  · simp [Except.map]
  · rfl

theorem setMethod_settled (o : MethodOverride) (q : Request) :
    q.setMethod (o.settled q).method = o.settled q := by
  rw [settled]
  split <;> rfl

theorem settled_eq_self (h : ∀ m, o.substitute q ≠ .ok (some m)) : o.settled q = q := by
  rw [settled]
  split
  · next m hfound => exact absurd hfound (h m)
  · rfl
  · rfl

theorem settledWorld_eq_self (h : ∀ m, o.substitute w.context.request ≠ .ok (some m)) :
    o.settledWorld w = w := by
  have hsilent : o.reported w.context.request = [] := by
    rw [reported]
    split
    · next m hfound => exact absurd hfound (h m)
    · rfl
    · rfl
  simp [settledWorld, settled_eq_self h, hsilent]

/-! ## What a second run does -/

theorem substitute_of_ne_post (h : q.method ≠ Method.post) : o.substitute q = .ok none := if_neg h

theorem method_of_substitute (h : o.substitute q = .ok (some m)) : q.method = Method.post := by
  by_contra hother
  rw [substitute_of_ne_post hother] at h
  cases h

theorem substitute_setMethod (h : o.substitute q = .ok (some m)) :
    o.substitute (q.setMethod m) = .ok none ∨ q.setMethod m = q := by
  by_cases hpost : m = Method.post
  · right
    rw [hpost, ← method_of_substitute h]
    rfl
  · exact .inl (substitute_of_ne_post hpost)

theorem settled_settled (o : MethodOverride) (q : Request) :
    o.settled (o.settled q) = o.settled q ∧ o.ending (o.settled q) = o.ending q := by
  by_cases hfound : ∃ m, o.substitute q = .ok (some m)
  · obtain ⟨m, hm⟩ := hfound
    have hleft : o.settled q = q.setMethod m := by rw [settled, hm]
    rcases substitute_setMethod hm with hnone | hsame
    · rw [hleft, settled, ending, ending, hnone, hm]
      exact ⟨rfl, rfl⟩
    · rw [hsame] at hleft
      rw [hleft]
      exact ⟨hleft, rfl⟩
  · have hleft : o.settled q = q := settled_eq_self fun m hm => hfound ⟨m, hm⟩
    rw [hleft]
    exact ⟨hleft, rfl⟩

/-- Whatever the field of its form, the hook ends without a panic, changes only the method of the
request, and that of a `POST` only, to the one that it asks for, and nothing at all where it fails.
Run again in the context that it leaves, it ends in the same way and leaves the same context. -/
theorem hook_repeated (o : MethodOverride) (w : World) :
    ∃ ending v, o.hook.before.run w = (.ok ending, v) ∧
      v = { w.sentAs v.context.method with events := v.events } ∧
      (w.context.method ≠ Method.post → ending = .ok () ∧ v = w) ∧
      (∀ s m, w.context.method = Method.post → o.Asks w.context.request s →
        m.text = (Text.trimmed s).toUpper → v.context.method = m) ∧
      (∀ failure, ending = .error failure → v = w) ∧
      ∀ z : World, z.context = v.context →
        ∃ u, o.hook.before.run z = (.ok ending, u) ∧ u.context = z.context := by
  refine ⟨_, _, run_hook_settled o w, ?_, ?_, ?_, ?_, ?_⟩
  · have hmethod := setMethod_settled o w.context.request
    simp only [settledWorld, World.sentAs, Context.method, hmethod]
  · intro hother
    have hnone : o.substitute w.context.request = .ok none := substitute_of_ne_post hother
    constructor
    · rw [ending, hnone]
      rfl
    · exact settledWorld_eq_self (by simp [hnone])
  · intro s m hpost hasks hm
    have hfound : o.substitute w.context.request = .ok (some m) := by
      rw [substitute_of_asks hpost hasks, ← hm, Method.parse?_text]
    simp only [settledWorld, settled, hfound]
    rfl
  · intro failure hfailed
    apply settledWorld_eq_self
    intro m hm
    rw [ending, hm] at hfailed
    contradiction
  · intro z hcontext
    have hrequest : z.context.request = o.settled w.context.request := by
      rw [hcontext]
      rfl
    obtain ⟨hsettled, hending⟩ := settled_settled o w.context.request
    refine ⟨o.settledWorld z, ?_, ?_⟩
    · rw [run_hook_settled, hrequest, hending]
    · simp only [settledWorld, hrequest, hsettled]
      rw [← hrequest]

end MethodOverride

def Request.insistent : Request :=
  { Request.form with body := Text.Utf8.encode "_method=post&_method=PUT" }

theorem MethodOverride.hook_repeated_insistent :
    (∃ v u, standard.hook.before.run (World.start Request.insistent) = (.ok (.ok ()), v) ∧
      v.events ≠ [] ∧ v.context.method = Method.post ∧
        standard.hook.before.run v = (.ok (.ok ()), u) ∧ u.context = v.context) ∧
      ∃ u, standard.hook.before.run (World.start Request.misnamed) =
          (.ok (.error (.badRequest Method.invalidText)), World.start Request.misnamed) ∧
        standard.hook.before.run (World.start Request.misnamed) =
          (.ok (.error (.badRequest Method.invalidText)), u) ∧
        u.context = (World.start Request.misnamed).context := by
  constructor
  · obtain ⟨ending, v, hrun, -, -, hgives, -, hagain⟩ :=
      hook_repeated standard (World.start Request.insistent)
    have hending : (standard.hook.before.run (World.start Request.insistent)).1 =
        .ok (.ok ()) := by decide +kernel
    have hevents : (standard.hook.before.run (World.start Request.insistent)).2.events ≠ [] := by
      decide +kernel
    rw [hrun] at hending hevents
    cases hending
    have hdecode : Text.Form.decode Request.insistent.body =
        [] ++ ("_method", "post") :: [("_method", "PUT")] := by decide +kernel
    have hasks : standard.Asks Request.insistent "post" :=
      .form (by decide +kernel) (by decide +kernel) hdecode (by simp)
    have hmethod := hgives "post" Method.post rfl hasks (by decide +kernel)
    obtain ⟨u, hrun', hcontext⟩ := hagain v rfl
    exact ⟨v, u, hrun, hevents, hmethod, hrun', hcontext⟩
  · obtain ⟨ending, v, hrun, -, -, -, hfails, hagain⟩ :=
      hook_repeated standard (World.start Request.misnamed)
    have hending : (standard.hook.before.run (World.start Request.misnamed)).1 =
        .ok (.error (.badRequest Method.invalidText)) := by decide +kernel
    rw [hrun] at hending
    cases hending
    obtain rfl := hfails _ rfl
    obtain ⟨u, hrun', hcontext⟩ := hagain _ rfl
    exact ⟨u, hrun, hrun', hcontext⟩

end HttpRouting
