import HttpRouting.Pipeline.Responder

/-!
# Responders inside responders

A responder is read from the outside in until it ends: at a failure, or at a response.  A failure
is the outcome as it is, whatever stands around it.  A response keeps its headers and its body, and
has the outermost of the statuses around it.
-/

namespace HttpRouting.Responder

variable {r : Responder} {outcome : Outcome}

/-- What the way into a responder ends at.  Nothing on the way changes it. -/
inductive LeadsTo : Responder → Outcome → Prop where
  | unit : LeadsTo .unit (.ok (Response.ofBody Body.empty))
  | text (s : String) : LeadsTo (.text s) (.ok (Response.plainText Status.ok s))
  | response (r : RawResponse) : LeadsTo (.response r) (.ok r.response)
  | failure (f : Failure) : LeadsTo (.failure f) (.error f)
  | absent : LeadsTo .absent (.error .notFound)
  | err (cause : Cause) : LeadsTo (.err cause) (.error cause.failure)
  | present {inner : Responder} {outcome : Outcome} :
      LeadsTo inner outcome → LeadsTo (.present inner) outcome
  | ok {inner : Responder} {outcome : Outcome} :
      LeadsTo inner outcome → LeadsTo (.ok inner) outcome
  | status {inner : Responder} {outcome : Outcome} (code : Status) :
      LeadsTo inner outcome → LeadsTo (.status code inner) outcome
  | boxed {inner : Responder} {outcome : Outcome} :
      LeadsTo inner outcome → LeadsTo (.boxed inner) outcome

def statuses : Responder → List Status
  | .status code inner => code :: inner.statuses
  | .present inner | .ok inner | .boxed inner => inner.statuses
  | _ => []

theorem exists_leadsTo (r : Responder) : ∃ outcome, LeadsTo r outcome := by
  induction r with
  | unit => exact ⟨_, .unit⟩
  | text s => exact ⟨_, .text s⟩
  | response r => exact ⟨_, .response r⟩
  | failure f => exact ⟨_, .failure f⟩
  | absent => exact ⟨_, .absent⟩
  | err cause => exact ⟨_, .err cause⟩
  | present inner ih => exact ih.imp fun _ => .present
  | ok inner ih => exact ih.imp fun _ => .ok
  | status code inner ih => exact ih.imp fun _ => .status code
  | boxed inner ih => exact ih.imp fun _ => .boxed

/-- The response with the first of some statuses, or with its own where there is none. -/
def labelled (codes : List Status) (leaf : Response) : Response :=
  { leaf with status := codes.headD leaf.status }

theorem answer_eq_of_leadsTo (h : LeadsTo r outcome) :
    r.answer = outcome.map (labelled r.statuses) := by
  induction h with
  | unit | text | response | failure | absent | err => rfl
  | present _ ih => exact ih
  | ok _ ih => exact ih
  | boxed _ ih => exact ih
  | @status inner outcome code _ ih =>
      rw [answer, ih]
      cases outcome <;> rfl

/-- The outcome of a responder is a failure exactly if the way in ends at this failure, and then no
status on the way counts.  Otherwise it is the response at which the way in ends, with no change
but to the status, which is the outermost on the way, if there is one. -/
theorem answer_nested (r : Responder) :
    (∀ failure, r.answer = .error failure ↔ LeadsTo r (.error failure)) ∧
      ∀ response, r.answer = .ok response ↔
        ∃ leaf, LeadsTo r (.ok leaf) ∧
          response = { leaf with status := r.statuses.headD leaf.status } := by
  obtain ⟨outcome, hleads⟩ := exists_leadsTo r
  constructor
  · intro failure
    constructor
    · intro hfailed
      rw [answer_eq_of_leadsTo hleads] at hfailed
      cases outcome with
      | error own =>
          cases hfailed
          exact hleads
      | ok leaf => contradiction
    · exact answer_eq_of_leadsTo
  · intro response
    constructor
    · intro hanswered
      rw [answer_eq_of_leadsTo hleads] at hanswered
      cases outcome with
      | error own => contradiction
      | ok leaf =>
          cases hanswered
          exact ⟨leaf, hleads, rfl⟩
    · rintro ⟨leaf, hleaf, rfl⟩
      exact answer_eq_of_leadsTo hleaf

theorem answer_nested_created :
    answer (.status ⟨201⟩ (.present (.status ⟨404⟩ (.boxed (.ok (.text "made")))))) =
      .ok { Response.plainText Status.ok "made" with status := ⟨201⟩ } ∧
    answer (.status ⟨201⟩ (.ok (.status ⟨404⟩ (.present (.err .invalidMethod))))) =
      .error (.badRequest Method.invalidText) := by
  constructor
  · exact ((answer_nested _).2 _).mpr
      ⟨_, .status _ (.present (.status _ (.boxed (.ok (.text "made"))))), rfl⟩
  · exact ((answer_nested _).1 _).mpr
      (.status _ (.ok (.status _ (.present (.err .invalidMethod)))))

end HttpRouting.Responder
