import HttpRouting.Application.Live
import Mathlib.Logic.Function.Iterate

/-!
# Dispatches among stores

Whatever is stored while a dispatch is under way, the dispatch is at a stage of the run of one
application alone: the one that was stored last before its first step.  What its own steps do
depends on no other move, so it ends after as many of them as that run has, with its answer.
-/

namespace HttpRouting

/-! ## An activity step by step -/

namespace Activity

variable {α : Type}

def advance (stage : Activity α × World) : Activity α × World := stage.1.step stage.2

def length : Activity α → World → Nat
  | .done _, _ | .panic _, _ => 0
  | .sleep tick rest, w => length rest { w with tick := max w.tick tick } + 1
  | .act action rest, w => length (rest (action.perform w).1) (action.perform w).2 + 1

theorem run_of_ended? {p : Activity α} {answer : Except Panic α} (h : p.ended? = some answer)
    (w : World) : p.run w = (answer, w) := by
  cases p with
  | done value | panic value =>
      cases h
      rfl
  | sleep tick rest | act action rest => contradiction

theorem run_iterate_advance (stage : Activity α × World) (n : Nat) :
    (advance^[n] stage).1.run (advance^[n] stage).2 = stage.1.run stage.2 := by
  induction n with
  | zero => rfl
  | succ n ih => rw [Function.iterate_succ_apply', advance, run_step, ih]

theorem ended?_iterate_advance (p : Activity α) (w : World) (n : Nat) :
    (advance^[n] (p, w)).1.ended? = if p.length w ≤ n then some (p.run w).1 else none := by
  induction p generalizing w n with
  | done value | panic value =>
      rw [Function.iterate_fixed rfl n]
      simp [length, run, ended?]
  | sleep tick rest ih =>
      cases n with
      | zero => simp [length, ended?]
      | succ n =>
          have hlater := ih { w with tick := max w.tick tick } n
          simpa [length, run, advance, step] using hlater
  | act action rest ih =>
      cases n with
      | zero => simp [length, ended?]
      | succ n =>
          have hlater := ih (action.perform w).1 (action.perform w).2 n
          simpa [length, run, advance, step] using hlater

end Activity

/-! ## One dispatch -/

namespace Flight

def stage (a : App) (request : Request) (n : Nat) : Flight :=
  .running (Activity.advance^[n] (a.dispatch, World.start request)).1
    (Activity.advance^[n] (a.dispatch, World.start request)).2

theorem resume_waiting (current : App) (request : Request) :
    resume current (.waiting request) = stage current request 1 := rfl

theorem resume_stage (current a : App) (request : Request) (n : Nat) :
    resume current (stage a request n) = stage a request (n + 1) := by
  rw [stage, stage, Function.iterate_succ_apply']
  rfl

/-- A dispatch has got as far as the dispatch of a request by one application alone gets in
some steps: it is answered if there are as many as the application takes for its answer, and
then leaves the world as the application does. -/
structure Follows (a : App) (request : Request) (steps : Nat) (flight : Flight) : Prop where
  stage : flight = .stage a request steps
  answer : flight.answer? =
    if a.dispatch.length (World.start request) ≤ steps then
      some (a.dispatch.run (World.start request)).1
    else none
  outcome : ∀ rest w answer, flight = .running rest w → rest.ended? = some answer →
    a.dispatch.run (World.start request) = (answer, w)

theorem follows_stage (a : App) (request : Request) (steps : Nat) :
    Follows a request steps (stage a request steps) := by
  refine ⟨rfl, Activity.ended?_iterate_advance _ _ steps, ?_⟩
  intro rest w answer hrunning hended
  obtain ⟨rfl, rfl⟩ := Flight.running.inj hrunning
  rw [← Activity.run_of_ended? hended]
  exact (Activity.run_iterate_advance (a.dispatch, World.start request) steps).symm

end Flight

/-! ## All dispatches -/

namespace Move

def request? : Move → Option Request
  | .arrive request => some request
  | _ => none

def stored? : Move → Option App
  | .store a => some a
  | _ => none

def resumes (i : Nat) : Move → Bool
  | .resume own => own == i
  | _ => false

theorem idle_or_resumed (i : Nat) (ms : List Move) :
    (∀ m ∈ ms, m.resumes i = false) ∨
      ∃ idle rest, ms = idle ++ .resume i :: rest ∧ ∀ m ∈ idle, m.resumes i = false := by
  cases hfound : ms.find? (resumes i) with
  | none => exact .inl (by simpa using hfound)
  | some m =>
      obtain ⟨hresumes, idle, rest, rfl, hidle⟩ := List.find?_eq_some_iff_append.mp hfound
      obtain rfl : m = .resume i := by
        cases m with
        | store a | arrive request => contradiction
        | resume own => exact congrArg Move.resume (eq_of_beq hresumes)
      exact .inr ⟨idle, rest, rfl, by simpa using hidle⟩

end Move

namespace Traffic

/-- The application that was stored last, or else the one that there was at first. -/
def lastStored (first : App) (ms : List Move) : App :=
  (ms.filterMap Move.stored?).getLast?.getD first

theorem moves_append (t : Traffic) (ms ms' : List Move) :
    t.moves (ms ++ ms') = (t.moves ms).moves ms' := List.foldl_append

theorem moves_cons (t : Traffic) (m : Move) (ms : List Move) :
    t.moves (m :: ms) = (t.move m).moves ms := rfl

theorem current_moves (t : Traffic) (ms : List Move) :
    (t.moves ms).current = lastStored t.current ms := by
  induction ms generalizing t with
  | nil => rfl
  | cons m ms ih =>
      rw [moves_cons, ih]
      cases m with
      | store a => simp [move, lastStored, Move.stored?, List.getLast?_cons]
      | arrive request | resume i => simp [move, lastStored, Move.stored?]

theorem length_flights_moves (t : Traffic) (ms : List Move) :
    (t.moves ms).flights.length = t.flights.length + (ms.filterMap Move.request?).length := by
  induction ms generalizing t with
  | nil => rfl
  | cons m ms ih =>
      rw [moves_cons, ih]
      cases m with
      | arrive request =>
          simp only [move, Move.request?, List.filterMap_cons, List.length_append,
            List.length_cons, List.length_nil]
          omega
      | store a | resume i => simp [move, Move.request?, List.filterMap_cons]

theorem length_flights (first : App) (ms : List Move) :
    ((start first).moves ms).flights.length = (ms.filterMap Move.request?).length := by
  rw [length_flights_moves, start, List.length_nil, Nat.zero_add]

theorem getElem?_moves_arrive (first : App) (ms : List Move) (request : Request) :
    ((start first).moves (ms ++ [.arrive request])).flights[
      (ms.filterMap Move.request?).length]? = some (.waiting request) := by
  rw [moves_append, ← length_flights first ms]
  exact List.getElem?_concat_length

theorem getElem?_move {t : Traffic} {i : Nat} {flight : Flight} (h : t.flights[i]? = some flight)
    (m : Move) :
    (t.move m).flights[i]? =
      some (if m.resumes i then flight.resume t.current else flight) := by
  cases m with
  | store a => exact h
  | arrive request =>
      have hlt : i < t.flights.length := (List.getElem?_eq_some_iff.mp h).1
      simpa [move, Move.resumes, List.getElem?_append_left hlt] using h
  | resume own =>
      by_cases hown : own = i <;> simp [move, Move.resumes, h, hown]

theorem getElem?_moves_of_idle {t : Traffic} {i : Nat} {flight : Flight}
    (h : t.flights[i]? = some flight) {ms : List Move}
    (hidle : ∀ m ∈ ms, m.resumes i = false) : (t.moves ms).flights[i]? = some flight := by
  induction ms generalizing t with
  | nil => exact h
  | cons m ms ih =>
      have hstep := getElem?_move h m
      rw [hidle m List.mem_cons_self, if_neg Bool.false_ne_true] at hstep
      exact ih hstep fun other hother => hidle other (List.mem_cons_of_mem _ hother)

theorem getElem?_moves_stage {t : Traffic} {i : Nat} {a : App} {request : Request} {n : Nat}
    (h : t.flights[i]? = some (.stage a request n)) (ms : List Move) :
    (t.moves ms).flights[i]? = some (.stage a request (n + ms.countP (Move.resumes i))) := by
  induction ms generalizing t n with
  | nil => exact h
  | cons m ms ih =>
      have hstep := getElem?_move h m
      rw [moves_cons, List.countP_cons]
      cases hresumes : m.resumes i with
      | false =>
          rw [hresumes, if_neg Bool.false_ne_true] at hstep
          simpa using ih hstep
      | true =>
          rw [hresumes, if_pos rfl, Flight.resume_stage] at hstep
          rw [ih hstep]
          simp [Nat.add_assoc, Nat.add_comm]

theorem getElem?_moves_taken {t : Traffic} {i : Nat} {request : Request}
    (h : t.flights[i]? = some (.waiting request)) {idle : List Move}
    (hidle : ∀ m ∈ idle, m.resumes i = false) (rest : List Move) :
    (t.moves (idle ++ .resume i :: rest)).flights[i]? =
      some (.stage (t.moves idle).current request (rest.countP (Move.resumes i) + 1)) := by
  have hresumes : (Move.resume i).resumes i = true := by simp [Move.resumes]
  have htaken := getElem?_move (getElem?_moves_of_idle h hidle) (.resume i)
  rw [hresumes, if_pos rfl, Flight.resume_waiting] at htaken
  rw [moves_append, moves_cons, Nat.add_comm]
  exact getElem?_moves_stage htaken rest

/-- Among any moves, each request that arrives has a dispatch, and nothing else has.  It waits
until its first step.  From then on it follows the dispatch by the application that was stored
last before that step, in as many steps as are its own. -/
theorem dispatch_of_one_app (first : App) (before : List Move) (request : Request)
    (after : List Move) :
    ((start first).moves (before ++ .arrive request :: after)).flights.length =
        ((before ++ .arrive request :: after).filterMap Move.request?).length ∧
      ∃ i flight, i = (before.filterMap Move.request?).length ∧
        ((start first).moves (before ++ .arrive request :: after)).flights[i]? = some flight ∧
        ((flight = .waiting request ∧ flight.answer? = none ∧
            ∀ m ∈ after, m.resumes i = false) ∨
          ∃ idle rest own, after = idle ++ .resume i :: rest ∧
            (∀ m ∈ idle, m.resumes i = false) ∧
            own = lastStored first (before ++ .arrive request :: idle) ∧
            flight.Follows own request (rest.countP (Move.resumes i) + 1)) := by
  have harrived := getElem?_moves_arrive first before request
  have hsplit : ∀ ms : List Move, (start first).moves (before ++ .arrive request :: ms) =
      ((start first).moves (before ++ [.arrive request])).moves ms := by
    intro ms
    rw [← moves_append, List.append_assoc, List.singleton_append]
  refine ⟨length_flights first _, (before.filterMap Move.request?).length, ?_⟩
  generalize (before.filterMap Move.request?).length = i at harrived
  rw [hsplit after]
  rcases Move.idle_or_resumed i after with hidle | ⟨idle, rest, rfl, hidle⟩
  · exact ⟨_, rfl, getElem?_moves_of_idle harrived hidle, .inl ⟨rfl, rfl, hidle⟩⟩
  · refine ⟨_, rfl, getElem?_moves_taken harrived hidle rest,
      .inr ⟨idle, rest, _, rfl, hidle, ?_, Flight.follows_stage _ _ _⟩⟩
    rw [← hsplit, current_moves, start]

end Traffic

end HttpRouting
