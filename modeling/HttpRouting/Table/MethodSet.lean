/-!
# Sets of method texts

The methods that a path allows, each once and in ascending order.
-/

namespace HttpRouting.MethodSet

def insert (text : String) : List String → List String
  | [] => [text]
  | other :: rest =>
      if text < other then text :: other :: rest
      else if text = other then other :: rest
      else other :: insert text rest

def insertAll (texts : List String) (set : List String) : List String :=
  texts.foldl (fun set text => insert text set) set

theorem mem_insert {text other : String} {set : List String} :
    other ∈ insert text set ↔ other = text ∨ other ∈ set := by
  induction set with
  | nil => simp [insert]
  | cons head rest ih =>
      simp only [insert]
      split
      · simp
      · split
        · next same => subst same; simp
        · simp only [List.mem_cons, ih]
          constructor
          · rintro (h | h | h) <;> simp [h]
          · rintro (h | h | h) <;> simp [h]

theorem mem_insertAll {texts : List String} {other : String} {set : List String} :
    other ∈ insertAll texts set ↔ other ∈ texts ∨ other ∈ set := by
  induction texts generalizing set with
  | nil => simp [insertAll]
  | cons head rest ih =>
      have step : insertAll (head :: rest) set = insertAll rest (insert head set) := rfl
      rw [step, ih, mem_insert, List.mem_cons]
      constructor
      · rintro (h | h | h) <;> simp [h]
      · rintro ((h | h) | h) <;> simp [h]

theorem sorted_insert {text : String} {set : List String} (h : set.Pairwise (· < ·)) :
    (insert text set).Pairwise (· < ·) := by
  induction set with
  | nil => simp [insert]
  | cons head rest ih =>
      obtain ⟨below, sorted⟩ := List.pairwise_cons.mp h
      simp only [insert]
      split
      · next before =>
          refine List.pairwise_cons.mpr ⟨?_, h⟩
          intro other member
          rcases List.mem_cons.mp member with rfl | member
          · exact before
          · exact String.lt_trans before (below other member)
      · next notBefore =>
          split
          · exact h
          · next different =>
              refine List.pairwise_cons.mpr ⟨?_, ih sorted⟩
              intro other member
              rcases mem_insert.mp member with rfl | member
              · exact Std.lt_of_le_of_ne (String.not_lt.mp notBefore) (Ne.symm different)
              · exact below other member

theorem sorted_insertAll {texts set : List String} (h : set.Pairwise (· < ·)) :
    (insertAll texts set).Pairwise (· < ·) := by
  induction texts generalizing set with
  | nil => exact h
  | cons head rest ih => exact ih (sorted_insert h)

end HttpRouting.MethodSet
