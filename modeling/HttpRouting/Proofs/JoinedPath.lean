import HttpRouting.Application.Group
import Mathlib.Data.List.DropRight

/-!
# Paths put together

Any number of prefixes and a path make one path: each part that is not empty once its outer
slashes are gone stands behind one slash.  Joining prefix by prefix from the inside gives the same.
-/

namespace HttpRouting

open Text

/-- The parts that are not empty, each behind a slash. -/
def segmented (parts : List String) : String :=
  String.join ((parts.filter (· ≠ "")).map ("/" ++ ·))

def slashed (parts : List String) : String :=
  if segmented parts = "" then "/" else segmented parts

/-- A prefix without the slashes around it. -/
def bare (base : String) : String := dropTrailing isSlash (dropLeading isSlash base)

def joinedPath (bases : List String) (path : String) : String :=
  slashed (bases.map bare ++ [dropLeading isSlash path])

@[simp] theorem segmented_nil : segmented [] = "" := rfl

theorem segmented_cons (part : String) (parts : List String) :
    segmented (part :: parts) = (if part = "" then "" else "/" ++ part) ++ segmented parts := by
  by_cases h : part = "" <;> simp [segmented, h, String.join_cons]

theorem segmented_eq_empty_iff {parts : List String} :
    segmented parts = "" ↔ parts.filter (· ≠ "") = [] := by
  induction parts with
  | nil => simp
  | cons part parts ih =>
      rw [segmented_cons, List.filter_cons]
      by_cases h : part = "" <;> simp_all

theorem joinPath_eq (base path : String) :
    joinPath base path = slashed [bare base, dropLeading isSlash path] := by
  unfold slashed
  simp only [segmented_eq_empty_iff, ← List.isEmpty_iff]
  rfl

theorem dropLeading_eq_self_iff {s : String} :
    dropLeading isSlash s = s ↔ s.toList.dropWhile isSlash = s.toList := by
  rw [dropLeading, ← String.toList_inj, String.toList_ofList]

theorem dropLeading_idem (s : String) :
    dropLeading isSlash (dropLeading isSlash s) = dropLeading isSlash s := by
  rw [dropLeading_eq_self_iff, dropLeading, String.toList_ofList, List.dropWhile_idempotent]

theorem dropLeading_bare (base : String) : dropLeading isSlash (bare base) = bare base := by
  have hidem := dropLeading_eq_self_iff.mp (dropLeading_idem base)
  rw [dropLeading_eq_self_iff, bare, dropTrailing, String.toList_ofList]
  rw [List.dropWhile_eq_self_iff] at hidem ⊢
  intro hpos
  have hprefix := List.rdropWhile_prefix isSlash (dropLeading isSlash base).toList
  have hhead := hidem (Nat.lt_of_lt_of_le hpos hprefix.length_le)
  rwa [← hprefix.getElem hpos] at hhead

theorem dropLeading_slash_append {part : String} (rest : String) (hne : part ≠ "")
    (h : dropLeading isSlash part = part) :
    dropLeading isSlash ("/" ++ part ++ rest) = part ++ rest := by
  rw [dropLeading_eq_self_iff] at h
  cases hpart : part.toList with
  | nil => exact absurd (String.toList_eq_nil_iff.mp hpart) hne
  | cons c cs =>
      have hc : isSlash c = false := by
        rw [hpart, List.dropWhile_eq_self_iff] at h
        simpa using h
      have hslash : isSlash '/' = true := rfl
      rw [← String.toList_inj, dropLeading, String.toList_ofList]
      simp [hpart, hc, hslash]

theorem segmented_dropLeading {parts : List String}
    (h : ∀ part ∈ parts, dropLeading isSlash part = part) :
    segmented [dropLeading isSlash (slashed parts)] = segmented parts := by
  cases hparts : parts.filter (· ≠ "") with
  | nil =>
      have hnone := segmented_eq_empty_iff.mpr hparts
      rw [slashed, if_pos hnone, hnone]
      decide
  | cons first rest =>
      obtain ⟨hfirst, hne⟩ := List.mem_filter.mp (hparts ▸ List.mem_cons_self)
      have hne : first ≠ "" := by simpa using hne
      have hjoined : segmented parts = "/" ++ first ++ String.join (rest.map ("/" ++ ·)) := by
        rw [segmented, hparts, List.map_cons, String.join_cons]
      have hsome : segmented parts ≠ "" := by simp [hjoined]
      rw [slashed, if_neg hsome, hjoined, dropLeading_slash_append _ hne (h first hfirst)]
      simp [segmented_cons, hne, String.append_assoc]

theorem slashed_dropLeading (base : String) {parts : List String}
    (h : ∀ part ∈ parts, dropLeading isSlash part = part) :
    slashed [base, dropLeading isSlash (slashed parts)] = slashed (base :: parts) := by
  have hsegmented : segmented [base, dropLeading isSlash (slashed parts)] =
      segmented (base :: parts) := by
    rw [segmented_cons, segmented_dropLeading h, ← segmented_cons]
  rw [slashed, hsegmented, slashed]

theorem joinPath_joinedPath (base first : String) (bases : List String) (path : String) :
    joinPath base (joinedPath (first :: bases) path) = joinedPath (base :: first :: bases) path := by
  rw [joinPath_eq]
  refine slashed_dropLeading (bare base) ?_
  simp only [List.mem_append, List.mem_map, List.mem_singleton]
  rintro part (⟨other, -, rfl⟩ | rfl)
  · exact dropLeading_bare other
  · exact dropLeading_idem path

example : joinedPath ["/api/", "", "v1"] "users/" = "/api/v1/users/" := by decide

end HttpRouting
