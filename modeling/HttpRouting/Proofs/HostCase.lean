import HttpRouting.Proofs.HostReach

/-!
# Host patterns and letter case

The letter case of a host pattern plays no part in whether it is accepted and as what.  An accepted
pattern is therefore read back from its own text, which is in lower case.
-/

namespace HttpRouting

theorem toLower_eq_empty_iff {s : String} : s.toLower = "" ↔ s = "" := by
  rw [← String.toList_inj, ← @String.toList_inj s ""]
  simp [String.toLower]

theorem toLower_eq_star_iff {s : String} : s.toLower = "*" ↔ s = "*" := by
  have hstar : ∀ c : Char, c.toLower = '*' ↔ c = '*' :=
    fun c => toLower_eq_iff_of_not_alpha (by decide)
  rw [← String.toList_inj, ← @String.toList_inj s "*"]
  simp [String.toLower, List.map_eq_singleton_iff, hstar]

namespace Text

theorem fields_toLower {sep : Char} (hsep : sep.isAlpha = false) (s : String) :
    fields sep s.toLower = (fields sep s).map String.toLower := by
  have hsame : ∀ c : Char, c.toLower = sep ↔ c = sep := fun c => toLower_eq_iff_of_not_alpha hsep
  have hchars : s.toLower.toList = s.toList.map Char.toLower := by simp [String.toLower]
  rw [fields, hchars, splitChars_map hsame, fields, List.map_map, List.map_map]
  apply List.map_congr_left
  intro cs _
  apply String.toList_inj.mp
  simp [String.toLower]

theorem toLower_joined (parts : List String) :
    (joined "." parts).toLower = joined "." (parts.map String.toLower) := by
  induction parts with
  | nil =>
      apply String.toList_inj.mp
      simp [joined, String.toLower]
  | cons part rest ih =>
      by_cases hrest : rest = []
      · simp [hrest, joined]
      · have hrest' : rest.map String.toLower ≠ [] := by simpa using hrest
        have hdot : '.'.toLower = '.' := by decide
        rw [joined_cons "." part hrest, List.map_cons, joined_cons "." _ hrest', ← ih]
        apply String.toList_inj.mp
        simp [String.toLower, hdot]

end Text

namespace HostPattern

theorem hasStar_toLower (label : String) : hasStar label.toLower = hasStar label := by
  rw [Bool.eq_iff_iff]
  simp only [hasStar, List.contains_iff_mem, String.toLower, String.toList_map]
  exact mem_map_toLower_iff (by decide)

theorem toOption_compile_toLower (pattern : String) :
    (compile pattern.toLower).toOption = (compile pattern).toOption := by
  have hempty : ∀ (head : String) (rest : List String),
      (head.toLower :: rest.map String.toLower).contains "" = (head :: rest).contains "" := by
    intro head rest
    rw [Bool.eq_iff_iff]
    simp only [← List.map_cons, List.contains_iff_mem, List.mem_map, toLower_eq_empty_iff,
      exists_eq_right]
  have hstars : ∀ labels : List String,
      (labels.map String.toLower).any hasStar = labels.any hasStar := by
    intro labels
    simp [List.any_map, Function.comp_def, hasStar_toLower]
  have hdot : '.'.isAlpha = false := by decide
  simp only [compile, toLower_eq_empty_iff, Text.fields_toLower hdot]
  split
  · rfl
  · cases Text.fields '.' pattern with
    | nil => rfl
    | cons head rest =>
        simp only [List.map_cons, hempty, hstars, hasStar_toLower, ne_eq, toLower_eq_star_iff,
          List.isEmpty_map, ← Text.toLower_joined, toLower_toLower]
        split_ifs <;> rfl

theorem compile_toLower_eq_ok {pattern : String} {host : HostPattern} :
    compile pattern.toLower = .ok host ↔ compile pattern = .ok host := by
  rw [eq_ok_iff_toOption, eq_ok_iff_toOption, toOption_compile_toLower]

theorem mention_eq_text {host : HostPattern} (h : host ≠ .any) : host.mention = host.text := by
  cases host with
  | any => exact absurd rfl h
  | exact own => rfl
  | suffix domain => rfl

theorem compile_text {pattern : String} {host : HostPattern} (h : compile pattern = .ok host)
    (hany : host ≠ .any) : compile host.text = .ok host := by
  rw [← mention_eq_text hany, mention_of_compile h]
  exact compile_toLower_eq_ok.mpr h

end HostPattern

end HttpRouting
