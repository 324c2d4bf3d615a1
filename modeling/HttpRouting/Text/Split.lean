/-!
# Text cut at a separator

`fields` keeps every piece between two separators, the empty ones included;
`pieces` drops the empty ones, which is how the path of a request is read.
Main statement: joining the fields of a text with the separator gives the text
back.
-/

namespace HttpRouting.Text

def splitChars (sep : Char) : List Char → List (List Char)
  | [] => [[]]
  | c :: rest =>
      if c = sep then [] :: splitChars sep rest
      else
        match splitChars sep rest with
        | [] => [[c]]
        | piece :: more => (c :: piece) :: more

def fields (sep : Char) (s : String) : List String :=
  (splitChars sep s.toList).map String.ofList

def isSlash (c : Char) : Bool := c = '/'

def pieces (path : String) : List String :=
  (fields '/' path).filter (· ≠ "")

def joined (sep : String) (parts : List String) : String :=
  sep.intercalate parts

def beforeLast? (sep : Char) (s : String) : Option String :=
  match s.toList.reverse.dropWhile (· ≠ sep) with
  | [] => none
  | _ :: before => some (String.ofList before.reverse)

def dropLeading (p : Char → Bool) (s : String) : String :=
  String.ofList (s.toList.dropWhile p)

def dropTrailing (p : Char → Bool) (s : String) : String :=
  String.ofList (s.toList.reverse.dropWhile p).reverse

theorem splitChars_ne_nil (sep : Char) (cs : List Char) :
    splitChars sep cs ≠ [] := by
  induction cs with
  | nil => simp [splitChars]
  | cons c rest ih =>
      simp only [splitChars]
      split
      · simp
      · cases h : splitChars sep rest with
        | nil => exact absurd h ih
        | cons piece more => simp

theorem intercalate_splitChars (sep : Char) (cs : List Char) :
    [sep].intercalate (splitChars sep cs) = cs := by
  induction cs with
  | nil => simp [splitChars]
  | cons c rest ih =>
      simp only [splitChars]
      cases h : splitChars sep rest with
      | nil => exact absurd h (splitChars_ne_nil sep rest)
      | cons piece more =>
          rw [h] at ih
          split
          · next hc => simp [List.intercalate_cons_cons, ih, hc]
          · cases more with
            | nil => simpa using ih
            | cons next more =>
                simp only [List.intercalate_cons_cons] at ih ⊢
                simp [← ih]

theorem joined_fields (sep : Char) (s : String) :
    joined (String.singleton sep) (fields sep s) = s := by
  apply String.toList_inj.mp
  simp [joined, fields, Function.comp_def, intercalate_splitChars]

theorem splitChars_append (sep : Char) (before after : List Char) :
    splitChars sep (before ++ sep :: after) = splitChars sep before ++ splitChars sep after := by
  induction before with
  | nil => simp [splitChars]
  | cons c rest ih =>
      simp only [List.cons_append, splitChars]
      split
      · rw [ih, List.cons_append]
      · rw [ih]
        cases h : splitChars sep rest with
        | nil => exact absurd h (splitChars_ne_nil sep rest)
        | cons piece more => rfl

theorem splitChars_of_not_mem {sep : Char} {cs : List Char} (h : sep ∉ cs) :
    splitChars sep cs = [cs] := by
  induction cs with
  | nil => rfl
  | cons c rest ih =>
      have hc : c ≠ sep := fun same => h (by simp [same])
      have hrest : sep ∉ rest := fun member => h (by simp [member])
      simp [splitChars, hc, ih hrest]

theorem not_mem_of_mem_splitChars {sep : Char} {cs piece : List Char}
    (h : piece ∈ splitChars sep cs) : sep ∉ piece := by
  induction cs generalizing piece with
  | nil =>
      rw [splitChars, List.mem_singleton] at h
      simp [h]
  | cons c rest ih =>
      simp only [splitChars] at h
      split at h
      · rcases List.mem_cons.mp h with rfl | h
        · simp
        · exact ih h
      · next hc =>
          cases hrest : splitChars sep rest with
          | nil => exact absurd hrest (splitChars_ne_nil sep rest)
          | cons head more =>
              rw [hrest] at h ih
              rcases List.mem_cons.mp h with rfl | h
              · have hhead : sep ∉ head := ih (by simp)
                simp [Ne.symm hc, hhead]
              · exact ih (by simp [h])

theorem fields_append (sep : Char) {whole before after : String}
    (h : whole.toList = before.toList ++ sep :: after.toList) :
    fields sep whole = fields sep before ++ fields sep after := by
  rw [fields, h, splitChars_append, List.map_append]
  rfl

theorem pieces_append {whole before after : String}
    (h : whole.toList = before.toList ++ '/' :: after.toList) :
    pieces whole = pieces before ++ pieces after := by
  rw [pieces, fields_append '/' h, List.filter_append]
  rfl

theorem mem_pieces {path piece : String} (h : piece ∈ pieces path) :
    piece ≠ "" ∧ '/' ∉ piece.toList := by
  obtain ⟨hmem, hne⟩ := List.mem_filter.mp h
  obtain ⟨cs, hcs, rfl⟩ := List.mem_map.mp hmem
  exact ⟨by simpa using hne, by simpa using not_mem_of_mem_splitChars hcs⟩

theorem pieces_of_not_mem {text : String} (hne : text ≠ "") (h : '/' ∉ text.toList) :
    pieces text = [text] := by
  simp [pieces, fields, splitChars_of_not_mem h, hne]

theorem splitChars_map {sep : Char} {f : Char → Char} (hf : ∀ c, f c = sep ↔ c = sep)
    (cs : List Char) : splitChars sep (cs.map f) = (splitChars sep cs).map (List.map f) := by
  induction cs with
  | nil => rfl
  | cons c rest ih =>
      rw [List.map_cons, splitChars, splitChars, ih]
      by_cases hc : c = sep
      · simp [hc, (hf sep).mpr rfl]
      · rw [if_neg hc, if_neg (mt (hf c).mp hc)]
        cases splitChars sep rest <;> rfl

/-! ## Joined texts -/

theorem joined_cons (sep head : String) {rest : List String} (h : rest ≠ []) :
    joined sep (head :: rest) = head ++ sep ++ joined sep rest := by
  obtain ⟨next, rest, rfl⟩ := List.exists_cons_of_ne_nil h
  apply String.toList_inj.mp
  simp [joined, String.toList_intercalate]

theorem joined_ne_empty (sep : String) {parts : List String} (h : parts ≠ [])
    (hparts : ∀ part ∈ parts, part ≠ "") : joined sep parts ≠ "" := by
  obtain ⟨head, rest, rfl⟩ := List.exists_cons_of_ne_nil h
  have hhead : head ≠ "" := hparts head List.mem_cons_self
  by_cases hrest : rest = []
  · simpa [joined, hrest] using hhead
  · rw [joined_cons sep head hrest]
    simp [String.append_eq_empty_iff, hhead]

theorem forall_mem_joined {P : Char → Prop} {sep : String} (hsep : ∀ c ∈ sep.toList, P c)
    {parts : List String} (hparts : ∀ part ∈ parts, ∀ c ∈ part.toList, P c) :
    ∀ c ∈ (joined sep parts).toList, P c := by
  induction parts with
  | nil => simp [joined]
  | cons part rest ih =>
      have hpart := hparts part List.mem_cons_self
      have hrest := ih fun other hother => hparts other (List.mem_cons_of_mem _ hother)
      by_cases hnil : rest = []
      · simpa [joined, hnil] using hpart
      · intro c hc
        rw [joined_cons sep part hnil, String.toList_append, String.toList_append,
          List.mem_append, List.mem_append] at hc
        rcases hc with (hc | hc) | hc
        · exact hpart c hc
        · exact hsep c hc
        · exact hrest c hc

theorem pieces_joined {texts : List String} (h : ∀ text ∈ texts, text ≠ "" ∧ '/' ∉ text.toList) :
    pieces (joined "/" texts) = texts := by
  induction texts with
  | nil => decide
  | cons text rest ih =>
      obtain ⟨hne, hslash⟩ := h text (by simp)
      have hrest := ih fun other hother => h other (by simp [hother])
      by_cases hnil : rest = []
      · subst hnil
        simpa [joined] using pieces_of_not_mem hne hslash
      · have hsplit : (joined "/" (text :: rest)).toList =
            text.toList ++ '/' :: (joined "/" rest).toList := by
          simp [joined_cons "/" text hnil]
        rw [pieces_append hsplit, pieces_of_not_mem hne hslash, hrest, List.singleton_append]

end HttpRouting.Text
