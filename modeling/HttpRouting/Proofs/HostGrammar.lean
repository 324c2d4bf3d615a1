import HttpRouting.Proofs.HostCase

/-!
# The grammar of host patterns

The empty text is for any host.  Any other text is a pattern if none of its labels is empty and a
star stands in none of them, but for a first label that is a star alone and has others after it.
What is refused is refused for an empty label, then for a star out of place, then for a star
without a domain.  A pattern is for the hosts that its text describes, whatever its letter case.
-/

namespace HttpRouting.HostPattern

/-! ## Labels -/

/-- Labels that can be read as a pattern. -/
structure Grammatical (labels : List String) : Prop where
  filled : "" ∉ labels
  starFirst : ∀ label ∈ labels.tail, '*' ∉ label.toList
  starAlone : ∀ first ∈ labels.head?, '*' ∈ first.toList → first = "*"
  starFollowed : ∀ first ∈ labels.head?, '*' ∈ first.toList → labels.tail ≠ []

def StarMisplaced (labels : List String) : Prop :=
  (∃ label ∈ labels.tail, '*' ∈ label.toList) ∨
    ∃ first ∈ labels.head?, '*' ∈ first.toList ∧ first ≠ "*"

/-- The fault for which labels are refused: each counts where none before it does. -/
inductive Offends (pattern : String) (labels : List String) : PatternError → Prop where
  | emptyLabel : "" ∈ labels → Offends pattern labels (.invalidHost pattern .emptyLabel)
  | misplaced :
      "" ∉ labels → StarMisplaced labels → Offends pattern labels (.misplacedWildcard pattern)
  | bare :
      "" ∉ labels → ¬ StarMisplaced labels → labels = ["*"] →
        Offends pattern labels (.invalidHost pattern .bareWildcard)

variable {pattern : String} {labels : List String} {host : HostPattern}

theorem hasStar_iff {label : String} : hasStar label = true ↔ '*' ∈ label.toList := by
  simp [hasStar]

theorem starMisplaced_cons_iff {first : String} {rest : List String} :
    StarMisplaced (first :: rest) ↔
      (rest.any hasStar || (hasStar first && first ≠ "*")) = true := by
  simp [StarMisplaced, hasStar_iff]

theorem Grammatical.not_offends (h : Grammatical labels) (fault : PatternError) :
    ¬ Offends pattern labels fault := by
  intro hoffends
  cases hoffends with
  | emptyLabel hempty => exact h.filled hempty
  | misplaced _ hstar =>
      rcases hstar with ⟨label, hlabel, hstar⟩ | ⟨first, hfirst, hstar, hother⟩
      · exact h.starFirst label hlabel hstar
      · exact hother (h.starAlone first hfirst hstar)
  | bare _ _ hlabels =>
      subst hlabels
      exact h.starFollowed "*" rfl (by decide) rfl

theorem Offends.unique {fault other : PatternError} (h : Offends pattern labels fault)
    (h' : Offends pattern labels other) : fault = other := by
  cases h <;> cases h' <;> first | rfl | contradiction

theorem compile_cases (hne : pattern ≠ "") :
    (Grammatical (Text.fields '.' pattern) ∧ ∃ host, compile pattern = .ok host) ∨
      ∃ fault, Offends pattern (Text.fields '.' pattern) fault ∧
        compile pattern = .error fault := by
  rw [compile, if_neg hne]
  cases hfields : Text.fields '.' pattern with
  | nil => simp [Text.fields, Text.splitChars_ne_nil] at hfields
  | cons first rest =>
      dsimp only
      by_cases hempty : "" ∈ first :: rest
      · rw [if_pos (by simpa using hempty)]
        exact .inr ⟨_, .emptyLabel hempty, rfl⟩
      rw [if_neg (by simpa using hempty)]
      by_cases hstar : StarMisplaced (first :: rest)
      · rw [if_pos (starMisplaced_cons_iff.mp hstar)]
        exact .inr ⟨_, .misplaced hempty hstar, rfl⟩
      rw [if_neg (mt starMisplaced_cons_iff.mpr hstar)]
      have hlater : ∀ label ∈ rest, '*' ∉ label.toList :=
        fun label hlabel hmem => hstar (.inl ⟨label, hlabel, hmem⟩)
      have halone : '*' ∈ first.toList → first = "*" :=
        fun hmem => by_contra fun hother => hstar (.inr ⟨first, rfl, hmem, hother⟩)
      by_cases hfirst : first = "*"
      · rw [if_pos hfirst]
        cases rest with
        | nil => exact .inr ⟨_, .bare hempty hstar (by rw [hfirst]), rfl⟩
        | cons next rest =>
            refine .inl ⟨⟨hempty, hlater, ?_, ?_⟩, _, rfl⟩
            · simpa using halone
            · simp
      · rw [if_neg hfirst]
        refine .inl ⟨⟨hempty, hlater, ?_, ?_⟩, _, rfl⟩
        · simpa using halone
        · rintro _ ⟨⟩ hmem
          exact absurd (halone hmem) hfirst

theorem exists_compile_iff (hne : pattern ≠ "") :
    (∃ host, compile pattern = .ok host) ↔ Grammatical (Text.fields '.' pattern) := by
  rcases compile_cases hne with ⟨hgrammatical, hcompiled⟩ | ⟨fault, hoffends, hrefused⟩
  · exact iff_of_true hcompiled hgrammatical
  · refine iff_of_false ?_ fun hgrammatical => hgrammatical.not_offends fault hoffends
    rintro ⟨host, hcompiled⟩
    rw [hrefused] at hcompiled
    contradiction

theorem compile_eq_error_iff (hne : pattern ≠ "") {fault : PatternError} :
    compile pattern = .error fault ↔ Offends pattern (Text.fields '.' pattern) fault := by
  rcases compile_cases hne with ⟨hgrammatical, host, hcompiled⟩ | ⟨other, hoffends, hrefused⟩
  · refine iff_of_false ?_ (hgrammatical.not_offends fault)
    rw [hcompiled]
    exact nofun
  · rw [hrefused, Except.error.injEq]
    exact ⟨fun hsame => hsame ▸ hoffends, hoffends.unique⟩

theorem compile_eq_any_iff : compile pattern = .ok .any ↔ pattern = "" := by
  constructor
  · intro hany
    by_contra hne
    rcases (compile_eq_ok hany hne).2 with hexact | ⟨domain, -, hsuffix⟩ <;> contradiction
  · rintro rfl
    rfl

/-! ## The hosts that a pattern is for -/

/-- The hosts, in lower case, that the text of a pattern describes. -/
inductive Covers : HostPattern → String → Prop where
  | any (host : String) : Covers .any host
  | exact (host : String) : Covers (.exact host) host
  | below {name : String} (domain : String) :
      name ≠ "" → Covers (.suffix domain) (name ++ "." ++ domain)

theorem covers_suffix_iff {domain asked : String} :
    (suffix domain).Covers asked ↔
      ∃ before, before ≠ [] ∧ asked.toList = before ++ '.' :: domain.toList := by
  constructor
  · rintro ⟨⟩
    next name hname => exact ⟨name.toList, by simpa using hname, by simp⟩
  · rintro ⟨before, hbefore, hsplit⟩
    have hasked : asked = String.ofList before ++ "." ++ domain := by
      apply String.toList_inj.mp
      simp [hsplit]
    rw [hasked]
    exact .below domain (by simpa using hbefore)

theorem accepts_iff_covers (hhost : host.IsLower) {asked : String}
    (hasked : asked.toLower = asked) : host.accepts asked = true ↔ host.Covers asked := by
  cases host with
  | any => exact iff_of_true rfl (.any asked)
  | exact own =>
      rw [exact_accepts_iff hhost hasked]
      constructor
      · rintro rfl
        exact .exact own
      · rintro ⟨⟩
        rfl
  | suffix domain => rw [covers_suffix_iff, accepts, isBelow_iff hhost hasked]

/-! ## Patterns -/

/-- A text is a pattern exactly if its labels keep the grammar, and otherwise refused for the first
of the faults that they have.  Its letter case plays no part.  A pattern for some hosts is written
in lower case and read back from its text, and it accepts the hosts that this text describes. -/
theorem compile_by_labels (pattern : String) :
    (compile pattern = .ok .any ↔ pattern = "") ∧
      (pattern ≠ "" →
        ((∃ host, compile pattern = .ok host) ↔ Grammatical (Text.fields '.' pattern)) ∧
          ∀ fault, compile pattern = .error fault ↔
            Offends pattern (Text.fields '.' pattern) fault) ∧
      (∀ other, other.toLower = pattern.toLower → ∀ host,
        compile other = .ok host ↔ compile pattern = .ok host) ∧
      ∀ host, host ≠ .any → compile pattern = .ok host →
        host.text = pattern.toLower ∧ compile host.text = .ok host ∧
          ∀ asked, asked.toLower = asked → (host.accepts asked = true ↔ host.Covers asked) := by
  refine ⟨compile_eq_any_iff,
    fun hne => ⟨exists_compile_iff hne, fun _ => compile_eq_error_iff hne⟩,
    fun other hcase host => ?_, fun host hany hcompiled => ⟨?_, compile_text hcompiled hany, ?_⟩⟩
  · rw [← compile_toLower_eq_ok, hcase, compile_toLower_eq_ok]
  · rw [← mention_eq_text hany, mention_of_compile hcompiled]
  · exact fun asked => accepts_iff_covers (isLower_of_compile hcompiled)

theorem compile_by_labels_shop :
    Offends "a*..b" ["a*", "", "b"] (.invalidHost "a*..b" .emptyLabel) ∧
      Offends "*.*" ["*", "*"] (.misplacedWildcard "*.*") ∧
      Offends "*" ["*"] (.invalidHost "*" .bareWildcard) ∧
      Grammatical ["*", "Shop", "example"] ∧
      compile "*.sHOP.Example" = .ok (.suffix "shop.example") ∧
      compile (suffix "shop.example").text = .ok (.suffix "shop.example") ∧
      (suffix "shop.example").Covers "a.b.shop.example" ∧
      ¬ (suffix "shop.example").Covers "shop.example" ∧
      ¬ (suffix "shop.example").Covers "workshop.example" := by
  have hempty : Offends "a*..b" ["a*", "", "b"] (.invalidHost "a*..b" .emptyLabel) := by
    have hlabels : Text.fields '.' "a*..b" = ["a*", "", "b"] := by decide +kernel
    rw [← hlabels, ← ((compile_by_labels "a*..b").2.1 (by decide)).2]
    decide +kernel
  have hmisplaced : Offends "*.*" ["*", "*"] (.misplacedWildcard "*.*") := by
    have hlabels : Text.fields '.' "*.*" = ["*", "*"] := by decide +kernel
    rw [← hlabels, ← ((compile_by_labels "*.*").2.1 (by decide)).2]
    decide +kernel
  have hbare : Offends "*" ["*"] (.invalidHost "*" .bareWildcard) := by
    have hlabels : Text.fields '.' "*" = ["*"] := by decide +kernel
    rw [← hlabels, ← ((compile_by_labels "*").2.1 (by decide)).2]
    decide +kernel
  obtain ⟨-, hnamed, hcase, hread⟩ := compile_by_labels "*.Shop.example"
  have hcompiled : compile "*.Shop.example" = .ok (.suffix "shop.example") := by decide +kernel
  have hgrammatical : Grammatical ["*", "Shop", "example"] := by
    have hlabels : Text.fields '.' "*.Shop.example" = ["*", "Shop", "example"] := by
      decide +kernel
    rw [← hlabels, ← (hnamed (by decide)).1]
    exact ⟨_, hcompiled⟩
  have hsame : "*.sHOP.Example".toLower = "*.Shop.example".toLower := by
    apply String.toList_inj.mp
    simp [String.toLower]
  have hother := (hcase "*.sHOP.Example" hsame (.suffix "shop.example")).mpr hcompiled
  obtain ⟨-, hagain, hcovers⟩ := hread _ (by decide) hcompiled
  refine ⟨hempty, hmisplaced, hbare, hgrammatical, hother, hagain, ?_, ?_, ?_⟩
  · exact (hcovers "a.b.shop.example" (by decide +kernel)).mp (by decide +kernel)
  · exact mt (hcovers "shop.example" (by decide +kernel)).mpr (by decide +kernel)
  · exact mt (hcovers "workshop.example" (by decide +kernel)).mpr (by decide +kernel)

end HttpRouting.HostPattern
