import HttpRouting.Proofs.HostOrder
import HttpRouting.Proofs.TrieInsertion

/-!
# The tries of the host patterns

The tiers are seen through the trie that they hold for each host pattern: to set
one trie changes that one and no other.  The tries that a request consults are
those of the patterns that accept its host, in the order of these patterns, and
what they answer together is what a search through all their branches finds.
-/

namespace HttpRouting.Tiers

/-! ## Setting a trie -/

theorem setExact_eq_setLiteral (host : String) (n : Node) (exact : List (String × Node)) :
    setExact host n exact = Node.setLiteral host n exact := by
  induction exact with
  | nil => rfl
  | cons entry rest ih =>
      obtain ⟨key, old⟩ := entry
      simp only [setExact, Node.setLiteral, ih]

theorem lookup_setExact (host other : String) (n : Node) (exact : List (String × Node)) :
    (setExact host n exact).lookup other =
      if host = other then some n else exact.lookup other := by
  rw [setExact_eq_setLiteral, Node.lookup_setLiteral]

theorem lookup_placeSuffix {domain : String} {suffixes : List (String × Node)}
    (hnew : domain ∉ suffixes.map Prod.fst) (other : String) (n : Node) :
    (placeSuffix domain n suffixes).lookup other =
      if domain = other then some n else suffixes.lookup other := by
  induction suffixes with
  | nil => rw [placeSuffix, lookup_cons_ite]
  | cons entry rest ih =>
      obtain ⟨key, old⟩ := entry
      simp only [List.map_cons, List.mem_cons, not_or] at hnew
      simp only [placeSuffix]
      split
      · rw [lookup_cons_ite]
      · rw [lookup_cons_ite, lookup_cons_ite, ih hnew.2]
        by_cases h : key = other
        · have hne : domain ≠ other := fun same => hnew.1 (same.trans h.symm)
          simp [h, hne]
        · simp [h]

theorem lookup_replaced (domain other : String) (n : Node) (suffixes : List (String × Node)) :
    (suffixes.map fun entry => if entry.1 = domain then (entry.1, n) else entry).lookup other =
      if domain = other then (suffixes.lookup other).map fun _ => n else suffixes.lookup other := by
  induction suffixes with
  | nil => simp
  | cons entry rest ih =>
      obtain ⟨key, old⟩ := entry
      rw [List.map_cons, lookup_cons_ite key other old rest]
      by_cases hkey : key = domain
      · subst hkey
        rw [if_pos rfl, lookup_cons_ite, ih]
        by_cases h : key = other <;> simp [h]
      · rw [if_neg hkey, lookup_cons_ite, ih]
        by_cases h : key = other
        · have hne : domain ≠ other := fun same => hkey (h.trans same.symm)
          simp [h, hne]
        · simp [h]

theorem lookup_setSuffix (domain other : String) (n : Node) (suffixes : List (String × Node)) :
    (setSuffix domain n suffixes).lookup other =
      if domain = other then some n else suffixes.lookup other := by
  unfold setSuffix
  split
  · next h =>
      have hheld : (suffixes.lookup domain).isSome := by
        obtain ⟨entry, hentry, hkey⟩ := List.any_eq_true.mp h
        exact List.lookup_isSome_iff.mpr
          ⟨entry, hentry, beq_iff_eq.mpr (of_decide_eq_true hkey).symm⟩
      rw [lookup_replaced]
      by_cases same : domain = other
      · subst same
        obtain ⟨old, hold⟩ := Option.isSome_iff_exists.mp hheld
        simp [hold]
      · simp [same]
  · next h =>
      apply lookup_placeSuffix
      simpa using h

theorem trie_setTrie (t : Tiers) (host other : HostPattern) (n : Node) :
    (t.setTrie host n).trie other = if host = other then n else t.trie other := by
  cases host <;> cases other <;> simp [setTrie, trie, lookup_setExact, lookup_setSuffix]
  · split <;> simp_all
  · split <;> simp_all

@[simp] theorem trie_empty (host : HostPattern) : empty.trie host = Node.empty := by
  cases host <;> rfl

/-! ## The order of the domains -/

/-- The domains are in lower case, each once, and the more specific come first. -/
structure Ordered (t : Tiers) : Prop where
  lower : ∀ entry ∈ t.suffixes, entry.1.toLower = entry.1
  distinct : (t.suffixes.map Prod.fst).Nodup
  sorted : t.suffixes.Pairwise fun first second =>
    HostPattern.lessSpecific first.1 second.1 = false

theorem ordered_empty : Ordered empty := by
  constructor <;> simp [empty]

theorem placeSuffix_perm (domain : String) (n : Node) (suffixes : List (String × Node)) :
    (placeSuffix domain n suffixes).Perm ((domain, n) :: suffixes) := by
  induction suffixes with
  | nil => exact .refl _
  | cons entry rest ih =>
      obtain ⟨key, old⟩ := entry
      simp only [placeSuffix]
      split
      · exact .refl _
      · exact (ih.cons _).trans (.swap ..)

theorem sorted_placeSuffix {domain : String} {n : Node} {suffixes : List (String × Node)}
    (h : suffixes.Pairwise fun first second =>
      HostPattern.lessSpecific first.1 second.1 = false) :
    (placeSuffix domain n suffixes).Pairwise fun first second =>
      HostPattern.lessSpecific first.1 second.1 = false := by
  induction suffixes with
  | nil => simp [placeSuffix]
  | cons entry rest ih =>
      obtain ⟨key, old⟩ := entry
      obtain ⟨hhead, hrest⟩ := List.pairwise_cons.mp h
      simp only [placeSuffix]
      split
      · next hless =>
          refine List.pairwise_cons.mpr ⟨?_, h⟩
          intro entry hentry
          rcases List.mem_cons.mp hentry with rfl | hentry
          · exact HostPattern.lessSpecific_asymm hless
          · exact HostPattern.not_lessSpecific_trans hless (hhead entry hentry)
      · next hless =>
          refine List.pairwise_cons.mpr ⟨?_, ih hrest⟩
          intro entry hentry
          rcases List.mem_cons.mp ((placeSuffix_perm domain n rest).mem_iff.mp hentry) with
            rfl | hentry
          · simpa using hless
          · exact hhead entry hentry

theorem domains_replaced (domain : String) (n : Node) (suffixes : List (String × Node)) :
    (suffixes.map fun entry => if entry.1 = domain then (entry.1, n) else entry).map Prod.fst =
      suffixes.map Prod.fst := by
  rw [List.map_map]
  apply List.map_congr_left
  intro entry _
  simp only [Function.comp_apply]
  split <;> rfl

theorem mem_setSuffix_iff {domain other : String} {n : Node} {suffixes : List (String × Node)} :
    other ∈ (setSuffix domain n suffixes).map Prod.fst ↔
      other = domain ∨ other ∈ suffixes.map Prod.fst := by
  unfold setSuffix
  split
  · next hheld =>
      rw [domains_replaced, iff_or_self]
      rintro rfl
      simpa using hheld
  · rw [((placeSuffix_perm domain n suffixes).map Prod.fst).mem_iff, List.map_cons, List.mem_cons]

theorem distinct_setSuffix {domain : String} {n : Node} {suffixes : List (String × Node)}
    (h : (suffixes.map Prod.fst).Nodup) : ((setSuffix domain n suffixes).map Prod.fst).Nodup := by
  unfold setSuffix
  split
  · rwa [domains_replaced]
  · next hnew =>
      rw [((placeSuffix_perm domain n suffixes).map Prod.fst).nodup_iff]
      refine List.nodup_cons.mpr ⟨?_, h⟩
      simpa using hnew

theorem sorted_setSuffix {domain : String} {n : Node} {suffixes : List (String × Node)}
    (h : suffixes.Pairwise fun first second =>
      HostPattern.lessSpecific first.1 second.1 = false) :
    (setSuffix domain n suffixes).Pairwise fun first second =>
      HostPattern.lessSpecific first.1 second.1 = false := by
  unfold setSuffix
  split
  · have hdomains : (suffixes.map Prod.fst).Pairwise fun first second =>
        HostPattern.lessSpecific first second = false := List.pairwise_map.mpr h
    rw [← domains_replaced domain n] at hdomains
    exact List.pairwise_map.mp hdomains
  · exact sorted_placeSuffix h

theorem ordered_setTrie {t : Tiers} (h : t.Ordered) {host : HostPattern} (hhost : host.IsLower)
    (n : Node) : (t.setTrie host n).Ordered := by
  cases host with
  | any => exact ⟨h.lower, h.distinct, h.sorted⟩
  | exact host => exact ⟨h.lower, h.distinct, h.sorted⟩
  | suffix domain =>
      refine ⟨?_, distinct_setSuffix h.distinct, sorted_setSuffix h.sorted⟩
      intro entry hentry
      rcases mem_setSuffix_iff.mp (List.mem_map_of_mem hentry) with hnew | hold
      · rw [hnew]
        exact hhost
      · obtain ⟨old, hold, hsame⟩ := List.mem_map.mp hold
        rw [← hsame]
        exact h.lower old hold

/-! ## The tries that a host consults -/

/-- The host patterns with a trie that accept a host, the most specific first. -/
def serving (t : Tiers) (host : String) : List HostPattern :=
  ((t.exact.lookup host).map fun _ => HostPattern.exact host).toList ++
    (t.suffixes.filter fun entry => HostPattern.isBelow entry.1 host).map (.suffix ·.1) ++ [.any]

theorem trie_suffix_of_mem {t : Tiers} (h : t.Ordered) {entry : String × Node}
    (hentry : entry ∈ t.suffixes) : t.trie (.suffix entry.1) = entry.2 := by
  simp [trie, lookup_of_mem h.distinct hentry]

theorem consulted_eq {t : Tiers} (h : t.Ordered) (host : String) :
    t.consulted host = (t.serving host).map t.trie := by
  have hexact : (t.exact.lookup host).toList =
      ((t.exact.lookup host).map fun _ => HostPattern.exact host).toList.map t.trie := by
    cases hlookup : t.exact.lookup host <;> simp [trie, hlookup]
  unfold consulted serving
  rw [hexact, List.map_append, List.map_append, List.map_map]
  congr 2
  apply List.map_congr_left
  intro entry hentry
  exact (trie_suffix_of_mem h (List.mem_filter.mp hentry).1).symm

theorem accepts_of_mem_serving {t : Tiers} {host : String} {pattern : HostPattern}
    (h : pattern ∈ t.serving host) : pattern.accepts host = true := by
  simp only [serving, List.mem_append, List.mem_map, Option.mem_toList, List.mem_filter,
    Option.map_eq_some_iff, List.mem_singleton] at h
  rcases h with (⟨n, -, rfl⟩ | ⟨entry, ⟨-, hbelow⟩, rfl⟩) | rfl
  · simp [HostPattern.accepts, HostPattern.sameHost]
  · exact hbelow
  · rfl

theorem mem_serving_of_accepts {t : Tiers} {host : String} {pattern : HostPattern}
    (hhost : host.toLower = host) (hpattern : pattern.IsLower)
    (haccepts : pattern.accepts host = true) (hheld : t.trie pattern ≠ Node.empty) :
    pattern ∈ t.serving host := by
  simp only [serving, List.mem_append, List.mem_map, Option.mem_toList, List.mem_filter,
    Option.map_eq_some_iff, List.mem_singleton]
  cases pattern with
  | any => exact .inr rfl
  | exact own =>
      have hlower : own.toLower = own := hpattern
      obtain rfl : own = host := by
        simpa [HostPattern.accepts, HostPattern.sameHost, hhost, hlower] using haccepts
      cases hlookup : t.exact.lookup own with
      | none => simp [trie, hlookup] at hheld
      | some n => exact .inl (.inl ⟨n, rfl, rfl⟩)
  | suffix domain =>
      cases hlookup : t.suffixes.lookup domain with
      | none => simp [trie, hlookup] at hheld
      | some n =>
          obtain ⟨before, after, hsplit, -⟩ := List.lookup_eq_some_iff.mp hlookup
          exact .inl (.inr ⟨(domain, n), ⟨by simp [hsplit], haccepts⟩, rfl⟩)

theorem serving_pairwise {t : Tiers} (h : t.Ordered) {host : String}
    (hhost : host.toLower = host) :
    (t.serving host).Pairwise fun first second => first.precedes second = true := by
  have hbelow : ((t.suffixes.filter fun entry => HostPattern.isBelow entry.1 host).map
      fun entry => HostPattern.suffix entry.1).Pairwise
        fun first second => first.precedes second = true := by
    rw [List.pairwise_map, List.pairwise_filter]
    refine ((List.Pairwise.and_mem.mp h.sorted).and (List.pairwise_map.mp h.distinct)).imp ?_
    rintro first second ⟨⟨hfirst, hsecond, hsorted⟩, hdistinct⟩ hbelow hbelow'
    have hlower := h.lower first hfirst
    have hlower' := h.lower second hsecond
    -- Both domains end the same host, so their lengths decide between them, and a
    -- shorter one cannot stand first in a sorted list.
    rcases Nat.lt_trichotomy first.1.length second.1.length with hlt | heq | hgt
    · have hless := HostPattern.lessSpecific_of_length_lt hhost hlower hlower' hbelow hbelow' hlt
      rw [hsorted] at hless
      contradiction
    · exact absurd
        (HostPattern.domain_eq_of_length_eq hhost hlower hlower' hbelow hbelow' heq) hdistinct
    · simpa [HostPattern.precedes] using hgt
  simp only [serving, List.pairwise_append]
  refine ⟨⟨?_, hbelow, ?_⟩, by simp, ?_⟩
  · cases t.exact.lookup host <;> simp
  · intro first hfirst second hsecond
    obtain ⟨n, -, rfl⟩ := Option.map_eq_some_iff.mp (Option.mem_toList.mp hfirst)
    obtain ⟨entry, -, rfl⟩ := List.mem_map.mp hsecond
    rfl
  · intro first hfirst second hsecond
    cases List.mem_singleton.mp hsecond
    rcases List.mem_append.mp hfirst with hfirst | hfirst
    · obtain ⟨n, -, rfl⟩ := Option.map_eq_some_iff.mp (Option.mem_toList.mp hfirst)
      rfl
    · obtain ⟨entry, -, rfl⟩ := List.mem_map.mp hfirst
      rfl

/-! ## The first answer -/

/-- The tries one after the other answer as one search through the branches of
all of them, and know the methods from the first trie that knows the path. -/
theorem firstAnswer_eq (method : Method) (pieces : List String) (nodes : List Node) :
    firstAnswer method pieces nodes =
      .ofSearch ((nodes.flatMap (Node.branches pieces)).findSome? (Branch.answer? method))
        (nodes.findSome? (Node.methodsAt? pieces)) := by
  induction nodes with
  | nil => rfl
  | cons n rest ih =>
      rw [firstAnswer, Node.lookup_eq, ih, List.flatMap_cons, List.findSome?_append,
        List.findSome?_cons]
      cases (n.branches pieces).findSome? (Branch.answer? method) with
      | some found => rfl
      | none =>
          cases n.methodsAt? pieces with
          | none => rfl
          | some allowed =>
              cases (rest.flatMap (Node.branches pieces)).findSome? (Branch.answer? method) with
              | some found => rfl
              | none => cases rest.findSome? (Node.methodsAt? pieces) <;> rfl

end HttpRouting.Tiers
