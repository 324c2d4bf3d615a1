import HttpRouting.Proofs.HostTiers

/-!
# What the tries contain

All endpoints of a trie, or of all tiers, each with the place where it stands.  They are
collected from the nodes one by one and not by look-ups, so nothing that a trie holds is left
out and nothing is counted twice.  An insertion adds one entry to them.
-/

namespace HttpRouting

namespace Node

def under (segment : Segment) (entry : List Segment × Endpoint) : List Segment × Endpoint :=
  (segment :: entry.1, entry.2)

mutual

/-- All endpoints of a trie with the segments that lead to them, parameter names left out. -/
def entries : Node → List (List Segment × Endpoint)
  | ⟨literals, param, wildcard, endpoints⟩ =>
      endpoints.map (([], ·)) ++ literalEntries literals ++ childEntries (.param "") param ++
        childEntries (.wildcard "") wildcard

def literalEntries : List (String × Node) → List (List Segment × Endpoint)
  | [] => []
  | (text, child) :: rest => child.entries.map (under (.literal text)) ++ literalEntries rest

def childEntries (segment : Segment) : Option Node → List (List Segment × Endpoint)
  | none => []
  | some child => child.entries.map (under segment)

end

theorem entries_eq (n : Node) :
    n.entries = n.endpoints.map (([], ·)) ++ literalEntries n.literals ++
      childEntries (.param "") n.param ++ childEntries (.wildcard "") n.wildcard := by
  cases n
  rfl

@[simp] theorem entries_empty : entries empty = [] := rfl

theorem literalEntries_eq (literals : List (String × Node)) :
    literalEntries literals =
      literals.flatMap fun entry => entry.2.entries.map (under (.literal entry.1)) := by
  induction literals with
  | nil => rfl
  | cons entry rest ih =>
      obtain ⟨text, child⟩ := entry
      rw [literalEntries, ih, List.flatMap_cons]

/-! ## Insertion -/

section

variable {n child : Node} {entry : List Segment × Endpoint}

theorem perm_flatMap_setLiteral {β : Type} (place : String → List Segment × Endpoint → β)
    {key : String} {tries : List (String × Node)}
    (h : child.entries.Perm (entry :: ((tries.lookup key).getD empty).entries)) :
    ((setLiteral key child tries).flatMap fun trie => trie.2.entries.map (place trie.1)).Perm
      (place key entry :: tries.flatMap fun trie => trie.2.entries.map (place trie.1)) := by
  induction tries with
  | nil => simpa [setLiteral] using h.map (place key)
  | cons trie rest ih =>
      obtain ⟨other, old⟩ := trie
      rw [lookup_cons_ite] at h
      simp only [setLiteral]
      split at h
      · next same =>
          subst same
          rw [if_pos rfl, List.flatMap_cons, List.flatMap_cons]
          exact (h.map (place other)).append_right _
      · next different =>
          rw [if_neg different]
          exact ((ih h).append_left _).trans List.perm_middle

theorem perm_childEntries {segment : Segment} {old : Option Node}
    (h : child.entries.Perm (entry :: (old.getD empty).entries)) :
    (childEntries segment (some child)).Perm (under segment entry :: childEntries segment old) := by
  cases old with
  | none => exact h.map (under segment)
  | some old => exact h.map (under segment)

theorem perm_entries_setChild {segment : Segment}
    (h : child.entries.Perm (entry :: ((n.child? segment).getD empty).entries)) :
    (n.setChild segment child).entries.Perm (under segment.nameless entry :: n.entries) := by
  rw [entries_eq, entries_eq n]
  cases segment with
  | literal text =>
      have hliterals := perm_flatMap_setLiteral (fun key => under (.literal key)) h
      rw [← literalEntries_eq, ← literalEntries_eq] at hliterals
      exact (((hliterals.append_left _).trans List.perm_middle).append_right _).append_right _
  | param name =>
      exact (((perm_childEntries h).append_left _).trans List.perm_middle).append_right _
  | wildcard name => exact ((perm_childEntries h).append_left _).trans List.perm_middle

end

theorem perm_entries_insert? {endpoint : Endpoint} {segments : List Segment} {n after : Node}
    (h : insert? endpoint segments n = some after) :
    after.entries.Perm ((PathPattern.shape segments, endpoint) :: n.entries) := by
  induction segments generalizing n after with
  | nil =>
      simp only [insert?] at h
      split at h
      · contradiction
      · cases h
        rw [entries_eq, entries_eq n, List.map_append]
        have hend : (n.endpoints.map (([], ·)) ++ [([], endpoint)] :
            List (List Segment × Endpoint)).Perm (([], endpoint) :: n.endpoints.map (([], ·))) :=
          List.perm_append_singleton _ _
        exact ((hend.append_right _).append_right _).append_right _
  | cons segment rest ih =>
      obtain ⟨child, hchild, rfl⟩ := Option.map_eq_some_iff.mp h
      exact perm_entries_setChild (ih hchild)

end Node

namespace Tiers

def entriesUnder (pattern : String → HostPattern) (tries : List (String × Node)) :
    List (HostPattern × List Segment × Endpoint) :=
  tries.flatMap fun trie => trie.2.entries.map ((pattern trie.1, ·))

/-- All endpoints of all tiers, each with its host pattern and the segments that lead to it. -/
def entries (t : Tiers) : List (HostPattern × List Segment × Endpoint) :=
  entriesUnder .exact t.exact ++ entriesUnder .suffix t.suffixes ++ t.any.entries.map ((.any, ·))

theorem setLiteral_of_not_mem {key : String} {tries : List (String × Node)}
    (h : key ∉ tries.map Prod.fst) (n : Node) :
    Node.setLiteral key n tries = tries ++ [(key, n)] := by
  induction tries with
  | nil => rfl
  | cons trie rest ih =>
      obtain ⟨other, old⟩ := trie
      simp only [List.map_cons, List.mem_cons, not_or] at h
      rw [Node.setLiteral, if_neg (Ne.symm h.1), ih h.2, List.cons_append]

theorem replaced_eq_setLiteral {key : String} {tries : List (String × Node)}
    (hdistinct : (tries.map Prod.fst).Nodup) (hheld : key ∈ tries.map Prod.fst) (n : Node) :
    (tries.map fun trie => if trie.1 = key then (trie.1, n) else trie) =
      Node.setLiteral key n tries := by
  induction tries with
  | nil => simp at hheld
  | cons trie rest ih =>
      obtain ⟨other, old⟩ := trie
      simp only [List.map_cons, List.nodup_cons] at hdistinct
      rw [List.map_cons, Node.setLiteral]
      by_cases same : other = key
      · have hrest : (rest.map fun trie => if trie.1 = key then (trie.1, n) else trie) = rest := by
          conv_rhs => rw [← List.map_id rest]
          refine List.map_congr_left fun trie htrie => if_neg ?_
          rintro rfl
          exact hdistinct.1 (same ▸ List.mem_map_of_mem htrie)
        rw [hrest, if_pos same, if_pos same]
      · rw [if_neg same, if_neg same, ih hdistinct.2]
        simpa [Ne.symm same] using hheld

theorem setSuffix_perm {domain : String} {suffixes : List (String × Node)}
    (hdistinct : (suffixes.map Prod.fst).Nodup) (n : Node) :
    (setSuffix domain n suffixes).Perm (Node.setLiteral domain n suffixes) := by
  have hany : (suffixes.any (·.1 = domain) = true) ↔ domain ∈ suffixes.map Prod.fst := by simp
  unfold setSuffix
  split
  · next hheld => rw [replaced_eq_setLiteral hdistinct (hany.mp hheld)]
  · next hnew =>
      rw [setLiteral_of_not_mem (mt hany.mpr hnew)]
      exact (placeSuffix_perm domain n suffixes).trans (List.perm_append_singleton _ _).symm

theorem perm_entries_setTrie {t : Tiers} (h : t.Ordered) {host : HostPattern} {n : Node}
    {entry : List Segment × Endpoint} (hn : n.entries.Perm (entry :: (t.trie host).entries)) :
    (t.setTrie host n).entries.Perm ((host, entry) :: t.entries) := by
  unfold entries
  cases host with
  | exact host =>
      have hexact := Node.perm_flatMap_setLiteral (fun key => (HostPattern.exact key, ·)) hn
      rw [← setExact_eq_setLiteral] at hexact
      exact (hexact.append_right _).append_right _
  | suffix domain =>
      have hsuffixes := ((setSuffix_perm h.distinct n).flatMap_right _).trans
        (Node.perm_flatMap_setLiteral (fun key => (HostPattern.suffix key, ·)) hn)
      exact ((hsuffixes.append_left _).trans List.perm_middle).append_right _
  | any => exact ((hn.map _).append_left _).trans List.perm_middle

end Tiers

end HttpRouting
