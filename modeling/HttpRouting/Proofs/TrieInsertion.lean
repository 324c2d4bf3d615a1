import HttpRouting.Proofs.TrieBranches

/-!
# Insertion into a trie

A trie is seen through the endpoints that it holds at each pattern.  An insertion
adds one endpoint at the patterns of one shape and changes nothing elsewhere; it
is refused exactly where an endpoint for the same method stands, and then the
trie is left as it was.
-/

namespace HttpRouting

theorem lookup_cons_ite {α : Type} (key other : String) (value : α)
    (rest : List (String × α)) :
    ((key, value) :: rest).lookup other =
      if key = other then some value else rest.lookup other := by
  rw [List.lookup_cons]
  by_cases h : key = other
  · simp [h]
  · simp [h, beq_false_of_ne (Ne.symm h)]

theorem lookup_of_mem {α : Type} {entries : List (String × α)}
    (hdistinct : (entries.map Prod.fst).Nodup) {entry : String × α} (h : entry ∈ entries) :
    entries.lookup entry.1 = some entry.2 := by
  obtain ⟨before, after, rfl⟩ := List.append_of_mem h
  refine List.lookup_eq_some_iff.mpr ⟨before, after, rfl, ?_⟩
  intro other hother
  simp only [List.map_append, List.map_cons, List.nodup_append] at hdistinct
  have hne := hdistinct.2.2 other.1 (List.mem_map_of_mem hother) entry.1 (by simp)
  simpa using Ne.symm hne

namespace Node

def endpointsAt (segments : List Segment) (n : Node) : List Endpoint :=
  ((find? segments n).map (·.endpoints)).getD []

@[simp] theorem endpointsAt_nil (n : Node) : endpointsAt [] n = n.endpoints := rfl

theorem endpointsAt_of_find? {segments : List Segment} {n node : Node}
    (h : find? segments n = some node) : endpointsAt segments n = node.endpoints := by
  rw [endpointsAt, h]
  rfl

@[simp] theorem endpointsAt_empty (segments : List Segment) : endpointsAt segments empty = [] := by
  cases segments with
  | nil => rfl
  | cons segment rest => cases segment <;> rfl

theorem endpointsAt_cons (segment : Segment) (rest : List Segment) (n : Node) :
    endpointsAt (segment :: rest) n = endpointsAt rest ((n.child? segment).getD empty) := by
  cases h : n.child? segment with
  | none =>
      rw [Option.getD_none, endpointsAt_empty]
      simp [endpointsAt, find?, h]
  | some child => simp [endpointsAt, find?, h]

theorem exists_find?_of_mem {segments : List Segment} {n : Node} {endpoint : Endpoint}
    (h : endpoint ∈ endpointsAt segments n) :
    ∃ node, find? segments n = some node ∧ endpoint ∈ node.endpoints := by
  unfold endpointsAt at h
  cases hfind : find? segments n with
  | none => simp [hfind] at h
  | some node => exact ⟨node, rfl, by simpa [hfind] using h⟩

/-! ## Children -/

theorem lookup_setLiteral (text other : String) (child : Node) (literals : List (String × Node)) :
    (setLiteral text child literals).lookup other =
      if text = other then some child else literals.lookup other := by
  induction literals with
  | nil => rw [setLiteral, lookup_cons_ite]
  | cons entry rest ih =>
      obtain ⟨key, old⟩ := entry
      simp only [setLiteral]
      split
      · next same => simp only [same, lookup_cons_ite]; split <;> rfl
      · next different =>
          rw [lookup_cons_ite, lookup_cons_ite, ih]
          by_cases h : key = other
          · have hne : text ≠ other := fun same => different (h.trans same.symm)
            simp [h, hne]
          · simp [h]

theorem child?_setChild (n : Node) (segment other : Segment) (child : Node) :
    (n.setChild segment child).child? other =
      if segment.nameless = other.nameless then some child else n.child? other := by
  cases segment <;> cases other <;>
    simp [setChild, child?, literal?, Segment.nameless, lookup_setLiteral]

@[simp] theorem endpoints_setChild (n : Node) (segment : Segment) (child : Node) :
    (n.setChild segment child).endpoints = n.endpoints := by
  cases segment <;> rfl

theorem setLiteral_lookup {text : String} {child : Node} {literals : List (String × Node)}
    (h : literals.lookup text = some child) : setLiteral text child literals = literals := by
  induction literals with
  | nil => simp at h
  | cons entry rest ih =>
      obtain ⟨key, old⟩ := entry
      rw [lookup_cons_ite] at h
      simp only [setLiteral]
      split at h
      · next same => cases h; simp [same]
      · next different => simp [different, ih h]

theorem setChild_child? {n child : Node} {segment : Segment}
    (h : n.child? segment = some child) : n.setChild segment child = n := by
  obtain ⟨literals, param, wildcard, endpoints⟩ := n
  cases segment with
  | literal text => simp [setChild, setLiteral_lookup h]
  | param name => simpa [setChild, child?] using h.symm
  | wildcard name => simpa [setChild, child?] using h.symm

/-! ## Insertion -/

def insert? (endpoint : Endpoint) : List Segment → Node → Option Node
  | [], n =>
      if n.endpoints.any (·.method = endpoint.method) then none
      else some { n with endpoints := n.endpoints ++ [endpoint] }
  | segment :: rest, n =>
      (insert? endpoint rest ((n.child? segment).getD empty)).map (n.setChild segment)

theorem insert?_eq_none_iff {endpoint : Endpoint} {segments : List Segment} {n : Node} :
    insert? endpoint segments n = none ↔
      ∃ held ∈ endpointsAt segments n, held.method = endpoint.method := by
  induction segments generalizing n with
  | nil => simp [insert?]
  | cons segment rest ih => simp [insert?, endpointsAt_cons, ih]

theorem endpointsAt_insert? {endpoint : Endpoint} {segments : List Segment} {n after : Node}
    (h : insert? endpoint segments n = some after) (other : List Segment) :
    endpointsAt other after =
      if PathPattern.shape segments = PathPattern.shape other then
        endpointsAt other n ++ [endpoint]
      else endpointsAt other n := by
  induction segments generalizing n after other with
  | nil =>
      simp only [insert?] at h
      split at h
      · contradiction
      · cases h
        cases other with
        | nil => simp
        | cons segment rest =>
            have hchild : ∀ endpoints, ({ n with endpoints := endpoints } : Node).child? segment =
                n.child? segment := by
              intro endpoints
              cases segment <;> rfl
            simp [endpointsAt_cons, hchild]
  | cons segment rest ih =>
      obtain ⟨child, hchild, rfl⟩ := Option.map_eq_some_iff.mp h
      cases other with
      | nil => simp
      | cons next more =>
          rw [endpointsAt_cons, endpointsAt_cons, child?_setChild]
          by_cases hsegment : segment.nameless = next.nameless
          · have hsame : n.child? segment = n.child? next := by
              rw [← child?_nameless, hsegment, child?_nameless]
            simpa [hsegment, hsame] using ih hchild more
          · simp [hsegment]

/-- A refused endpoint leaves the very same trie: where it is refused, all nodes
on the way are there already. -/
theorem place_eq (endpoint : Endpoint) (segments : List Segment) (n : Node) :
    place endpoint segments n =
      match insert? endpoint segments n with
      | some after => (true, after)
      | none => (false, n) := by
  induction segments generalizing n with
  | nil =>
      simp only [place, insert?]
      split <;> rfl
  | cons segment rest ih =>
      simp only [place, insert?, ih]
      cases h : insert? endpoint rest ((n.child? segment).getD empty) with
      | some child => rfl
      | none =>
          obtain ⟨held, hheld, hmethod⟩ := insert?_eq_none_iff.mp h
          cases hchild : n.child? segment with
          | none => simp [hchild] at hheld
          | some child => simp [setChild_child? hchild]

end Node

end HttpRouting
