import HttpRouting.Proofs.PathShape

/-!
# The branches of a lookup

The nodes at which the pieces of a path can end in a trie form a list, in the
order in which a lookup tries them.  The lookup with its captures pushed and
popped is a plain scan of this list, so what it answers can be read off the list:
the first node that serves the method, or else the methods of all nodes.
-/

namespace HttpRouting

/-- An end of a path in a trie: the segments that lead there, without names, the
pieces that their parameters take, and the node. -/
structure Branch where
  address : List Segment
  captures : List String
  node : Node

namespace Branch

def under (segment : Segment) (taken : List String) (b : Branch) : Branch :=
  ⟨segment :: b.address, taken ++ b.captures, b.node⟩

def answer? (method : Method) (b : Branch) : Option (Endpoint × List String) :=
  (Node.serves method b.node.endpoints).map fun endpoint => (endpoint, b.captures)

def methodTexts (b : Branch) : List String :=
  b.node.endpoints.filterMap (·.method.explicitText?)

end Branch

def Lookup.ofSearch (found : Option (Endpoint × List String)) (allowed : Option (List String)) :
    Lookup :=
  match found, allowed with
  | some (endpoint, captures), _ => .found endpoint captures
  | none, some allowed => .methodMismatch allowed
  | none, none => .notFound

namespace Node

def branches : List String → Node → List Branch
  | [], n => [⟨[], [], n⟩]
  | piece :: rest, n =>
      ((n.literal? piece).toList.flatMap fun child =>
          (branches rest child).map (Branch.under (.literal piece) [])) ++
        ((n.param.toList.flatMap fun child =>
            (branches rest child).map (Branch.under (.param "") [piece])) ++
          n.wildcard.toList.map fun child =>
            ⟨[.wildcard ""], [Text.joined "/" (piece :: rest)], child⟩)

/-- Settles at one branch after the other until a node serves the method. -/
def scan (method : Method) : List Branch → Search → Option Endpoint × Search
  | [], s => (none, s)
  | b :: rest, s =>
      match settle method b.node s with
      | (some endpoint, s) => (some endpoint, { s with captures := s.captures ++ b.captures })
      | (none, s) => scan method rest s

theorem settle_captures (method : Method) (n : Node) (s : Search) :
    (settle method n s).2.captures = s.captures := by
  unfold settle
  split <;> rfl

theorem settle_fst (method : Method) (n : Node) (s : Search) :
    (settle method n s).1 = serves method n.endpoints := by
  unfold settle
  split
  · next h => rw [List.isEmpty_iff.mp h]; rfl
  · rfl

theorem settle_push (method : Method) (n : Node) (s : Search) (piece : String) :
    settle method n (s.push piece) =
      ((settle method n s).1, (settle method n s).2.push piece) := by
  unfold settle
  split <;> rfl

theorem scan_append (method : Method) (first second : List Branch) (s : Search) :
    scan method (first ++ second) s = orElse (scan method first) (scan method second) s := by
  induction first generalizing s with
  | nil => rfl
  | cons b rest ih =>
      simp only [List.cons_append, scan, orElse]
      split
      · rfl
      · next s' h => simpa only [orElse] using ih s'

theorem scan_under (method : Method) (segment : Segment) (bs : List Branch) (s : Search) :
    scan method (bs.map (Branch.under segment [])) s = scan method bs s := by
  induction bs generalizing s with
  | nil => rfl
  | cons b rest ih =>
      simp only [List.map_cons, scan, Branch.under, List.nil_append]
      split
      · rfl
      · next s' h => exact ih s'

theorem capturing_scan (method : Method) (segment : Segment) (piece : String)
    (bs : List Branch) (s : Search) :
    capturing piece (scan method bs) s =
      scan method (bs.map (Branch.under segment [piece])) s := by
  induction bs generalizing s with
  | nil => simp [capturing, scan, Search.push, Search.pop]
  | cons b rest ih =>
      rcases h : settle method b.node s with ⟨_ | endpoint, s'⟩
      · have hpush : settle method b.node (s.push piece) = (none, s'.push piece) := by
          rw [settle_push, h]
        have hleft : capturing piece (scan method (b :: rest)) s =
            capturing piece (scan method rest) s' := by
          simp only [capturing, scan, hpush]
        have hright : scan method ((b :: rest).map (Branch.under segment [piece])) s =
            scan method (rest.map (Branch.under segment [piece])) s' := by
          simp only [List.map_cons, scan, Branch.under, h]
        rw [hleft, hright, ih]
      · have hpush : settle method b.node (s.push piece) = (some endpoint, s'.push piece) := by
          rw [settle_push, h]
        simp only [capturing, scan, hpush, List.map_cons, Branch.under, h]
        simp [Search.push]

theorem capturing_settle (method : Method) (segment : Segment) (piece : String) (n : Node)
    (s : Search) :
    capturing piece (settle method n) s = scan method [⟨[segment], [piece], n⟩] s := by
  have hscan : settle method n = scan method [⟨[], [], n⟩] := by
    funext s
    simp only [scan]
    rcases settle method n s with ⟨_ | endpoint, s'⟩ <;> simp
  rw [hscan, capturing_scan method segment]
  rfl

theorem walk_eq_scan (method : Method) (pieces : List String) (n : Node) (s : Search) :
    n.walk method pieces s = scan method (branches pieces n) s := by
  induction pieces generalizing n s with
  | nil =>
      simp only [walk, branches, scan]
      rcases settle method n s with ⟨_ | endpoint, s'⟩ <;> simp
  | cons piece rest ih =>
      have hwalk : ∀ child, walk method rest child = scan method (branches rest child) :=
        fun child => funext (ih child)
      simp only [walk, branches, scan_append]
      congr 1
      · cases n.literal? piece with
        | none => rfl
        | some child =>
            funext s
            simp [hwalk, scan_under]
      · funext s
        rw [scan_append]
        congr 1
        · cases n.param with
          | none => rfl
          | some child =>
              funext s
              simp [hwalk, capturing_scan method (.param "")]
        · cases n.wildcard with
          | none => rfl
          | some child =>
              funext s
              exact capturing_settle method (.wildcard "") _ child s

/-! ## What a scan finds -/

theorem scan_of_findSome?_eq_some {method : Method} {bs : List Branch} {endpoint : Endpoint}
    {captures : List String} (h : bs.findSome? (Branch.answer? method) = some (endpoint, captures))
    (s : Search) :
    ∃ s', scan method bs s = (some endpoint, s') ∧ s'.captures = s.captures ++ captures := by
  induction bs generalizing s with
  | nil => simp at h
  | cons b rest ih =>
      have hserves := settle_fst method b.node s
      have hcaptures := settle_captures method b.node s
      simp only [List.findSome?_cons, Branch.answer?, ← hserves] at h
      simp only [scan]
      rcases hsettle : settle method b.node s with ⟨_ | found, s'⟩ <;>
        rw [hsettle] at h hcaptures
      · obtain ⟨last, hscan, hlast⟩ := ih h s'
        exact ⟨last, hscan, by rw [hlast, hcaptures]⟩
      · simp only [Option.map_some, Option.some.injEq, Prod.mk.injEq] at h
        obtain ⟨rfl, rfl⟩ := h
        exact ⟨_, rfl, by rw [hcaptures]⟩

theorem scan_of_findSome?_eq_none {method : Method} {bs : List Branch}
    (h : bs.findSome? (Branch.answer? method) = none) (s : Search) :
    scan method bs s =
      (none,
        { captures := s.captures
          reached := s.reached || bs.any (!·.node.endpoints.isEmpty)
          allowed := MethodSet.insertAll (bs.flatMap Branch.methodTexts) s.allowed }) := by
  induction bs generalizing s with
  | nil => simp [scan, MethodSet.insertAll]
  | cons b rest ih =>
      obtain ⟨hserves, hrest⟩ : serves method b.node.endpoints = none ∧
          rest.findSome? (Branch.answer? method) = none := by
        simpa [Branch.answer?] using h
      simp only [scan, settle]
      by_cases hempty : b.node.endpoints.isEmpty
      · simp [ih hrest, Branch.methodTexts, List.isEmpty_iff.mp hempty]
      · simp [hempty, hserves, ih hrest, Branch.methodTexts, MethodSet.insertAll]

def methodsAt? (pieces : List String) (n : Node) : Option (List String) :=
  if (branches pieces n).any (!·.node.endpoints.isEmpty) then
    some (MethodSet.insertAll ((branches pieces n).flatMap Branch.methodTexts) [])
  else none

theorem lookup_eq (method : Method) (pieces : List String) (n : Node) :
    n.lookup method pieces =
      .ofSearch ((branches pieces n).findSome? (Branch.answer? method)) (methodsAt? pieces n) := by
  rw [lookup, walk_eq_scan]
  cases h : (branches pieces n).findSome? (Branch.answer? method) with
  | none =>
      rw [scan_of_findSome?_eq_none h]
      unfold methodsAt?
      cases (branches pieces n).any (!·.node.endpoints.isEmpty) <;>
        simp [Search.start, Lookup.ofSearch]
  | some found =>
      obtain ⟨s, hscan, hcaptures⟩ := scan_of_findSome?_eq_some h Search.start
      rw [hscan]
      simp [hcaptures, Search.start, Lookup.ofSearch]

/-! ## Which branches there are, and in which order -/

theorem child?_nameless (n : Node) (segment : Segment) :
    n.child? segment.nameless = n.child? segment := by
  cases segment <;> rfl

theorem find?_shape (segments : List Segment) (n : Node) :
    find? (PathPattern.shape segments) n = find? segments n := by
  induction segments generalizing n with
  | nil => rfl
  | cons segment rest ih =>
      simp only [PathPattern.shape_cons, find?, child?_nameless]
      congr 1
      funext child
      exact ih child

theorem mem_branches_iff {pieces : List String} {n : Node} {b : Branch} :
    b ∈ branches pieces n ↔
      PathPattern.shape b.address = b.address ∧
        PathPattern.captures? b.address pieces = some b.captures ∧
          find? b.address n = some b.node := by
  induction pieces generalizing n b with
  | nil =>
      obtain ⟨address, captures, node⟩ := b
      cases address with
      | nil => simp [branches, PathPattern.captures?, find?, eq_comm]
      | cons segment rest => cases segment <;> simp [branches, PathPattern.captures?]
  | cons piece pieces ih =>
      simp only [branches, List.mem_append, List.mem_flatMap, List.mem_map, Option.mem_toList]
      constructor
      · rintro (⟨child, hchild, below, hbelow, rfl⟩ | ⟨child, hchild, below, hbelow, rfl⟩ |
          ⟨child, hchild, rfl⟩)
        · obtain ⟨hshape, hcaptures, hfind⟩ := ih.mp hbelow
          simp_all [PathPattern.captures?, find?, child?, Segment.nameless, Branch.under]
        · obtain ⟨hshape, hcaptures, hfind⟩ := ih.mp hbelow
          simp_all [PathPattern.captures?, find?, child?, Segment.nameless, Branch.under]
        · simp_all [PathPattern.captures?, find?, child?, Segment.nameless]
      · obtain ⟨address, captures, node⟩ := b
        rintro ⟨hshape, hcaptures, hfind⟩
        cases address with
        | nil => simp [PathPattern.captures?] at hcaptures
        | cons segment rest =>
            obtain ⟨hsegment, hrest⟩ := List.cons.inj hshape
            obtain ⟨child, hchild, hfind⟩ := Option.bind_eq_some_iff.mp hfind
            cases segment with
            | literal text =>
                simp only [PathPattern.captures?] at hcaptures
                split at hcaptures
                · next same =>
                    subst same
                    exact .inl ⟨child, hchild, ⟨rest, captures, node⟩,
                      ih.mpr ⟨hrest, hcaptures, hfind⟩, rfl⟩
                · contradiction
            | param name =>
                cases hsegment
                obtain ⟨taken, htaken, rfl⟩ := Option.map_eq_some_iff.mp hcaptures
                exact .inr (.inl ⟨child, hchild, ⟨rest, taken, node⟩,
                  ih.mpr ⟨hrest, htaken, hfind⟩, rfl⟩)
            | wildcard name =>
                cases hsegment
                cases rest with
                | nil =>
                    cases hcaptures
                    cases hfind
                    exact .inr (.inr ⟨_, hchild, rfl⟩)
                | cons next rest => cases hcaptures

theorem exists_branch {segments : List Segment} {pieces captures : List String} {n node : Node}
    (hcaptures : PathPattern.captures? segments pieces = some captures)
    (hfind : find? segments n = some node) :
    ⟨PathPattern.shape segments, captures, node⟩ ∈ branches pieces n := by
  apply mem_branches_iff.mpr
  refine ⟨PathPattern.shape_shape segments, ?_, ?_⟩
  · rw [PathPattern.captures?_shape, hcaptures]
  · rw [find?_shape, hfind]

theorem branches_pairwise (pieces : List String) (n : Node) :
    (branches pieces n).Pairwise fun first second =>
      PathPattern.precedes first.address second.address = true := by
  induction pieces generalizing n with
  | nil => simp [branches]
  | cons piece pieces ih =>
      have under (segment : Segment) (taken : List String) (child : Node) :
          ((branches pieces child).map (Branch.under segment taken)).Pairwise
            fun first second => PathPattern.precedes first.address second.address = true := by
        rw [List.pairwise_map]
        refine (ih child).imp ?_
        intro first second h
        simp [Branch.under, PathPattern.precedes, h]
      -- Below one child the induction decides, and between children their ranks.
      simp only [branches, List.pairwise_append]
      refine ⟨?_, ⟨?_, ?_, ?_⟩, ?_⟩
      · cases n.literal? piece <;> simp [under]
      · cases n.param <;> simp [under]
      · cases n.wildcard <;> simp
      · intro first hfirst second hsecond
        simp only [List.mem_flatMap, List.mem_map, Option.mem_toList] at hfirst hsecond
        obtain ⟨child, -, below, -, rfl⟩ := hfirst
        obtain ⟨child, -, rfl⟩ := hsecond
        rfl
      · intro first hfirst second hsecond
        simp only [List.mem_append, List.mem_flatMap, List.mem_map, Option.mem_toList]
          at hfirst hsecond
        obtain ⟨child, -, below, -, rfl⟩ := hfirst
        rcases hsecond with ⟨child, -, below, -, rfl⟩ | ⟨child, -, rfl⟩ <;> rfl

end Node

end HttpRouting
