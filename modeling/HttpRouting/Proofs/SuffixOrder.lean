import HttpRouting.Proofs.HostBytes
import HttpRouting.Proofs.HostGrammar
import Mathlib

/-!
# The order of the domains

However endpoints are added, the tiers hold each domain once and the more specific domains first.
The domains above one host are then asked from the longest to the shortest, although the place of a
domain among the others is found by its labels.
-/

namespace HttpRouting

namespace HostPattern

theorem lessSpecific_iff {a b : String} :
    lessSpecific a b = true ↔ toLex (specificity a) < toLex (specificity b) := by
  simp [lessSpecific, Prod.Lex.toLex_lt_toLex]

theorem lessSpecific_eq_false_iff {a b : String} :
    lessSpecific a b = false ↔ toLex (specificity b) ≤ toLex (specificity a) := by
  rw [← Bool.not_eq_true, lessSpecific_iff, not_lt]

end HostPattern

/-- What is asked for by one call that adds an endpoint. -/
structure Placing where
  host : HostPattern
  segments : List Segment
  endpoint : Endpoint

def Placing.Compiled (call : Placing) : Prop :=
  ∃ text, HostPattern.compile text = .ok call.host

namespace Tiers

def afterCall (t : Tiers) (call : Placing) : Tiers :=
  (t.place call.host call.segments call.endpoint).2

def placed (calls : List Placing) : Tiers := calls.foldl afterCall empty

def domains (t : Tiers) : List String := t.suffixes.map Prod.fst

/-- The domains that are asked about a host, in this order. -/
def domainsAbove (t : Tiers) (host : String) : List String :=
  t.domains.filter fun domain => HostPattern.isBelow domain host

/-! ## One call -/

section Call

variable (t : Tiers) (call : Placing)

theorem suffixes_afterCall_cases :
    (∃ domain n, call.host = .suffix domain ∧
        (t.afterCall call).suffixes = setSuffix domain n t.suffixes) ∨
      (∀ domain, call.host ≠ .suffix domain) ∧ (t.afterCall call).suffixes = t.suffixes := by
  obtain ⟨host, segments, endpoint⟩ := call
  cases host with
  | any => exact .inr ⟨nofun, rfl⟩
  | exact host => exact .inr ⟨nofun, rfl⟩
  | suffix own => exact .inl ⟨own, _, rfl, rfl⟩

theorem mem_domains_afterCall_iff {domain : String} :
    domain ∈ (t.afterCall call).domains ↔ call.host = .suffix domain ∨ domain ∈ t.domains := by
  rcases suffixes_afterCall_cases t call with ⟨own, n, hhost, hsuffixes⟩ | ⟨hhost, hsuffixes⟩
  · rw [domains, hsuffixes, mem_setSuffix_iff, hhost, HostPattern.suffix.injEq, eq_comm, domains]
  · rw [domains, hsuffixes, domains]
    simp [hhost]

theorem distinct_afterCall (h : t.domains.Nodup) : (t.afterCall call).domains.Nodup := by
  rcases suffixes_afterCall_cases t call with ⟨own, n, -, hsuffixes⟩ | ⟨-, hsuffixes⟩
  · rw [domains, hsuffixes]
    exact distinct_setSuffix h
  · rwa [domains, hsuffixes]

theorem sorted_afterCall
    (h : t.suffixes.Pairwise fun a b => HostPattern.lessSpecific a.1 b.1 = false) :
    (t.afterCall call).suffixes.Pairwise
      fun a b => HostPattern.lessSpecific a.1 b.1 = false := by
  rcases suffixes_afterCall_cases t call with ⟨own, n, -, hsuffixes⟩ | ⟨-, hsuffixes⟩
  · rw [hsuffixes]
    exact sorted_setSuffix h
  · rwa [hsuffixes]

end Call

/-! ## All calls -/

theorem placed_concat (calls : List Placing) (call : Placing) :
    placed (calls ++ [call]) = (placed calls).afterCall call :=
  List.foldl_concat ..

theorem mem_domains_placed_iff {calls : List Placing} {domain : String} :
    domain ∈ (placed calls).domains ↔ ∃ call ∈ calls, call.host = .suffix domain := by
  induction calls using List.reverseRecOn with
  | nil => simp [placed, domains, empty]
  | append_singleton calls call ih =>
      rw [placed_concat, mem_domains_afterCall_iff, ih]
      simp [or_and_right, exists_or, or_comm]

theorem distinct_placed (calls : List Placing) : (placed calls).domains.Nodup := by
  induction calls using List.reverseRecOn with
  | nil => exact List.nodup_nil
  | append_singleton calls call ih =>
      rw [placed_concat]
      exact distinct_afterCall _ call ih

theorem sorted_placed (calls : List Placing) :
    (placed calls).suffixes.Pairwise fun a b => HostPattern.lessSpecific a.1 b.1 = false := by
  induction calls using List.reverseRecOn with
  | nil => exact .nil
  | append_singleton calls call ih =>
      rw [placed_concat]
      exact sorted_afterCall _ call ih

theorem ordered_placed {calls : List Placing} (h : ∀ call ∈ calls, call.Compiled) :
    (placed calls).Ordered := by
  refine ⟨?_, distinct_placed calls, sorted_placed calls⟩
  intro entry hentry
  obtain ⟨call, hcall, hhost⟩ := mem_domains_placed_iff.mp (List.mem_map_of_mem hentry)
  obtain ⟨text, htext⟩ := h call hcall
  have hlower := HostPattern.isLower_of_compile htext
  rw [hhost] at hlower
  exact hlower

/-! ## The domains above a host -/

section Host

variable {t : Tiers} {host : String}

theorem mem_domainsAbove_iff (h : t.Ordered) (hhost : host.toLower = host) {domain : String} :
    domain ∈ t.domainsAbove host ↔
      domain ∈ t.domains ∧ ∃ name, name ≠ "" ∧ host = name ++ "." ++ domain := by
  rw [domainsAbove, List.mem_filter]
  apply and_congr_right
  intro hdomain
  obtain ⟨entry, hentry, rfl⟩ := List.mem_map.mp hdomain
  have hlower : (HostPattern.suffix entry.1).IsLower := h.lower entry hentry
  change (HostPattern.suffix entry.1).accepts host = true ↔ _
  rw [HostPattern.accepts_iff_covers hlower hhost]
  constructor
  · rintro ⟨⟩
    next name hname => exact ⟨name, hname, rfl⟩
  · rintro ⟨name, hname, rfl⟩
    exact .below entry.1 hname

theorem domainsAbove_pairwise (h : t.Ordered) (hhost : host.toLower = host) :
    (t.domainsAbove host).Pairwise fun a b => b.utf8ByteSize < a.utf8ByteSize := by
  obtain ⟨⟨-, hsuffixes, -⟩, -, -⟩ : (_ ∧ _ ∧ _) ∧ _ ∧ _ := by
    simpa only [serving, List.pairwise_append] using serving_pairwise h hhost
  rw [domainsAbove, domains, List.filter_map, List.pairwise_map]
  refine (List.Pairwise.and_mem.mp (List.pairwise_map.mp hsuffixes)).imp ?_
  rintro longer shorter ⟨hlonger, hshorter, hprecedes⟩
  obtain ⟨hlonger, habove⟩ := List.mem_filter.mp hlonger
  obtain ⟨hshorter, habove'⟩ := List.mem_filter.mp hshorter
  exact HostPattern.utf8ByteSize_lt_of_length_lt hhost (h.lower _ hshorter) (h.lower _ hlonger)
    habove' habove (by simpa [HostPattern.precedes] using hprecedes)

theorem consulted_eq_domainsAbove (h : t.Ordered) (host : String) :
    t.consulted host =
      (t.exact.lookup host).toList ++
        (t.domainsAbove host).map (fun domain => t.trie (.suffix domain)) ++ [t.any] := by
  rw [consulted, domainsAbove, domains, List.filter_map, List.map_map]
  congr 2
  apply List.map_congr_left
  intro entry hentry
  exact (trie_suffix_of_mem h (List.mem_filter.mp hentry).1).symm

end Host

/-- After any calls each domain is held once and none stands before a more specific one.  If the
hosts of the calls were read from patterns, the domains that are asked about a host are those of the
calls that it ends with after a name and a dot, from the longest to the shortest.  Each is asked by
looking at bytes of the host only. -/
theorem placed_most_specific_first (calls : List Placing) :
    (placed calls).domains.Nodup ∧
      (placed calls).domains.Pairwise (fun a b =>
        toLex (HostPattern.specificity b) ≤ toLex (HostPattern.specificity a)) ∧
      ((∀ call ∈ calls, call.Compiled) → ∀ asked host, HostName.normalized asked = host →
        (∀ domain, domain ∈ (placed calls).domainsAbove host ↔
          (∃ call ∈ calls, call.host = .suffix domain) ∧
            ∃ name, name ≠ "" ∧ host = name ++ "." ++ domain) ∧
        ((placed calls).domainsAbove host).Pairwise
          (fun a b => b.utf8ByteSize < a.utf8ByteSize) ∧
        (placed calls).consulted host =
          ((placed calls).exact.lookup host).toList ++
            ((placed calls).domainsAbove host).map
              (fun domain => (placed calls).trie (.suffix domain)) ++ [(placed calls).any]) ∧
      ∀ domain host, HostPattern.isBelowBytes? (Text.Utf8.encode domain) (Text.Utf8.encode host) =
        some (HostPattern.isBelow domain host) := by
  refine ⟨distinct_placed calls, ?_, ?_, HostPattern.isBelowBytes?_encode⟩
  · simpa only [domains, List.pairwise_map, HostPattern.lessSpecific_eq_false_iff]
      using sorted_placed calls
  · rintro hcompiled asked _ rfl
    have hordered := ordered_placed hcompiled
    have hlower := HostName.normalized_toLower asked
    refine ⟨?_, domainsAbove_pairwise hordered hlower, consulted_eq_domainsAbove hordered _⟩
    intro domain
    rw [mem_domainsAbove_iff hordered hlower, mem_domains_placed_iff]

def marketCalls : List Placing :=
  [⟨.suffix "example.com", [], ⟨.any, ⟨0⟩, []⟩⟩, ⟨.suffix "example.org", [], ⟨.any, ⟨1⟩, []⟩⟩,
    ⟨.suffix "eu.example.com", [], ⟨.any, ⟨2⟩, []⟩⟩, ⟨.suffix "example.com", [], ⟨.any, ⟨3⟩, []⟩⟩]

theorem placed_most_specific_first_market :
    (∀ call ∈ marketCalls, call.Compiled) ∧
      HostName.normalized "Shop.EU.Example.com:8443" = "shop.eu.example.com" ∧
      (placed marketCalls).domains = ["eu.example.com", "example.com", "example.org"] ∧
      (placed marketCalls).domains.Nodup ∧
      "example.com" ∈ (placed marketCalls).domainsAbove "shop.eu.example.com" ∧
      "example.org" ∉ (placed marketCalls).domainsAbove "shop.eu.example.com" ∧
      (placed marketCalls).consulted "shop.eu.example.com" =
        [(placed marketCalls).trie (.suffix "eu.example.com"),
          (placed marketCalls).trie (.suffix "example.com"), (placed marketCalls).any] := by
  have hcompiled : ∀ call ∈ marketCalls, call.Compiled := by
    have hcom : HostPattern.compile "*.example.com" = .ok (.suffix "example.com") := by
      decide +kernel
    have horg : HostPattern.compile "*.example.org" = .ok (.suffix "example.org") := by
      decide +kernel
    have heu : HostPattern.compile "*.eu.example.com" = .ok (.suffix "eu.example.com") := by
      decide +kernel
    simp only [marketCalls, List.forall_mem_cons]
    exact ⟨⟨_, hcom⟩, ⟨_, horg⟩, ⟨_, heu⟩, ⟨_, hcom⟩, List.forall_mem_nil _⟩
  have hasked : HostName.normalized "Shop.EU.Example.com:8443" = "shop.eu.example.com" := by
    decide +kernel
  obtain ⟨hdistinct, -, habove, -⟩ := placed_most_specific_first marketCalls
  obtain ⟨hmem, -, hconsulted⟩ := habove hcompiled _ _ hasked
  have hdomains : (placed marketCalls).domains =
      ["eu.example.com", "example.com", "example.org"] := by
    decide +kernel
  have hall : (placed marketCalls).domainsAbove "shop.eu.example.com" =
      ["eu.example.com", "example.com"] := by
    decide +kernel
  refine ⟨hcompiled, hasked, hdomains, hdistinct, ?_, ?_, ?_⟩
  · rw [hmem]
    exact ⟨⟨_, .head _, rfl⟩, "shop.eu", by decide, by decide⟩
  · rw [hall]
    decide
  · rw [hconsulted, hall]
    rfl

end Tiers

end HttpRouting
