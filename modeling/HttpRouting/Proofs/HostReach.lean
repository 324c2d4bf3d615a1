import HttpRouting.Proofs.AllowField
import HttpRouting.Proofs.BareHost

/-!
# The hosts that a pattern reaches

A pattern is written for hosts: for one host, or for all names below a domain, in any letter case.
Its route serves them exactly if the pattern has no port.  A pattern with one compiles, but what
would match it is taken from every request before the request is looked up.
-/

namespace HttpRouting

/-! ## The letter case of a host -/

theorem toLower_eq_iff_of_not_alpha {c d : Char} (hd : d.isAlpha = false) :
    c.toLower = d ↔ c = d := by
  by_cases hc : c.isUpper = true
  · have halpha : c.isAlpha = true := by simp [Char.isAlpha, hc]
    constructor <;> rintro rfl
    · rw [Char.isAlpha_toLower_eq_isAlpha, halpha] at hd
      contradiction
    · rw [halpha] at hd
      contradiction
  · rw [Char.toLower_eq_of_not_isUpper hc]

theorem mem_map_toLower_iff {d : Char} (hd : d.isAlpha = false) {cs : List Char} :
    d ∈ cs.map Char.toLower ↔ d ∈ cs := by
  simp only [List.mem_map, toLower_eq_iff_of_not_alpha hd, exists_eq_right]

theorem count_map_toLower {d : Char} (hd : d.isAlpha = false) (cs : List Char) :
    (cs.map Char.toLower).count d = cs.count d := by
  rw [List.count_eq_countP, List.count_eq_countP, List.countP_map]
  apply List.countP_congr
  intro c _
  simp [toLower_eq_iff_of_not_alpha hd]

namespace HostName

theorem isPortless_toLower (host : String) : isPortless host.toLower = isPortless host := by
  have hchars : host.toLower.toList = host.toList.map Char.toLower := by simp [String.toLower]
  by_cases hhead : host.toList.head? = some '['
  · obtain ⟨rest, hrest⟩ := List.head?_eq_some_iff.mp hhead
    have hlower : host.toLower.toList = '[' :: rest.map Char.toLower := by
      rw [hchars, hrest]
      rfl
    rw [isPortless_of_open hrest, isPortless_of_open hlower, ← List.map_dropLast]
    exact decide_eq_decide.mpr (not_congr (mem_map_toLower_iff (by decide)))
  · have hhead' : host.toLower.toList.head? ≠ some '[' := by
      rw [hchars, List.head?_map]
      simpa [Option.map_eq_some_iff, toLower_eq_iff_of_not_alpha] using hhead
    rw [isPortless_of_not_open hhead, isPortless_of_not_open hhead', hchars]
    exact decide_eq_decide.mpr (not_congr (mem_map_toLower_iff (by decide)))

theorem getLast?_toLower_iff (host : String) :
    host.toLower.toList.getLast? = some '.' ↔ host.toList.getLast? = some '.' := by
  simp [String.toLower, List.getLast?_map, toLower_eq_iff_of_not_alpha]

theorem isBare_toLower (host : String) : isBare host.toLower = isBare host := by
  simp only [isBare, isPortless_toLower, Ne, getLast?_toLower_iff]

theorem isBare_congr {host other : String} (h : host.toLower = other.toLower) :
    isBare host = isBare other := by
  rw [← isBare_toLower, h, isBare_toLower]

theorem normalized_isPrefix (host : String) : (normalized host).toList <+: host.toLower.toList := by
  have hprefix := (withoutRoot_isPrefix (withoutPort host)).trans (withoutPort_isPrefix host)
  simp only [normalized, String.toLower, String.toList_map]
  exact hprefix.map Char.toLower

theorem count_normalized_lt {host : String} (hopen : host.toList.head? ≠ some '[')
    (hcolon : ':' ∈ host.toList) :
    (normalized host).toList.count ':' < host.toList.count ':' := by
  obtain ⟨before, hbefore⟩ : ∃ before, Text.beforeLast? ':' host = some before := by
    rw [← Option.ne_none_iff_exists']
    exact fun hnone => Text.beforeLast?_eq_none_iff.mp hnone hcolon
  obtain ⟨after, hafter⟩ := Text.toList_of_beforeLast? hbefore
  have hport : withoutPort host = before := by
    rw [withoutPort_of_not_open hopen, hbefore, Option.getD_some]
  have hcount := (withoutRoot_isPrefix before).sublist.count_le ':'
  rw [normalized, hport, String.toLower, String.toList_map, count_map_toLower (by decide), hafter,
    List.count_append, List.count_cons_self]
  omega

/-! A table is asked for a host as it is written, or as a request tells it. -/

theorem normalized_of_isBare {host asked : String} (hbare : isBare host = true)
    (hasked : asked ∈ [host, normalized host]) : normalized asked = host.toLower := by
  have hnormalized := (normalized_eq_toLower_iff host).mpr hbare
  rcases List.mem_pair.mp hasked with rfl | rfl
  · exact hnormalized
  · rw [hnormalized, (normalized_eq_toLower_iff _).mpr (by rwa [isBare_toLower]), toLower_toLower]

theorem normalized_asked_isPrefix {host asked : String} (hasked : asked ∈ [host, normalized host]) :
    (normalized asked).toList <+: (normalized host).toList := by
  rcases List.mem_pair.mp hasked with rfl | rfl
  · exact List.prefix_rfl
  · have hprefix := normalized_isPrefix (normalized host)
    rwa [normalized_toLower] at hprefix

end HostName

namespace Text

theorem getLast?_ne_of_fields {sep : Char} {s : String} (h : "" ∉ fields sep s) :
    s.toList.getLast? ≠ some sep := by
  intro hlast
  obtain ⟨before, hbefore⟩ := List.getLast?_eq_some_iff.mp hlast
  have hsplit : s.toList = (String.ofList before).toList ++ sep :: "".toList := by simp [hbefore]
  apply h
  rw [fields_append sep hsplit]
  simp [fields, splitChars]

end Text

namespace HostPattern

variable {pattern : String} {host : HostPattern}

theorem compile_eq_ok (h : compile pattern = .ok host) (hne : pattern ≠ "") :
    "" ∉ Text.fields '.' pattern ∧
      (host = .exact pattern.toLower ∨
        ∃ domain, pattern = "*." ++ domain ∧ host = .suffix domain.toLower) := by
  rw [compile, if_neg hne] at h
  split at h
  · next hfields => simp [Text.fields, Text.splitChars_ne_nil] at hfields
  · next head rest hfields =>
      rw [hfields]
      split at h
      · contradiction
      · next hlabels =>
          refine ⟨by simpa using hlabels, ?_⟩
          split at h
          · contradiction
          · split at h
            · next hstar =>
                split at h
                · contradiction
                · next hrest =>
                    cases h
                    refine .inr ⟨Text.joined "." rest, ?_, rfl⟩
                    rw [← Text.joined_fields '.' pattern, hfields, hstar]
                    exact Text.joined_cons "." "*" (by simpa using hrest)
            · cases h
              exact .inl rfl

theorem mention_of_compile (h : compile pattern = .ok host) : host.mention = pattern.toLower := by
  by_cases hne : pattern = ""
  · rw [compile, if_pos hne] at h
    cases h
    rw [hne]
    decide +kernel
  · rcases (compile_eq_ok h hne).2 with rfl | ⟨domain, hpattern, rfl⟩
    · rfl
    · apply String.toList_inj.mp
      simp [hpattern, mention, text, String.toLower]

theorem getLast?_mention_of_compile (h : compile pattern = .ok host) :
    host.mention.toList.getLast? ≠ some '.' := by
  rw [mention_of_compile h, Ne, HostName.getLast?_toLower_iff]
  by_cases hne : pattern = ""
  · simp [hne]
  · exact Text.getLast?_ne_of_fields (compile_eq_ok h hne).1

theorem accepts_exact_of_names {own named asked : String} (hlower : own.toLower = own)
    (hlast : own.toList.getLast? ≠ some '.') (hnamed : named.toLower = own.toLower)
    (hasked : asked ∈ [named, HostName.normalized named]) :
    (exact own).accepts (HostName.normalized asked) = HostName.isPortless own := by
  have hbare : HostName.isBare named = HostName.isPortless own := by
    rw [HostName.isBare_congr hnamed, HostName.isBare, decide_eq_true hlast, Bool.and_true]
  rw [Bool.eq_iff_iff, exact_accepts_iff hlower (HostName.normalized_toLower asked), ← hbare]
  constructor
  · intro hsame
    have hprefix := HostName.normalized_asked_isPrefix hasked
    rw [← hsame, ← hlower, ← hnamed] at hprefix
    have hall := (HostName.normalized_isPrefix named).eq_of_length_le hprefix.length_le
    exact (HostName.normalized_eq_toLower_iff named).mp (String.toList_inj.mp hall)
  · intro hbare'
    rw [HostName.normalized_of_isBare hbare' hasked, hnamed, hlower]

section Below

variable {domain name named : String} (hname : name ≠ "")
  (hchars : ∀ c ∈ name.toList, c ≠ ':' ∧ c ≠ '[')
  (hnamed : named.toLower = (name ++ "." ++ domain).toLower)

include hnamed

theorem map_toLower_of_below :
    named.toList.map Char.toLower = (name.toList ++ '.' :: domain.toList).map Char.toLower := by
  have hlists := congrArg String.toList hnamed
  simpa [String.toLower] using hlists

include hchars

theorem count_of_below : named.toList.count ':' = domain.toList.count ':' := by
  have hnone : name.toList.count ':' = 0 :=
    List.count_eq_zero.mpr fun hmem => (hchars _ hmem).1 rfl
  have hcolon : ':'.isAlpha = false := by decide
  rw [← count_map_toLower hcolon, map_toLower_of_below hnamed, count_map_toLower hcolon,
    List.count_append, hnone, List.count_cons_of_ne (by decide), Nat.zero_add]

include hname

theorem head?_of_below : named.toList.head? ≠ some '[' := by
  intro hopen
  obtain ⟨c, cs, hcs⟩ := List.exists_cons_of_ne_nil (l := name.toList) (by simpa using hname)
  have hfirst := congrArg List.head? (map_toLower_of_below hnamed)
  rw [List.head?_map, hopen, hcs] at hfirst
  have hc : c.toLower = '[' := (Option.some.inj hfirst).symm
  exact (hchars c (by simp [hcs])).2 ((toLower_eq_iff_of_not_alpha (by decide)).mp hc)

theorem isBare_of_below (hlast : ("*." ++ domain).toList.getLast? ≠ some '.') :
    HostName.isBare named = decide (':' ∉ domain.toList) := by
  have hcolon : ':' ∉ named.toList ↔ ':' ∉ domain.toList := by
    rw [← List.count_eq_zero, ← List.count_eq_zero, count_of_below hchars hnamed]
  have hlast' : named.toList.getLast? ≠ some '.' := by
    rw [Ne, ← HostName.getLast?_toLower_iff, hnamed, HostName.getLast?_toLower_iff]
    simpa using hlast
  rw [HostName.isBare, HostName.isPortless_of_not_open (head?_of_below hname hchars hnamed),
    decide_eq_true hlast', Bool.and_true]
  exact decide_eq_decide.mpr hcolon

theorem accepts_suffix_of_below {asked : String} (hlower : domain.toLower = domain)
    (hlast : ("*." ++ domain).toList.getLast? ≠ some '.')
    (hasked : asked ∈ [named, HostName.normalized named]) :
    (suffix domain).accepts (HostName.normalized asked) = decide (':' ∉ domain.toList) := by
  have hbare := isBare_of_below hname hchars hnamed hlast
  rw [accepts, Bool.eq_iff_iff, isBelow_iff hlower (HostName.normalized_toLower asked),
    decide_eq_true_iff]
  constructor
  · rintro ⟨before, -, hsplit⟩ hcolon
    have htotal := count_of_below hchars hnamed
    have htaken : (HostName.normalized named).toList.count ':' < named.toList.count ':' := by
      apply HostName.count_normalized_lt (head?_of_below hname hchars hnamed)
      rw [← List.count_pos_iff, htotal]
      exact List.count_pos_iff.mpr hcolon
    have hleft := (HostName.normalized_asked_isPrefix hasked).sublist.count_le ':'
    rw [hsplit, List.count_append, List.count_cons_of_ne (by decide)] at hleft
    omega
  · intro hcolon
    rw [decide_eq_true hcolon] at hbare
    rw [HostName.normalized_of_isBare hbare hasked, hnamed]
    refine ⟨name.toLower.toList, by simpa [String.toLower] using hname, ?_⟩
    rw [← hlower]
    simp [String.toLower]

end Below

/-- Whether the text of a pattern has none of what is taken from a host as its port. -/
def isPortless : HostPattern → Bool
  | .any => true
  | .exact host => HostName.isPortless host
  | .suffix domain => ':' ∉ domain.toList

/-- The hosts that a pattern is written for: any host, the host itself, or labels and the domain,
in any letter case. -/
inductive Names : HostPattern → String → Prop where
  | any (host : String) : Names .any host
  | exact {own host : String} : host.toLower = own.toLower → Names (.exact own) host
  | suffix {domain host : String} {labels : List String} :
      labels ≠ [] → (∀ label ∈ labels, label ≠ "" ∧ ':' ∉ label.toList ∧ '[' ∉ label.toList) →
        host.toLower = (Text.joined "." labels ++ "." ++ domain).toLower →
          Names (.suffix domain) host

theorem accepts_of_names (h : compile pattern = .ok host) {named asked : String}
    (hnames : host.Names named) (hasked : asked ∈ [named, HostName.normalized named]) :
    host.accepts (HostName.normalized asked) = host.isPortless := by
  have hlower := isLower_of_compile h
  have hlast := getLast?_mention_of_compile h
  cases hnames with
  | any => rfl
  | exact hnamed => exact accepts_exact_of_names hlower hlast hnamed hasked
  | @suffix domain _ labels hlabels hlabel hnamed =>
      have hname : Text.joined "." labels ≠ "" :=
        Text.joined_ne_empty "." hlabels fun label hmem => (hlabel label hmem).1
      have hchars : ∀ c ∈ (Text.joined "." labels).toList, c ≠ ':' ∧ c ≠ '[' := by
        refine Text.forall_mem_joined (by simp) fun label hmem c hc => ?_
        obtain ⟨-, hcolon, hopen⟩ := hlabel label hmem
        exact ⟨fun same => hcolon (same ▸ hc), fun same => hopen (same ▸ hc)⟩
      exact accepts_suffix_of_below hname hchars hnamed hlower hlast hasked

end HostPattern

theorem Registration.compile_of_parseHost {r : Registration} {pattern : String}
    {host : HostPattern} (hpattern : r.host = some pattern) (h : r.parseHost = .ok host) :
    HostPattern.compile pattern = .ok host := by
  rw [parseHost, hpattern] at h
  cases hcompile : HostPattern.compile pattern with
  | error fault => simp [hcompile, Except.mapError] at h
  | ok compiled =>
      simp only [hcompile, Except.mapError, Except.ok.injEq] at h
      rw [h]

namespace RouteTable

/-- A route for a host pattern serves the hosts that the pattern is written for exactly if the
pattern has no port: a pattern with one is accepted, but what it asks for is taken from every
request before it is looked up. -/
theorem served_iff_isPortless {r : Registration} {route : Route} {pattern : String}
    (hyields : r.Yields route) (hpattern : r.host = some pattern) :
    route.host.mention = pattern.toLower ∧
      ∀ q : Request, route.host.Names q.rawHost → route.method.accepts q.method = true →
        PathPattern.accepts route.segments (Text.pieces q.path) = true →
          ∀ asked ∈ [q.rawHost, q.host],
            (route.host.isPortless = true →
                ∃ params, (registered [r]).resolve asked q.method q.path = .matched ⟨0⟩ params) ∧
              (route.host.isPortless = false →
                (registered [r]).resolve asked q.method q.path = .noMatch) := by
  have hcompile := Registration.compile_of_parseHost hpattern hyields.host
  refine ⟨HostPattern.mention_of_compile hcompile, ?_⟩
  intro q hnames hmethod hpath asked hasked
  have haccepts := HostPattern.accepts_of_names hcompile hnames hasked
  constructor
  · intro hportless
    exact exists_resolve_singleton hyields (haccepts.trans hportless) hmethod hpath
  · intro hported
    exact resolve_singleton_of_not_accepts hyields (haccepts.trans hported)

theorem served_iff_isPortless_shop :
    (∃ params, (registered [.rootOf "*.Shop.example"]).resolve "A.b.shop.EXAMPLE" Method.get "/" =
        .matched ⟨0⟩ params) ∧
      (registered [.rootOf "*.shop.example:80"]).resolve "a.shop.example:80" Method.get "/" =
        .noMatch := by
  have hyields : (Registration.rootOf "*.Shop.example").Yields
      ⟨⟨0⟩, .exact Method.get, .suffix "shop.example", "/", [], none, [], none,
        Handler.unserved⟩ := by
    refine ⟨?_, ?_, ?_, rfl, rfl, rfl, rfl, rfl⟩ <;> decide +kernel
  have hyields' : (Registration.rootOf "*.shop.example:80").Yields
      ⟨⟨0⟩, .exact Method.get, .suffix "shop.example:80", "/", [], none, [], none,
        Handler.unserved⟩ := by
    refine ⟨?_, ?_, ?_, rfl, rfl, rfl, rfl, rfl⟩ <;> decide +kernel
  have hraw : (Request.toHost "A.b.shop.EXAMPLE").rawHost = "A.b.shop.EXAMPLE" := by
    decide +kernel
  have hraw' : (Request.toHost "a.shop.example:80").rawHost = "a.shop.example:80" := by
    decide +kernel
  have hnames : HostPattern.Names (.suffix "shop.example") "A.b.shop.EXAMPLE" := by
    have hlabels : ["A", "b"] ≠ [] := by simp
    refine .suffix hlabels (by decide +kernel) (String.toList_inj.mp ?_)
    simp [Text.joined, String.toLower]
  have hnames' : HostPattern.Names (.suffix "shop.example:80") "a.shop.example:80" := by
    have hlabels : ["a"] ≠ [] := by simp
    refine .suffix hlabels (by decide +kernel) (String.toList_inj.mp ?_)
    simp [Text.joined, String.toLower]
  have hserved := (served_iff_isPortless hyields rfl).2 (Request.toHost "A.b.shop.EXAMPLE")
  have hunserved := (served_iff_isPortless hyields' rfl).2 (Request.toHost "a.shop.example:80")
  rw [hraw] at hserved
  rw [hraw'] at hunserved
  exact ⟨(hserved hnames (by decide +kernel) (by decide +kernel) _ List.mem_cons_self).1
      (by decide +kernel),
    (hunserved hnames' (by decide +kernel) (by decide +kernel) _ List.mem_cons_self).2
      (by decide +kernel)⟩

/-- A host with a port is accepted as a pattern, and accepts itself, but its route is for no
request of that host. -/
theorem ported_host_unserved :
    (registered [.rootOf "shop.example:8080"]).size = 1 ∧
      HostPattern.compile "shop.example:8080" = .ok (.exact "shop.example:8080") ∧
      (HostPattern.exact "shop.example:8080").accepts "shop.example:8080" = true ∧
      (registered [.rootOf "shop.example:8080"]).resolve "shop.example:8080" Method.get "/" =
        .noMatch := by
  refine ⟨?_, ?_, ?_, ?_⟩ <;> decide +kernel

end RouteTable

end HttpRouting
