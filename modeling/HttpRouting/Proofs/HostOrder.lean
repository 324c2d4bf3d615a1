import HttpRouting.Table.Priority
import Mathlib

/-!
# The order of host patterns

Compiled patterns and normalized hosts are in lower case, and there acceptance
is plain: an exact host is the host itself, and a host is below a domain when it
is a non-empty text, a dot and the domain.  Of two domains above one host the
longer has more labels, so the order by labels and bytes is the order by length.
-/

namespace HttpRouting

theorem toLower_toLower (s : String) : s.toLower.toLower = s.toLower := by
  apply String.toList_inj.mp
  simp [String.toLower]

theorem toLower_eq_self_iff {s : String} : s.toLower = s ↔ ∀ c ∈ s.toList, c.toLower = c := by
  rw [← String.toList_inj, String.toLower, String.toList_map]
  conv_lhs => rhs; rw [← List.map_id s.toList]
  exact List.map_eq_map_iff

theorem HostName.normalized_toLower (host : String) :
    (HostName.normalized host).toLower = HostName.normalized host :=
  toLower_toLower _

namespace HostPattern

def IsLower : HostPattern → Prop
  | .any => True
  | .exact host => host.toLower = host
  | .suffix domain => domain.toLower = domain

theorem isLower_of_compile {pattern : String} {host : HostPattern}
    (h : compile pattern = .ok host) : host.IsLower := by
  unfold compile at h
  split at h
  · cases h
    trivial
  · split at h
    · cases h
      trivial
    · split at h
      · contradiction
      · split at h
        · contradiction
        · split at h
          · split at h
            · contradiction
            · cases h
              exact toLower_toLower _
          · cases h
            exact toLower_toLower _

theorem isBelow_iff_split {domain host : String} :
    isBelow domain host = true ↔
      ∃ before tail, before ≠ [] ∧ host.toList = before ++ '.' :: tail ∧
        (String.ofList tail).toLower = domain.toLower := by
  simp only [isBelow, Bool.and_eq_true, decide_eq_true_eq]
  constructor
  · rintro ⟨hbefore, hmatch⟩
    generalize hcut : host.toList.length - (domain.toList.length + 1) = cut at hbefore hmatch
    split at hmatch
    · next tail hdrop =>
        refine ⟨host.toList.take cut, tail, ?_, ?_, by simpa [sameHost] using hmatch⟩
        · rw [Ne, List.take_eq_nil_iff]
          rintro (hnone | hnil)
          · omega
          · simp [hnil] at hcut
            omega
        · rw [← hdrop, List.take_append_drop]
    · contradiction
  · rintro ⟨before, tail, hbefore, hsplit, hsame⟩
    have htail : tail.length = domain.toList.length := by
      have hlengths := congrArg String.length hsame
      simpa [String.toLower, ← String.length_toList] using hlengths
    have hlength : host.toList.length - (domain.toList.length + 1) = before.length := by
      rw [hsplit, List.length_append, List.length_cons]
      omega
    rw [hlength, hsplit, List.drop_left]
    exact ⟨List.length_pos_iff.mpr hbefore, by simpa [sameHost] using hsame⟩

theorem isBelow_iff {domain host : String} (hdomain : domain.toLower = domain)
    (hhost : host.toLower = host) :
    isBelow domain host = true ↔
      ∃ before, before ≠ [] ∧ host.toList = before ++ '.' :: domain.toList := by
  rw [isBelow_iff_split]
  constructor
  · rintro ⟨before, tail, hbefore, hsplit, hsame⟩
    have htail : (String.ofList tail).toLower = String.ofList tail := by
      rw [toLower_eq_self_iff] at hhost ⊢
      intro c hc
      rw [String.toList_ofList] at hc
      exact hhost c (by simp [hsplit, hc])
    rw [htail, hdomain] at hsame
    exact ⟨before, hbefore, by rw [hsplit, ← hsame, String.toList_ofList]⟩
  · rintro ⟨before, hbefore, hsplit⟩
    exact ⟨before, domain.toList, hbefore, hsplit, by rw [String.ofList_toList]⟩

theorem split_of_length_lt {host first second : String} (hhost : host.toLower = host)
    (hfirst : first.toLower = first) (hsecond : second.toLower = second)
    (hbelow : isBelow first host = true) (hbelow' : isBelow second host = true)
    (hlength : first.length < second.length) : ∃ labels, second = labels ++ "." ++ first := by
  obtain ⟨before, -, hsplit⟩ := (isBelow_iff hfirst hhost).mp hbelow
  obtain ⟨before', -, hsplit'⟩ := (isBelow_iff hsecond hhost).mp hbelow'
  have hends : '.' :: first.toList <:+ host.toList := ⟨before, hsplit.symm⟩
  have hends' : second.toList <:+ host.toList := ⟨before' ++ ['.'], by simp [hsplit']⟩
  have hsuffix : '.' :: first.toList <:+ second.toList := by
    apply List.suffix_of_suffix_length_le hends hends'
    simpa [String.length_toList] using hlength
  obtain ⟨labels, hlabels⟩ := hsuffix
  refine ⟨String.ofList labels, ?_⟩
  apply String.toList_inj.mp
  simp [← hlabels]

theorem lessSpecific_of_length_lt {host first second : String} (hhost : host.toLower = host)
    (hfirst : first.toLower = first) (hsecond : second.toLower = second)
    (hbelow : isBelow first host = true) (hbelow' : isBelow second host = true)
    (hlength : first.length < second.length) : lessSpecific first second = true := by
  obtain ⟨labels, hsplit⟩ :=
    split_of_length_lt hhost hfirst hsecond hbelow hbelow' hlength
  have hfields : Text.fields '.' second = Text.fields '.' labels ++ Text.fields '.' first :=
    Text.fields_append '.' (by simp [hsplit])
  have hmore : (Text.fields '.' first).length < (Text.fields '.' second).length := by
    have hpos : 0 < (Text.fields '.' labels).length := by
      simp [Text.fields, List.length_pos_iff, Text.splitChars_ne_nil]
    rw [hfields, List.length_append]
    omega
  simp [lessSpecific, specificity, hmore]

theorem utf8ByteSize_lt_of_length_lt {host first second : String} (hhost : host.toLower = host)
    (hfirst : first.toLower = first) (hsecond : second.toLower = second)
    (hbelow : isBelow first host = true) (hbelow' : isBelow second host = true)
    (hlength : first.length < second.length) : first.utf8ByteSize < second.utf8ByteSize := by
  obtain ⟨labels, rfl⟩ := split_of_length_lt hhost hfirst hsecond hbelow hbelow' hlength
  have hdot : ".".utf8ByteSize = 1 := by decide
  rw [String.utf8ByteSize_append, String.utf8ByteSize_append, hdot]
  omega

theorem domain_eq_of_length_eq {host first second : String} (hhost : host.toLower = host)
    (hfirst : first.toLower = first) (hsecond : second.toLower = second)
    (hbelow : isBelow first host = true) (hbelow' : isBelow second host = true)
    (hlength : first.length = second.length) : first = second := by
  obtain ⟨before, -, hsplit⟩ := (isBelow_iff hfirst hhost).mp hbelow
  obtain ⟨before', -, hsplit'⟩ := (isBelow_iff hsecond hhost).mp hbelow'
  have hsame : before ++ '.' :: first.toList = before' ++ '.' :: second.toList := by
    rw [← hsplit, hsplit']
  have htails := (List.append_inj' hsame (by simp [String.length_toList, hlength])).2
  exact String.toList_inj.mp (List.cons.inj htails).2

theorem lessSpecific_asymm {first second : String} (h : lessSpecific first second = true) :
    lessSpecific second first = false := by
  simp only [lessSpecific, Bool.or_eq_true, Bool.and_eq_true, decide_eq_true_eq, beq_iff_eq] at h
  simp only [lessSpecific, Bool.or_eq_false_iff, Bool.and_eq_false_iff, decide_eq_false_iff_not,
    beq_eq_false_iff_ne]
  omega

theorem not_lessSpecific_trans {first second third : String}
    (h : lessSpecific first second = true) (h' : lessSpecific first third = false) :
    lessSpecific second third = false := by
  simp only [lessSpecific, Bool.or_eq_true, Bool.and_eq_true, decide_eq_true_eq, beq_iff_eq] at h
  simp only [lessSpecific, Bool.or_eq_false_iff, Bool.and_eq_false_iff, decide_eq_false_iff_not,
    beq_eq_false_iff_ne] at h' ⊢
  omega

theorem precedes_self (host : HostPattern) : host.precedes host = false := by
  cases host <;> simp [precedes]

theorem precedes_asymm {first second : HostPattern} (h : first.precedes second = true) :
    second.precedes first = false := by
  cases first <;> cases second <;> simp_all [precedes]
  omega

end HostPattern

end HttpRouting
