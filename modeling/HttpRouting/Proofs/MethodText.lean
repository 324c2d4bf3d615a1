import HttpRouting.Proofs.ReadBack
import HttpRouting.Table.Key

/-!
# The texts of methods

A method is written in ASCII, so methods in the order of their characters are in
the order of their bytes.  The method of a route is read in upper case, and none
that is read has the star for its text.
-/

namespace HttpRouting

theorem isAscii_of_isTokenChar {c : Char} (h : isTokenChar c = true) : c.toNat < 128 := by
  unfold isTokenChar at h
  rcases Bool.or_eq_true_iff.mp h with halnum | hmark
  · have hranges : c.isAlphanum =
        ((decide ('A'.val ≤ c.val ∧ c.val ≤ 'Z'.val) || 'a'.val ≤ c.val && c.val ≤ 'z'.val) ||
          '0'.val ≤ c.val && c.val ≤ '9'.val) := rfl
    rw [hranges] at halnum
    simp only [Bool.or_eq_true, Bool.and_eq_true, decide_eq_true_eq, UInt32.le_iff_toNat_le]
      at halnum
    have hval : c.toNat = c.val.toNat := rfl
    have hupper : 'Z'.val.toNat = 90 := rfl
    have hlower : 'z'.val.toNat = 122 := rfl
    have hdigit : '9'.val.toNat = 57 := rfl
    omega
  · have hall : ("!#$%&'*+-.^_`|~".toList.all fun mark => mark.toNat < 128) = true := by rfl
    have hmem : c ∈ "!#$%&'*+-.^_`|~".toList := by simpa using hmark
    simpa using List.all_eq_true.mp hall c hmem

theorem Method.isAscii_text (m : Method) : ∀ c ∈ m.text.toList, c.toNat < 128 := by
  have htoken := m.isToken_text
  unfold isToken at htoken
  rw [Bool.and_eq_true, List.all_eq_true] at htoken
  intro c hc
  exact isAscii_of_isTokenChar (htoken.2 c hc)

namespace Text.Utf8

theorem encodeChars_lt {cs ds : List Char} (hcs : ∀ c ∈ cs, c.toNat < 128)
    (hds : ∀ d ∈ ds, d.toNat < 128) (h : cs < ds) :
    cs.flatMap String.utf8EncodeChar < ds.flatMap String.utf8EncodeChar := by
  induction h with
  | @nil d ds =>
      rw [List.flatMap_cons, utf8EncodeChar_of_lt (hds d (by simp))]
      exact List.nil_lt_cons ..
  | @cons c cs ds _ ih =>
      have hrest := ih (fun c hc => hcs c (by simp [hc])) (fun d hd => hds d (by simp [hd]))
      rw [List.flatMap_cons, List.flatMap_cons, utf8EncodeChar_of_lt (hcs c (by simp))]
      exact List.cons_lt_cons_iff.mpr (.inr ⟨rfl, hrest⟩)
  | @rel c cs d ds hlt =>
      have hc := hcs c (by simp)
      have hd := hds d (by simp)
      have hbytes : UInt8.ofNat c.toNat < UInt8.ofNat d.toNat := by
        rw [UInt8.lt_iff_toNat_lt, UInt8.toNat_ofNat', UInt8.toNat_ofNat']
        have hlt' : c.toNat < d.toNat := hlt
        omega
      rw [List.flatMap_cons, List.flatMap_cons, utf8EncodeChar_of_lt hc, utf8EncodeChar_of_lt hd]
      exact List.cons_lt_cons_iff.mpr (.inl hbytes)

end Text.Utf8

theorem Method.encode_lt_encode {first second : Method} (h : first.text < second.text) :
    Text.Utf8.encode first.text < Text.Utf8.encode second.text :=
  Text.Utf8.encodeChars_lt first.isAscii_text second.isAscii_text h

/-! ## The method of a route -/

theorem toUpper_eq_star {c : Char} (h : c.toUpper = '*') : c = '*' := by
  unfold Char.toUpper at h
  split at h
  · next hlower =>
      have hval := congrArg (fun c : Char => c.val.toNat) h
      obtain ⟨hfirst, hlast⟩ := hlower
      rw [UInt32.le_iff_toNat_le] at hfirst hlast
      have ha : 'a'.val.toNat = 97 := rfl
      have hz : 'z'.val.toNat = 122 := rfl
      have hshift : ('A'.val - 'a'.val).toNat = 4294967264 := rfl
      have hstar : '*'.val.toNat = 42 := rfl
      simp only [UInt32.toNat_add, hshift, hstar] at hval
      omega
  · exact h

theorem RouteMethod.text_ne_star_of_parse? {s : String} {m : Method}
    (h : parse? s = some (.exact m)) : m.text ≠ "*" := by
  unfold parse? at h
  split at h
  · simp at h
  · next hstar =>
      obtain ⟨own, hown, hsame⟩ := Option.map_eq_some_iff.mp h
      cases hsame
      intro htext
      apply hstar
      rw [Method.text_of_parse? hown] at htext
      have hlist := congrArg String.toList htext
      rw [String.toUpper, String.toList_map] at hlist
      obtain ⟨c, hc, hupper⟩ := List.map_eq_singleton_iff.mp hlist
      rw [← String.toList_inj, hc, toUpper_eq_star hupper]
      rfl

theorem RouteMethod.parse?_of_toUpper {s : String} {m : Method} (hm : m.text = s.toUpper)
    (hstar : s ≠ "*") : parse? s = some (.exact m) := by
  rw [parse?, if_neg hstar, ← hm, Method.parse?_text, Option.map_some]

end HttpRouting
