import HttpRouting.Proofs.HostOrder
import HttpRouting.Proofs.ReadBack
import Mathlib.Data.Nat.PSub

/-!
# Hosts as bytes

Whether a host is below a domain can be read off their bytes, at places counted from the end of the
host.  Every place that is looked at is one of the host, and the answer is the same as that for the
characters: a dot is a byte of its own, so it is never found inside another character.
-/

namespace HttpRouting

namespace Text.Utf8

/-! ## Characters among bytes -/

theorem le_of_mem_encodeChar {c : Char} (h : 128 ≤ c.toNat) :
    ∀ b ∈ String.utf8EncodeChar c, 128 ≤ b.toNat := by
  have hval : c.toNat = c.val.toNat := rfl
  have hvalid := c.valid
  unfold UInt32.isValidChar Nat.isValidChar at hvalid
  rw [hval] at h
  unfold String.utf8EncodeChar
  generalize c.val.toNat = v at h hvalid
  simp only
  split
  · omega
  · split
    · simp
      omega
    · split
      · simp
        omega
      · simp
        omega

theorem split_of_encode {cs : List Char} {before after : Bytes} {b : UInt8} (hb : b.toNat < 128)
    (h : cs.flatMap String.utf8EncodeChar = before ++ b :: after) :
    ∃ pre post, cs = pre ++ Char.ofNat b.toNat :: post ∧
      pre.flatMap String.utf8EncodeChar = before ∧ post.flatMap String.utf8EncodeChar = after := by
  induction cs generalizing before with
  | nil => simp at h
  | cons c rest ih =>
      rw [List.flatMap_cons] at h
      by_cases hc : c.toNat < 128
      · rw [utf8EncodeChar_of_lt hc] at h
        cases before with
        | nil =>
            obtain ⟨hsame, hafter⟩ := List.cons.inj h
            refine ⟨[], rest, ?_, rfl, hafter⟩
            rw [← hsame, UInt8.toNat_ofNat', Nat.mod_eq_of_lt (by omega), Char.ofNat_toNat]
            rfl
        | cons first before =>
            obtain ⟨hsame, hrest⟩ := List.cons.inj h
            obtain ⟨pre, post, hsplit, hpre, hpost⟩ := ih hrest
            refine ⟨c :: pre, post, by rw [hsplit]; rfl, ?_, hpost⟩
            rw [List.flatMap_cons, hpre, utf8EncodeChar_of_lt hc, hsame]
            rfl
      · have hlarge := le_of_mem_encodeChar (Nat.le_of_not_lt hc)
        rcases List.append_eq_append_iff.mp h with ⟨more, hbefore, hrest⟩ | ⟨more, hchar, hrest⟩
        · obtain ⟨pre, post, hsplit, hpre, hpost⟩ := ih hrest
          refine ⟨c :: pre, post, by rw [hsplit]; rfl, ?_, hpost⟩
          rw [List.flatMap_cons, hpre, hbefore]
        · cases more with
          | nil =>
              obtain ⟨pre, post, hsplit, hpre, hpost⟩ := @ih [] hrest.symm
              refine ⟨c :: pre, post, by rw [hsplit]; rfl, ?_, hpost⟩
              rw [List.flatMap_cons, hpre, hchar]
              simp
          | cons first more =>
              obtain ⟨rfl, -⟩ := List.cons.inj hrest
              have hbyte := hlarge b (by simp [hchar])
              omega

theorem encode_injective : Function.Injective encode := by
  intro s t h
  rw [← decodeLossy_encode s, h, decodeLossy_encode]

/-! ## Letter case -/

def lowerByte (b : UInt8) : UInt8 := if 0x41 ≤ b ∧ b ≤ 0x5A then b + 0x20 else b

theorem lowerByte_of_le {b : UInt8} (h : 128 ≤ b.toNat) : lowerByte b = b := by
  have hlarge : ¬ b ≤ 0x5A := by
    have hbound : (0x5A : UInt8).toNat = 90 := rfl
    rw [UInt8.le_iff_toNat_le, hbound]
    omega
  exact if_neg fun hupper => hlarge hupper.2

theorem encodeChar_toLower_ofNat : ∀ n < 128,
    String.utf8EncodeChar (Char.ofNat n).toLower =
      (String.utf8EncodeChar (Char.ofNat n)).map lowerByte := by
  decide

theorem encodeChar_toLower (c : Char) :
    String.utf8EncodeChar c.toLower = (String.utf8EncodeChar c).map lowerByte := by
  by_cases hc : c.toNat < 128
  · have hsame := encodeChar_toLower_ofNat c.toNat hc
    rwa [Char.ofNat_toNat] at hsame
  · have hlower : c.toLower = c := by
      have hval : c.toNat = c.val.toNat := rfl
      unfold Char.toLower
      split
      · next hupper =>
          have hupper := UInt32.le_iff_toNat_le.mp hupper.2
          simp at hupper
          omega
      · rfl
    have hbytes : ∀ b ∈ String.utf8EncodeChar c, lowerByte b = id b := fun b hb =>
      lowerByte_of_le (le_of_mem_encodeChar (Nat.le_of_not_lt hc) b hb)
    rw [hlower, List.map_congr_left hbytes, List.map_id]

theorem encode_toLower (s : String) : encode s.toLower = (encode s).map lowerByte := by
  simp [encode, String.toLower, List.map_flatMap, List.flatMap_map, encodeChar_toLower]

theorem toLower_eq_iff_encode {s t : String} :
    s.toLower = t.toLower ↔ (encode s).map lowerByte = (encode t).map lowerByte := by
  rw [← encode_toLower, ← encode_toLower, encode_injective.eq_iff]

end Text.Utf8

namespace HostPattern

open Text.Utf8

/-! ## Looking from the end of the host -/

def endFrom? (bytes : Bytes) (start : Nat) : Option Bytes :=
  if start ≤ bytes.length then some (bytes.drop start) else none

/-- Whether a host is below a domain, by their bytes: one look at the place of the dot and one
comparison of the end.  There is no answer if a difference is negative or a place is not one of
the host. -/
def isBelowBytes? (domain host : Bytes) : Option Bool :=
  if domain.length + 1 < host.length then do
    let start ← host.length.psub domain.length
    let place ← start.psub 1
    let b ← host[place]?
    if b = 0x2E then do
      let tail ← endFrom? host start
      some (tail.map lowerByte = domain.map lowerByte)
    else some false
  else some false

theorem isBelow_iff_bytes {domain host : String} :
    isBelow domain host = true ↔
      ∃ before tail : Bytes, before ≠ [] ∧ encode host = before ++ 0x2E :: tail ∧
        tail.map lowerByte = (encode domain).map lowerByte := by
  rw [isBelow_iff_split]
  constructor
  · rintro ⟨before, tail, hbefore, hsplit, hsame⟩
    have hdot : String.utf8EncodeChar '.' = [0x2E] := by decide
    have hbytes := toLower_eq_iff_encode.mp hsame
    refine ⟨encode (String.ofList before), encode (String.ofList tail), ?_, ?_, hbytes⟩
    · exact encode_ne_nil (by simpa using hbefore)
    · simp [encode, hsplit, hdot]
  · rintro ⟨before, tail, hbefore, hsplit, hsame⟩
    obtain ⟨pre, post, hhost, hpre, hpost⟩ := split_of_encode (b := 0x2E) (by decide) hsplit
    refine ⟨pre, post, ?_, hhost, ?_⟩
    · rintro rfl
      exact hbefore hpre.symm
    · rw [toLower_eq_iff_encode, encode, String.toList_ofList, hpost, hsame]

theorem isBelowBytes?_append {domain before tail : Bytes} (hbefore : before ≠ [])
    (hlength : tail.length = domain.length) (b : UInt8) :
    isBelowBytes? domain (before ++ b :: tail) =
      some (b = 0x2E && tail.map lowerByte = domain.map lowerByte) := by
  have htotal : (before ++ b :: tail).length = before.length + 1 + domain.length := by
    rw [List.length_append, List.length_cons, hlength]
    omega
  have hlong : domain.length + 1 < (before ++ b :: tail).length := by
    have hpos := List.length_pos_iff.mpr hbefore
    omega
  have hstart : (before ++ b :: tail).length.psub domain.length = some (before.length + 1) :=
    Nat.psub_eq_some.mpr htotal.symm
  have hplace : (before.length + 1).psub 1 = some before.length := Nat.psub_eq_some.mpr rfl
  have hbyte : (before ++ b :: tail)[before.length]? = some b := by simp
  have hend : endFrom? (before ++ b :: tail) (before.length + 1) = some tail := by
    simp [endFrom?]
  simp only [isBelowBytes?, if_pos hlong, hstart, hplace, hbyte, hend, Option.bind_eq_bind,
    Option.bind_some]
  split <;> simp [*]

theorem exists_split_from_end {bytes : Bytes} {n : Nat} (h : n + 1 < bytes.length) :
    ∃ before b tail, bytes = before ++ b :: tail ∧ before ≠ [] ∧ tail.length = n := by
  have hplace : bytes.length - n - 1 < bytes.length := by omega
  refine ⟨bytes.take (bytes.length - n - 1), bytes[bytes.length - n - 1],
    bytes.drop (bytes.length - n - 1 + 1), ?_, ?_, ?_⟩
  · rw [List.getElem_cons_drop, List.take_append_drop]
  · rw [← List.length_pos_iff, List.length_take]
    omega
  · rw [List.length_drop]
    omega

/-- The look at the bytes always has an answer, and it is the one for the characters. -/
theorem isBelowBytes?_encode (domain host : String) :
    isBelowBytes? (encode domain) (encode host) = some (isBelow domain host) := by
  have hlength : ∀ {tail : Bytes}, tail.map lowerByte = (encode domain).map lowerByte →
      tail.length = (encode domain).length := by
    intro tail hsame
    simpa using congrArg List.length hsame
  by_cases hlong : (encode domain).length + 1 < (encode host).length
  · obtain ⟨before, b, tail, hsplit, hbefore, htail⟩ := exists_split_from_end hlong
    rw [hsplit, isBelowBytes?_append hbefore htail, Option.some.injEq, Bool.eq_iff_iff,
      isBelow_iff_bytes, Bool.and_eq_true, decide_eq_true_eq, decide_eq_true_eq]
    constructor
    · rintro ⟨rfl, hsame⟩
      exact ⟨before, tail, hbefore, hsplit, hsame⟩
    · rintro ⟨before', tail', -, hsplit', hsame⟩
      have hends : b :: tail = 0x2E :: tail' := by
        refine (List.append_inj' (hsplit.symm.trans hsplit') ?_).2
        rw [List.length_cons, List.length_cons, htail, hlength hsame]
      obtain ⟨rfl, rfl⟩ := List.cons.inj hends
      exact ⟨rfl, hsame⟩
  · have hnot : isBelow domain host = false := by
      rw [← Bool.not_eq_true, isBelow_iff_bytes]
      rintro ⟨before, tail, hbefore, hsplit, hsame⟩
      apply hlong
      rw [hsplit, List.length_append, List.length_cons, hlength hsame]
      have hpos := List.length_pos_iff.mpr hbefore
      omega
    rw [hnot, isBelowBytes?, if_neg hlong]

end HostPattern

end HttpRouting
