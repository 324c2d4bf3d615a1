import HttpRouting.Text.Percent

/-!
# Texts read back

The decoder of UTF-8 reads every text back from its bytes, and percent decoding
reads it back from any escaped form in which the percent sign itself is escaped.
Bytes that are no UTF-8 are read as some text too, and never as the empty one.
-/

namespace HttpRouting.Text

namespace Utf8

theorem utf8EncodeChar_of_lt {c : Char} (h : c.toNat < 128) :
    String.utf8EncodeChar c = [UInt8.ofNat c.toNat] := by
  have hle : c.val.toNat ≤ 0x7f := by
    have hval : c.toNat = c.val.toNat := rfl
    omega
  unfold String.utf8EncodeChar
  rw [if_pos hle]
  rfl

/-! ## One character -/

theorem scanFrom_cons (pending : Pending) (b : UInt8) (rest : Bytes) :
    scanFrom pending (b :: rest) = (feed pending b).1 ++ scanFrom (feed pending b).2 rest := by
  cases pending <;> rfl

theorem first_one : ∀ n < 128, first (UInt8.ofNat n) = ([some (Char.ofNat n)], .none) := by
  decide

theorem first_two : ∀ n < 32, 2 ≤ n →
    first (UInt8.ofNat (n + 192)) = ([], .awaiting n 1 0x80 0xBF) := by
  decide

theorem first_three : ∀ n < 16,
    first (UInt8.ofNat (n + 224)) =
      ([], .awaiting n 2 (if n = 0 then 0xA0 else 0x80) (if n = 13 then 0x9F else 0xBF)) := by
  decide

theorem first_four : ∀ n < 5,
    first (UInt8.ofNat (n + 240)) =
      ([], .awaiting n 3 (if n = 0 then 0x90 else 0x80) (if n = 4 then 0x8F else 0xBF)) := by
  decide

theorem scanFrom_continue {bits left n : Nat} {low high : UInt8} (hn : n < 64)
    (hlow : low.toNat ≤ n + 128) (hhigh : n + 128 ≤ high.toNat) (rest : Bytes) :
    scanFrom (.awaiting bits left low high) (UInt8.ofNat (n + 128) :: rest) =
      if left ≤ 1 then some (Char.ofNat (bits * 64 + n)) :: scanFrom .none rest
      else scanFrom (.awaiting (bits * 64 + n) (left - 1) 0x80 0xBF) rest := by
  have hbyte : (UInt8.ofNat (n + 128)).toNat = n + 128 := by
    rw [UInt8.toNat_ofNat']
    omega
  have hrange : low ≤ UInt8.ofNat (n + 128) ∧ UInt8.ofNat (n + 128) ≤ high := by
    rw [UInt8.le_iff_toNat_le, UInt8.le_iff_toNat_le, hbyte]
    exact ⟨hlow, hhigh⟩
  rw [scanFrom_cons, feed, if_pos hrange, hbyte, Nat.add_sub_cancel]
  split <;> rfl

theorem scanFrom_tail {bits left n : Nat} (hn : n < 64) (rest : Bytes) :
    scanFrom (.awaiting bits left 0x80 0xBF) (UInt8.ofNat (n + 128) :: rest) =
      if left ≤ 1 then some (Char.ofNat (bits * 64 + n)) :: scanFrom .none rest
      else scanFrom (.awaiting (bits * 64 + n) (left - 1) 0x80 0xBF) rest := by
  apply scanFrom_continue hn <;> simp
  omega

theorem scanFrom_encodeChar (c : Char) (rest : Bytes) :
    scanFrom .none (String.utf8EncodeChar c ++ rest) = some c :: scanFrom .none rest := by
  have hvalid := c.valid
  have hself : Char.ofNat c.val.toNat = c := Char.ofNat_toNat c
  unfold UInt32.isValidChar Nat.isValidChar at hvalid
  unfold String.utf8EncodeChar
  generalize c.val.toNat = v at hvalid hself
  subst hself
  simp only
  split
  · rw [List.singleton_append, scanFrom_cons, feed, first_one v (by omega)]
    rfl
  split
  · have hbits : v / 64 % 32 * 64 + v % 64 = v := by omega
    simp only [List.cons_append, List.nil_append]
    rw [scanFrom_cons, feed, first_two _ (by omega) (by omega), List.nil_append,
      scanFrom_tail (by omega), if_pos (by decide), hbits]
  -- The narrower ranges of the second byte exclude nothing that is encoded: overlong
  -- forms and surrogates are no characters of this length.
  split
  · have hbits : (v / 4096 % 16 * 64 + v / 64 % 64) * 64 + v % 64 = v := by omega
    simp only [List.cons_append, List.nil_append]
    rw [scanFrom_cons, feed, first_three _ (by omega), List.nil_append,
      scanFrom_continue (by omega), if_neg (by decide), scanFrom_tail (by omega),
      if_pos (by decide), hbits]
    · split <;> simp
      omega
    · split <;> simp <;> omega
  · have hbits : ((v / 262144 % 8 * 64 + v / 4096 % 64) * 64 + v / 64 % 64) * 64 + v % 64 = v := by
      omega
    simp only [List.cons_append, List.nil_append]
    rw [scanFrom_cons, feed, first_four _ (by omega), List.nil_append,
      scanFrom_continue (by omega), if_neg (by decide), scanFrom_tail (by omega),
      if_neg (by decide), scanFrom_tail (by omega), if_pos (by decide), hbits]
    · split <;> simp
      omega
    · split <;> simp <;> omega

/-! ## Whole texts -/

theorem scan_encode (s : String) : scan (encode s) = s.toList.map some := by
  unfold scan encode
  induction s.toList with
  | nil => rfl
  | cons c rest ih => rw [List.flatMap_cons, scanFrom_encodeChar, ih, List.map_cons]

theorem decodeLossy_encode (s : String) : decodeLossy (encode s) = s := by
  have hchars : (s.toList.map some).map (·.getD replacement) = s.toList := by
    simp [Function.comp_def]
  rw [decodeLossy, scan_encode, hchars, String.ofList_toList]

theorem encode_ne_nil {s : String} (h : s ≠ "") : encode s ≠ [] := by
  intro hnil
  apply h
  rw [← decodeLossy_encode s, hnil]
  rfl

theorem scanFrom_awaiting_ne_nil {bits left : Nat} {low high : UInt8} (bytes : Bytes) :
    scanFrom (.awaiting bits left low high) bytes ≠ [] := by
  induction bytes generalizing bits left low high with
  | nil => simp [scanFrom]
  | cons b rest ih =>
      rw [scanFrom_cons, feed]
      split
      · split
        · simp
        · exact ih
      · simp

theorem scan_ne_nil {bytes : Bytes} (h : bytes ≠ []) : scan bytes ≠ [] := by
  obtain ⟨b, rest, rfl⟩ := List.exists_cons_of_ne_nil h
  have hfirst : (first b).1 ≠ [] ∨ ∃ bits left low high,
      (first b).2 = .awaiting bits left low high := by
    unfold first
    repeat' split
    all_goals simp
  rw [scan, scanFrom_cons, feed]
  rcases hfirst with hread | ⟨bits, left, low, high, hpending⟩
  · simp [hread]
  · simp [hpending, scanFrom_awaiting_ne_nil]

theorem decodeLossy_ne_empty {bytes : Bytes} (h : bytes ≠ []) : decodeLossy bytes ≠ "" := by
  simpa [decodeLossy, String.ofList_eq_empty_iff] using scan_ne_nil h

end Utf8

namespace Percent

open Utf8

theorem decodeBytes_cons {b : UInt8} (h : b ≠ percent) (rest : Bytes) :
    decodeBytes (b :: rest) = b :: decodeBytes rest := by
  cases rest with
  | nil => rfl
  | cons next rest =>
      cases rest with
      | nil => rfl
      | cons last rest => rw [decodeBytes, if_neg h]

theorem decodeBytes_ne_nil {bytes : Bytes} (h : bytes ≠ []) : decodeBytes bytes ≠ [] := by
  unfold decodeBytes
  split
  · split
    · split <;> simp
    · simp
  · exact h

/-! ## One escaped byte -/

theorem hexValue_upperDigit : ∀ n < 16,
    hexValue (UInt8.ofNat (upperDigit n).toNat) = some (UInt8.ofNat n) := by
  decide

theorem upperDigit_lt : ∀ n < 16, (upperDigit n).toNat < 128 := by decide

theorem hexByte_upperHex (b : UInt8) :
    hexByte (UInt8.ofNat (upperDigit (b.toNat / 16)).toNat)
      (UInt8.ofNat (upperDigit (b.toNat % 16)).toNat) = some b := by
  have hbound := b.toNat_lt
  have hhigh := hexValue_upperDigit (b.toNat / 16) (by omega)
  have hlow := hexValue_upperDigit (b.toNat % 16) (by omega)
  have hb : UInt8.ofNat (b.toNat / 16) * 16 + UInt8.ofNat (b.toNat % 16) = b := by
    have hsixteen : (16 : UInt8).toNat = 16 := rfl
    apply UInt8.toNat_inj.mp
    rw [UInt8.toNat_add, UInt8.toNat_mul, UInt8.toNat_ofNat', UInt8.toNat_ofNat', hsixteen]
    omega
  simp [hexByte, hhigh, hlow, hb]

theorem utf8EncodeChar_ofNat : ∀ n < 128,
    String.utf8EncodeChar (Char.ofNat n) = [UInt8.ofNat n] := by
  decide

theorem decodeBytes_escaped {keep : UInt8 → Bool} (hkeep : keep percent = false) (b : UInt8)
    (rest : Bytes) :
    decodeBytes
        ((if b < 0x80 && keep b then [Char.ofNat b.toNat] else '%' :: upperHex b).flatMap
          String.utf8EncodeChar ++ rest) =
      b :: decodeBytes rest := by
  split
  · next hkept =>
      obtain ⟨hascii, hkept⟩ := Bool.and_eq_true_iff.mp hkept
      have hlt : b.toNat < 128 := UInt8.lt_iff_toNat_lt.mp (of_decide_eq_true hascii)
      have hb : b ≠ percent := by
        rintro rfl
        rw [hkeep] at hkept
        contradiction
      rw [List.flatMap_singleton, utf8EncodeChar_ofNat _ hlt, UInt8.ofNat_toNat,
        List.singleton_append, decodeBytes_cons hb]
  · have hbound := b.toNat_lt
    have hhigh := upperDigit_lt (b.toNat / 16) (by omega)
    have hlow := upperDigit_lt (b.toNat % 16) (by omega)
    have hmark : String.utf8EncodeChar '%' = [percent] := by decide
    simp only [upperHex, List.flatMap_cons, List.flatMap_nil, hmark, utf8EncodeChar_of_lt hhigh,
      utf8EncodeChar_of_lt hlow, List.cons_append, List.nil_append]
    rw [decodeBytes, if_pos rfl, hexByte_upperHex]

/-! ## Whole texts -/

theorem decodeBytes_encode {keep : UInt8 → Bool} (hkeep : keep percent = false) (s : String) :
    decodeBytes (Utf8.encode (encode keep s)) = Utf8.encode s := by
  rw [encode, Utf8.encode, String.toList_ofList]
  induction Utf8.encode s with
  | nil => rfl
  | cons b rest ih =>
      rw [List.flatMap_cons, List.flatMap_append, decodeBytes_escaped hkeep, ih]

theorem decode_encode {keep : UInt8 → Bool} (hkeep : keep percent = false) (s : String) :
    decode (encode keep s) = s := by
  rw [decode, decodeBytes_encode hkeep, decodeLossy_encode]

theorem decode_ne_empty {s : String} (h : s ≠ "") : decode s ≠ "" :=
  decodeLossy_ne_empty (decodeBytes_ne_nil (encode_ne_nil h))

end Percent

end HttpRouting.Text
