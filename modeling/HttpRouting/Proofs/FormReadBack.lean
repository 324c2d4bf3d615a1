import HttpRouting.Proofs.ReadBack
import HttpRouting.Text.Form

/-!
# Forms read back

Reading a form gives the pairs that it was written from, whatever characters are in them: neither
separator is left in a written text, and the plus sign stands only for a space.
-/

namespace HttpRouting.Text

theorem Utf8.encode_append (s t : String) : encode (s ++ t) = encode s ++ encode t := by
  simp [encode]

theorem Utf8.encode_ofList_flatMap {α : Type} (f : α → List Char) (items : List α) :
    encode (String.ofList (items.flatMap f)) =
      items.flatMap fun item => (f item).flatMap String.utf8EncodeChar := by
  rw [encode, String.toList_ofList, List.flatMap_assoc]

theorem forall_byte {P : UInt8 → Prop} (h : ∀ n < 256, P (UInt8.ofNat n)) (b : UInt8) : P b := by
  have hb := h b.toNat b.toNat_lt
  rwa [UInt8.ofNat_toNat] at hb

namespace Form

open Utf8

/-! ## One text -/

def keeps (b : UInt8) : Bool := b == 0x20 || isVerbatim b

theorem encode_encodeText (s : String) :
    Utf8.encode (encodeText s) =
      (Utf8.encode s).flatMap fun b => (encodeByte b).flatMap String.utf8EncodeChar :=
  encode_ofList_flatMap encodeByte (Utf8.encode s)

theorem spaced_encodeByte (b : UInt8) :
    ((encodeByte b).flatMap String.utf8EncodeChar).map (fun b => if b = 0x2B then 0x20 else b) =
      (if b < 0x80 && keeps b then [Char.ofNat b.toNat] else '%' :: upperHex b).flatMap
        String.utf8EncodeChar := by
  revert b
  exact forall_byte (by decide +kernel)

theorem decodeText_encodeText (s : String) : decodeText (Utf8.encode (encodeText s)) = s := by
  have hspaced : (Utf8.encode (encodeText s)).map (fun b => if b = 0x2B then 0x20 else b) =
      Utf8.encode (Percent.encode keeps s) := by
    rw [encode_encodeText, List.map_flatMap, Percent.encode, encode_ofList_flatMap]
    simp only [spaced_encodeByte]
  rw [decodeText, hspaced]
  exact Percent.decode_encode (by decide) s

theorem not_mem_encodeText (s : String) :
    0x26 ∉ Utf8.encode (encodeText s) ∧ 0x3D ∉ Utf8.encode (encodeText s) := by
  have hbyte : ∀ b : UInt8, 0x26 ∉ (encodeByte b).flatMap String.utf8EncodeChar ∧
      0x3D ∉ (encodeByte b).flatMap String.utf8EncodeChar := forall_byte (by decide +kernel)
  rw [encode_encodeText]
  constructor
  · intro hmem
    obtain ⟨b, -, hb⟩ := List.mem_flatMap.mp hmem
    exact (hbyte b).1 hb
  · intro hmem
    obtain ⟨b, -, hb⟩ := List.mem_flatMap.mp hmem
    exact (hbyte b).2 hb

/-! ## Pairs -/

theorem encode_encodePair (pair : String × String) :
    Utf8.encode (encodePair pair) =
      Utf8.encode (encodeText pair.1) ++ 0x3D :: Utf8.encode (encodeText pair.2) := by
  have hmark : Utf8.encode "=" = [0x3D] := by decide
  simp [encodePair, Utf8.encode_append, hmark]

theorem not_mem_encodePair (pair : String × String) : 0x26 ∉ Utf8.encode (encodePair pair) := by
  have hkey := (not_mem_encodeText pair.1).1
  have hvalue := (not_mem_encodeText pair.2).1
  simp [encode_encodePair, hkey, hvalue]

theorem decodePair_encodePair (pair : String × String) :
    decodePair (Utf8.encode (encodePair pair)) = pair := by
  have hkey := (not_mem_encodeText pair.1).2
  have htake : (Utf8.encode (encodePair pair)).takeWhile (· ≠ 0x3D) =
      Utf8.encode (encodeText pair.1) := by
    rw [encode_encodePair, List.takeWhile_append_of_pos]
    · simp
    · intro b hb
      have hne : b ≠ 0x3D := fun same => hkey (same ▸ hb)
      simpa using hne
  have hdrop : (Utf8.encode (encodePair pair)).drop ((Utf8.encode (encodeText pair.1)).length + 1) =
      Utf8.encode (encodeText pair.2) := by
    simp [encode_encodePair, List.drop_append]
  rw [decodePair, htake, hdrop, decodeText_encodeText, decodeText_encodeText]

/-! ## Whole forms -/

theorem splitBytes_append {sep : UInt8} {piece : Bytes} (h : sep ∉ piece) (rest : Bytes) :
    splitBytes sep (piece ++ sep :: rest) = piece :: splitBytes sep rest := by
  induction piece with
  | nil => simp [splitBytes]
  | cons b piece ih =>
      have hb : b ≠ sep := fun same => h (by simp [same])
      have hpiece : sep ∉ piece := fun hmem => h (by simp [hmem])
      rw [List.cons_append, splitBytes, if_neg hb, ih hpiece]

theorem splitBytes_of_not_mem {sep : UInt8} {piece : Bytes} (h : sep ∉ piece) :
    splitBytes sep piece = [piece] := by
  induction piece with
  | nil => rfl
  | cons b piece ih =>
      have hb : b ≠ sep := fun same => h (by simp [same])
      have hpiece : sep ∉ piece := fun hmem => h (by simp [hmem])
      rw [splitBytes, if_neg hb, ih hpiece]

theorem decode_encode (pairs : List (String × String)) :
    decode (Utf8.encode (encode pairs)) = pairs := by
  induction pairs with
  | nil => decide
  | cons pair rest ih =>
      have hmark : Utf8.encode "&" = [0x26] := by decide
      have hne : Utf8.encode (encodePair pair) ≠ [] := by simp [encode_encodePair]
      rw [encode, List.map_cons]
      by_cases hrest : rest = []
      · subst hrest
        rw [List.map_nil, joined, String.intercalate_singleton, decode,
          splitBytes_of_not_mem (not_mem_encodePair pair)]
        simp [hne, decodePair_encodePair]
      · have hrest' : rest.map encodePair ≠ [] := by simpa using hrest
        rw [joined_cons _ _ hrest', Utf8.encode_append, Utf8.encode_append, hmark,
          List.append_assoc, List.singleton_append, decode,
          splitBytes_append (not_mem_encodePair pair)]
        rw [decode, encode] at ih
        simpa [hne, decodePair_encodePair] using ih

end Form

end HttpRouting.Text
