import OptionAtlas.Text.Symbol

/-!
# The bytes of a text

A text that is written as bytes and read again has the same characters and no stray
bytes.

## Main statements

* `Symbol.ofBytes_toUTF8` — the symbols of the bytes of a text are its characters.
-/

namespace OptionAtlas.Text.Symbol

theorem utf8Encode_cons_eq_append (c : Char) (cs : List Char) :
    (c :: cs).utf8Encode = (String.utf8EncodeChar c).toByteArray ++ cs.utf8Encode := by
  rw [List.utf8Encode_cons, List.utf8Encode_singleton]

theorem size_utf8EncodeChar (c : Char) :
    (String.utf8EncodeChar c).toByteArray.size = c.utf8Size := by
  rw [List.size_toByteArray, String.length_utf8EncodeChar]

theorem length_le_size_utf8Encode (cs : List Char) : cs.length ≤ cs.utf8Encode.size := by
  induction cs with
  | nil => simp
  | cons c cs ih =>
      have hpos : 0 < c.utf8Size := c.utf8Size_pos
      rw [utf8Encode_cons_eq_append, ByteArray.size_append, size_utf8EncodeChar,
        List.length_cons]
      omega

/-- Behind any bytes the first character of a text is the one that is decoded. -/
theorem utf8DecodeChar?_append (before : ByteArray) (c : Char) (cs : List Char) :
    (before ++ (c :: cs).utf8Encode).utf8DecodeChar? before.size = some c := by
  rw [ByteArray.utf8DecodeChar?_eq_utf8DecodeChar?_extract,
    ByteArray.extract_append_eq_right rfl ByteArray.size_append, utf8Encode_cons_eq_append]
  exact ByteArray.utf8DecodeChar?_utf8EncodeChar_append

/-- Decoding goes on character by character, whatever bytes were passed over. -/
theorem ofBytesFrom_append (before : ByteArray) (cs : List Char) {fuel : Nat}
    (hfuel : cs.length ≤ fuel) :
    ofBytesFrom (before ++ cs.utf8Encode) fuel before.size = cs.map .char := by
  induction cs generalizing before fuel with
  | nil => cases fuel <;> simp [ofBytesFrom]
  | cons c cs ih =>
      obtain ⟨fuel, rfl⟩ : ∃ n, fuel = n + 1 := ⟨fuel - 1, by simp at hfuel; omega⟩
      have hsize := size_utf8EncodeChar c
      have hpos : 0 < c.utf8Size := c.utf8Size_pos
      have hinside : before.size < (before ++ (c :: cs).utf8Encode).size := by
        rw [ByteArray.size_append, utf8Encode_cons_eq_append, ByteArray.size_append]
        omega
      have hlength : cs.length ≤ fuel := by simpa using hfuel
      have hrest := ih (before ++ (String.utf8EncodeChar c).toByteArray) hlength
      rw [ByteArray.size_append, hsize, ByteArray.append_assoc,
        ← utf8Encode_cons_eq_append] at hrest
      rw [ofBytesFrom, dif_pos hinside, utf8DecodeChar?_append]
      simp only [hrest, List.map_cons]

/-- The bytes of a text are read as its characters. -/
theorem ofBytes_toUTF8 (s : String) : ofBytes s.toUTF8 = ofString s := by
  have hbytes : s.toUTF8 = s.toList.utf8Encode := String.utf8Encode_toList.symm
  have h := ofBytesFrom_append ByteArray.empty s.toList (length_le_size_utf8Encode s.toList)
  rw [ByteArray.empty_append, ByteArray.size_empty] at h
  rw [ofBytes, hbytes, h, ofString]

end OptionAtlas.Text.Symbol
