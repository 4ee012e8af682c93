import OptionAtlas.Proofs.Text.Bytes
import OptionAtlas.Text.Column

/-!
# Rows and columns of text

Rows are joined without anything between them, and a column is wide enough for every text
that takes no more bytes than the column has places, since a character takes at least one.

## Main statements

* `toList_intercalate_empty` — texts that are joined.
* `length_toList_le_utf8ByteSize` — characters and bytes.
* `le_foldl_max` — a greatest width.
-/

namespace OptionAtlas.Text

/-! ## Joining -/

/-- Parts with a separator between them are the first part and, for each other, the
separator and the part. -/
theorem intercalate_cons_eq_flatMap {α : Type} (sep part : List α) (parts : List (List α)) :
    sep.intercalate (part :: parts) = part ++ parts.flatMap (sep ++ ·) := by
  induction parts generalizing part with
  | nil => simp
  | cons p parts ih => simp [List.intercalate_cons_cons, ih]

theorem toList_intercalate_empty (ss : List String) :
    ("".intercalate ss).toList = ss.flatMap String.toList := by
  cases ss with
  | nil => rfl
  | cons s ss =>
      rw [String.toList_intercalate, List.map_cons, intercalate_cons_eq_flatMap,
        List.flatMap_map, List.flatMap_cons]
      simp

/-! ## Widths -/

theorem length_toList_le_utf8ByteSize (s : String) : s.toList.length ≤ s.utf8ByteSize := by
  have h := Symbol.length_le_size_utf8Encode s.toList
  rwa [String.utf8Encode_toList] at h

theorem le_foldl_max {n m : Nat} {ns : List Nat} (h : n ≤ m ∨ n ∈ ns) : n ≤ ns.foldl max m := by
  induction ns generalizing m with
  | nil => simpa using h
  | cons k ns ih =>
      refine ih ?_
      obtain h | h := h
      · exact .inl (by omega)
      · obtain rfl | h := List.mem_cons.1 h
        · exact .inl (by omega)
        · exact .inr h

end OptionAtlas.Text
