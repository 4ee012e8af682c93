/-!
# Columns

Text set in a column is filled with spaces on the right. Widths count characters;
a text that is longer than its column is left whole.

## Main definitions

* `column` — a text filled up to a width.
-/

namespace OptionAtlas.Text

/-- `s` followed by as many spaces as it is short of `width` characters. -/
def column (width : Nat) (s : String) : String :=
  s ++ String.ofList (List.replicate (width - s.toList.length) ' ')

@[simp] theorem toList_column (width : Nat) (s : String) :
    (column width s).toList =
      s.toList ++ List.replicate (width - s.toList.length) ' ' := by
  simp [column]

theorem length_toList_column (width : Nat) (s : String) :
    (column width s).toList.length = max width s.toList.length := by
  simp; omega

end OptionAtlas.Text
