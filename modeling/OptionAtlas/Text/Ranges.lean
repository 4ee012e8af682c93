/-!
# Ranges of code points

A class of characters is given by the ranges of code points that belong to it.
The tables of this folder are such lists, in ascending order, both ends included.

## Main definitions

* `Ranges` — a class of characters as a list of ranges.
* `Ranges.mem` — membership of a code point.
-/

namespace OptionAtlas.Text

/-- Ranges of code points, first and last included. -/
abbrev Ranges := List (Nat × Nat)

/-- Whether the code point `n` lies in one of the ranges. -/
def Ranges.mem (rs : Ranges) (n : Nat) : Bool :=
  rs.any fun r => r.1 ≤ n && n ≤ r.2

@[simp] theorem Ranges.mem_nil (n : Nat) : Ranges.mem [] n = false := rfl

@[simp] theorem Ranges.mem_cons (r : Nat × Nat) (rs : Ranges) (n : Nat) :
    Ranges.mem (r :: rs) n = ((r.1 ≤ n && n ≤ r.2) || Ranges.mem rs n) := rfl

theorem Ranges.mem_iff {rs : Ranges} {n : Nat} :
    rs.mem n = true ↔ ∃ r ∈ rs, r.1 ≤ n ∧ n ≤ r.2 := by
  simp [Ranges.mem]

end OptionAtlas.Text
