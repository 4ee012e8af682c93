import Mathlib.Data.List.TakeWhile
import OptionAtlas.File.Path

/-!
# Paths of JSON files

## Main definitions

* `Path.NamesJson` — a path with the extension `json`.

## Main statements

* `Path.isJson_iff` — these are the paths that are taken for JSON.
-/

namespace OptionAtlas.Path

/-- The last part of the path is a name that is not empty, a point and `json` in letters
of either case. -/
def NamesJson (path : String) : Prop :=
  ∃ stem extension, lastPart path = stem ++ '.' :: extension ∧ stem ≠ [] ∧
    extension.map Char.toLower = ['j', 's', 'o', 'n']

variable {part stem extension : List Char}

/-- What follows the last point is found if something stands in front of the point. -/
theorem suffix?_append (hstem : stem ≠ []) (hpoint : '.' ∉ extension) :
    suffix? (stem ++ '.' :: extension) = some extension := by
  have hreverse : (stem ++ '.' :: extension).reverse =
      extension.reverse ++ '.' :: stem.reverse := by simp
  have hall : ∀ c ∈ extension.reverse, decide (c ≠ '.') = true := by
    intro c hc
    simp only [decide_eq_true_eq]
    rintro rfl
    exact hpoint (List.mem_reverse.1 hc)
  have hdrop : (stem ++ '.' :: extension).reverse.dropWhile (· ≠ '.') =
      '.' :: stem.reverse := by
    rw [hreverse, List.dropWhile_append_of_pos hall]
    rfl
  have htake : (stem ++ '.' :: extension).reverse.takeWhile (· ≠ '.') =
      extension.reverse := by
    rw [hreverse, List.takeWhile_append_of_pos hall]
    simp
  rw [suffix?, hdrop, htake]
  cases hrev : stem.reverse with
  | nil => exact absurd (List.reverse_eq_nil_iff.1 hrev) hstem
  | cons c cs => simp

theorem exists_of_suffix?_eq_some (h : suffix? part = some extension) :
    ∃ stem, part = stem ++ '.' :: extension ∧ stem ≠ [] ∧ '.' ∉ extension := by
  have hsplit := List.takeWhile_append_dropWhile (p := (· ≠ '.')) (l := part.reverse)
  simp only [suffix?] at h
  split at h
  next x y ys hdrop =>
    obtain rfl := Option.some.inj h
    have hx : x = '.' := by
      have hhead := List.head_dropWhile_not (l := part.reverse) (fun c => decide (c ≠ '.'))
        (by rw [hdrop]; simp)
      simp only [hdrop, List.head_cons] at hhead
      simpa using hhead
    refine ⟨(y :: ys).reverse, ?_, by simp, ?_⟩
    · have hpart := congrArg List.reverse hsplit
      rw [hdrop, hx, List.reverse_append, List.reverse_reverse] at hpart
      rw [List.reverse_cons, List.append_assoc, List.singleton_append] at hpart
      exact hpart.symm
    · intro hmem
      have := List.mem_takeWhile_imp (List.mem_reverse.1 hmem)
      simp at this
  next => cases h

/-- An extension stands behind the last point, and something stands in front of that. -/
theorem suffix?_eq_some_iff :
    suffix? part = some extension ↔
      ∃ stem, part = stem ++ '.' :: extension ∧ stem ≠ [] ∧ '.' ∉ extension := by
  constructor
  · exact exists_of_suffix?_eq_some
  · rintro ⟨stem, rfl, hstem, hpoint⟩
    exact suffix?_append hstem hpoint

theorem isJson_iff {path : String} : isJson path = true ↔ NamesJson path := by
  simp only [isJson, Bool.and_eq_true, Option.any_eq_true, suffix?_eq_some_iff,
    decide_eq_true_eq, NamesJson]
  constructor
  · intro h
    rcases h with ⟨_, extension, ⟨stem, hpart, hstem, _⟩, hjson⟩
    exact ⟨stem, extension, hpart, hstem, hjson⟩
  · intro h
    rcases h with ⟨stem, extension, hpart, hstem, hjson⟩
    refine ⟨?_, extension, ⟨stem, hpart, hstem, ?_⟩, hjson⟩
    · intro hdots
      have hlength := congrArg List.length (hpart.symm.trans hdots)
      have hfour := congrArg List.length hjson
      simp only [List.length_append, List.length_cons, List.length_map, List.length_nil]
        at hlength hfour
      omega
    · -- A point is no letter of `json`, in neither case.
      intro hpoint
      have hmem : Char.toLower '.' ∈ extension.map Char.toLower := List.mem_map_of_mem hpoint
      rw [hjson] at hmem
      revert hmem
      decide

end OptionAtlas.Path
