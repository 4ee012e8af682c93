import Mathlib.Data.List.Pairwise
import OptionAtlas.Catalog
import OptionAtlas.Proofs.Checks

/-!
# Look-up in a catalog

The entries of a catalog are pairwise apart, so a key and a spelling each lead to at
most one of them. Look-up is therefore membership: an entry is found under its own
key and by its own spellings, and nowhere else.

## Main statements

* `Catalog.ofEntries_eq_ok_iff`, `Catalog.exists_ofEntries_iff` — which lists become
  catalogs.
* `Catalog.entry_eq_ok_iff`, `Catalog.resolve_eq_some_iff` — look-up as membership.
-/

namespace OptionAtlas

namespace Entry

theorem Apart.symm {a b : Entry} (h : a.Apart b) : b.Apart a :=
  ⟨h.1.symm, fun s hb ha => h.2 s ha hb⟩

instance : Std.Symm Apart := ⟨fun _ _ => Apart.symm⟩

theorem Apart.ne {a b : Entry} (h : a.Apart b) : a ≠ b := by
  rintro rfl
  exact h.1 rfl

end Entry

namespace Catalog

/-! ## Lists of entries -/

theorem ofEntries_eq_ok_iff {name : String} {es : List Entry} {c : Catalog} :
    ofEntries name es = .ok c ↔ c.name = name ∧ c.entries = es := by
  rw [ofEntries]
  constructor
  · intro h
    split at h
    next => cases h
    next => cases h; exact ⟨rfl, rfl⟩
  · intro h
    rcases h with ⟨rfl, rfl⟩
    have hnone : firstClash? c.name [] c.entries = none :=
      firstClash?_eq_none_iff.2 ⟨c.apart, by simp⟩
    split
    next h => rw [hnone] at h; cases h
    next => rfl

/-- A list is refused for its first clash. -/
theorem ofEntries_eq_error_iff {name : String} {es : List Entry} {d : Defect} :
    ofEntries name es = .error d ↔ firstClash? name [] es = some d := by
  rw [ofEntries]
  split
  next d' h => rw [h, Except.error.injEq, Option.some.injEq]
  next h => simp [h]

/-- A list becomes a catalog when its entries are pairwise apart. -/
theorem exists_ofEntries_iff {name : String} {es : List Entry} :
    (∃ c, ofEntries name es = .ok c) ↔ es.Pairwise Entry.Apart := by
  simp only [ofEntries_eq_ok_iff]
  constructor
  · intro h
    rcases h with ⟨c, _, rfl⟩
    exact c.apart
  · intro h
    exact ⟨⟨name, es, h⟩, rfl, rfl⟩

/-! ## Look-up -/

variable (c : Catalog)

theorem nodup_entries : c.entries.Nodup := c.apart.imp Entry.Apart.ne

theorem nodup_keys : (c.entries.map (·.key)).Nodup :=
  List.pairwise_map.2 (c.apart.imp And.left)

variable {c} {a b e : Entry}

theorem apart_of_ne (ha : a ∈ c.entries) (hb : b ∈ c.entries) (hne : a ≠ b) : a.Apart b :=
  c.apart.forall ha hb hne

theorem eq_of_mem_spellings (ha : a ∈ c.entries) (hb : b ∈ c.entries) {s : String}
    (hsa : s ∈ a.flag.spellings) (hsb : s ∈ b.flag.spellings) : a = b := by
  by_contra hne
  exact (apart_of_ne ha hb hne).2 s hsa hsb

/-- An entry is found under its key. -/
theorem entry_eq_ok_iff {key : String} : c.entry key = .ok e ↔ e ∈ c.entries ∧ e.key = key := by
  rw [← find?_eq_some_iff_of_nodup c.nodup_keys]
  rw [entry]
  cases c.entries.find? (·.key == key) <;> simp

theorem entry_eq_error_iff {key : String} {d : Defect} :
    c.entry key = .error d ↔ d = .unknownKey key c.name ∧ ∀ e ∈ c.entries, e.key ≠ key := by
  have hnone : (∀ e ∈ c.entries, e.key ≠ key) ↔ c.entries.find? (·.key == key) = none := by
    simp
  rw [hnone, entry]
  cases c.entries.find? (·.key == key) <;> simp [eq_comm]

/-- An entry is found by its spellings. -/
theorem resolve_eq_some_iff {token : String} :
    c.resolve token = some e ↔ e ∈ c.entries ∧ token ∈ e.flag.spellings := by
  rw [← Flag.accepts_iff]
  apply find?_eq_some_iff_of_unique
  intro x hx y hy hxt hyt
  exact eq_of_mem_spellings hx hy (Flag.accepts_iff.1 hxt) (Flag.accepts_iff.1 hyt)

theorem resolve_eq_none_iff {token : String} :
    c.resolve token = none ↔ ∀ e ∈ c.entries, token ∉ e.flag.spellings := by
  simp only [Option.eq_none_iff_forall_ne_some, ne_eq, resolve_eq_some_iff, not_and]

end Catalog

end OptionAtlas
