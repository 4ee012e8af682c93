import Mathlib.Data.List.Forall2
import OptionAtlas.Listing
import OptionAtlas.Proofs.Flag.Usage
import OptionAtlas.Proofs.Text.Columns

/-!
# Catalogs as text

The text of a catalog has one row for each entry, with the usage, the key and the group in
columns. Every usage fits into the first column, whatever its characters are, so the keys
stand below each other. A row is also read back: where keys and groups are words, the words
of the text are those of its rows, and the first word of a row tells whether there is a
short name.

## Main definitions

* `Entry.Aligned` — a row whose columns stand where they should.
* `Entry.Wordy`, `Entry.rowWords` — entries whose rows are read back, and the words of a row.

## Main statements

* `Catalog.listing_aligned` — the columns line up.
* `Catalog.listing_eq_iff` — the text determines the entries.
-/

namespace OptionAtlas

open Text

variable {width : Nat} {e : Entry} {c : Catalog}

/-! ## Rows -/

theorem Entry.toList_row (width : Nat) (e : Entry) :
    (e.row width).toList =
      e.flag.usage.toList ++ List.replicate (width - e.flag.usage.toList.length + 2) ' ' ++
        (e.key.toList ++ List.replicate (28 - e.key.toList.length + 1) ' ' ++
          (e.group.toList ++ ['\n'])) := by
  simp [Entry.row, List.replicate_succ']

theorem Catalog.toList_listing (c : Catalog) :
    c.listing.toList = c.entries.flatMap fun e => (e.row c.usageWidth).toList := by
  rw [Catalog.listing, toList_intercalate_empty, List.flatMap_map]

/-! ## Columns -/

/-- No usage has more characters than the first column. -/
theorem Catalog.length_usage_le (he : e ∈ c.entries) :
    e.flag.usage.toList.length ≤ c.usageWidth := by
  have hbytes : e.flag.usage.utf8ByteSize ≤ c.usageWidth :=
    le_foldl_max (.inr (List.mem_map_of_mem he))
  exact Nat.le_trans (length_toList_le_utf8ByteSize _) hbytes

/-- The row shows the usage in full at its start and the key at offset `width + 2`, with two
spaces or more between them. A key of at most 28 characters leaves the group at its place. -/
structure Entry.Aligned (width : Nat) (e : Entry) (row : List Char) : Prop where
  usage : ∃ gap, 2 ≤ gap ∧ row.take (width + 2) = e.flag.usage.toList ++ List.replicate gap ' '
  key : ∃ gap, 1 ≤ gap ∧
    row.drop (width + 2) = e.key.toList ++ List.replicate gap ' ' ++ (e.group.toList ++ ['\n'])
  group : e.key.toList.length ≤ 28 → row.drop (width + 31) = e.group.toList ++ ['\n']

theorem Entry.aligned_row (h : e.flag.usage.toList.length ≤ width) :
    e.Aligned width (e.row width).toList where
  usage := by
    refine ⟨width - e.flag.usage.toList.length + 2, by omega, ?_⟩
    rw [toList_row]
    exact List.take_left' (by simp; omega)
  key := by
    refine ⟨28 - e.key.toList.length + 1, by omega, ?_⟩
    rw [toList_row]
    exact List.drop_left' (by simp; omega)
  group hkey := by
    rw [toList_row, ← List.append_assoc]
    exact List.drop_left' (by simp; omega)

/-- **The columns line up.**  The text of a catalog is one row for each entry, in order, and
one width serves all of its rows. -/
theorem Catalog.listing_aligned (c : Catalog) :
    ∃ (width : Nat) (rows : List (List Char)), c.listing.toList = rows.flatten ∧
      List.Forall₂ (Entry.Aligned width) c.entries rows := by
  refine ⟨c.usageWidth, c.entries.map fun e => (e.row c.usageWidth).toList, ?_, ?_⟩
  · rw [c.toList_listing, List.flatMap_def]
  · rw [List.forall₂_map_right_iff, List.forall₂_same]
    exact fun e he => Entry.aligned_row (length_usage_le he)

/-! ## Words -/

/-- The key and the group of the entry are words. -/
structure Entry.Wordy (e : Entry) : Prop where
  key : IsWord e.key.toList
  group : IsWord e.group.toList

/-- The words of a row. -/
def Entry.rowWords (e : Entry) : List (List Char) :=
  e.flag.usageWords ++ [e.key.toList, e.group.toList]

theorem isBlank_of_mem_spaces {n : Nat} : ∀ b ∈ List.replicate n ' ', isBlank b = true := by
  intro b hb
  obtain ⟨_, rfl⟩ := List.mem_replicate.1 hb
  decide

/-- A row in front of any text is read off its words. -/
theorem Entry.words_row_append (he : e.Wordy) (width : Nat) (rest : List Char) :
    words ((e.row width).toList ++ rest) = e.rowWords ++ words rest := by
  rw [toList_row]
  simp only [List.append_assoc]
  rw [Flag.words_usage_append _ (by simp) isBlank_of_mem_spaces,
    words_word_gap he.key (by simp) isBlank_of_mem_spaces,
    words_word_gap he.group (by simp) (List.forall_mem_singleton.2 (by decide)),
    rowWords]
  simp

theorem Entry.words_rows (width : Nat) {es : List Entry} (h : ∀ e ∈ es, e.Wordy) :
    words (es.flatMap fun e => (e.row width).toList) = es.flatMap Entry.rowWords := by
  induction es with
  | nil => rfl
  | cons e es ih =>
      obtain ⟨he, hes⟩ := List.forall_mem_cons.1 h
      rw [List.flatMap_cons, words_row_append he, ih hes, List.flatMap_cons]

/-- The words of a row tell which entry it shows and where it ends. -/
theorem Entry.rowWords_append_inj {e e' : Entry} {ws ws' : List (List Char)}
    (h : e.rowWords ++ ws = e'.rowWords ++ ws') : e = e' ∧ ws = ws' := by
  rw [rowWords, rowWords, List.append_assoc, List.append_assoc] at h
  obtain ⟨hflag, hrest⟩ := Flag.usageWords_append_inj h
  simp only [List.cons_append, List.nil_append, List.cons.injEq, String.toList_inj] at hrest
  obtain ⟨hkey, hgroup, hws⟩ := hrest
  cases e
  cases e'
  cases hkey
  cases hgroup
  cases hflag
  exact ⟨rfl, hws⟩

/-- No row is a front of another one, so the words of several rows tell all of them. -/
theorem Entry.flatMap_rowWords_inj {es es' : List Entry}
    (h : es.flatMap rowWords = es'.flatMap rowWords) : es = es' := by
  induction es generalizing es' with
  | nil =>
      cases es' with
      | nil => rfl
      | cons e' es' => simp [rowWords] at h
  | cons e es ih =>
      cases es' with
      | nil => simp [rowWords] at h
      | cons e' es' =>
          obtain ⟨rfl, hrest⟩ := rowWords_append_inj h
          rw [ih hrest]

/-- **The text of a catalog loses no entry.**  Where every key and every group is a word, two
catalogs have the same text only if they have the same entries in the same order. -/
theorem Catalog.listing_eq_iff {a b : Catalog} (ha : ∀ e ∈ a.entries, e.Wordy)
    (hb : ∀ e ∈ b.entries, e.Wordy) : a.listing = b.listing ↔ a.entries = b.entries := by
  constructor
  · intro h
    have hwords := congrArg (fun s => words s.toList) h
    simp only [toList_listing, Entry.words_rows _ ha, Entry.words_rows _ hb] at hwords
    exact Entry.flatMap_rowWords_inj hwords
  · intro h
    rw [listing, listing, usageWidth, usageWidth, h]

/-- An entry whose long name has characters of two bytes. -/
def sizeEntry : Entry := ⟨"SIZE", "base", ⟨"--größe", some "-g", by decide, by decide⟩⟩

/-- The same entry out of another group. -/
def movedEntry : Entry := { sizeEntry with group := "all" }

/-- The text tells the groups of the entries apart, but not the names of the catalogs. -/
theorem Catalog.listing_eq_iff_sizeEntry :
    (∀ e ∈ [sizeEntry], e.Wordy) ∧ (∀ e ∈ [movedEntry], e.Wordy) ∧
      (⟨"base", [sizeEntry], List.pairwise_singleton _ _⟩ : Catalog).listing ≠
        (⟨"base", [movedEntry], List.pairwise_singleton _ _⟩ : Catalog).listing ∧
      (⟨"base", [sizeEntry], List.pairwise_singleton _ _⟩ : Catalog).listing =
        (⟨"all", [sizeEntry], List.pairwise_singleton _ _⟩ : Catalog).listing := by
  have hsize : ∀ e ∈ [sizeEntry], e.Wordy := by
    simp only [List.forall_mem_singleton]
    exact ⟨by decide, by decide⟩
  have hmoved : ∀ e ∈ [movedEntry], e.Wordy := by
    simp only [List.forall_mem_singleton]
    exact ⟨by decide, by decide⟩
  refine ⟨hsize, hmoved, ?_, ?_⟩
  · intro h
    have hentries := (listing_eq_iff (a := ⟨"base", [sizeEntry], List.pairwise_singleton _ _⟩)
      (b := ⟨"base", [movedEntry], List.pairwise_singleton _ _⟩) hsize hmoved).1 h
    simp [sizeEntry, movedEntry] at hentries
  · exact (listing_eq_iff hsize hsize).2 rfl

end OptionAtlas
