import OptionAtlas.Proofs.Registry.Defects

/-!
# Selections from a catalog

A selection is refused for the first key that its source lacks, or else for the first key
that repeats. Nothing else can be wrong with it: entries of one catalog under different
keys are apart. The selection knows those spellings of its source that belong to the
selected keys, and no others.

## Main statements

* `Catalog.firstClash?_of_subset` — entries of one catalog clash by repeated keys only.
* `IndexedCatalog.select_eq_error_iff`, `IndexedCatalog.exists_select_iff` — when a
  selection is refused, and when there is one.
* `IndexedCatalog.resolve_select_eq_some_iff` — the answers of a selection.
-/

namespace OptionAtlas

/-! ## Entries of one catalog -/

namespace Catalog

variable {c : Catalog} {name : String} {before es : List Entry} {e : Entry}

theorem clash?_of_mem (h : e.key ∈ before.map (·.key)) :
    clash? name before e = some (.repeatedKey e.key name) := by
  have hany : before.any (·.key == e.key) = true := by simpa using h
  rw [clash?, if_pos hany]

/-- Entries of one catalog under different keys are apart, so a key that repeats is the
only clash there can be. -/
theorem firstClash?_of_subset (hbefore : before ⊆ c.entries) (hes : es ⊆ c.entries) :
    firstClash? name before es =
      (firstRepeat? (before.map (·.key)) (es.map (·.key))).map (.repeatedKey · name) := by
  induction es generalizing before with
  | nil => rfl
  | cons e es ih =>
      obtain ⟨he, hrest⟩ := List.cons_subset.1 hes
      rw [firstClash?, List.map_cons, firstRepeat?]
      by_cases hkey : e.key ∈ before.map (·.key)
      · rw [clash?_of_mem hkey, if_pos hkey]
        rfl
      · have free : clash? name before e = none := by
          refine clash?_eq_none_iff.2 fun b hb => c.apart_of_ne (hbefore hb) he ?_
          rintro rfl
          exact hkey (List.mem_map_of_mem hb)
        have hfront : before ++ [e] ⊆ c.entries := by
          simpa using ⟨hbefore, he⟩
        rw [free, if_neg hkey]
        simpa using ih hfront hrest

theorem pairwise_apart_iff_of_subset (hes : es ⊆ c.entries) :
    es.Pairwise Entry.Apart ↔ (es.map (·.key)).Nodup := by
  have hnone : firstClash? c.name [] es = none ↔ es.Pairwise Entry.Apart := by
    simp [firstClash?_eq_none_iff]
  rw [← hnone, firstClash?_of_subset (List.nil_subset _) hes, Option.map_eq_none_iff,
    List.map_nil, firstRepeat?_nil_eq_none_iff]

end Catalog

namespace IndexedCatalog

variable {c s : IndexedCatalog} {name : String} {keys : List String} {es : List Entry}
  {e : Entry} {d : Defect}

/-! ## Entries under keys -/

section Gathered

variable (covers : c.index.Covers c.entries) (h : keys.map c.entry = es.map .ok)
include covers h

theorem subset_of_gathered : es ⊆ c.entries := by
  intro e he
  obtain ⟨key, _, hentry⟩ := (mem_of_map_eq_map_ok h).1 he
  exact ((entry_eq_ok_iff covers).1 hentry).1

theorem map_key_of_gathered : es.map (·.key) = keys := by
  have hkeys : keys.map id = es.map (·.key) :=
    map_eq_of_map_eq_map_ok h fun key e hentry => ((entry_eq_ok_iff covers).1 hentry).2.symm
  rw [← hkeys, List.map_id]

theorem mem_gathered_iff : e ∈ es ↔ e ∈ c.entries ∧ e.key ∈ keys := by
  simp only [mem_of_map_eq_map_ok h, entry_eq_ok_iff covers]
  constructor
  · rintro ⟨key, hkey, he, rfl⟩
    exact ⟨he, hkey⟩
  · rintro ⟨he, hkey⟩
    exact ⟨e.key, hkey, he, rfl⟩

theorem exists_ofEntries_gathered_iff :
    (∃ s, ofEntries name es = .ok s) ↔ keys.Nodup := by
  rw [exists_ofEntries_iff, Catalog.pairwise_apart_iff_of_subset (subset_of_gathered covers h),
    map_key_of_gathered covers h]

theorem ofEntries_gathered_eq_error_iff :
    ofEntries name es = .error d ↔
      ∃ key, (∃ i, FirstAt Repeats keys i key) ∧ d = .repeatedKey key name := by
  rw [ofEntries_eq_error_iff, Catalog.ofEntries_eq_error_iff,
    Catalog.firstClash?_of_subset (List.nil_subset _) (subset_of_gathered covers h),
    map_key_of_gathered covers h, Option.map_eq_some_iff]
  simp only [List.map_nil, firstRepeat?_nil_eq_some_iff, eq_comm (a := d)]

end Gathered

/-! ## Selections -/

section Selections

variable (covers : c.index.Covers c.entries)
include covers

theorem exists_gathered_iff :
    (∃ es : List Entry, keys.map c.entry = es.map .ok) ↔
      ∀ key ∈ keys, c.containsKey key = true := by
  simp only [← mapM_eq_ok_iff, exists_mapM_eq_ok_iff, exists_entry_iff covers]

/-- A selection is refused for a key that the source lacks, even behind a key that
repeats, and otherwise for the first key that repeats. -/
theorem select_eq_error_iff :
    select name c keys = .error d ↔
      (∃ i, FirstAt (fun _ key d => d = .unknownKey key c.name ∧ c.containsKey key = false)
        keys i d) ∨
      (∀ key ∈ keys, c.containsKey key = true) ∧
        ∃ key, (∃ i, FirstAt Repeats keys i key) ∧ d = .repeatedKey key name := by
  rw [select, bind_eq_error_iff, ← exists_gathered_iff covers]
  simp only [mapM_eq_error_iff_firstAt, entry_eq_error_iff covers, mapM_eq_ok_iff]
  refine or_congr_right ⟨?_, ?_⟩
  · rintro ⟨es, gathered, hd⟩
    exact ⟨⟨es, gathered⟩, (ofEntries_gathered_eq_error_iff covers gathered).1 hd⟩
  · rintro ⟨⟨es, gathered⟩, hd⟩
    exact ⟨es, gathered, (ofEntries_gathered_eq_error_iff covers gathered).2 hd⟩

theorem exists_select_iff :
    (∃ s, select name c keys = .ok s) ↔
      (∀ key ∈ keys, c.containsKey key = true) ∧ keys.Nodup := by
  rw [← exists_gathered_iff covers]
  simp only [select, bind_eq_ok_iff, mapM_eq_ok_iff]
  constructor
  · rintro ⟨s, es, gathered, hs⟩
    exact ⟨⟨es, gathered⟩, (exists_ofEntries_gathered_iff covers gathered).1 ⟨s, hs⟩⟩
  · rintro ⟨⟨es, gathered⟩, distinct⟩
    have hofEntries : ∃ s, ofEntries name es = .ok s :=
      (exists_ofEntries_gathered_iff covers gathered).2 distinct
    obtain ⟨s, hs⟩ := hofEntries
    exact ⟨s, es, gathered, hs⟩

end Selections

theorem select_eq_ok (h : select name c keys = .ok s) :
    s.name = name ∧ keys.map c.entry = s.entries.map .ok := by
  simp only [select, bind_eq_ok_iff, mapM_eq_ok_iff] at h
  obtain ⟨es, gathered, hs⟩ := h
  obtain ⟨hname, rfl⟩ := ofEntries_eq_ok hs
  exact ⟨hname, gathered⟩

theorem resolve_select_eq_some_iff (reachable : c.Reachable) (h : select name c keys = .ok s)
    {token : String} : s.resolve token = some e ↔ c.resolve token = some e ∧ e.key ∈ keys := by
  have covers := reachable.covers
  rw [resolve_eq_some_iff (Reachable.select reachable h).covers, resolve_eq_some_iff covers,
    mem_gathered_iff covers (select_eq_ok h).2, and_right_comm]

/-- All keys of a catalog select the catalog. -/
theorem select_all_keys (reachable : c.Reachable) :
    select c.name c (c.entries.map (·.key)) = .ok c := by
  have gathered : (c.entries.map (·.key)).map c.entry = c.entries.map .ok := by
    rw [List.map_map]
    exact List.map_congr_left fun e he => (entry_eq_ok_iff reachable.covers).2 ⟨he, rfl⟩
  rw [select, mapM_eq_ok_iff.2 gathered]
  exact reachable.ofEntries_self

/-- **A selection is exact.**  It is refused for the first key that the source lacks, and
if there is none for the first key that repeats, but never for a spelling. Otherwise it
holds the entries of the source under its keys, in their order, and resolves those tokens
that the source resolves to one of them. -/
theorem select_by_keys (reachable : c.Reachable) (name : String) (keys : List String) :
    (∀ d, select name c keys = .error d ↔
        (∃ i, FirstAt (fun _ key d => d = .unknownKey key c.name ∧ c.containsKey key = false)
          keys i d) ∨
        (∀ key ∈ keys, c.containsKey key = true) ∧
          ∃ key, (∃ i, FirstAt Repeats keys i key) ∧ d = .repeatedKey key name) ∧
      (∀ spelling catalog owners,
        select name c keys ≠ .error (.sharedSpelling spelling catalog owners)) ∧
      ((∃ s, select name c keys = .ok s) ↔
        (∀ key ∈ keys, c.containsKey key = true) ∧ keys.Nodup) ∧
      (∀ s, select name c keys = .ok s →
        s.name = name ∧ keys.map c.entry = s.entries.map .ok ∧
          ∀ token e, s.resolve token = some e ↔ c.resolve token = some e ∧ e.key ∈ keys) ∧
      select c.name c (c.entries.map (·.key)) = .ok c := by
  have covers := reachable.covers
  refine ⟨fun d => select_eq_error_iff covers, ?_, exists_select_iff covers, ?_,
    select_all_keys reachable⟩
  · intro spelling catalog owners h
    obtain ⟨_, _, _, ⟨hd, _⟩, _⟩ | ⟨_, _, _, hd⟩ := (select_eq_error_iff covers).1 h
    · cases hd
    · cases hd
  · intro s h
    obtain ⟨hname, gathered⟩ := select_eq_ok h
    exact ⟨hname, gathered, fun _ _ => resolve_select_eq_some_iff reachable h⟩

theorem select_by_keys_layeredFlags :
    ∃ c s, layeredFlags = .ok c ∧ c.Reachable ∧
      select "paths" c ["OUTPUT_PATH", "WORKING_DIR"] = .ok s ∧ s.name = "paths" ∧
      ["OUTPUT_PATH", "WORKING_DIR"].map c.entry = s.entries.map .ok ∧
      select "paths" c ["NO_CACHE", "NO_CACHE", "COLOR"] = .error (.unknownKey "COLOR" "run") ∧
      select "paths" c ["NO_CACHE", "NO_CACHE"] = .error (.repeatedKey "NO_CACHE" "paths") := by
  have hflags : (layeredFlags.map fun c =>
      (c.name, ["OUTPUT_PATH", "WORKING_DIR", "NO_CACHE", "COLOR"].map c.containsKey)) =
        .ok ("run", [true, true, true, false]) := by
    decide +kernel
  obtain ⟨c, hc, hfacts⟩ := map_eq_ok_iff.1 hflags
  simp only [List.map_cons, List.map_nil, Prod.mk.injEq, List.cons.injEq, and_true] at hfacts
  obtain ⟨hname, hpath, hdir, hcache, hcolor⟩ := hfacts
  have reachable := reachable_layeredFlags hc
  obtain ⟨_, _, hexists, hholds, _⟩ :=
    select_by_keys reachable "paths" ["OUTPUT_PATH", "WORKING_DIR"]
  obtain ⟨s, hs⟩ := hexists.2 ⟨by simp [hpath, hdir], by decide⟩
  obtain ⟨hsname, gathered, _⟩ := hholds s hs
  refine ⟨c, s, hc, reachable, hs, hsname, gathered, ?_, ?_⟩
  · refine ((select_by_keys reachable "paths" _).1 _).2 (.inl ⟨2, "COLOR", rfl, ?_, ?_⟩)
    · exact ⟨by rw [hname], hcolor⟩
    · rintro j hj key hkey d ⟨_, hmissing⟩
      have hcached : key = "NO_CACHE" := by
        obtain rfl | rfl : j = 0 ∨ j = 1 := by omega
        · exact (Option.some.inj hkey).symm
        · exact (Option.some.inj hkey).symm
      rw [hcached, hcache] at hmissing
      cases hmissing
  · refine ((select_by_keys reachable "paths" _).1 _).2
      (.inr ⟨by simp [hcache], "NO_CACHE", ⟨1, "NO_CACHE", rfl, ⟨by simp, rfl⟩, ?_⟩, rfl⟩)
    rintro j hj key hkey d ⟨hmem, _⟩
    obtain rfl : j = 0 := by omega
    cases hmem

end IndexedCatalog

end OptionAtlas
