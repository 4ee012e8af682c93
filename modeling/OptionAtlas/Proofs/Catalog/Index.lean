import OptionAtlas.Catalog.Indexed
import OptionAtlas.Proofs.Registry.Assembly

/-!
# Indexes and searches

However an indexed catalog was built, its index covers its entries. Look-up through the
index is therefore a search of the list: it finds the same entry, and it finds one
whenever there is one. An indexed catalog is built under the same conditions as the
catalog without an index, and refused for the same defect.

## Main definitions

* `IndexedCatalog.Reachable` — the indexed catalogs that can be built.

## Main statements

* `IndexedCatalog.resolve_eq_find?`, `IndexedCatalog.entry_eq_entry`,
  `IndexedCatalog.containsKey_eq_any` — look-up as a search.
* `IndexedCatalog.resolve_eq_some_iff`, `IndexedCatalog.entry_eq_ok_iff`,
  `IndexedCatalog.containsKey_iff` — look-up as membership.
* `IndexedCatalog.toCatalog_ofEntries`, `IndexedCatalog.toCatalog_select`,
  `IndexedCatalog.toCatalog_assemble` — building with and without an index.
-/

namespace OptionAtlas

/-- Entries that are not apart stand at one place. -/
theorem Catalog.place_eq_of_not_apart {c : Catalog} {i j : Nat} {a b : Entry}
    (ha : c.entries[i]? = some a) (hb : c.entries[j]? = some b) (h : ¬ a.Apart b) : i = j :=
  place_eq_of_pairwise c.apart ha hb h

/-- A covered list has an entry at every place that the index knows. -/
theorem Index.Covers.lt_length {ix : Index} {es : List Entry} (h : ix.Covers es) {s : String}
    {i : Nat} (hi : ix.keys.find? s = some i ∨ ix.spellings.find? s = some i) :
    i < es.length := by
  rw [h.keys, h.spellings] at hi
  obtain hi | hi := hi
  · exact (List.findIdx?_eq_some_iff_getElem.1 hi).1
  · exact (List.findIdx?_eq_some_iff_getElem.1 hi).1

namespace IndexedCatalog

/-! ## Building -/

section Building

variable {name : String} {es : List Entry} {c : IndexedCatalog}

/-- The pass over the entries finds the clash that a comparison of the entries finds, or
ends with a catalog of these entries whose index covers them. -/
theorem ofEntries_cases (name : String) (es : List Entry) :
    (∃ d, ofEntries name es = .error d ∧ Catalog.firstClash? name [] es = some d) ∨
      ∃ c, ofEntries name es = .ok c ∧ c.name = name ∧ c.entries = es ∧ c.index.Covers es := by
  rw [ofEntries]
  split
  next ix hix =>
    obtain ⟨d, _, herror⟩ | ⟨_, ix', hok, covers⟩ := Index.ofEntries_cases name es
    · rw [hix] at herror
      cases herror
    · rw [hix] at hok
      cases hok
      exact .inr ⟨_, rfl, rfl, rfl, covers⟩
  next d hix =>
    obtain ⟨d', hclash, herror⟩ | ⟨_, ix, hok, _⟩ := Index.ofEntries_cases name es
    · rw [hix] at herror
      cases herror
      exact .inl ⟨d, rfl, hclash⟩
    · rw [hix] at hok
      cases hok

theorem covers_of_ofEntries (h : ofEntries name es = .ok c) : c.index.Covers c.entries := by
  obtain ⟨d, herror, _⟩ | ⟨c', hok, _, rfl, covers⟩ := ofEntries_cases name es
  · rw [h] at herror
    cases herror
  · rw [h] at hok
    cases hok
    exact covers

/-- With and without an index, the same lists become the same catalogs. -/
theorem toCatalog_ofEntries (name : String) (es : List Entry) :
    toCatalog <$> ofEntries name es = Catalog.ofEntries name es := by
  obtain ⟨d, herror, hclash⟩ | ⟨c, hok, hname, hes, _⟩ := ofEntries_cases name es
  · rw [herror]
    exact (Catalog.ofEntries_eq_error_iff.2 hclash).symm
  · rw [hok]
    exact (Catalog.ofEntries_eq_ok_iff.2 ⟨hname, hes⟩).symm

end Building

/-- The indexed catalogs that can be built, from flags, step by step, or out of others. -/
inductive Reachable : IndexedCatalog → Prop where
  | ofFlags {name : String} {flags : List (String × Flag)} {c : IndexedCatalog}
      (built : ofFlags name flags = .ok c) : Reachable c
  | ofBuilder {name : String} {ds : List Catalog.Declaration} {c : IndexedCatalog}
      (built : ofBuilder ((Catalog.Builder.start name).flagAll ds) = .ok c) : Reachable c
  | union {name : String} {sources : List IndexedCatalog} {c : IndexedCatalog}
      (reachable : ∀ b ∈ sources, Reachable b) (built : union name sources = .ok c) :
      Reachable c
  | select {name : String} {source : IndexedCatalog} {keys : List String} {c : IndexedCatalog}
      (reachable : Reachable source) (built : select name source keys = .ok c) : Reachable c
  | assemble {sources : List IndexedCatalog} {q : Recipe} {c : IndexedCatalog}
      (reachable : ∀ b ∈ sources, Reachable b) (built : assemble sources q = .ok c) :
      Reachable c

variable {c : IndexedCatalog}

/-- Every way to build a catalog ends with the pass over its entries. -/
theorem Reachable.exists_ofEntries (h : c.Reachable) :
    ∃ name es, ofEntries name es = .ok c := by
  cases h with
  | ofFlags built => exact ⟨_, _, built⟩
  | ofBuilder built =>
      obtain ⟨flags, _, built⟩ := bind_eq_ok_iff.1 built
      exact ⟨_, _, built⟩
  | union _ built => exact ⟨_, _, built⟩
  | select _ built =>
      obtain ⟨es, _, built⟩ := bind_eq_ok_iff.1 built
      exact ⟨_, _, built⟩
  | assemble _ built =>
      obtain ⟨whole, _, built⟩ := bind_eq_ok_iff.1 built
      obtain ⟨picked, _, built⟩ := bind_eq_ok_iff.1 built
      exact ⟨_, _, built⟩

theorem Reachable.covers (h : c.Reachable) : c.index.Covers c.entries := by
  obtain ⟨name, es, built⟩ := h.exists_ofEntries
  exact covers_of_ofEntries built

/-! ## Look-up -/

section LookUp

variable (h : c.index.Covers c.entries)
include h

theorem resolve_eq_find? (token : String) :
    c.resolve token = c.entries.find? (·.flag.accepts token) := by
  rw [resolve, h.spellings, List.find?_eq_bind_findIdx?_getElem?]

theorem entry_eq_entry (key : String) : c.entry key = c.toCatalog.entry key := by
  have hplace : (c.index.keys.find? key).bind (c.entries[·]?) =
      c.entries.find? (·.key == key) := by
    rw [h.keys, List.find?_eq_bind_findIdx?_getElem?]
  cases hfind : c.entries.find? (·.key == key) <;>
    simp [entry, Catalog.entry, hplace, hfind]

theorem containsKey_eq_any (key : String) : c.containsKey key = c.entries.any (·.key == key) := by
  rw [containsKey, h.keys, List.findIdx?_isSome]

variable {key token : String} {e : Entry} {d : Defect}

theorem resolve_eq_some_iff :
    c.resolve token = some e ↔ e ∈ c.entries ∧ token ∈ e.flag.spellings := by
  rw [resolve_eq_find? h]
  exact Catalog.resolve_eq_some_iff

theorem entry_eq_ok_iff : c.entry key = .ok e ↔ e ∈ c.entries ∧ e.key = key := by
  rw [entry_eq_entry h, Catalog.entry_eq_ok_iff]

theorem containsKey_iff : c.containsKey key = true ↔ ∃ e ∈ c.entries, e.key = key := by
  simp only [containsKey_eq_any h, List.any_eq_true, beq_iff_eq]

theorem exists_entry_iff : (∃ e, c.entry key = .ok e) ↔ c.containsKey key = true := by
  simp only [entry_eq_ok_iff h, containsKey_iff h]

theorem entry_eq_error_iff :
    c.entry key = .error d ↔ d = .unknownKey key c.name ∧ c.containsKey key = false := by
  rw [entry_eq_entry h, Catalog.entry_eq_error_iff, ← Bool.not_eq_true, containsKey_iff h]
  simp only [not_exists, not_and]

end LookUp

/-! ## Parts of other catalogs -/

theorem toCatalog_union (name : String) (cs : List IndexedCatalog) :
    toCatalog <$> union name cs = Catalog.union name (cs.map toCatalog) := by
  rw [union, toCatalog_ofEntries, Catalog.union, List.flatMap_map]

theorem toCatalog_select (name : String) (h : c.index.Covers c.entries) (keys : List String) :
    toCatalog <$> select name c keys = Catalog.select name c.toCatalog keys := by
  have hentry : c.entry = c.toCatalog.entry := funext (entry_eq_entry h)
  simp only [select, Catalog.select, map_bind, toCatalog_ofEntries, hentry]

theorem toCatalog_find (cs : List IndexedCatalog) (name : String) :
    toCatalog <$> find cs name = findCatalog (cs.map toCatalog) name := by
  rw [find, findCatalog, List.find?_map, Function.comp_def]
  cases cs.find? (·.name == name) <;> rfl

theorem mem_of_find {cs : List IndexedCatalog} {name : String} (h : find cs name = .ok c) :
    c ∈ cs := by
  rw [find] at h
  split at h
  next b hb =>
    cases h
    exact List.mem_of_find?_eq_some hb
  next => cases h

/-- A recipe assembles the same flag set with and without indexes. -/
theorem toCatalog_assemble {cs : List IndexedCatalog} (h : ∀ b ∈ cs, b.index.Covers b.entries)
    (q : Recipe) :
    toCatalog <$> assemble cs q = q.assemble (cs.map toCatalog) [] := by
  have hpick : ∀ p : Pick, (do (← find cs p.catalog).entry p.key) = p.entry (cs.map toCatalog) := by
    intro p
    rw [Pick.entry, ← toCatalog_find]
    cases hfind : find cs p.catalog with
    | ok b => exact entry_eq_entry (h b (mem_of_find hfind)) p.key
    | error d => rfl
  have hwhole : q.catalogs.mapM (findCatalog (cs.map toCatalog)) =
      List.map toCatalog <$> q.catalogs.mapM (find cs) := by
    rw [map_mapM]
    simp only [toCatalog_find]
  simp only [assemble, hpick, map_bind, toCatalog_ofEntries]
  simp only [Recipe.assemble_nil, Recipe.entries, hwhole, bind_assoc, pure_bind, bind_map_left,
    List.flatMap_map]

/-! ## Queries -/

theorem toCatalog_eq_of_beq {c d : IndexedCatalog} (h : (c == d) = true) :
    c.toCatalog = d.toCatalog := by
  obtain ⟨hname, hentries⟩ := beq_iff.1 h
  obtain ⟨⟨name, entries, apart⟩, index⟩ := c
  cases hname
  cases hentries
  rfl

/-- **The indexes of a catalog agree with its entries.**  However the catalog was built,
look-up finds what a search of the list finds, no more than one place answers to a
spelling or a key, and every place that is noted has an entry. So equal catalogs answer
alike, whatever their indexes are. -/
theorem look_up_by_search (h : c.Reachable) :
    (∀ token, c.resolve token = c.entries.find? (·.flag.accepts token)) ∧
      (∀ key, c.entry key =
        match c.entries.find? (·.key == key) with
        | some e => .ok e
        | none => .error (.unknownKey key c.name)) ∧
      (∀ key, c.lookup key =
        match c.entries.find? (·.key == key) with
        | some e => .ok e.flag
        | none => .error (.unknownKey key c.name)) ∧
      (∀ key, c.containsKey key = c.entries.any (·.key == key)) ∧
      (∀ (i j : Nat) (a b : Entry), c.entries[i]? = some a → c.entries[j]? = some b →
        (∃ token, a.flag.accepts token = true ∧ b.flag.accepts token = true) ∨ a.key = b.key →
          i = j) ∧
      (∀ name i, c.index.keys.find? name = some i ∨ c.index.spellings.find? name = some i →
        i < c.size) ∧
      ∀ d : IndexedCatalog, d.Reachable → (c == d) = true →
        c.size = d.size ∧ c.flags = d.flags ∧
          ∀ s, c.resolve s = d.resolve s ∧ c.entry s = d.entry s ∧ c.lookup s = d.lookup s ∧
            c.containsKey s = d.containsKey s := by
  have covers := h.covers
  refine ⟨resolve_eq_find? covers, entry_eq_entry covers, ?_, containsKey_eq_any covers, ?_,
    fun _ _ => covers.lt_length, ?_⟩
  · intro key
    rw [lookup, entry_eq_entry covers, Catalog.entry]
    cases c.entries.find? (·.key == key) <;> rfl
  · intro i j a b ha hb hsame
    refine Catalog.place_eq_of_not_apart ha hb fun apart => ?_
    obtain ⟨token, hat, hbt⟩ | hkey := hsame
    · exact apart.2 token (Flag.accepts_iff.1 hat) (Flag.accepts_iff.1 hbt)
    · exact apart.1 hkey
  · intro d hd heq
    have same := toCatalog_eq_of_beq heq
    have hentry : ∀ s, c.entry s = d.entry s := by
      intro s
      rw [entry_eq_entry covers, entry_eq_entry hd.covers, same]
    refine ⟨congrArg Catalog.size same, congrArg Catalog.flags same, fun s => ?_⟩
    refine ⟨?_, hentry s, ?_, ?_⟩
    · rw [resolve_eq_find? covers, resolve_eq_find? hd.covers, same]
    · rw [lookup, lookup, hentry]
    · rw [containsKey_eq_any covers, containsKey_eq_any hd.covers, same]

/-- The flag set of a command that takes a union whole and picks from a selection. -/
def layeredFlags : Except Defect IndexedCatalog := do
  let base ← ofBuilder ((Catalog.Builder.start "base").flagAll
    [⟨"WORKING_DIR", "--working-dir", some "-w"⟩, ⟨"NO_CACHE", "--no-cache", none⟩])
  let output ← ofBuilder ((Catalog.Builder.start "output").flagAll
    [⟨"WIDTH", "--width", some "-w"⟩, ⟨"OUTPUT_PATH", "--output-path", some "-o"⟩])
  let all ← union "all" [base]
  let paths ← select "paths" output ["OUTPUT_PATH"]
  assemble [all, paths] ⟨"run", ["all"], [⟨"paths", "OUTPUT_PATH"⟩]⟩

theorem reachable_layeredFlags (h : layeredFlags = .ok c) : c.Reachable := by
  simp only [layeredFlags, bind_eq_ok_iff] at h
  obtain ⟨base, hbase, output, houtput, all, hall, paths, hpaths, built⟩ := h
  have reachable_all : all.Reachable := by
    refine .union ?_ hall
    rintro b hb
    rw [List.mem_singleton.1 hb]
    exact .ofBuilder hbase
  have reachable_paths : paths.Reachable := .select (.ofBuilder houtput) hpaths
  refine .assemble ?_ built
  intro b hb
  obtain rfl | hb := List.mem_cons.1 hb
  · exact reachable_all
  · rw [List.mem_singleton.1 hb]
    exact reachable_paths

theorem look_up_by_search_layeredFlags :
    ∃ c, layeredFlags = .ok c ∧ c.Reachable ∧
      c.entries.map (·.key) = ["WORKING_DIR", "NO_CACHE", "OUTPUT_PATH"] ∧
      ∀ token, c.resolve token = c.entries.find? (·.flag.accepts token) := by
  have hkeys : layeredFlags.map (fun c => c.entries.map (·.key)) =
      .ok ["WORKING_DIR", "NO_CACHE", "OUTPUT_PATH"] := by
    decide +kernel
  cases h : layeredFlags with
  | error d => rw [h] at hkeys; cases hkeys
  | ok c =>
      rw [h] at hkeys
      have reachable := reachable_layeredFlags h
      exact ⟨c, rfl, reachable, Except.ok.inj hkeys, (look_up_by_search reachable).1⟩

end IndexedCatalog

end OptionAtlas
