import OptionAtlas.Proofs.Table.Reading

/-!
# Which tables are accepted

A table is accepted exactly when its version is known, its names follow the grammar,
nothing is declared twice, every reference leads to a declaration and the flags that
each command takes can stand side by side. All of this is said of the table as it is
written, without building anything. Two catalogs that clash do no harm as long as no
command takes both.

## Main definitions

* `Table.Clear` — declarations that can stand in one catalog.
* `Table.taken` — the declarations that a command takes.
* `Table.Composable`, `Table.WellFormed` — the conditions on the commands, and on the
  whole table.

## Main statements

* `Table.exists_declare_iff` — which declarations make a catalog.
* `Table.exists_build_iff_composable` — when declared catalogs and recipes fit together.
-/

namespace OptionAtlas

/-! ## Conditions on declarations -/

namespace Catalog.Declaration

/-- The tokens that mean the declared flag. -/
def spellings (d : Declaration) : List String := d.short.toList ++ [d.long]

/-- Both names follow the grammar. -/
structure WellNamed (d : Declaration) : Prop where
  long : LongName d.long
  short : ∀ s, d.short = some s → ShortName s

end Catalog.Declaration

namespace Table

open Catalog (Declaration)

/-- Declarations of which no two have the same key or share a spelling. -/
structure Clear (ds : List Declaration) : Prop where
  keys : (ds.map (·.key)).Nodup
  spellings : ds.Pairwise fun a b => ∀ s ∈ a.spellings, s ∉ b.spellings

theorem clear_map_declarationOf_iff {es : List Entry} :
    Clear (es.map declarationOf) ↔ es.Pairwise Entry.Apart := by
  have hsplit : es.Pairwise Entry.Apart ↔
      es.Pairwise (fun a b => a.key ≠ b.key) ∧
        es.Pairwise fun a b => ∀ s ∈ a.flag.spellings, s ∉ b.flag.spellings :=
    List.pairwise_and_iff
  rw [hsplit]
  constructor
  · intro h
    rcases h with ⟨keys, spellings⟩
    rw [List.map_map] at keys
    exact ⟨List.pairwise_map.1 keys, List.pairwise_map.1 spellings⟩
  · intro h
    rcases h with ⟨keys, spellings⟩
    refine ⟨?_, List.pairwise_map.2 spellings⟩
    rw [List.map_map]
    exact List.pairwise_map.2 keys

theorem wellNamed_declarationOf (e : Entry) : (declarationOf e).WellNamed :=
  ⟨e.flag.longName, fun _ h => e.flag.shortName h⟩

/-- Declarations make a catalog when they are well named and clear. -/
theorem exists_declare_iff {name : String} {ds : List Declaration} :
    (∃ c, Catalog.declare name ds = .ok c) ↔ (∀ d ∈ ds, d.WellNamed) ∧ Clear ds := by
  constructor
  · intro h
    rcases h with ⟨c, hc⟩
    obtain ⟨_, rfl⟩ := Section.mk.inj (Catalog.declare_eq_ok_iff.1 hc).1
    refine ⟨?_, clear_map_declarationOf_iff.2 c.apart⟩
    intro d hd
    obtain ⟨e, _, rfl⟩ := List.mem_map.1 hd
    exact wellNamed_declarationOf e
  · intro h
    rcases h with ⟨named, clear⟩
    have hflags : ∀ d ∈ ds, ∃ f, d.flag name = .ok f := by
      intro d hd
      obtain ⟨f, hlong, hshort⟩ : ∃ f : Flag, f.long = d.long ∧ f.short = d.short := by
        simpa only [Flag.ofNames_eq_ok_iff] using
          Flag.exists_ofNames_iff.2 ⟨(named d hd).long, (named d hd).short⟩
      exact ⟨(d.key, f), Declaration.flag_eq_ok_iff.2 (by rw [hlong, hshort])⟩
    obtain ⟨fs, hfs⟩ := exists_mapM_eq_ok_iff.2 hflags
    have hds : ds = (fs.map fun f => Entry.mk f.1 name f.2).map declarationOf := by
      rw [List.map_map, ← ds.map_id]
      exact map_eq_of_map_eq_map_ok (mapM_eq_ok_iff.1 hfs)
        fun d f h => (Declaration.flag_eq_ok_iff.1 h).symm
    rw [hds, clear_map_declarationOf_iff] at clear
    obtain ⟨c, hc⟩ := Catalog.exists_ofEntries_iff.2 clear
    exact ⟨c, bind_eq_ok_iff.2 ⟨fs, hfs, hc⟩⟩

/-! ## Conditions on commands -/

variable (t : Table)

/-- The flags declared in the catalog of this name. -/
def flagsOf (name : String) : List Declaration :=
  (t.catalogs.filter fun s => s.name = name).flatMap (·.flags)

/-- The flag that a pick refers to. -/
def flagsAt (p : Pick) : List Declaration :=
  (t.flagsOf p.catalog).filter fun d => d.key = p.key

/-- The flags that a recipe takes: all flags of its catalogs, then its picks. -/
def taken (q : Recipe) : List Declaration :=
  q.catalogs.flatMap t.flagsOf ++ q.picks.flatMap t.flagsAt

/-- Catalogs and commands fit together. -/
structure Composable : Prop where
  catalogs_distinct : (t.catalogs.map (·.name)).Nodup
  commands_distinct : (t.commands.map (·.name)).Nodup
  catalogs_declared : ∀ q ∈ t.commands, ∀ n ∈ q.catalogs, ∃ s ∈ t.catalogs, s.name = n
  picks_declared : ∀ q ∈ t.commands, ∀ p ∈ q.picks,
    ∃ s ∈ t.catalogs, s.name = p.catalog ∧ ∃ d ∈ s.flags, d.key = p.key
  taken_clear : ∀ q ∈ t.commands, Clear (t.taken q)

/-- The conditions under which a table is accepted. -/
structure WellFormed : Prop extends Composable t where
  version : t.version = "1" ∨ ∃ rest, t.version = "1." ++ rest
  named : ∀ s ∈ t.catalogs, ∀ d ∈ s.flags, d.WellNamed
  flags_clear : ∀ s ∈ t.catalogs, Clear s.flags

section Commands

variable {t} {cs : List Catalog} {q : Recipe} {es : List Entry} {c : Catalog}

theorem map_name_sectionOf : (cs.map sectionOf).map (·.name) = cs.map (·.name) := by
  rw [List.map_map]
  rfl

theorem flagsOf_eq (hcs : cs.map sectionOf = t.catalogs) (distinct : (cs.map (·.name)).Nodup)
    (hc : c ∈ cs) : t.flagsOf c.name = c.entries.map declarationOf := by
  have hsections : (t.catalogs.map (·.name)).Nodup := by
    rw [← hcs, map_name_sectionOf]
    exact distinct
  have hmem : sectionOf c ∈ t.catalogs := hcs ▸ List.mem_map_of_mem hc
  have hfilter : t.catalogs.filter (fun s => s.name = c.name) = [sectionOf c] :=
    filter_eq_singleton hsections hmem
  rw [flagsOf, hfilter, List.flatMap_singleton]
  rfl

theorem flagsAt_eq (hcs : cs.map sectionOf = t.catalogs) (distinct : (cs.map (·.name)).Nodup)
    {p : Pick} {e : Entry} (he : p.entry cs = .ok e) : t.flagsAt p = [declarationOf e] := by
  obtain ⟨c, hc, hname, he, hkey⟩ := (Pick.entry_eq_ok_iff distinct).1 he
  have hkeys : ((c.entries.map declarationOf).map (·.key)).Nodup := by
    rw [List.map_map]
    exact c.nodup_keys
  rw [flagsAt, ← hname, ← hkey, flagsOf_eq hcs distinct hc]
  exact filter_eq_singleton hkeys (List.mem_map_of_mem he)

/-- The entries of a recipe are declared by what the recipe takes from the table. -/
theorem map_declarationOf_eq_taken (hcs : cs.map sectionOf = t.catalogs)
    (distinct : (cs.map (·.name)).Nodup) (hes : q.entries cs = .ok es) :
    es.map declarationOf = t.taken q := by
  obtain ⟨whole, picked, hw, hp, rfl⟩ := Recipe.entries_eq_ok_iff.1 hes
  have hwhole : q.catalogs.flatMap t.flagsOf =
      whole.flatMap fun c => c.entries.map declarationOf := by
    apply flatMap_eq_of_map_eq_map_ok hw
    intro n c hc
    obtain ⟨hmem, rfl⟩ := (findCatalog_eq_ok_iff distinct).1 hc
    exact flagsOf_eq hcs distinct hmem
  have hpicked : q.picks.flatMap t.flagsAt = picked.flatMap fun e => [declarationOf e] :=
    flatMap_eq_of_map_eq_map_ok hp fun p e he => flagsAt_eq hcs distinct he
  rw [taken, hwhole, hpicked, List.map_append, List.map_flatMap, ← List.map_eq_flatMap]

theorem exists_findCatalog_iff (hcs : cs.map sectionOf = t.catalogs)
    (distinct : (cs.map (·.name)).Nodup) {n : String} :
    (∃ c, findCatalog cs n = .ok c) ↔ ∃ s ∈ t.catalogs, s.name = n := by
  simp only [findCatalog_eq_ok_iff distinct, ← hcs, List.mem_map, exists_exists_and_eq_and]
  rfl

theorem exists_entry_iff (hcs : cs.map sectionOf = t.catalogs)
    (distinct : (cs.map (·.name)).Nodup) {p : Pick} :
    (∃ e, p.entry cs = .ok e) ↔
      ∃ s ∈ t.catalogs, s.name = p.catalog ∧ ∃ d ∈ s.flags, d.key = p.key := by
  simp only [Pick.entry_eq_ok_iff distinct, ← hcs, List.mem_map, exists_exists_and_eq_and]
  constructor
  · intro h
    rcases h with ⟨e, c, hc, hname, he, hkey⟩
    exact ⟨c, hc, hname, declarationOf e, List.mem_map_of_mem he, hkey⟩
  · intro h
    rcases h with ⟨c, hc, hname, d, hd, hkey⟩
    obtain ⟨e, he, rfl⟩ := List.mem_map.1 hd
    exact ⟨e, c, hc, hname, he, hkey⟩

/-- A recipe is assembled when its references are declared and what it takes is clear. -/
theorem exists_assemble_iff_taken (hcs : cs.map sectionOf = t.catalogs)
    (distinct : (cs.map (·.name)).Nodup) :
    (∃ c, q.assemble cs [] = .ok c) ↔
      (∀ n ∈ q.catalogs, ∃ s ∈ t.catalogs, s.name = n) ∧
        (∀ p ∈ q.picks, ∃ s ∈ t.catalogs, s.name = p.catalog ∧ ∃ d ∈ s.flags, d.key = p.key) ∧
        Clear (t.taken q) := by
  have hentries : (∃ es, q.entries cs = .ok es) ↔ _ := Recipe.exists_entries_iff
  simp only [exists_findCatalog_iff hcs distinct, exists_entry_iff hcs distinct] at hentries
  rw [Recipe.exists_assemble_iff, ← and_assoc, ← hentries]
  constructor
  · intro h
    rcases h with ⟨es, hes, apart⟩
    rw [← clear_map_declarationOf_iff, map_declarationOf_eq_taken hcs distinct hes] at apart
    exact ⟨⟨es, hes⟩, apart⟩
  · intro h
    rcases h with ⟨⟨es, hes⟩, clear⟩
    rw [← map_declarationOf_eq_taken hcs distinct hes, clear_map_declarationOf_iff] at clear
    exact ⟨es, hes, clear⟩

/-- Whether catalogs and recipes fit together can be read off the table that describes
them. -/
theorem exists_build_iff_composable (hcs : cs.map sectionOf = t.catalogs) :
    (∃ r, Registry.build cs t.commands = .ok r) ↔ t.Composable := by
  have hnames : t.catalogs.map (·.name) = cs.map (·.name) := by
    rw [← hcs, map_name_sectionOf]
  rw [Registry.exists_build_iff]
  constructor
  · intro h
    rcases h with ⟨distinct, commands_distinct, hall⟩
    have assembled q hq := (exists_assemble_iff_taken hcs distinct).1 (hall q hq)
    exact ⟨hnames ▸ distinct, commands_distinct, fun q hq => (assembled q hq).1,
      fun q hq => (assembled q hq).2.1, fun q hq => (assembled q hq).2.2⟩
  · intro h
    have distinct : (cs.map (·.name)).Nodup := hnames ▸ h.catalogs_distinct
    refine ⟨distinct, h.commands_distinct, ?_⟩
    intro q hq
    exact (exists_assemble_iff_taken hcs distinct).2
      ⟨h.catalogs_declared q hq, h.picks_declared q hq, h.taken_clear q hq⟩

end Commands

/-! ## Accepted tables -/

theorem exists_builtCatalogs_iff :
    (∃ cs, t.builtCatalogs = .ok cs) ↔
      ∀ s ∈ t.catalogs, (∀ d ∈ s.flags, d.WellNamed) ∧ Clear s.flags := by
  simp only [builtCatalogs, exists_mapM_eq_ok_iff, exists_declare_iff]

/-- **A table is accepted exactly when it is well formed.** -/
theorem exists_toRegistry_iff : (∃ r, t.toRegistry = .ok r) ↔ t.WellFormed := by
  have hversion : supported t.version = true ↔ _ := supported_iff
  constructor
  · intro h
    rcases h with ⟨r, hr⟩
    obtain ⟨supported, hcs, native, hrecipes⟩ := toRegistry_eq_ok_iff.1 hr
    have hbuilt := t.exists_builtCatalogs_iff.1
      ⟨r.catalogs, builtCatalogs_eq_ok_iff.2 ⟨hcs, native⟩⟩
    have composable : t.Composable := (exists_build_iff_composable hcs).1
      ⟨r, Registry.build_eq_ok_iff.2 ⟨rfl, hrecipes⟩⟩
    exact ⟨composable, hversion.1 supported, fun s hs => (hbuilt s hs).1,
      fun s hs => (hbuilt s hs).2⟩
  · intro h
    obtain ⟨cs, hcs⟩ := t.exists_builtCatalogs_iff.2
      fun s hs => ⟨h.named s hs, h.flags_clear s hs⟩
    obtain ⟨hsections, native⟩ := builtCatalogs_eq_ok_iff.1 hcs
    obtain ⟨r, hr⟩ := (exists_build_iff_composable hsections).2 h.toComposable
    obtain ⟨rfl, hrecipes⟩ := Registry.build_eq_ok_iff.1 hr
    exact ⟨r, toRegistry_eq_ok_iff.2 ⟨hversion.2 h.version, hsections, native, hrecipes⟩⟩

/-- Two catalogs that share a key and a spelling, and commands that take whole catalogs,
single flags and nothing, but never what clashes. -/
def clashingTable : Table where
  version := "1.7.x"
  catalogs :=
    [⟨"base", [⟨"WORKING_DIR", "--working-dir", some "-w"⟩, ⟨"NO_CACHE", "--no-cache", none⟩]⟩,
     ⟨"test", [⟨"NO_CACHE", "--fresh", none⟩, ⟨"WATCH", "--watch", some "-w"⟩]⟩]
  commands :=
    [⟨"repl", ["base"], []⟩, ⟨"run tests", ["test"], []⟩, ⟨"help", [], []⟩,
     ⟨"build", [], [⟨"test", "NO_CACHE"⟩, ⟨"base", "WORKING_DIR"⟩]⟩]

example : clashingTable.toRegistry.isOk = true := by decide +kernel

end Table

end OptionAtlas
