import OptionAtlas.Proofs.Table.Acceptance

/-!
# From registries to tables and back

The table that describes a registry is always accepted, whatever unions and selections
its catalogs are made of. The registry read from it answers every question as before,
with one exception: a table has no place for groups, so every flag comes back in the
group of the catalog it stands in. A registry that was itself read from a table comes
back unchanged.

## Main definitions

* `Catalog.redeclared` — a catalog as it comes back from a table.
* `SameFlag` — answers that differ in the group at most.
* `Registry.Supplies` — a catalog supplies an entry to a command.
* `Registry.KeepsGroups` — no answer changes its group.

## Main statements

* `Table.toRegistry_ofRegistry_eq_ok_iff` — what is read from the table of a registry.
* `Table.exists_toRegistry_ofRegistry` — such a table is accepted.
* `Table.resolve_of_supplies`, `Table.sameFlag_resolve` — how the answers come back.
-/

namespace OptionAtlas

/-- The entry in another group. -/
def Entry.inGroup (group : String) (e : Entry) : Entry := { e with group := group }

/-- Answers of a registry that differ in the group of the entry at most. -/
inductive SameFlag : Except Defect (Option Entry) → Except Defect (Option Entry) → Prop
  | unknownCommand (name : String) :
      SameFlag (.error (.unknownCommand name)) (.error (.unknownCommand name))
  | none : SameFlag (.ok none) (.ok none)
  | some {e e' : Entry} (key : e.key = e'.key) (long : e.flag.long = e'.flag.long)
      (short : e.flag.short = e'.flag.short) : SameFlag (.ok (some e)) (.ok (some e'))

namespace Catalog

/-- The catalog with every entry declared by the catalog itself. -/
def redeclared (c : Catalog) : Catalog where
  name := c.name
  entries := c.entries.map (Entry.inGroup c.name)
  apart := List.pairwise_map.2 c.apart

theorem native_redeclared (c : Catalog) : c.redeclared.Native := by
  intro e he
  obtain ⟨e, _, rfl⟩ := List.mem_map.1 he
  rfl

@[simp] theorem sectionOf_redeclared (c : Catalog) :
    Table.sectionOf c.redeclared = Table.sectionOf c := by
  simp only [Table.sectionOf, redeclared, List.map_map]
  rfl

theorem map_sectionOf_redeclared (cs : List Catalog) :
    (cs.map redeclared).map Table.sectionOf = cs.map Table.sectionOf := by
  simp [List.map_map, Function.comp_def]

end Catalog

theorem Recipe.takes_redeclared_iff {q : Recipe} {c : Catalog} {e' : Entry} :
    q.Takes c.redeclared e' ↔ ∃ e, q.Takes c e ∧ e.inGroup c.name = e' := by
  simp only [Takes, Catalog.redeclared, List.mem_map]
  constructor
  · intro h
    rcases h with ⟨⟨e, he, rfl⟩, htaken⟩
    exact ⟨e, ⟨he, htaken⟩, rfl⟩
  · intro h
    rcases h with ⟨e, ⟨he, htaken⟩, rfl⟩
    exact ⟨⟨e, he, rfl⟩, htaken⟩

namespace Registry

/-- The command takes the entry `e` from the catalog `c`. -/
def Supplies (r : Registry) (command : String) (c : Catalog) (e : Entry) : Prop :=
  ∃ q ∈ r.recipes, q.name = command ∧ q.Takes c e

/-- Whatever `r` resolves, `r'` resolves to an entry of the same group. -/
def KeepsGroups (r r' : Registry) : Prop :=
  ∀ command token e, r.resolve command token = .ok (some e) →
    ∃ e', r'.resolve command token = .ok (some e') ∧ e'.group = e.group

variable {r : Registry} {command token : String} {c d : Catalog} {e : Entry}

theorem exists_supplies (h : r.resolve command token = .ok (some e)) :
    ∃ c ∈ r.catalogs, r.Supplies command c e := by
  obtain ⟨_, q, hq, hname, c, hc, htakes⟩ := resolve_eq_some_iff.1 h
  exact ⟨c, hc, q, hq, hname, htakes⟩

/-- An entry of a command is supplied by one catalog only. -/
theorem eq_of_supplies (hc : c ∈ r.catalogs) (hd : d ∈ r.catalogs)
    (hce : r.Supplies command c e) (hde : r.Supplies command d e) : c = d := by
  obtain ⟨q, hq, rfl, hqc⟩ := hce
  obtain ⟨q', hq', hname, hqd⟩ := hde
  obtain rfl := eq_of_name_eq hq' hq hname
  obtain ⟨set, _, hset⟩ := exists_command hq
  obtain ⟨_, _, hentries⟩ := Recipe.assemble_eq_ok_iff.1 hset
  exact Recipe.eq_of_takes r.nodup_catalogs hentries set.nodup_entries hc hd hqc hqd

end Registry

namespace Table

variable {t : Table} {r r' : Registry}

/-! ## Reading back a registry -/

theorem supported_currentVersion : supported currentVersion = true := by decide

/-- What is read from the table of a registry has the same recipes over the same
catalogs, each declared anew. -/
theorem toRegistry_ofRegistry_eq_ok_iff :
    (ofRegistry r).toRegistry = .ok r' ↔
      r'.catalogs = r.catalogs.map Catalog.redeclared ∧ r'.recipes = r.recipes := by
  have hbuilt : (ofRegistry r).builtCatalogs = .ok (r.catalogs.map Catalog.redeclared) := by
    refine builtCatalogs_eq_ok_iff.2 ⟨Catalog.map_sectionOf_redeclared _, ?_⟩
    intro c hc
    obtain ⟨b, _, rfl⟩ := List.mem_map.1 hc
    exact b.native_redeclared
  obtain ⟨hsections, native⟩ := builtCatalogs_eq_ok_iff.1 hbuilt
  rw [toRegistry_eq_ok_iff]
  constructor
  · intro h
    rcases h with ⟨_, hsections', native', hrecipes⟩
    have hbuilt' := builtCatalogs_eq_ok_iff.2 ⟨hsections', native'⟩
    exact ⟨Except.ok.inj (hbuilt'.symm.trans hbuilt), hrecipes⟩
  · intro h
    rcases h with ⟨hcatalogs, hrecipes⟩
    rw [hcatalogs]
    exact ⟨supported_currentVersion, hsections, native, hrecipes⟩

/-- The table of a registry is accepted: what fitted together once still does, since
only the written parts of the entries decide. -/
theorem exists_toRegistry_ofRegistry (r : Registry) :
    ∃ r', (ofRegistry r).toRegistry = .ok r' := by
  have composable : (ofRegistry r).Composable :=
    (exists_build_iff_composable rfl).1 ⟨r, Registry.build_eq_ok_iff.2 ⟨rfl, rfl⟩⟩
  obtain ⟨r', hr'⟩ :=
    (exists_build_iff_composable (Catalog.map_sectionOf_redeclared r.catalogs)).2 composable
  exact ⟨r', toRegistry_ofRegistry_eq_ok_iff.2 (Registry.build_eq_ok_iff.1 hr')⟩

section Reread

variable {command token : String} {c : Catalog} {e : Entry}

/-- A supplied entry comes back in the group of its supplier. -/
theorem resolve_of_supplies (h : (ofRegistry r).toRegistry = .ok r') (hc : c ∈ r.catalogs)
    (hce : r.Supplies command c e) (htoken : token ∈ e.flag.spellings) :
    r'.resolve command token = .ok (some (e.inGroup c.name)) := by
  obtain ⟨hcatalogs, hrecipes⟩ := toRegistry_ofRegistry_eq_ok_iff.1 h
  obtain ⟨q, hq, hname, htakes⟩ := hce
  refine Registry.resolve_eq_some_iff.2 ⟨htoken, q, hrecipes ▸ hq, hname, c.redeclared, ?_, ?_⟩
  · rw [hcatalogs]
    exact List.mem_map_of_mem hc
  · exact Recipe.takes_redeclared_iff.2 ⟨e, htakes, rfl⟩

theorem resolve_none_of_reread (h : (ofRegistry r).toRegistry = .ok r')
    (hnone : r.resolve command token = .ok none) : r'.resolve command token = .ok none := by
  obtain ⟨hcatalogs, hrecipes⟩ := toRegistry_ofRegistry_eq_ok_iff.1 h
  obtain ⟨hcommand, hall⟩ := Registry.resolve_eq_none_iff.1 hnone
  rw [Registry.resolve_eq_none_iff, hrecipes, hcatalogs]
  refine ⟨hcommand, ?_⟩
  intro q hq hname b' hb' e' htakes
  obtain ⟨b, hb, rfl⟩ := List.mem_map.1 hb'
  obtain ⟨e, hbe, rfl⟩ := Recipe.takes_redeclared_iff.1 htakes
  exact hall q hq hname b hb e hbe

theorem resolve_error_of_reread (h : (ofRegistry r).toRegistry = .ok r') {d : Defect}
    (herror : r.resolve command token = .error d) : r'.resolve command token = .error d := by
  obtain ⟨_, hrecipes⟩ := toRegistry_ofRegistry_eq_ok_iff.1 h
  rw [Registry.resolve_eq_error_iff, hrecipes, ← Registry.resolve_eq_error_iff (r := r)]
  exact herror

theorem sameFlag_resolve (h : (ofRegistry r).toRegistry = .ok r') :
    SameFlag (r'.resolve command token) (r.resolve command token) := by
  cases hanswer : r.resolve command token with
  | error d =>
      rw [resolve_error_of_reread h hanswer]
      obtain ⟨rfl, _⟩ := Registry.resolve_eq_error_iff.1 hanswer
      exact .unknownCommand command
  | ok answer =>
      cases answer with
      | none =>
          rw [resolve_none_of_reread h hanswer]
          exact .none
      | some e =>
          obtain ⟨c, hc, hce⟩ := Registry.exists_supplies hanswer
          have htoken := (Registry.resolve_eq_some_iff.1 hanswer).1
          rw [resolve_of_supplies h hc hce htoken]
          exact .some rfl rfl rfl

end Reread

/-! ## What comes back -/

/-- **A table written after reading says what was read.**  Only the version may change:
the one that is written is the current one. Reading it again gives the same registry. -/
theorem ofRegistry_toRegistry (h : t.toRegistry = .ok r) :
    ofRegistry r = { t with version := "1.0" } ∧ (ofRegistry r).toRegistry = .ok r := by
  obtain ⟨_, hsections, native, hrecipes⟩ := toRegistry_eq_ok_iff.1 h
  refine ⟨?_, ?_⟩
  · simp only [ofRegistry, hsections, hrecipes]
    rfl
  · exact toRegistry_eq_ok_iff.2 ⟨supported_currentVersion, rfl, native, rfl⟩

theorem ofRegistry_toRegistry_clashingTable :
    ∃ r, clashingTable.toRegistry = .ok r ∧
      ofRegistry r = { clashingTable with version := "1.0" } ∧
      (ofRegistry r).toRegistry = .ok r := by
  have hok : clashingTable.toRegistry.isOk = true := by decide +kernel
  cases h : clashingTable.toRegistry with
  | error d => rw [h] at hok; cases hok
  | ok r => exact ⟨r, rfl, ofRegistry_toRegistry h⟩

/-- **Reading back a registry loses no answer.**  Names, keys, flags and recipes come
back in their order, and every question about a token is answered by the same flag. -/
theorem sameFlag_of_reread (r : Registry) :
    ∃ r', (ofRegistry r).toRegistry = .ok r' ∧
      r'.catalogs.map (·.name) = r.catalogs.map (·.name) ∧
      (r'.catalogs.map fun c => c.entries.map fun e => (e.key, e.flag)) =
        (r.catalogs.map fun c => c.entries.map fun e => (e.key, e.flag)) ∧
      r'.recipes = r.recipes ∧
      r'.commands.map (·.name) = r.commands.map (·.name) ∧
      ∀ command token, SameFlag (r'.resolve command token) (r.resolve command token) := by
  obtain ⟨r', h⟩ := exists_toRegistry_ofRegistry r
  obtain ⟨hcatalogs, hrecipes⟩ := toRegistry_ofRegistry_eq_ok_iff.1 h
  refine ⟨r', h, ?_, ?_, hrecipes, ?_, fun _ _ => sameFlag_resolve h⟩
  · rw [hcatalogs, List.map_map]
    rfl
  · rw [hcatalogs, List.map_map]
    refine List.map_congr_left fun c _ => ?_
    simp only [Function.comp_apply, Catalog.redeclared, List.map_map]
    rfl
  · rw [r'.names_commands, r.names_commands, hrecipes]

/-- **Groups come back as suppliers.**  An entry of a command is supplied by one catalog
and comes back in the group of this catalog. So groups are kept exactly when every entry
that a command takes from a catalog carries the name of this catalog as its group. -/
theorem group_of_reread (h : (ofRegistry r).toRegistry = .ok r') :
    (∀ command token e, r.resolve command token = .ok (some e) →
      ∃ c ∈ r.catalogs, r.Supplies command c e ∧
        (∀ d ∈ r.catalogs, r.Supplies command d e → d = c) ∧
        r'.resolve command token = .ok (some (e.inGroup c.name))) ∧
      (r.KeepsGroups r' ↔
        ∀ command, ∀ c ∈ r.catalogs, ∀ e, r.Supplies command c e → e.group = c.name) := by
  have hresolve : ∀ command token e, r.resolve command token = .ok (some e) →
      ∃ c ∈ r.catalogs, r.Supplies command c e ∧
        (∀ d ∈ r.catalogs, r.Supplies command d e → d = c) ∧
        r'.resolve command token = .ok (some (e.inGroup c.name)) := by
    intro command token e he
    obtain ⟨c, hc, hce⟩ := Registry.exists_supplies he
    have htoken := (Registry.resolve_eq_some_iff.1 he).1
    exact ⟨c, hc, hce, fun d hd hde => Registry.eq_of_supplies hd hc hde hce,
      resolve_of_supplies h hc hce htoken⟩
  refine ⟨hresolve, ?_, ?_⟩
  · intro keeps command c hc e hce
    have hlong : e.flag.long ∈ e.flag.spellings := by simp
    obtain ⟨q, hq, hname, htakes⟩ := hce
    have he : r.resolve command e.flag.long = .ok (some e) :=
      Registry.resolve_eq_some_iff.2 ⟨hlong, q, hq, hname, c, hc, htakes⟩
    obtain ⟨e', he', hgroup⟩ := keeps command e.flag.long e he
    rw [resolve_of_supplies h hc ⟨q, hq, hname, htakes⟩ hlong] at he'
    obtain rfl := Option.some.inj (Except.ok.inj he')
    exact hgroup.symm
  · intro native command token e he
    obtain ⟨c, hc, hce, _, he'⟩ := hresolve command token e he
    exact ⟨_, he', (native command c hc e hce).symm⟩

/-! ## A union that is written as a catalog -/

/-- A flag that the catalog `base` declared. -/
def noCache : Entry := ⟨"NO_CACHE", "base", ⟨"--no-cache", none, by decide, by simp⟩⟩

def baseCatalog : Catalog := ⟨"base", [noCache], List.pairwise_singleton _ _⟩

def unionCatalog : Catalog := ⟨"all", [noCache], List.pairwise_singleton _ _⟩

/-- A registry of the catalog `base` and of a union that holds the same flag, with one
command for each of them. -/
def unionRegistry : Registry where
  catalogs := [baseCatalog, unionCatalog]
  recipes := [⟨"plain", ["base"], []⟩, ⟨"run", ["all"], []⟩]
  commands :=
    [⟨"plain", [noCache], List.pairwise_singleton _ _⟩,
     ⟨"run", [noCache], List.pairwise_singleton _ _⟩]
  assembled := by decide +kernel

theorem resolve_unionRegistry :
    unionRegistry.resolve "run" "--no-cache" = .ok (some noCache) := by decide +kernel

theorem group_of_reread_unionRegistry :
    ∃ r', (ofRegistry unionRegistry).toRegistry = .ok r' ∧
      unionRegistry.resolve "run" "--no-cache" = .ok (some noCache) ∧
      ∃ c ∈ unionRegistry.catalogs, unionRegistry.Supplies "run" c noCache ∧
        r'.resolve "run" "--no-cache" = .ok (some (noCache.inGroup c.name)) := by
  obtain ⟨r', h⟩ := exists_toRegistry_ofRegistry unionRegistry
  obtain ⟨c, hc, hsupplies, _, hr'⟩ := (group_of_reread h).1 _ _ _ resolve_unionRegistry
  exact ⟨r', h, resolve_unionRegistry, c, hc, hsupplies, hr'⟩

/-- The flag of a union does not come back in the group that declared it. -/
theorem not_keepsGroups_unionRegistry :
    Catalog.declare "base" [⟨"NO_CACHE", "--no-cache", none⟩] = .ok baseCatalog ∧
      Catalog.union "all" [baseCatalog] = .ok unionCatalog ∧
      Registry.build [baseCatalog, unionCatalog]
        [⟨"plain", ["base"], []⟩, ⟨"run", ["all"], []⟩] = .ok unionRegistry ∧
      ∃ r', (ofRegistry unionRegistry).toRegistry = .ok r' ∧
        ¬ unionRegistry.KeepsGroups r' := by
  refine ⟨by decide +kernel, by decide +kernel, Registry.build_eq_ok_iff.2 ⟨rfl, rfl⟩, ?_⟩
  obtain ⟨r', h⟩ := exists_toRegistry_ofRegistry unionRegistry
  refine ⟨r', h, ?_⟩
  intro keeps
  obtain ⟨e', he', hgroup⟩ := keeps "run" "--no-cache" noCache resolve_unionRegistry
  have hsupplies : unionRegistry.Supplies "run" unionCatalog noCache :=
    ⟨⟨"run", ["all"], []⟩, by simp [unionRegistry], rfl, by simp [unionCatalog],
      .inl (by simp [unionCatalog])⟩
  rw [resolve_of_supplies h (by simp [unionRegistry]) hsupplies (by simp [noCache])] at he'
  obtain rfl := Option.some.inj (Except.ok.inj he')
  exact absurd hgroup (by decide)

end Table

end OptionAtlas
