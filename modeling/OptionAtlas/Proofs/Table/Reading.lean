import OptionAtlas.Proofs.Flag.Grammar
import OptionAtlas.Proofs.Registry.Resolution
import OptionAtlas.Table.Basic

/-!
# Reading a table

A table is read by declaring its catalogs and assembling its commands. What is read
holds the same names, flags and recipes in the same order, and each flag belongs to
the group of the catalog it stands in. A registry is read from a table exactly when
it has this shape.

## Main definitions

* `Catalog.Native` — a catalog that declared all its entries itself.

## Main statements

* `Table.supported_iff` — the versions that are read.
* `Catalog.declare_eq_ok_iff`, `Table.builtCatalogs_eq_ok_iff` — what is declared.
* `Table.toRegistry_eq_ok_iff` — what is read from a table.
-/

namespace OptionAtlas

/-! ## Declaring a catalog -/

namespace Catalog

/-- Every entry belongs to the group of the catalog itself. -/
def Native (c : Catalog) : Prop := ∀ e ∈ c.entries, e.group = c.name

variable {name : String} {c : Catalog}

/-- A declaration is read as a flag by taking over its key and its names. -/
theorem Declaration.flag_eq_ok_iff {d : Declaration} {f : String × Flag} :
    d.flag name = .ok f ↔ (⟨f.1, f.2.long, f.2.short⟩ : Declaration) = d := by
  obtain ⟨key, flag⟩ := f
  have hmatch : d.flag name = .ok (key, flag) ↔
      d.key = key ∧ Flag.ofNames d.long d.short = .ok flag := by
    rw [Declaration.flag]
    cases Flag.ofNames d.long d.short <;> simp
  rw [hmatch, Flag.ofNames_eq_ok_iff]
  cases d
  simp [eq_comm]

/-- The catalog of some declarations is the one that consists of them and declared
them itself. -/
theorem declare_eq_ok_iff {ds : List Declaration} :
    declare name ds = .ok c ↔ Table.sectionOf c = ⟨name, ds⟩ ∧ c.Native := by
  simp only [declare, bind_eq_ok_iff, mapM_eq_ok_iff, ofFlags, ofEntries_eq_ok_iff]
  constructor
  · intro h
    rcases h with ⟨fs, hfs, rfl, hentries⟩
    have hds : ds = fs.map fun f => ⟨f.1, f.2.long, f.2.short⟩ := by
      rw [← ds.map_id]
      exact map_eq_of_map_eq_map_ok hfs fun d f h => (Declaration.flag_eq_ok_iff.1 h).symm
    refine ⟨?_, ?_⟩
    · rw [Table.sectionOf, hentries, hds, List.map_map]
      rfl
    · intro e he
      rw [hentries] at he
      obtain ⟨f, _, rfl⟩ := List.mem_map.1 he
      rfl
  · intro h
    rcases h with ⟨hsection, native⟩
    obtain ⟨rfl, rfl⟩ := Table.Section.mk.inj hsection
    refine ⟨c.entries.map fun e => (e.key, e.flag), ?_, rfl, ?_⟩
    · rw [List.map_map, List.map_map]
      exact List.map_congr_left fun e _ => Declaration.flag_eq_ok_iff.2 rfl
    · rw [List.map_map]
      refine c.entries.map_id.symm.trans (List.map_congr_left ?_)
      intro e he
      rw [Function.comp_apply, ← native e he]
      rfl

end Catalog

/-! ## Reading a table -/

namespace Table

variable {t : Table}

theorem builtCatalogs_eq_ok_iff {cs : List Catalog} :
    t.builtCatalogs = .ok cs ↔ cs.map sectionOf = t.catalogs ∧ ∀ c ∈ cs, c.Native := by
  rw [builtCatalogs, mapM_eq_ok_iff]
  constructor
  · intro h
    refine ⟨?_, ?_⟩
    · rw [← t.catalogs.map_id]
      exact (map_eq_of_map_eq_map_ok h fun s c hc => (Catalog.declare_eq_ok_iff.1 hc).1.symm).symm
    · intro c hc
      obtain ⟨s, _, hs⟩ := (mem_of_map_eq_map_ok h).1 hc
      exact (Catalog.declare_eq_ok_iff.1 hs).2
  · intro h
    rcases h with ⟨hsections, native⟩
    rw [← hsections, List.map_map]
    exact List.map_congr_left fun c hc => Catalog.declare_eq_ok_iff.2 ⟨rfl, native c hc⟩

/-- The first part of a version, up to a full stop, has to be `1`. -/
theorem supported_iff {version : String} :
    supported version = true ↔ version = "1" ∨ ∃ rest, version = "1." ++ rest := by
  have hone : version = "1" ↔ version.toList = ['1'] := by
    rw [← String.toList_inj]
    rfl
  have hdot : (∃ rest, version = "1." ++ rest) ↔ ∃ cs, version.toList = '1' :: '.' :: cs := by
    have hlit : "1.".toList = ['1', '.'] := rfl
    constructor
    · intro h
      rcases h with ⟨rest, rfl⟩
      exact ⟨rest.toList, by rw [String.toList_append, hlit]; rfl⟩
    · intro h
      rcases h with ⟨cs, hcs⟩
      refine ⟨String.ofList cs, String.toList_inj.1 ?_⟩
      rw [hcs, String.toList_append, hlit, String.toList_ofList]
      rfl
  rw [hone, hdot, supported, beq_iff_eq]
  rcases version.toList with _ | ⟨c, _ | ⟨d, cs⟩⟩
  · simp
  · by_cases hc : c = '.' <;> simp [hc]
  · by_cases hc : c = '.'
    · simp [hc]
    · by_cases hd : d = '.' <;> simp [hc, hd]

/-- A registry is read from a table when it has the catalogs and the recipes of the
table and each of its catalogs declared its own entries. -/
theorem toRegistry_eq_ok_iff {r : Registry} :
    t.toRegistry = .ok r ↔
      supported t.version = true ∧ r.catalogs.map sectionOf = t.catalogs ∧
        (∀ c ∈ r.catalogs, c.Native) ∧ r.recipes = t.commands := by
  have hbuild : (t.builtCatalogs >>= fun cs => Registry.build cs t.commands) = .ok r ↔
      t.builtCatalogs = .ok r.catalogs ∧ r.recipes = t.commands := by
    simp only [bind_eq_ok_iff, Registry.build_eq_ok_iff]
    constructor
    · intro h
      rcases h with ⟨cs, hcs, rfl, hrecipes⟩
      exact ⟨hcs, hrecipes⟩
    · intro h
      rcases h with ⟨hcs, hrecipes⟩
      exact ⟨r.catalogs, hcs, rfl, hrecipes⟩
  rw [builtCatalogs_eq_ok_iff, and_assoc] at hbuild
  rw [← hbuild, toRegistry]
  by_cases hversion : supported t.version = true
  · cases t.builtCatalogs >>= fun cs => Registry.build cs t.commands <;> simp [hversion]
  · simp [hversion]

end Table

end OptionAtlas
