import OptionAtlas.Builder
import OptionAtlas.Proofs.Catalog.Union
import OptionAtlas.Proofs.Registry.Resolution

/-!
# Commands as unions

A command can be put together by anyone who holds the catalogs: look up the catalogs that
its recipe takes whole, select every pick on its own, and form the union under the name of
the command. The registry does the same in one go, over the bare entries, and arrives at
the same flag set or at the same defect.

## Main definitions

* `Recipe.combine`, `IndexedCatalog.combine` — a flag set put together from a union and
  selections.

## Main statements

* `Catalog.entries_select_singleton`, `IndexedCatalog.entries_select_singleton` — the
  selection of one key.
* `Recipe.assemble_eq_combine`, `IndexedCatalog.assemble_eq_combine` — assembly is union
  and selection.
* `Registry.map_commands_build_singleton` — a registry of one command.
-/

namespace OptionAtlas

/-! ## Picks one by one -/

section Picks

variable {α β γ δ ε : Type}

/-- A run of numbered checks that yield lists of one element each yields these elements,
whatever the numbers are used for. -/
theorem bind_mapM_zipIdx {elements : γ → List β} {alone : α × Nat → Except ε γ}
    {single : α → Except ε β} (one : ∀ p, elements <$> alone p = ([·]) <$> single p.1)
    (xs : List α) (k : List β → Except ε δ) :
    (xs.zipIdx.mapM alone >>= fun parts => k (parts.flatMap elements)) =
      xs.mapM single >>= k := by
  have hlists : List.map elements <$> xs.zipIdx.mapM alone = List.map ([·]) <$> xs.mapM single := by
    rw [map_mapM, map_mapM]
    simp only [one]
    conv_rhs => rw [← List.zipIdx_map_fst 0 xs, List.mapM_map]
    rfl
  calc
    (xs.zipIdx.mapM alone >>= fun parts => k (parts.flatMap elements))
      = (List.map elements <$> xs.zipIdx.mapM alone) >>= fun lists => k lists.flatten := by
        simp only [bind_map_left, List.flatMap_def]
    _ = (List.map ([·]) <$> xs.mapM single) >>= fun lists => k lists.flatten := by rw [hlists]
    _ = xs.mapM single >>= k := by
        simp only [bind_map_left, ← List.flatMap_def, List.flatMap_singleton']

end Picks

namespace Catalog

/-- One entry cannot clash. -/
theorem entries_ofEntries_singleton (name : String) (e : Entry) :
    entries <$> ofEntries name [e] = .ok [e] := by
  have hone : ∃ c, ofEntries name [e] = .ok c :=
    exists_ofEntries_iff.2 (List.pairwise_singleton _ e)
  obtain ⟨c, hc⟩ := hone
  rw [hc, ← (ofEntries_eq_ok_iff.1 hc).2]
  rfl

/-- A selection of one key fails with the look-up of the key alone. -/
theorem entries_select_singleton (name : String) (c : Catalog) (key : String) :
    entries <$> select name c [key] = ([·]) <$> c.entry key := by
  simp only [select, List.mapM_cons, List.mapM_nil, bind_assoc, pure_bind, map_bind,
    entries_ofEntries_singleton]
  exact (map_eq_pure_bind _ _).symm

end Catalog

namespace Recipe

/-- The flag set of a recipe as the union of the catalogs it takes and of one selection
for each pick. The selection of the pick at place `i` goes by the name `label i`. -/
def combine (label : Nat → String) (cs : List Catalog) (q : Recipe) : Except Defect Catalog := do
  let whole ← q.catalogs.mapM (findCatalog cs)
  let picked ← q.picks.zipIdx.mapM fun p => do
    Catalog.select (label p.2) (← findCatalog cs p.1.catalog) [p.1.key]
  Catalog.union q.name (whole ++ picked)

theorem assemble_eq_combine (label : Nat → String) (cs : List Catalog) (q : Recipe) :
    q.assemble cs [] = q.combine label cs := by
  simp only [assemble_nil, entries, combine, Catalog.union, List.flatMap_append, bind_assoc,
    pure_bind]
  refine bind_congr fun whole => (bind_mapM_zipIdx ?_ _ _).symm
  intro p
  simp only [Pick.entry, map_bind, Catalog.entries_select_singleton]

end Recipe

namespace IndexedCatalog

theorem entries_ofEntries_singleton (name : String) (e : Entry) :
    (·.entries) <$> ofEntries name [e] = .ok [e] := by
  rw [← Catalog.entries_ofEntries_singleton name e, ← toCatalog_ofEntries, Functor.map_map]

theorem entries_select_singleton (name : String) (c : IndexedCatalog) (key : String) :
    (·.entries) <$> select name c [key] = ([·]) <$> c.entry key := by
  simp only [select, List.mapM_cons, List.mapM_nil, bind_assoc, pure_bind, map_bind,
    entries_ofEntries_singleton]
  exact (map_eq_pure_bind _ _).symm

/-- The same flag set, put together from indexed catalogs. -/
def combine (label : Nat → String) (cs : List IndexedCatalog) (q : Recipe) :
    Except Defect IndexedCatalog := do
  let whole ← q.catalogs.mapM (find cs)
  let picked ← q.picks.zipIdx.mapM fun p => do
    select (label p.2) (← find cs p.1.catalog) [p.1.key]
  union q.name (whole ++ picked)

theorem assemble_eq_combine (label : Nat → String) (cs : List IndexedCatalog) (q : Recipe) :
    assemble cs q = combine label cs q := by
  simp only [assemble, combine, union, List.flatMap_append]
  refine bind_congr fun whole => (bind_mapM_zipIdx ?_ _ _).symm
  intro p
  simp only [map_bind, entries_select_singleton]

end IndexedCatalog

/-! ## Registries of one command -/

namespace Registry

/-- A registry of one command is built as its command is assembled. -/
theorem map_commands_build_singleton {cs : List Catalog} (distinct : (cs.map (·.name)).Nodup)
    (q : Recipe) : commands <$> build cs [q] = ([·]) <$> q.assemble cs [] := by
  rw [map_commands_build, assembleCommands, firstRepeat?_nil_eq_none_iff.2 distinct,
    map_eq_pure_bind]
  rfl

/-- **A command is the union of what its recipe takes.**  Whoever looks up the catalogs of
a recipe, selects every pick on its own under any name, and forms the union of both arrives
at the outcome of the registry that was told this one recipe: at the same flag set, or at
the same defect. With an index the flag sets are put together alike. -/
theorem Builder.build_by_set_operations (b : Builder) (q : Recipe) (label : Nat → String)
    (distinct : (b.catalogs.map (·.name)).Nodup) (single : b.recipes = [q]) :
    commands <$> b.build = ([·]) <$> q.combine label b.catalogs ∧
      (∀ r, b.build = .ok r → r.command q.name = q.combine label b.catalogs) ∧
      ∀ cs : List IndexedCatalog, (∀ c ∈ cs, c.Reachable) →
        cs.map IndexedCatalog.toCatalog = b.catalogs →
        IndexedCatalog.assemble cs q = IndexedCatalog.combine label cs q ∧
          q.combine label b.catalogs =
            IndexedCatalog.toCatalog <$> IndexedCatalog.combine label cs q := by
  rw [← Recipe.assemble_eq_combine]
  refine ⟨?_, ?_, ?_⟩
  · rw [build, single, map_commands_build_singleton distinct]
  · intro r hr
    obtain ⟨hcatalogs, hrecipes⟩ := build_eq_ok_iff.1 hr
    have hq : q ∈ r.recipes := by rw [hrecipes, single]; exact List.mem_singleton_self q
    obtain ⟨c, hcommand, hassemble⟩ := exists_command hq
    rw [hcommand, ← hcatalogs, hassemble]
  · intro cs reachable hcs
    have same := IndexedCatalog.assemble_eq_combine label cs q
    refine ⟨same, ?_⟩
    rw [← hcs, ← same, IndexedCatalog.toCatalog_assemble fun c hc => (reachable c hc).covers]

/-- A catalog to take whole and a catalog to pick from. -/
def pathSources : Except Defect (List IndexedCatalog) :=
  IndexedCatalog.built [("base", [⟨"WORKING_DIR", "--working-dir", some "-w"⟩]),
    ("output", [⟨"WIDTH", "--width", some "-w"⟩, ⟨"OUTPUT_PATH", "--output-path", some "-o"⟩])]

/-- What is picked here does not clash with what is taken whole. -/
def pathRecipe : Recipe := ⟨"run", ["base"], [⟨"output", "OUTPUT_PATH"⟩]⟩

theorem Builder.build_by_set_operations_pathRecipe :
    ∃ cs r, pathSources = .ok cs ∧ (∀ c ∈ cs, c.Reachable) ∧
      Builder.build ⟨cs.map IndexedCatalog.toCatalog, [pathRecipe]⟩ = .ok r ∧
      r.command "run" =
        pathRecipe.combine (fun _ => "picked") (cs.map IndexedCatalog.toCatalog) ∧
      IndexedCatalog.assemble cs pathRecipe =
        IndexedCatalog.combine (fun _ => "picked") cs pathRecipe := by
  have hpaths : (pathSources.map fun cs => (cs.map (·.name),
      (pathRecipe.assemble (cs.map IndexedCatalog.toCatalog) []).map (·.size))) =
        .ok (["base", "output"], .ok 2) := by
    decide +kernel
  obtain ⟨cs, hcs, hfacts⟩ := map_eq_ok_iff.1 hpaths
  obtain ⟨hnames, hsize⟩ := Prod.mk.inj hfacts
  obtain ⟨c, hc, _⟩ := map_eq_ok_iff.1 hsize
  have distinct : ((cs.map IndexedCatalog.toCatalog).map (·.name)).Nodup := by
    rw [List.map_map]
    exact hnames ▸ by decide
  have hbuild : ∃ r, Registry.build (cs.map IndexedCatalog.toCatalog) [pathRecipe] = .ok r :=
    exists_build_iff.2 ⟨distinct, List.nodup_singleton _, List.forall_mem_singleton.2 ⟨c, hc⟩⟩
  obtain ⟨r, hr⟩ := hbuild
  have reachable := IndexedCatalog.reachable_of_built hcs
  obtain ⟨_, hcommand, hindexed⟩ :=
    Builder.build_by_set_operations ⟨cs.map IndexedCatalog.toCatalog, [pathRecipe]⟩ pathRecipe
      (fun _ => "picked") distinct rfl
  exact ⟨cs, r, hcs, reachable, hr, hcommand r hr, (hindexed cs reachable rfl).1⟩

end Registry

end OptionAtlas
