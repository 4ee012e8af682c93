import OptionAtlas.Proofs.Registry.Assembly

/-!
# The answers of a registry

Commands and recipes of a registry stand for each other: there is one command for
each recipe, and it resolves a token to the entry that the recipe takes and that is
spelled so. The answers below are read off catalogs and recipes alone.

## Main statements

* `Registry.map_commands_build`, `Registry.build_eq_ok_iff`, `Registry.exists_build_iff` —
  what is built, and when.
* `Registry.command_eq_ok_iff` — the command of a name is the flag set of its recipe.
* `Registry.resolve_eq_some_iff`, `Registry.resolve_eq_none_iff`,
  `Registry.resolve_eq_error_iff` — the three kinds of answers.
* `Registry.offers_iff_takes`, `Registry.map_command_recipes` — recipes and commands as
  a user of the registry sees them.
-/

namespace OptionAtlas.Registry

/-! ## Building -/

/-- The commands of a registry are what is assembled, or its defect is that of the assembly. -/
theorem map_commands_build (cs : List Catalog) (rs : List Recipe) :
    commands <$> build cs rs = assembleCommands cs rs := by
  rw [build]
  split
  next h => exact h.symm
  next h => exact h.symm

theorem build_eq_ok_iff {cs : List Catalog} {rs : List Recipe} {r : Registry} :
    build cs rs = .ok r ↔ r.catalogs = cs ∧ r.recipes = rs := by
  rw [build]
  constructor
  · intro h
    split at h
    next => cases h; exact ⟨rfl, rfl⟩
    next => cases h
  · intro h
    rcases h with ⟨rfl, rfl⟩
    have hok := r.assembled
    split
    next commands h =>
      have hcommands : commands = r.commands := Except.ok.inj (h.symm.trans hok)
      subst hcommands
      rfl
    next d h => rw [hok] at h; cases h

/-- Catalogs and recipes form a registry when their names are distinct and each recipe
can be assembled on its own. -/
theorem exists_build_iff {cs : List Catalog} {rs : List Recipe} :
    (∃ r, build cs rs = .ok r) ↔
      (cs.map (·.name)).Nodup ∧ (rs.map (·.name)).Nodup ∧
        ∀ q ∈ rs, ∃ c, q.assemble cs [] = .ok c := by
  rw [← exists_mapM_eq_ok_iff]
  simp only [mapM_eq_ok_iff]
  constructor
  · intro h
    rcases h with ⟨r, h⟩
    obtain ⟨rfl, rfl⟩ := build_eq_ok_iff.1 h
    obtain ⟨hcs, hrs, hall⟩ := assembleCommands_eq_ok_iff.1 r.assembled
    exact ⟨hcs, hrs, r.commands, hall⟩
  · intro h
    rcases h with ⟨hcs, hrs, commands, hall⟩
    have hok := assembleCommands_eq_ok_iff.2 ⟨hcs, hrs, hall⟩
    exact ⟨⟨cs, rs, commands, hok⟩, build_eq_ok_iff.2 ⟨rfl, rfl⟩⟩

/-! ## Commands -/

section Commands

variable (r : Registry)

theorem nodup_catalogs : (r.catalogs.map (·.name)).Nodup :=
  (assembleCommands_eq_ok_iff.1 r.assembled).1

theorem nodup_recipes : (r.recipes.map (·.name)).Nodup :=
  (assembleCommands_eq_ok_iff.1 r.assembled).2.1

theorem map_assemble_recipes :
    r.recipes.map (Recipe.assemble r.catalogs []) = r.commands.map .ok :=
  (assembleCommands_eq_ok_iff.1 r.assembled).2.2

/-- Commands and recipes have the same names in the same order. -/
theorem names_commands : r.commands.map (·.name) = r.recipes.map (·.name) := by
  refine (map_eq_of_map_eq_map_ok r.map_assemble_recipes ?_).symm
  intro q c hc
  exact (Recipe.assemble_eq_ok_iff.1 hc).2.1.symm

theorem nodup_commands : (r.commands.map (·.name)).Nodup := by
  rw [names_commands]
  exact r.nodup_recipes

variable {r} {name token : String} {c : Catalog} {e : Entry} {d : Defect}

theorem eq_of_name_eq {p q : Recipe} (hp : p ∈ r.recipes) (hq : q ∈ r.recipes)
    (hname : p.name = q.name) : p = q :=
  List.inj_on_of_nodup_map r.nodup_recipes hp hq hname

theorem mem_commands_iff : c ∈ r.commands ↔ ∃ q ∈ r.recipes, q.assemble r.catalogs [] = .ok c :=
  mem_of_map_eq_map_ok r.map_assemble_recipes

/-- The command of a name is the flag set of the recipe of this name. -/
theorem command_eq_ok_iff :
    r.command name = .ok c ↔
      ∃ q ∈ r.recipes, q.name = name ∧ q.assemble r.catalogs [] = .ok c := by
  have hfind : r.command name = .ok c ↔ r.commands.find? (·.name == name) = some c := by
    rw [command]
    cases r.commands.find? (·.name == name) <;> simp
  rw [hfind, find?_eq_some_iff_of_nodup r.nodup_commands, mem_commands_iff]
  constructor
  · intro h
    rcases h with ⟨⟨q, hq, hc⟩, rfl⟩
    exact ⟨q, hq, (Recipe.assemble_eq_ok_iff.1 hc).2.1.symm, hc⟩
  · intro h
    rcases h with ⟨q, hq, rfl, hc⟩
    exact ⟨⟨q, hq, hc⟩, (Recipe.assemble_eq_ok_iff.1 hc).2.1⟩

/-- Every recipe has its command. -/
theorem exists_command {q : Recipe} (hq : q ∈ r.recipes) :
    ∃ c, r.command q.name = .ok c ∧ q.assemble r.catalogs [] = .ok c := by
  have hrun : r.recipes.mapM (Recipe.assemble r.catalogs []) = .ok r.commands :=
    mapM_eq_ok_iff.2 r.map_assemble_recipes
  obtain ⟨c, hc⟩ := exists_mapM_eq_ok_iff.1 ⟨r.commands, hrun⟩ q hq
  exact ⟨c, command_eq_ok_iff.2 ⟨q, hq, rfl, hc⟩, hc⟩

theorem command_eq_error_iff :
    r.command name = .error d ↔ d = .unknownCommand name ∧ ∀ q ∈ r.recipes, q.name ≠ name := by
  have hnames : (∀ c ∈ r.commands, c.name ≠ name) ↔ ∀ q ∈ r.recipes, q.name ≠ name := by
    simp only [← List.forall_mem_map (f := Catalog.name) (P := (· ≠ name)), names_commands,
      List.forall_mem_map]
  rw [← hnames]
  rw [command]
  cases h : r.commands.find? (·.name == name) with
  | some c =>
      obtain ⟨hc, hname⟩ := (find?_eq_some_iff_of_nodup r.nodup_commands).1 h
      simp only [reduceCtorEq, false_iff, not_and]
      intro _ hall
      exact hall c hc hname
  | none =>
      have hall : ∀ c ∈ r.commands, c.name ≠ name := by simpa using h
      simp only [Except.error.injEq]
      exact ⟨fun heq => ⟨heq.symm, hall⟩, fun heq => heq.1.symm⟩

/-! ## Answers -/

theorem resolve_eq_ok_iff {answer : Option Entry} :
    r.resolve name token = .ok answer ↔
      ∃ c, r.command name = .ok c ∧ c.resolve token = answer := by
  simp only [resolve, bind_eq_ok_iff, pure_eq_ok_iff]

/-- A command has the entry `e` when its recipe takes `e` from some catalog. -/
theorem mem_command_iff (h : r.command name = .ok c) :
    e ∈ c.entries ↔ ∃ q ∈ r.recipes, q.name = name ∧ ∃ b ∈ r.catalogs, q.Takes b e := by
  obtain ⟨q, hq, rfl, hc⟩ := command_eq_ok_iff.1 h
  obtain ⟨_, _, hes⟩ := Recipe.assemble_eq_ok_iff.1 hc
  rw [Recipe.mem_entries_iff r.nodup_catalogs hes]
  constructor
  · intro htakes
    exact ⟨q, hq, rfl, htakes⟩
  · intro h
    rcases h with ⟨q', hq', hname, htakes⟩
    exact eq_of_name_eq hq' hq hname ▸ htakes

/-- A command resolves a token to the entry that its recipe takes and that is spelled so. -/
theorem resolve_eq_some_iff :
    r.resolve name token = .ok (some e) ↔
      token ∈ e.flag.spellings ∧
        ∃ q ∈ r.recipes, q.name = name ∧ ∃ b ∈ r.catalogs, q.Takes b e := by
  rw [resolve_eq_ok_iff]
  constructor
  · intro h
    rcases h with ⟨c, hc, hres⟩
    obtain ⟨he, htoken⟩ := Catalog.resolve_eq_some_iff.1 hres
    exact ⟨htoken, (mem_command_iff hc).1 he⟩
  · intro h
    rcases h with ⟨htoken, q, hq, rfl, htakes⟩
    obtain ⟨c, hc, _⟩ := exists_command hq
    have he := (mem_command_iff hc).2 ⟨q, hq, rfl, htakes⟩
    exact ⟨c, hc, Catalog.resolve_eq_some_iff.2 ⟨he, htoken⟩⟩

/-- A command resolves a token to nothing when no entry that its recipe takes is spelled so. -/
theorem resolve_eq_none_iff :
    r.resolve name token = .ok none ↔
      (∃ q ∈ r.recipes, q.name = name) ∧
        ∀ q ∈ r.recipes, q.name = name → ∀ b ∈ r.catalogs, ∀ e, q.Takes b e →
          token ∉ e.flag.spellings := by
  rw [resolve_eq_ok_iff]
  constructor
  · intro h
    rcases h with ⟨c, hc, hres⟩
    obtain ⟨q, hq, hname, _⟩ := command_eq_ok_iff.1 hc
    refine ⟨⟨q, hq, hname⟩, ?_⟩
    intro q' hq' hname' b hb e htakes
    exact Catalog.resolve_eq_none_iff.1 hres e
      ((mem_command_iff hc).2 ⟨q', hq', hname', b, hb, htakes⟩)
  · intro h
    rcases h with ⟨⟨q, hq, rfl⟩, hall⟩
    obtain ⟨c, hc, _⟩ := exists_command hq
    refine ⟨c, hc, Catalog.resolve_eq_none_iff.2 ?_⟩
    intro e he
    obtain ⟨q', hq', hname', b, hb, htakes⟩ := (mem_command_iff hc).1 he
    exact hall q' hq' hname' b hb e htakes

/-- The only defect of a question is a command that no recipe describes. -/
theorem resolve_eq_error_iff :
    r.resolve name token = .error d ↔
      d = .unknownCommand name ∧ ∀ q ∈ r.recipes, q.name ≠ name := by
  rw [← command_eq_error_iff]
  rw [resolve]
  cases r.command name <;> simp [bind, Except.bind, pure, Except.pure]

end Commands

/-! ## Answers read off the recipe -/

/-- The recipe refers to the entry `e`: `e` belongs to a catalog that the recipe names,
or it is registered under the key of a pick in the catalog of that pick. -/
def Offers (r : Registry) (q : Recipe) (e : Entry) : Prop :=
  (∃ n ∈ q.catalogs, ∃ c, r.catalog n = .ok c ∧ e ∈ c.entries) ∨
    ∃ p ∈ q.picks, ∃ c, r.catalog p.catalog = .ok c ∧ c.entry p.key = .ok e

theorem offers_iff_takes {r : Registry} {q : Recipe} {e : Entry} :
    r.Offers q e ↔ ∃ c ∈ r.catalogs, q.Takes c e := by
  simp only [Offers, catalog, findCatalog_eq_ok_iff r.nodup_catalogs, Catalog.entry_eq_ok_iff]
  constructor
  · intro h
    rcases h with ⟨n, hn, c, ⟨hc, rfl⟩, he⟩ | ⟨p, hp, c, ⟨hc, hname⟩, he, hkey⟩
    · exact ⟨c, hc, he, .inl hn⟩
    · have hpick : (⟨c.name, e.key⟩ : Pick) = p := by rw [hname, hkey]
      exact ⟨c, hc, he, .inr (hpick ▸ hp)⟩
  · intro h
    rcases h with ⟨c, hc, he, hname | hpick⟩
    · exact .inl ⟨c.name, hname, c, ⟨hc, rfl⟩, he⟩
    · exact .inr ⟨⟨c.name, e.key⟩, hpick, c, ⟨hc, rfl⟩, he, rfl⟩

/-- The recipes lead to the commands one by one. -/
theorem map_command_recipes (r : Registry) :
    r.recipes.map (fun q => r.command q.name) = r.commands.map .ok := by
  rw [← map_assemble_recipes]
  apply List.map_congr_left
  intro q hq
  obtain ⟨c, hcommand, hassemble⟩ := exists_command hq
  rw [hcommand, hassemble]

/-- **A command answers with the flags of its recipe and with nothing else.**  Commands
and recipes stand for each other in their order, so every recipe leads to a command. -/
theorem resolve_by_recipe (r : Registry) :
    r.recipes.map (fun q => r.command q.name) = r.commands.map .ok ∧
      r.commands.map (·.name) = r.recipes.map (·.name) ∧
      (r.recipes.map (·.name)).Nodup ∧
      (∀ q ∈ r.recipes, ∀ token,
        (∀ e, r.resolve q.name token = .ok (some e) ↔
          (token = e.flag.long ∨ e.flag.short = some token) ∧ r.Offers q e) ∧
        (r.resolve q.name token = .ok none ↔
          ¬ ∃ e, (token = e.flag.long ∨ e.flag.short = some token) ∧ r.Offers q e)) ∧
      ∀ name token d, r.resolve name token = .error d ↔
        d = .unknownCommand name ∧ ∀ q ∈ r.recipes, q.name ≠ name := by
  refine ⟨r.map_command_recipes, r.names_commands, r.nodup_recipes, ?_, ?_⟩
  · intro q hq token
    have answer : ∀ e, r.resolve q.name token = .ok (some e) ↔
        (token = e.flag.long ∨ e.flag.short = some token) ∧ r.Offers q e := by
      intro e
      rw [resolve_eq_some_iff, offers_iff_takes, Flag.mem_spellings, or_comm,
        eq_comm (a := e.flag.long)]
      apply and_congr_right
      intro _
      constructor
      · intro h
        rcases h with ⟨q', hq', hname, htakes⟩
        exact eq_of_name_eq hq' hq hname ▸ htakes
      · intro htakes
        exact ⟨q, hq, rfl, htakes⟩
    refine ⟨answer, ?_⟩
    -- The command is there, so that an answer that is no entry is no flag.
    simp only [← answer]
    cases h : r.resolve q.name token with
    | error d => exact absurd rfl ((resolve_eq_error_iff.1 h).2 q hq)
    | ok found => cases found <;> simp
  · intro name token d
    exact resolve_eq_error_iff

end OptionAtlas.Registry
