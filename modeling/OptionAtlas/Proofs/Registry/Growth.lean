import OptionAtlas.Proofs.Registry.Defects

/-!
# Registries that grow

What a registry holds stays as it is when more is declared. Further commands come behind
those that are there, a further catalog is no part of any command before a recipe names
it, and a defect cannot be mended by commands that follow it.

## Main definitions

* `Registry.Extends` — a registry that holds more.

## Main statements

* `Registry.Extends.command_eq_ok`, `Registry.Extends.resolve_eq` — what is held answers
  as before.
* `Recipe.assemble_append_of_ok` — a recipe assembles the same flag set over more catalogs.
-/

namespace OptionAtlas

/-! ## Recipes over more catalogs -/

section References

variable {cs : List Catalog} {q : Recipe} (more : List Catalog)

theorem findCatalog_append_of_ok {name : String} {c : Catalog}
    (h : findCatalog cs name = .ok c) : findCatalog (cs ++ more) name = .ok c := by
  rw [findCatalog] at h ⊢
  cases hfind : cs.find? (·.name == name) with
  | none => rw [hfind] at h; cases h
  | some b =>
      rw [hfind] at h
      rwa [List.find?_append, hfind]

theorem Pick.entry_append_of_ok {p : Pick} {e : Entry} (h : p.entry cs = .ok e) :
    p.entry (cs ++ more) = .ok e := by
  obtain ⟨c, hc, he⟩ := bind_eq_ok_iff.1 h
  exact bind_eq_ok_iff.2 ⟨c, findCatalog_append_of_ok more hc, he⟩

namespace Recipe

theorem entries_append_of_ok {es : List Entry} (h : q.entries cs = .ok es) :
    q.entries (cs ++ more) = .ok es := by
  simp only [entries_eq_ok_iff, map_eq_map_ok_iff_forall₂] at h ⊢
  obtain ⟨whole, picked, hwhole, hpicked, rfl⟩ := h
  exact ⟨whole, picked, hwhole.imp fun _ _ => findCatalog_append_of_ok more,
    hpicked.imp fun _ _ => Pick.entry_append_of_ok more, rfl⟩

/-- A recipe that is assembled refers to nothing that further catalogs could change. -/
theorem assemble_append_of_ok {c : Catalog} (h : q.assemble cs [] = .ok c) :
    q.assemble (cs ++ more) [] = .ok c := by
  rw [assemble_eq_ok_iff] at h ⊢
  exact ⟨h.1, h.2.1, entries_append_of_ok more h.2.2⟩

end Recipe

end References

namespace Registry

/-! ## Registries that hold more -/

/-- Catalogs and recipes of `r'` start with those of `r`. -/
structure Extends (r r' : Registry) : Prop where
  catalogs : r.catalogs <+: r'.catalogs
  recipes : r.recipes <+: r'.recipes

namespace Extends

variable {r r' : Registry} {name : String} {c : Catalog}

theorem assemble_eq_ok (h : r.Extends r') {q : Recipe} (hc : q.assemble r.catalogs [] = .ok c) :
    q.assemble r'.catalogs [] = .ok c := by
  obtain ⟨more, hmore⟩ := h.catalogs
  rw [← hmore]
  exact Recipe.assemble_append_of_ok more hc

/-- The commands of `r` come first, and each is assembled as before. -/
theorem commands (h : r.Extends r') : r.commands <+: r'.commands := by
  obtain ⟨further, hfurther⟩ := h.recipes
  have hbefore : r.recipes.map (Recipe.assemble r'.catalogs []) = r.commands.map .ok := by
    have hassemble := r.map_assemble_recipes
    rw [map_eq_map_ok_iff_forall₂] at hassemble ⊢
    exact hassemble.imp fun _ _ => h.assemble_eq_ok
  have hall := r'.map_assemble_recipes
  rw [← hfurther, List.map_append, hbefore] at hall
  obtain ⟨front, back, hsplit, hfront, _⟩ := List.map_eq_append_iff.1 hall.symm
  have heq : front = r.commands := List.map_injective_iff.2 (fun _ _ => Except.ok.inj) hfront
  exact ⟨back, by rw [hsplit, heq]⟩

theorem command_eq_ok (h : r.Extends r') (hc : r.command name = .ok c) :
    r'.command name = .ok c := by
  obtain ⟨q, hq, hname, hassemble⟩ := command_eq_ok_iff.1 hc
  exact command_eq_ok_iff.2 ⟨q, h.recipes.subset hq, hname, h.assemble_eq_ok hassemble⟩

theorem resolve_eq (h : r.Extends r') (hc : r.command name = .ok c) (token : String) :
    r'.resolve name token = r.resolve name token := by
  rw [resolve, resolve, hc, h.command_eq_ok hc]

end Extends

/-! ## Building on -/

variable {cs : List Catalog} {rs : List Recipe}

theorem extends_of_build {r r' : Registry} {ds : List Catalog} {qs : List Recipe}
    (h : build cs rs = .ok r) (h' : build ds qs = .ok r') (hcs : cs <+: ds) (hrs : rs <+: qs) :
    r.Extends r' := by
  obtain ⟨rfl, rfl⟩ := build_eq_ok_iff.1 h
  obtain ⟨rfl, rfl⟩ := build_eq_ok_iff.1 h'
  exact ⟨hcs, hrs⟩

theorem command_eq_ok_of_mem {r : Registry} {c : Catalog} (hc : c ∈ r.commands) :
    r.command c.name = .ok c := by
  obtain ⟨q, hq, hassemble⟩ := mem_commands_iff.1 hc
  exact command_eq_ok_iff.2 ⟨q, hq, (Recipe.assemble_eq_ok_iff.1 hassemble).2.1.symm, hassemble⟩

theorem length_commands (r : Registry) : r.commands.length = r.recipes.length := by
  simpa using (congrArg List.length r.map_assemble_recipes).symm

/-- A defect stays what it is when recipes are added: it stands in front of them. -/
theorem build_append_of_error {d : Defect} (h : build cs rs = .error d) (qs : List Recipe) :
    build cs (rs ++ qs) = .error d := by
  rw [build_eq_error_iff] at h ⊢
  rcases h with repeated | ⟨distinct, i, first⟩
  · exact .inl repeated
  · exact .inr ⟨distinct, i, first.append qs⟩

/-- A catalog of a new name fits beside those that are there. -/
theorem exists_build_append_catalog {r : Registry} {c : Catalog} (h : build cs rs = .ok r)
    (unused : ∀ d ∈ cs, d.name ≠ c.name) : ∃ r', build (cs ++ [c]) rs = .ok r' := by
  obtain ⟨hcs, hrs, hall⟩ := exists_build_iff.1 ⟨r, h⟩
  refine exists_build_iff.2 ⟨?_, hrs, ?_⟩
  · simpa [List.nodup_append, hcs] using unused
  · intro q hq
    obtain ⟨set, hset⟩ := hall q hq
    exact ⟨set, Recipe.assemble_append_of_ok [c] hset⟩

/-- **What a registry holds is not disturbed by what is added to it.**  Further recipes
leave catalogs, recipes and commands in place, a catalog of a new name leaves every command
as it is, and a defect stays the same defect. -/
theorem Builder.build_undisturbed (b : Builder) :
    (∀ r, b.build = .ok r →
      (∀ (qs : List Recipe) r', (qs.foldl command b).build = .ok r' →
        r'.catalogs = r.catalogs ∧ r.recipes <+: r'.recipes ∧ r.commands <+: r'.commands ∧
          ∀ c ∈ r.commands, ∀ token, r'.resolve c.name token = r.resolve c.name token) ∧
      ∀ c : Catalog, (∀ d ∈ b.catalogs, d.name ≠ c.name) →
        ∃ r', (b.catalog c).build = .ok r' ∧ r'.catalogs = r.catalogs ++ [c] ∧
          r'.recipes = r.recipes ∧ r'.commands = r.commands) ∧
      ∀ d, b.build = .error d → ∀ qs : List Recipe, (qs.foldl command b).build = .error d := by
  refine ⟨fun r hr => ⟨?_, ?_⟩, ?_⟩
  · intro qs r' hr'
    rw [foldl_command] at hr'
    have larger := extends_of_build hr hr' List.prefix_rfl (List.prefix_append _ _)
    have same : r'.catalogs = r.catalogs :=
      (build_eq_ok_iff.1 hr').1.trans (build_eq_ok_iff.1 hr).1.symm
    refine ⟨same, larger.recipes, larger.commands, ?_⟩
    intro c hc token
    exact larger.resolve_eq (command_eq_ok_of_mem hc) token
  · intro c unused
    obtain ⟨r', hr'⟩ := exists_build_append_catalog hr unused
    have larger := extends_of_build hr hr' (List.prefix_append _ _) List.prefix_rfl
    obtain ⟨hcs, hrs⟩ := build_eq_ok_iff.1 hr
    obtain ⟨hcs', hrs'⟩ := build_eq_ok_iff.1 hr'
    refine ⟨r', hr', by rw [hcs, hcs'], by rw [hrs, hrs'], ?_⟩
    refine (larger.commands.eq_of_length ?_).symm
    rw [length_commands, length_commands, hrs, hrs']
  · intro d hd qs
    rw [foldl_command]
    exact build_append_of_error hd qs

/-- A builder with one catalog and one command. -/
def Builder.ofRepl : Builder :=
  (empty.catalog ⟨"base",
    [⟨"WORKING_DIR", "base", ⟨"--working-dir", some "-w", by decide, by rintro s ⟨⟩; decide⟩⟩],
    List.pairwise_singleton _ _⟩).command ⟨"repl", ["base"], []⟩

theorem Builder.build_undisturbed_ofRepl :
    (∃ r r', ofRepl.build = .ok r ∧
      ([⟨"build", [], [⟨"base", "WORKING_DIR"⟩]⟩].foldl command ofRepl).build = .ok r' ∧
      r.commands <+: r'.commands) ∧
      ([⟨"repl", [], []⟩, ⟨"lint", ["test"], []⟩].foldl command ofRepl).build =
        .error (.repeatedCommand "repl") := by
  have hok : ofRepl.build.isOk = true ∧
      ([⟨"build", [], [⟨"base", "WORKING_DIR"⟩]⟩].foldl command ofRepl).build.isOk = true := by
    decide +kernel
  have hrepeated : (ofRepl.command ⟨"repl", [], []⟩).build.map (·.recipes) =
      .error (.repeatedCommand "repl") := by
    decide +kernel
  refine ⟨?_, ?_⟩
  · cases h : ofRepl.build with
    | error d => rw [h] at hok; cases hok.1
    | ok r =>
        cases h' : ([⟨"build", [], [⟨"base", "WORKING_DIR"⟩]⟩].foldl command ofRepl).build with
        | error d => rw [h'] at hok; cases hok.2
        | ok r' => exact ⟨r, r', rfl, rfl, (((build_undisturbed ofRepl).1 r h).1 _ r' h').2.2.1⟩
  · cases h : (ofRepl.command ⟨"repl", [], []⟩).build with
    | ok r => rw [h] at hrepeated; cases hrepeated
    | error d =>
        rw [h] at hrepeated
        cases hrepeated
        exact (build_undisturbed _).2 _ h [⟨"lint", ["test"], []⟩]

end Registry

end OptionAtlas
