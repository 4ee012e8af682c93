import OptionAtlas.Proofs.Table.Acceptance

/-!
# Where a flag was declared

A catalog that is read from a table declares all its entries itself, and commands take
entries over as they are. So the group of an answer is the name of one registered catalog,
this catalog holds the very entry under its key and by its spellings, and the recipe of
the command refers to it there, by the whole catalog or by a pick.

## Main statements

* `Table.group_eq_name`, `Table.catalog_group_eq_ok` — the group of an entry leads to the
  catalog that holds it.
* `Recipe.takes_iff_of_group` — what a recipe takes, by the groups of the entries.
-/

namespace OptionAtlas

variable {c : Catalog} {e : Entry}

/-- A recipe takes an entry from its own catalog when it refers to the group of the entry. -/
theorem Recipe.takes_iff_of_group {q : Recipe} (hgroup : e.group = c.name) :
    q.Takes c e ↔
      e ∈ c.entries ∧ (e.group ∈ q.catalogs ∨ ⟨e.group, e.key⟩ ∈ q.picks) := by
  rw [Takes, hgroup]

namespace Table

variable {t : Table} {r : Registry}

theorem group_eq_name (h : t.toRegistry = .ok r) (hc : c ∈ r.catalogs) (he : e ∈ c.entries) :
    e.group = c.name := by
  obtain ⟨_, _, native, _⟩ := toRegistry_eq_ok_iff.1 h
  exact native c hc e he

/-- The group of an entry leads to the one catalog that holds it. -/
theorem catalog_group_eq_ok (h : t.toRegistry = .ok r) (hc : c ∈ r.catalogs)
    (he : e ∈ c.entries) : r.catalog e.group = .ok c :=
  (findCatalog_eq_ok_iff r.nodup_catalogs).2 ⟨hc, (group_eq_name h hc he).symm⟩

/-- **An answer leads back to its declaration.**  A command resolves a token to an entry
exactly when the catalog that the entry names as its group holds it under its key and
resolves the token to it, and the recipe of the command lists this catalog or picks the
entry from it. -/
theorem resolve_eq_some_iff_declared (h : t.toRegistry = .ok r) (command token : String)
    (e : Entry) :
    r.resolve command token = .ok (some e) ↔
      (∃ c, r.catalog e.group = .ok c ∧ c.entry e.key = .ok e ∧ c.resolve token = some e) ∧
        (∃ q ∈ r.recipes, q.name = command) ∧
        ∀ q ∈ r.recipes, q.name = command →
          e.group ∈ q.catalogs ∨ ⟨e.group, e.key⟩ ∈ q.picks := by
  rw [Registry.resolve_eq_some_iff]
  constructor
  · rintro ⟨htoken, q, hq, hname, c, hc, htakes⟩
    have he := htakes.1
    rw [Recipe.takes_iff_of_group (group_eq_name h hc he)] at htakes
    refine ⟨⟨c, catalog_group_eq_ok h hc he, Catalog.entry_eq_ok_iff.2 ⟨he, rfl⟩,
      Catalog.resolve_eq_some_iff.2 ⟨he, htoken⟩⟩, ⟨q, hq, hname⟩, ?_⟩
    intro q' hq' hname'
    rw [Registry.eq_of_name_eq hq' hq (hname'.trans hname.symm)]
    exact htakes.2
  · rintro ⟨⟨c, hcatalog, hentry, hresolve⟩, ⟨q, hq, hname⟩, hrefers⟩
    obtain ⟨hc, _⟩ := (findCatalog_eq_ok_iff r.nodup_catalogs).1 hcatalog
    obtain ⟨he, htoken⟩ := Catalog.resolve_eq_some_iff.1 hresolve
    refine ⟨htoken, q, hq, hname, c, hc, ?_⟩
    rw [Recipe.takes_iff_of_group (group_eq_name h hc he)]
    exact ⟨he, hrefers q hq hname⟩

theorem resolve_eq_some_iff_declared_clashingTable :
    ∃ r e c, clashingTable.toRegistry = .ok r ∧ r.resolve "build" "-w" = .ok (some e) ∧
      e.group = "base" ∧ r.catalog "base" = .ok c ∧ c.entry e.key = .ok e ∧
      c.resolve "-w" = some e := by
  have hgroup : clashingTable.toRegistry.map
      (fun r => (r.resolve "build" "-w").map (Option.map (·.group))) =
        .ok (.ok (some "base")) := by
    decide +kernel
  cases h : clashingTable.toRegistry with
  | error d => rw [h] at hgroup; cases hgroup
  | ok r =>
      rw [h] at hgroup
      have hgroup : (r.resolve "build" "-w").map (Option.map (·.group)) = .ok (some "base") :=
        Except.ok.inj hgroup
      cases hanswer : r.resolve "build" "-w" with
      | error d => rw [hanswer] at hgroup; cases hgroup
      | ok answer =>
          rw [hanswer] at hgroup
          obtain ⟨e, rfl, he⟩ := Option.map_eq_some_iff.1 (Except.ok.inj hgroup)
          obtain ⟨⟨c, hc, hentry, hresolve⟩, _⟩ :=
            (resolve_eq_some_iff_declared h "build" "-w" e).1 hanswer
          exact ⟨r, e, c, rfl, hanswer, he, he ▸ hc, hentry, hresolve⟩

end Table

end OptionAtlas
