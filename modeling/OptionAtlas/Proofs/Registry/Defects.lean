import OptionAtlas.Builder
import OptionAtlas.Proofs.Catalog.Clash
import OptionAtlas.Proofs.Registry.Resolution

/-!
# The first defect of a registry

A registry that cannot be built is refused for one defect. A repeated catalog name comes
before everything else; after that the first recipe with a flaw decides, and what is wrong
with it depends on nothing but the recipe, the catalogs and the names of the recipes in
front. Within a recipe the name is looked at first, then the catalogs it takes, then its
picks, and last whether the flags it takes can stand side by side.

## Main definitions

* `Recipe.Gathers` — the entries that a recipe takes, in their order.
* `Pick.Dangling`, `Recipe.Flawed` — what is wrong with a pick, and with a recipe.

## Main statements

* `Recipe.assemble_eq_error_iff` — the flaws of a recipe keep it from being assembled.
* `Recipe.assembleAll_eq_error_iff`, `firstRepeat?_eq_some_iff` — the first recipe with a
  flaw, and the first name that repeats.
* `Registry.build_eq_error_iff` — the defect of a registry.
-/

namespace OptionAtlas

/-! ## What is wrong with a recipe -/

/-- The pick refers to nothing: no catalog has its name, or the catalog that does lacks
the key. -/
inductive Pick.Dangling (cs : List Catalog) (p : Pick) : Defect → Prop where
  | catalog (undeclared : ∀ c ∈ cs, c.name ≠ p.catalog) :
      Dangling cs p (.unknownCatalog p.catalog)
  | key {c : Catalog} (declared : c ∈ cs) (named : c.name = p.catalog)
      (missing : ∀ e ∈ c.entries, e.key ≠ p.key) : Dangling cs p (.unknownKey p.key p.catalog)

namespace Recipe

/-- The recipe gathers the entries `es`: those of its catalogs and then those under its
picks, in the order in which it names them. -/
def Gathers (cs : List Catalog) (q : Recipe) (es : List Entry) : Prop :=
  ∃ (whole : List Catalog) (picked : List Entry),
    List.Forall₂ (fun n c => c ∈ cs ∧ c.name = n) q.catalogs whole ∧
      List.Forall₂ (fun (p : Pick) e =>
        ∃ c ∈ cs, c.name = p.catalog ∧ e ∈ c.entries ∧ e.key = p.key) q.picks picked ∧
      es = whole.flatMap (·.entries) ++ picked

/-- What is wrong with a recipe that follows the commands named in `earlier`. Every flaw
supposes that there is none of the kinds before it. -/
inductive Flawed (cs : List Catalog) (earlier : List String) (q : Recipe) : Defect → Prop where
  | repeated (taken : q.name ∈ earlier) : Flawed cs earlier q (.repeatedCommand q.name)
  | catalog {before after : List String} {n : String} (fresh : q.name ∉ earlier)
      (split : q.catalogs = before ++ n :: after)
      (declared : ∀ m ∈ before, ∃ c ∈ cs, c.name = m)
      (undeclared : ∀ c ∈ cs, c.name ≠ n) : Flawed cs earlier q (.unknownCatalog n)
  | pick {before after : List Pick} {p : Pick} {d : Defect} (fresh : q.name ∉ earlier)
      (declared : ∀ n ∈ q.catalogs, ∃ c ∈ cs, c.name = n)
      (split : q.picks = before ++ p :: after)
      (sound : ∀ p' ∈ before, ∀ d', ¬ p'.Dangling cs d') (dangling : p.Dangling cs d) :
      Flawed cs earlier q d
  | clash {es : List Entry} {i : Nat} {e : Entry} {d : Defect} (fresh : q.name ∉ earlier)
      (gathers : q.Gathers cs es) (clash : Catalog.FirstClash q.name es i e d) :
      Flawed cs earlier q d

end Recipe

/-! ## One recipe -/

section Recipes

variable {cs : List Catalog} (distinct : (cs.map (·.name)).Nodup)
include distinct

theorem Pick.entry_eq_error_iff {p : Pick} {d : Defect} :
    p.entry cs = .error d ↔ p.Dangling cs d := by
  rw [Pick.entry, bind_eq_error_iff]
  simp only [findCatalog_eq_error_iff, findCatalog_eq_ok_iff distinct, Catalog.entry_eq_error_iff]
  constructor
  · rintro (⟨rfl, undeclared⟩ | ⟨c, ⟨declared, named⟩, rfl, missing⟩)
    · exact .catalog undeclared
    · rw [named]
      exact .key declared named missing
  · intro h
    cases h with
    | catalog undeclared => exact .inl ⟨rfl, undeclared⟩
    | @key c declared named missing => exact .inr ⟨c, ⟨declared, named⟩, by rw [named], missing⟩

namespace Recipe

variable {q : Recipe} {es : List Entry} {d : Defect}

theorem entries_eq_ok_iff_gathers : q.entries cs = .ok es ↔ q.Gathers cs es := by
  simp only [entries_eq_ok_iff, Gathers, map_eq_map_ok_iff_forall₂,
    findCatalog_eq_ok_iff distinct, Pick.entry_eq_ok_iff distinct, eq_comm (a := es)]

theorem entries_eq_error_iff :
    q.entries cs = .error d ↔
      (∃ before n after, q.catalogs = before ++ n :: after ∧
        (∀ m ∈ before, ∃ c ∈ cs, c.name = m) ∧
          d = .unknownCatalog n ∧ ∀ c ∈ cs, c.name ≠ n) ∨
      (∀ n ∈ q.catalogs, ∃ c ∈ cs, c.name = n) ∧
        ∃ before p after, q.picks = before ++ p :: after ∧
          (∀ p' ∈ before, ∀ d', ¬ p'.Dangling cs d') ∧ p.Dangling cs d := by
  have hpure : ∀ es : List Entry, (pure es : Except Defect (List Entry)) ≠ .error d := nofun
  have hpick : ∀ p, (∃ e, Pick.entry cs p = .ok e) ↔ ∀ d', ¬ p.Dangling cs d' := by
    intro p
    simp only [exists_eq_ok_iff, ne_eq, Pick.entry_eq_error_iff distinct]
  simp only [entries, bind_eq_error_iff, hpure, and_false, exists_false, or_false,
    exists_and_right, exists_mapM_eq_ok_iff, mapM_eq_error_iff, hpick,
    findCatalog_eq_error_iff, findCatalog_eq_ok_iff distinct, Pick.entry_eq_error_iff distinct]

/-- The flaws of a recipe are what keeps it from being assembled. -/
theorem assemble_eq_error_iff {earlier : List String} :
    q.assemble cs earlier = .error d ↔ q.Flawed cs earlier d := by
  rw [assemble]
  by_cases hmem : q.name ∈ earlier
  · simp only [hmem, if_true, throw, throwThe, MonadExceptOf.throw, bind, Except.bind,
      Except.error.injEq]
    constructor
    · rintro rfl
      exact .repeated hmem
    · intro h
      cases h with
      | repeated => rfl
      | catalog fresh => exact absurd hmem fresh
      | pick fresh => exact absurd hmem fresh
      | clash fresh => exact absurd hmem fresh
  · simp only [hmem, if_false, bind_eq_error_iff, entries_eq_error_iff distinct,
      entries_eq_ok_iff_gathers distinct, Catalog.ofEntries_eq_error_iff_firstClash]
    constructor
    · rintro ((⟨before, n, after, split, declared, rfl, undeclared⟩ |
        ⟨declared, before, p, after, split, sound, dangling⟩) | ⟨es, gathers, i, e, clash⟩)
      · exact .catalog hmem split declared undeclared
      · exact .pick hmem declared split sound dangling
      · exact .clash hmem gathers clash
    · intro h
      cases h with
      | repeated taken => exact absurd taken hmem
      | catalog _ split declared undeclared =>
          exact .inl (.inl ⟨_, _, _, split, declared, rfl, undeclared⟩)
      | pick _ declared split sound dangling =>
          exact .inl (.inr ⟨declared, _, _, _, split, sound, dangling⟩)
      | clash _ gathers clash => exact .inr ⟨_, gathers, _, _, clash⟩

/-- The first recipe with a flaw decides. Every step adds one name to those in front. -/
theorem assembleAll_eq_error_iff {earlier : List String} {rs : List Recipe} :
    assembleAll cs earlier rs = .error d ↔
      ∃ i, FirstAt (fun before q => q.Flawed cs (earlier ++ before.map (·.name))) rs i d := by
  have hpure : ∀ set : List Catalog, (pure set : Except Defect (List Catalog)) ≠ .error d := nofun
  induction rs generalizing earlier with
  | nil => simp [assembleAll]
  | cons q rs ih =>
      rw [exists_firstAt_cons_iff]
      simp only [assembleAll, bind_eq_error_iff, hpure, and_false, exists_false, or_false, ih,
        exists_and_right, exists_eq_ok_iff, ne_eq, assemble_eq_error_iff distinct,
        List.map_nil, List.append_nil, List.map_cons, List.append_assoc, List.singleton_append]

/-- What is wrong with a recipe is one thing. -/
theorem Flawed.unique {earlier : List String} {d' : Defect} (h : q.Flawed cs earlier d)
    (h' : q.Flawed cs earlier d') : d = d' := by
  rw [← assemble_eq_error_iff distinct] at h h'
  exact Except.error.inj (h.symm.trans h')

omit distinct in
theorem Flawed.ne_repeatedCatalog {earlier : List String} (h : q.Flawed cs earlier d)
    (n : String) : d ≠ .repeatedCatalog n := by
  rintro rfl
  cases h with
  | pick _ _ _ _ dangling => cases dangling
  | clash _ _ clash => cases clash.clash

end Recipe

end Recipes

/-! ## The whole registry -/

/-- The name stands in the list already. -/
def Repeats (before : List String) (name repeated : String) : Prop :=
  name ∈ before ∧ repeated = name

theorem firstRepeat?_eq_some_iff {seen ns : List String} {n : String} :
    firstRepeat? seen ns = some n ↔
      ∃ i, FirstAt (fun before => Repeats (seen ++ before)) ns i n := by
  induction ns generalizing seen with
  | nil => simp [firstRepeat?]
  | cons m ns ih =>
      rw [firstRepeat?, exists_firstAt_cons_iff]
      by_cases hmem : m ∈ seen
      · simp [hmem, Repeats, eq_comm]
      · simp [hmem, Repeats, ih]

theorem firstRepeat?_nil_eq_some_iff {ns : List String} {n : String} :
    firstRepeat? [] ns = some n ↔ ∃ i, FirstAt Repeats ns i n :=
  firstRepeat?_eq_some_iff

/-- A name repeats somewhere exactly when the names are not distinct. -/
theorem exists_firstAt_repeats_iff {ns : List String} :
    (∃ n i, FirstAt Repeats ns i n) ↔ ¬ ns.Nodup := by
  simp only [← firstRepeat?_nil_eq_some_iff, ← firstRepeat?_nil_eq_none_iff, ← ne_eq,
    Option.ne_none_iff_exists']

namespace Registry

variable {cs : List Catalog} {rs : List Recipe} {d : Defect}

/-- A registry is refused for the first catalog whose name repeats, whatever the recipes
are, or else for the first recipe with a flaw. -/
theorem build_eq_error_iff :
    build cs rs = .error d ↔
      (∃ n, (∃ i, FirstAt Repeats (cs.map (·.name)) i n) ∧ d = .repeatedCatalog n) ∨
        (cs.map (·.name)).Nodup ∧
          ∃ i, FirstAt (fun before q => q.Flawed cs (before.map (·.name))) rs i d := by
  have hassemble : build cs rs = .error d ↔ assembleCommands cs rs = .error d := by
    rw [← map_commands_build]
    cases build cs rs <;> simp [Functor.map, Except.map]
  rw [hassemble, assembleCommands, ← firstRepeat?_nil_eq_none_iff]
  simp only [← firstRepeat?_nil_eq_some_iff]
  cases h : firstRepeat? [] (cs.map (·.name)) with
  | some n => simp [eq_comm]
  | none => simp [Recipe.assembleAll_eq_error_iff (firstRepeat?_nil_eq_none_iff.1 h)]

theorem build_eq_repeatedCatalog_iff {n : String} :
    build cs rs = .error (.repeatedCatalog n) ↔
      ∃ i, FirstAt Repeats (cs.map (·.name)) i n := by
  rw [build_eq_error_iff]
  constructor
  · rintro (⟨_, first, ⟨⟩⟩ | ⟨_, _, _, _, flawed, _⟩)
    · exact first
    · exact absurd rfl (flawed.ne_repeatedCatalog n)
  · intro first
    exact .inl ⟨n, first, rfl⟩

theorem build_eq_error_iff_of_nodup (distinct : (cs.map (·.name)).Nodup) :
    build cs rs = .error d ↔
      ∃ i, FirstAt (fun before q => q.Flawed cs (before.map (·.name))) rs i d := by
  rw [build_eq_error_iff]
  constructor
  · rintro (⟨n, first, _⟩ | ⟨_, flawed⟩)
    · exact absurd distinct (exists_firstAt_repeats_iff.1 ⟨n, first⟩)
    · exact flawed
  · intro flawed
    exact .inr ⟨distinct, flawed⟩

/-- A registry is built when catalogs are distinct and no recipe has a flaw. -/
theorem exists_build_iff_forall_not_flawed :
    (∃ r, build cs rs = .ok r) ↔
      (cs.map (·.name)).Nodup ∧ ∀ i (q : Recipe), rs[i]? = some q →
        ∀ d, ¬ q.Flawed cs ((rs.take i).map (·.name)) d := by
  rw [exists_eq_ok_iff]
  by_cases distinct : (cs.map (·.name)).Nodup
  · simp only [ne_eq, build_eq_error_iff_of_nodup distinct, distinct, true_and]
    rw [← not_exists, exists_firstAt_iff]
    simp only [not_exists, not_and]
    exact forall₂_congr fun _ _ => ⟨fun h hq d => h d hq, fun h d hq => h hq d⟩
  · obtain ⟨n, hn⟩ := exists_firstAt_repeats_iff.2 distinct
    simp only [distinct, false_and, iff_false, not_forall, not_not]
    exact ⟨.repeatedCatalog n, build_eq_repeatedCatalog_iff.2 hn⟩

/-- **A registry is refused for its first defect.**  That is the first catalog whose name
an earlier one has, whatever is wrong with the recipes, or else what is wrong with the
first recipe that has a flaw. This is one thing, which the recipe, the names in front of it
and the catalogs decide. -/
theorem Builder.build_by_first_defect (b : Builder) :
    ((∃ n, b.build = .error (.repeatedCatalog n)) ↔ ¬ (b.catalogs.map (·.name)).Nodup) ∧
      (∀ n, b.build = .error (.repeatedCatalog n) ↔
        ∃ i, FirstAt Repeats (b.catalogs.map (·.name)) i n) ∧
      ((b.catalogs.map (·.name)).Nodup →
        (∀ d, b.build = .error d ↔
          ∃ i, FirstAt (fun before q => q.Flawed b.catalogs (before.map (·.name)))
            b.recipes i d) ∧
        ∀ earlier (q : Recipe) d d', q.Flawed b.catalogs earlier d →
          q.Flawed b.catalogs earlier d' → d = d') ∧
      ((∃ r, b.build = .ok r) ↔
        (b.catalogs.map (·.name)).Nodup ∧ ∀ i (q : Recipe), b.recipes[i]? = some q →
          ∀ d, ¬ q.Flawed b.catalogs ((b.recipes.take i).map (·.name)) d) := by
  refine ⟨?_, fun _ => build_eq_repeatedCatalog_iff, fun distinct => ⟨?_, ?_⟩,
    exists_build_iff_forall_not_flawed⟩
  · rw [← exists_firstAt_repeats_iff]
    exact exists_congr fun _ => build_eq_repeatedCatalog_iff
  · intro d
    exact build_eq_error_iff_of_nodup distinct
  · intro earlier q d d' h h'
    exact Recipe.Flawed.unique distinct h h'

/-- A builder of three commands. The second one names catalogs that nobody declares, and
the third repeats the first. -/
def Builder.ofStrays : Builder :=
  ((empty.command ⟨"run", [], []⟩).command ⟨"lint", ["base"], [⟨"test", "WATCH"⟩]⟩).command
    ⟨"run", [], []⟩

theorem Builder.build_by_first_defect_ofStrays :
    (ofStrays.catalogs.map (·.name)).Nodup ∧
      ofStrays.build = .error (.unknownCatalog "base") ∧
      ∀ d, (⟨"lint", ["base"], [⟨"test", "WATCH"⟩]⟩ : Recipe).Flawed [] ["run"] d →
        d = .unknownCatalog "base" := by
  have distinct : (ofStrays.catalogs.map (·.name)).Nodup := List.nodup_nil
  have flawed : (⟨"lint", ["base"], [⟨"test", "WATCH"⟩]⟩ : Recipe).Flawed [] ["run"]
      (.unknownCatalog "base") :=
    .catalog (by decide) (List.nil_append _).symm nofun nofun
  have sound : ∀ d, ¬ (⟨"run", [], []⟩ : Recipe).Flawed ofStrays.catalogs [] d := by
    intro d h
    rw [← Recipe.assemble_eq_error_iff distinct] at h
    cases h
  obtain ⟨hbuild, unique⟩ := (build_by_first_defect ofStrays).2.2.1 distinct
  refine ⟨distinct, (hbuild _).2 ⟨1, _, rfl, flawed, ?_⟩, fun d h => unique _ _ _ _ h flawed⟩
  intro j hj q hq
  obtain rfl : j = 0 := by omega
  cases hq
  exact sound

end Registry

end OptionAtlas
