import OptionAtlas.Proofs.Registry.Defects
import OptionAtlas.Proofs.Table.Acceptance

/-!
# Tables and builders

A table says at once what builders are told step by step, and both lead to the same
registry or to the same defect. Names are the first thing that is checked in a catalog:
a flag that breaks the grammar is reported before anything that is declared twice
beside it, wherever it stands.

## Main definitions

* `Table.registryByBuilders` — the registry of a table, put together by builders.
* `Table.FirstMisnamed` — the first flag of a table that breaks the grammar.
* `TrustsNames` — checks that find no fault with the names of a flag.

## Main statements

* `Catalog.Builder.build_flagAll` — a catalog built flag by flag.
* `TrustsNames.build` — no registry is refused for the names of a flag.
* `Table.registryByBuilders_eq_invalidFlag_iff` — which flag is reported.
-/

namespace OptionAtlas

/-! ## Builders -/

namespace Catalog.Builder

variable {name : String} {flags : List (String × Flag)} {d : Declaration}

theorem flagAll_of_spoiled {b : Builder} {e : Defect} (h : b.defect = some e)
    (ds : List Declaration) : b.flagAll ds = b := by
  induction ds with
  | nil => rfl
  | cons d ds ih =>
      have hflag : b.flag d = b := by rw [flag, h]
      rw [flagAll, List.foldl_cons, hflag]
      exact ih

theorem flag_of_ok {f : String × Flag} (h : d.flag name = .ok f) :
    flag ⟨name, flags, none⟩ d = ⟨name, flags ++ [f], none⟩ := by
  rw [Declaration.flag] at h
  rw [flag]
  cases hf : Flag.ofNames d.long d.short with
  | ok g => rw [hf] at h; cases h; rfl
  | error e => rw [hf] at h; cases h

theorem flag_of_error {e : Defect} (h : d.flag name = .error e) :
    flag ⟨name, flags, none⟩ d = ⟨name, flags, some e⟩ := by
  rw [Declaration.flag] at h
  rw [flag]
  cases hf : Flag.ofNames d.long d.short with
  | ok g => rw [hf] at h; cases h
  | error e => rw [hf] at h; cases h; rfl

/-- The builder keeps the flags that a run over the declarations yields, behind those it
has, or the defect that stops the run. -/
theorem declared_flagAll (ds : List Declaration) :
    (flagAll ⟨name, flags, none⟩ ds).declared =
      match ds.mapM (Declaration.flag name) with
      | .ok fs => .ok (flags ++ fs)
      | .error e => .error e := by
  induction ds generalizing flags with
  | nil =>
      change Except.ok flags = Except.ok (flags ++ [])
      rw [List.append_nil]
  | cons d ds ih =>
      rw [flagAll, List.foldl_cons, ← flagAll, List.mapM_cons]
      cases hd : d.flag name with
      | ok f =>
          rw [flag_of_ok hd, ih]
          cases ds.mapM (Declaration.flag name) <;> simp [bind, Except.bind, pure, Except.pure]
      | error e =>
          rw [flag_of_error hd, flagAll_of_spoiled rfl]
          rfl

/-- A catalog built flag by flag is the one that is declared at once. -/
theorem build_flagAll (name : String) (ds : List Declaration) :
    ((start name).flagAll ds).build = declare name ds := by
  have hname : ((start name).flagAll ds).name = name := name_flagAll _ _
  rw [build, hname, start, declared_flagAll, declare]
  cases ds.mapM (Declaration.flag name) <;> rfl

end Catalog.Builder

/-! ## Checks that trust names -/

/-- The defect is a flag whose names break the grammar. -/
def Defect.blamesNames : Defect → Bool
  | .invalidFlag .. => true
  | _ => false

/-- The check finds no fault with the names of a flag. -/
def TrustsNames {α : Type} (x : Except Defect α) : Prop :=
  ∀ d, x = .error d → d.blamesNames = false

namespace TrustsNames

theorem ofEntries (name : String) (es : List Entry) : TrustsNames (Catalog.ofEntries name es) := by
  intro d h
  obtain ⟨_, _, first⟩ := Catalog.ofEntries_eq_error_iff_firstClash.1 h
  cases first.clash <;> rfl

/-- Catalogs hold flags whose names are checked already. -/
theorem build (cs : List Catalog) (qs : List Recipe) : TrustsNames (Registry.build cs qs) := by
  intro d h
  obtain ⟨_, _, rfl⟩ | ⟨_, _, _, _, flawed, _⟩ := Registry.build_eq_error_iff.1 h
  · rfl
  · cases flawed with
    | repeated => rfl
    | catalog => rfl
    | pick _ _ _ _ dangling => cases dangling <;> rfl
    | clash _ _ clash => cases clash.clash <;> rfl

end TrustsNames

/-! ## Names that break the grammar -/

namespace Catalog

variable {name : String} {d : Declaration} {ds : List Declaration} {e : Defect}

theorem Declaration.exists_flag_iff : (∃ f, d.flag name = .ok f) ↔ d.WellNamed := by
  constructor
  · intro h
    rcases h with ⟨f, hf⟩
    rw [← Declaration.flag_eq_ok_iff.1 hf]
    exact ⟨f.2.longName, fun _ hs => f.2.shortName hs⟩
  · intro h
    obtain ⟨f, hf⟩ := Flag.exists_ofNames_iff.2 ⟨h.long, h.short⟩
    exact ⟨(d.key, f), by rw [flag, hf]⟩

/-- A declaration is refused for the first rule that its names break, with the place
where it stands. -/
theorem Declaration.flag_eq_error_iff :
    d.flag name = .error e ↔
      ∃ rule, Flag.brokenRule? d.long d.short = some rule ∧
        e = .invalidFlag d.long d.short rule.reason (some d.key) (some name) := by
  rw [flag, Flag.ofNames]
  split
  next f hf =>
    split at hf
    next => cases hf
    next hnone => simp [hnone]
  next e' he =>
    split at he
    next rule hrule =>
      cases he
      simp [hrule, eq_comm]
    next => cases he

/-- A catalog is refused for a misnamed flag if there is one, and then for the first. -/
theorem declare_eq_error_iff_of_blamesNames (h : e.blamesNames = true) :
    declare name ds = .error e ↔
      ∃ before d after, ds = before ++ d :: after ∧ (∀ b ∈ before, b.WellNamed) ∧
        d.flag name = .error e := by
  have trusts : ∀ fs, ofFlags name fs ≠ .error e := by
    intro fs hfs
    rw [TrustsNames.ofEntries name _ e hfs] at h
    cases h
  simp only [declare, bind_eq_error_iff, trusts, and_false, exists_false, or_false,
    mapM_eq_error_iff, Declaration.exists_flag_iff]

end Catalog

namespace Table

open Catalog (Declaration)

/-- The catalog of a section, built flag by flag. -/
def Section.built (s : Section) : Except Defect Catalog :=
  ((Catalog.Builder.start s.name).flagAll s.flags).build

/-- The registry of a table, put together by builders: the catalogs are built in their
order up to the first defect, then catalogs and commands are handed over one by one. -/
def registryByBuilders (t : Table) : Except Defect Registry := do
  let cs ← t.catalogs.mapM Section.built
  (t.commands.foldl Registry.Builder.command (cs.foldl Registry.Builder.catalog .empty)).build

/-- The flag `d` in the section `s` breaks the grammar. In front of it stand only flags
that follow it, and in front of `s` only sections without a defect. -/
def FirstMisnamed (t : Table) (s : Section) (d : Declaration) (rule : NameRule) : Prop :=
  ∃ before after, t.catalogs = before ++ s :: after ∧
    (∀ b ∈ before, (∀ f ∈ b.flags, f.WellNamed) ∧ Clear b.flags) ∧
    ∃ front rest, s.flags = front ++ d :: rest ∧ (∀ f ∈ front, f.WellNamed) ∧
      Flag.brokenRule? d.long d.short = some rule

variable {t : Table}

theorem registryByBuilders_eq (t : Table) :
    t.registryByBuilders = t.builtCatalogs >>= fun cs => Registry.build cs t.commands := by
  have hbuilt : Section.built = fun s => Catalog.declare s.name s.flags :=
    funext fun s => Catalog.Builder.build_flagAll s.name s.flags
  simp only [registryByBuilders, Registry.Builder.build_foldl, hbuilt, builtCatalogs]

/-- A table is refused for a misnamed flag if the first section with a defect has one,
and then for the first in this section. -/
theorem registryByBuilders_eq_invalidFlag_iff {long : String} {short : Option String}
    {reason : String} {key catalog : Option String} :
    t.registryByBuilders = .error (.invalidFlag long short reason key catalog) ↔
      ∃ s d rule, t.FirstMisnamed s d rule ∧ long = d.long ∧ short = d.short ∧
        reason = rule.reason ∧ key = some d.key ∧ catalog = some s.name := by
  rw [registryByBuilders_eq, bind_eq_error_iff, builtCatalogs, mapM_eq_error_iff]
  constructor
  · intro h
    rcases h with ⟨before, s, after, hsections, declared, hs⟩ | ⟨cs, _, hbuild⟩
    · obtain ⟨front, d, rest, hflags, named, hd⟩ :=
        (Catalog.declare_eq_error_iff_of_blamesNames rfl).1 hs
      obtain ⟨rule, hrule, heq⟩ := Declaration.flag_eq_error_iff.1 hd
      obtain ⟨rfl, rfl, rfl, rfl, rfl⟩ := Defect.invalidFlag.inj heq
      have first : t.FirstMisnamed s d rule :=
        ⟨before, after, hsections, fun b hb => exists_declare_iff.1 (declared b hb),
          front, rest, hflags, named, hrule⟩
      exact ⟨s, d, rule, first, rfl, rfl, rfl, rfl, rfl⟩
    · cases TrustsNames.build cs t.commands _ hbuild
  · intro h
    rcases h with ⟨s, d, rule, ⟨before, after, hsections, declared, front, rest, hflags, named,
      hrule⟩, rfl, rfl, rfl, rfl, rfl⟩
    refine .inl ⟨before, s, after, hsections, fun b hb => exists_declare_iff.2 (declared b hb), ?_⟩
    exact (Catalog.declare_eq_error_iff_of_blamesNames rfl).2
      ⟨front, d, rest, hflags, named, Declaration.flag_eq_error_iff.2 ⟨rule, hrule, rfl⟩⟩

/-- **Tables and builders agree, defects included.**  A version that is not known is
reported before anything else is looked at. Otherwise a table is read as if builders
were told its contents in order. A misnamed flag is reported with its key and catalog,
and only the flags and sections in front of it can keep it from being reported: not what
is declared twice in its own section. -/
theorem toRegistry_eq_registryByBuilders (t : Table) :
    t.toRegistry =
        (if t.version.toList.takeWhile (· != '.') = ['1'] then
          t.registryByBuilders.mapError .defect
        else .error (.unsupportedVersion t.version)) ∧
      ∀ long short reason key catalog,
        (t.registryByBuilders = .error (.invalidFlag long short reason key catalog) ↔
          ∃ s d rule, t.FirstMisnamed s d rule ∧ long = d.long ∧ short = d.short ∧
            reason = rule.reason ∧ key = some d.key ∧ catalog = some s.name) := by
  refine ⟨?_, fun _ _ _ _ _ => registryByBuilders_eq_invalidFlag_iff⟩
  rw [registryByBuilders_eq, toRegistry, supported]
  by_cases hversion : t.version.toList.takeWhile (· != '.') = ['1']
  · rw [if_pos (by simpa using hversion), if_pos hversion]
    cases t.builtCatalogs >>= fun cs => Registry.build cs t.commands <;> rfl
  · rw [if_neg (by simpa using hversion), if_neg hversion]

-- The key `CACHE` is declared twice in front of the flag that is reported.
example :
    (registryByBuilders ⟨"1.0", [⟨"base", [⟨"CACHE", "--cache", none⟩,
      ⟨"CACHE", "--no-cache", none⟩, ⟨"COLOR", "--color=", some "-c"⟩]⟩], []⟩).map (·.recipes) =
      .error (.invalidFlag "--color=" (some "-c") NameRule.longForm.reason (some "COLOR")
        (some "base")) := by
  decide +kernel

end Table

end OptionAtlas
