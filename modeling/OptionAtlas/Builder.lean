import OptionAtlas.Registry

/-!
# Declaring step by step

Catalogs and registries can be declared one step after the other. A catalog builder
keeps the first flag whose names break the grammar and looks at no flag behind it;
the defect is reported when the catalog is finished. A registry builder only collects:
catalogs and recipes are checked together at the end.

## Main definitions

* `Catalog.Builder` — the flags declared so far and the first defect;
  `Catalog.Builder.flag`, `Catalog.Builder.build`.
* `Registry.Builder` — the catalogs and recipes so far; `Registry.Builder.build`.

## Main statements

* `Registry.Builder.build_foldl` — a registry built step by step.
-/

namespace OptionAtlas

/-! ## Catalogs -/

/-- A catalog under construction. -/
structure Catalog.Builder where
  name : String
  flags : List (String × Flag)
  defect : Option Defect

namespace Catalog.Builder

/-- A catalog without flags. -/
def start (name : String) : Builder := ⟨name, [], none⟩

/-- Declares a flag. Once spoiled, the builder stays as it is; names that break the
grammar spoil it. -/
def flag (b : Builder) (d : Declaration) : Builder :=
  match b.defect with
  | some _ => b
  | none =>
    match Flag.ofNames d.long d.short with
    | .ok f => { b with flags := b.flags ++ [(d.key, f)] }
    | .error e => { b with defect := some (e.declaredAs b.name d.key) }

/-- Declares several flags in order. -/
def flagAll (b : Builder) (ds : List Declaration) : Builder := ds.foldl flag b

/-- The declared flags, or the first defect. -/
def declared (b : Builder) : Except Defect (List (String × Flag)) :=
  match b.defect with
  | some e => .error e
  | none => .ok b.flags

/-- The finished catalog, or the first defect. -/
def build (b : Builder) : Except Defect Catalog := do ofFlags b.name (← b.declared)

@[simp] theorem name_flag (b : Builder) (d : Declaration) : (b.flag d).name = b.name := by
  unfold flag
  split
  · rfl
  · split <;> rfl

@[simp] theorem name_flagAll (b : Builder) (ds : List Declaration) :
    (b.flagAll ds).name = b.name := by
  induction ds generalizing b with
  | nil => rfl
  | cons d ds ih => rw [flagAll, List.foldl_cons, ← flagAll, ih, name_flag]

end Catalog.Builder

/-! ## Registries -/

/-- A registry under construction. -/
structure Registry.Builder where
  catalogs : List Catalog
  recipes : List Recipe

namespace Registry.Builder

/-- Nothing. -/
def empty : Builder := ⟨[], []⟩

/-- One more catalog. -/
def catalog (b : Builder) (c : Catalog) : Builder := { b with catalogs := b.catalogs ++ [c] }

/-- One more command. -/
def command (b : Builder) (q : Recipe) : Builder := { b with recipes := b.recipes ++ [q] }

/-- The finished registry, or its first defect. -/
def build (b : Builder) : Except Defect Registry := Registry.build b.catalogs b.recipes

theorem foldl_catalog (b : Builder) (cs : List Catalog) :
    cs.foldl catalog b = { b with catalogs := b.catalogs ++ cs } := by
  induction cs generalizing b with
  | nil => simp
  | cons c cs ih => rw [List.foldl_cons, ih, catalog, List.append_assoc, List.singleton_append]

theorem foldl_command (b : Builder) (qs : List Recipe) :
    qs.foldl command b = { b with recipes := b.recipes ++ qs } := by
  induction qs generalizing b with
  | nil => simp
  | cons q qs ih => rw [List.foldl_cons, ih, command, List.append_assoc, List.singleton_append]

/-- A registry built step by step is the one that is built at once. -/
theorem build_foldl (cs : List Catalog) (qs : List Recipe) :
    (qs.foldl command (cs.foldl catalog empty)).build = Registry.build cs qs := by
  rw [foldl_catalog, foldl_command]
  rfl

end Registry.Builder

end OptionAtlas
