import OptionAtlas.Flag

/-!
# Catalogs

A catalog is a named list of flags, each under a key. No key occurs twice and no
spelling belongs to two entries, so keys and spellings both lead to at most one
entry. A catalog is built from declarations, as the union of others, or by
selecting keys of another; every entry keeps the name of the catalog that declared
it as its group.

## Main definitions

* `Entry`, `Entry.Apart` — a flag under a key, and when two of them can stand together.
* `Catalog` — entries that are pairwise apart.
* `Catalog.ofEntries` — checks a list of entries and reports the first clash.
* `Catalog.ofFlags`, `Catalog.declare`, `Catalog.union`, `Catalog.select` — the ways
  to build one.
* `Catalog.entry`, `Catalog.resolve` — look-up by key and by spelling.
-/

namespace OptionAtlas

/-- A flag under a key, with the name of the catalog that declared it. -/
structure Entry where
  key : String
  group : String
  flag : Flag
deriving DecidableEq

/-- Two entries can stand in one catalog: their keys differ and they share no spelling. -/
def Entry.Apart (a b : Entry) : Prop :=
  a.key ≠ b.key ∧ ∀ s, s ∈ a.flag.spellings → s ∉ b.flag.spellings

/-- An immutable list of entries that are pairwise apart. -/
structure Catalog where
  name : String
  entries : List Entry
  apart : entries.Pairwise Entry.Apart
deriving DecidableEq

namespace Catalog

/-! ## Checking a list of entries -/

/-- What keeps `e` from following `before`: its key is taken, or else the first of
its spellings that is taken, reported with the key of the owner. -/
def clash? (name : String) (before : List Entry) (e : Entry) : Option Defect :=
  if before.any (·.key == e.key) then some (.repeatedKey e.key name)
  else e.flag.spellings.findSome? fun s =>
    (before.find? (·.flag.accepts s)).map fun owner =>
      .sharedSpelling s name [owner.key, e.key]

/-- The first clash in a list of entries that follows `before`. -/
def firstClash? (name : String) (before : List Entry) : List Entry → Option Defect
  | [] => none
  | e :: es =>
    match clash? name before e with
    | some d => some d
    | none => firstClash? name (before ++ [e]) es

theorem clash?_eq_none_iff {name : String} {before : List Entry} {e : Entry} :
    clash? name before e = none ↔ ∀ b ∈ before, b.Apart e := by
  unfold clash?
  split
  next h =>
    simp only [List.any_eq_true, beq_iff_eq] at h
    obtain ⟨b, hb, hk⟩ := h
    simp only [reduceCtorEq, false_iff]
    exact fun hall => (hall b hb).1 hk
  next h =>
    simp only [List.any_eq_true, beq_iff_eq, not_exists, not_and] at h
    simp only [List.findSome?_eq_none_iff, Option.map_eq_none_iff, List.find?_eq_none,
      Flag.accepts_iff, Entry.Apart]
    constructor
    · intro hs b hb
      exact ⟨h b hb, fun s hsb hse => hs s hse b hb hsb⟩
    · intro hall s hse b hb hsb
      exact (hall b hb).2 s hsb hse

theorem firstClash?_eq_none_iff {name : String} {before es : List Entry} :
    firstClash? name before es = none ↔
      es.Pairwise Entry.Apart ∧ ∀ b ∈ before, ∀ e ∈ es, b.Apart e := by
  induction es generalizing before with
  | nil => simp [firstClash?]
  | cons e es ih =>
    unfold firstClash?
    cases h : clash? name before e with
    | some d =>
      simp only [reduceCtorEq, false_iff]
      rintro ⟨_, hall⟩
      have : clash? name before e = none :=
        clash?_eq_none_iff.2 fun b hb => hall b hb e (by simp)
      simp [h] at this
    | none =>
      have hb := clash?_eq_none_iff.1 h
      simp only [ih, List.mem_append, List.pairwise_cons, List.mem_cons]
      grind

/-- The catalog of these entries, or their first clash. -/
def ofEntries (name : String) (entries : List Entry) : Except Defect Catalog :=
  match h : firstClash? name [] entries with
  | some d => .error d
  | none => .ok ⟨name, entries, (firstClash?_eq_none_iff.1 h).1⟩

/-! ## Building catalogs -/

/-- A catalog that declares these flags. -/
def ofFlags (name : String) (flags : List (String × Flag)) : Except Defect Catalog :=
  ofEntries name (flags.map fun f => ⟨f.1, name, f.2⟩)

/-- A flag as it is written down: a key, a long name and an optional short one. -/
structure Declaration where
  key : String
  long : String
  short : Option String
deriving DecidableEq, Repr

/-- The flag of a declaration; a broken rule is reported with its key and catalog. -/
def Declaration.flag (catalog : String) (d : Declaration) : Except Defect (String × Flag) :=
  match Flag.ofNames d.long d.short with
  | .ok f => .ok (d.key, f)
  | .error e => .error (e.declaredAs catalog d.key)

/-- A catalog from written declarations. Names are checked before clashes. -/
def declare (name : String) (ds : List Declaration) : Except Defect Catalog := do
  ofFlags name (← ds.mapM (Declaration.flag name))

/-- The entries of several catalogs, in their order, as one catalog. -/
def union (name : String) (cs : List Catalog) : Except Defect Catalog :=
  ofEntries name (cs.flatMap (·.entries))

/-! ## Look-up -/

/-- The entry under a key. -/
def entry (c : Catalog) (key : String) : Except Defect Entry :=
  match c.entries.find? (·.key == key) with
  | some e => .ok e
  | none => .error (.unknownKey key c.name)

/-- The flag under a key. -/
def lookup (c : Catalog) (key : String) : Except Defect Flag := (·.flag) <$> c.entry key

/-- Whether a key is declared. -/
def containsKey (c : Catalog) (key : String) : Bool := c.entries.any (·.key == key)

/-- The entry that accepts `token`, if there is one. -/
def resolve (c : Catalog) (token : String) : Option Entry :=
  c.entries.find? (·.flag.accepts token)

/-- The entries under `keys` as a catalog, in the order of `keys`. -/
def select (name : String) (source : Catalog) (keys : List String) : Except Defect Catalog := do
  ofEntries name (← keys.mapM source.entry)

/-- The number of flags. -/
def size (c : Catalog) : Nat := c.entries.length

/-- The flags in declaration order. -/
def flags (c : Catalog) : List Flag := c.entries.map (·.flag)

end Catalog

end OptionAtlas
