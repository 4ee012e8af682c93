import OptionAtlas.Builder

/-!
# Indexed catalogs

An indexed catalog knows for every key and every spelling at which place of the list
the entry stands, so that look-up does not walk the list. The index grows entry by
entry, and the names noted so far are all that is asked whether a name is free: a key
is looked up first, then the spellings one by one.

## Main definitions

* `Places` — names with the places noted for them.
* `Index`, `Index.ofEntries` — the places of keys and of spellings, and the pass over
  the entries that notes them or finds the first clash.
* `Index.Covers` — an index leads to the entries that a search would find.
* `IndexedCatalog` — a catalog with its index, with the ways to build one and its
  look-up.
-/

namespace OptionAtlas

/-- The short name of a flag is no long name. -/
theorem Flag.short_ne_long (f : Flag) : f.short ≠ some f.long := by
  intro h
  have hshort := f.short_valid _ h
  have hlong := f.long_valid
  unfold isShortName at hshort
  split at hshort
  next c heq => simp [heq, isLongName] at hlong
  next => cases hshort

theorem Flag.nodup_spellings (f : Flag) : f.spellings.Nodup := by
  have hne := f.short_ne_long
  rw [spellings]
  cases h : f.short with
  | none => simp
  | some s =>
    rw [h] at hne
    simpa using hne

/-! ## Places of names -/

/-- Names with the places noted for them; the latest note of a name counts. -/
structure Places where
  notes : List (String × Nat)
deriving DecidableEq, Repr

namespace Places

/-- No notes. -/
def empty : Places := ⟨[]⟩

/-- The place of a name. -/
def find? (p : Places) (name : String) : Option Nat := p.notes.lookup name

/-- Notes the place of a name. -/
def insert (p : Places) (name : String) (place : Nat) : Places := ⟨(name, place) :: p.notes⟩

/-- Notes one place for several names. -/
def insertAll (p : Places) (names : List String) (place : Nat) : Places :=
  names.foldl (·.insert · place) p

theorem find?_insert (p : Places) (name other : String) (place : Nat) :
    (p.insert name place).find? other = if other = name then some place else p.find? other := by
  rw [find?, insert, List.lookup_cons]
  by_cases h : other = name
  · simp [h]
  · have hne : (other == name) = false := by simpa using h
    simp only [hne, if_neg h]
    rfl

theorem find?_insertAll (p : Places) (names : List String) (other : String) (place : Nat) :
    (p.insertAll names place).find? other =
      if other ∈ names then some place else p.find? other := by
  induction names generalizing p with
  | nil => simp [insertAll]
  | cons n ns ih =>
    rw [insertAll, List.foldl_cons, ← insertAll, ih, find?_insert]
    by_cases hns : other ∈ ns <;> by_cases hn : other = n <;> simp [hns, hn]

end Places

/-! ## Indexes -/

/-- The places of keys and of spellings in a list of entries. -/
structure Index where
  keys : Places
  spellings : Places
deriving DecidableEq, Repr

namespace Index

/-- The index of no entries. -/
def empty : Index := ⟨.empty, .empty⟩

/-- Notes the spellings `ss` of the entry `e` at `place`, one by one. One that is noted
already is shared with the entry of `es` at the place noted for it. -/
def addSpellings (catalog : String) (es : List Entry) (place : Nat) (e : Entry) :
    List String → Places → Except Defect Places
  | [], p => .ok p
  | s :: ss, p =>
    match p.find? s with
    | some i => .error (.sharedSpelling s catalog ((es[i]?.map (·.key)).toList ++ [e.key]))
    | none => addSpellings catalog es place e ss (p.insert s place)

/-- Notes the key and then the spellings of the entry `e` of `es` at `place`. -/
def add (catalog : String) (es : List Entry) (ix : Index) (place : Nat) (e : Entry) :
    Except Defect Index :=
  match ix.keys.find? e.key with
  | some _ => .error (.repeatedKey e.key catalog)
  | none => do
    pure ⟨ix.keys.insert e.key place,
      ← addSpellings catalog es place e e.flag.spellings ix.spellings⟩

/-- Notes those entries of `es` that stand at `place` and behind it. -/
def addFrom (catalog : String) (es : List Entry) (ix : Index) (place : Nat) :
    List Entry → Except Defect Index
  | [] => .ok ix
  | e :: rest => do addFrom catalog es (← ix.add catalog es place e) (place + 1) rest

/-- The index of these entries, or the first clash. -/
def ofEntries (catalog : String) (es : List Entry) : Except Defect Index :=
  addFrom catalog es empty 0 es

/-! ### What an index leads to -/

/-- The index leads to the entries that a search of the list would find. -/
structure Covers (ix : Index) (es : List Entry) : Prop where
  keys : ∀ key, ix.keys.find? key = es.findIdx? (·.key == key)
  spellings : ∀ token, ix.spellings.find? token = es.findIdx? (·.flag.accepts token)

theorem covers_empty : empty.Covers [] := ⟨fun _ => rfl, fun _ => rfl⟩

/-- The index with the names of one more entry, which were free. -/
def extend (ix : Index) (place : Nat) (e : Entry) : Index :=
  ⟨ix.keys.insert e.key place, ix.spellings.insertAll e.flag.spellings place⟩

variable {catalog : String} {ix : Index} {before rest : List Entry} {e : Entry} {place : Nat}

/-- Spellings are noted if none of them leads to an entry that stands before; the first
that does is reported with the key of that entry. A spelling noted on the way cannot
stand in for a later one, since the spellings of a flag differ. -/
theorem addSpellings_eq {ss : List String} {p : Places} (distinct : ss.Nodup)
    (hp : ∀ s ∈ ss, p.find? s = before.findIdx? (·.flag.accepts s)) :
    addSpellings catalog (before ++ rest) place e ss p =
      match ss.findSome? fun s => (before.find? (·.flag.accepts s)).map fun owner =>
          Defect.sharedSpelling s catalog [owner.key, e.key] with
      | some d => .error d
      | none => .ok (p.insertAll ss place) := by
  induction ss generalizing p with
  | nil => rfl
  | cons s ss ih =>
    obtain ⟨hs, hss⟩ := List.forall_mem_cons.1 hp
    rw [List.nodup_cons] at distinct
    rw [addSpellings, List.findSome?_cons, List.find?_eq_bind_findIdx?_getElem?, ← hs]
    cases hplace : p.find? s with
    | some i =>
      rw [hs] at hplace
      obtain ⟨hi, _⟩ := List.findIdx?_eq_some_iff_getElem.1 hplace
      simp [List.getElem?_append_left hi, hi]
    | none =>
      have later : ∀ t ∈ ss, (p.insert s place).find? t = before.findIdx? (·.flag.accepts t) := by
        intro t ht
        have hne : t ≠ s := fun h => distinct.1 (h ▸ ht)
        rw [Places.find?_insert, if_neg hne, hss t ht]
      exact ih distinct.2 later

/-- An entry is noted if nothing keeps it from following the entries before. -/
theorem add_eq (h : ix.Covers before) :
    ix.add catalog (before ++ rest) place e =
      match Catalog.clash? catalog before e with
      | some d => .error d
      | none => .ok (ix.extend place e) := by
  have hkey : (ix.keys.find? e.key).isSome = before.any (·.key == e.key) := by
    rw [h.keys, List.findIdx?_isSome]
  rw [add, Catalog.clash?, ← hkey,
    addSpellings_eq e.flag.nodup_spellings fun s _ => h.spellings s]
  cases ix.keys.find? e.key with
  | some i => rfl
  | none =>
    simp only [Option.isSome_none, Bool.false_eq_true, if_false]
    split <;> rfl

/-- With the names of an entry that is apart from the entries before, the index leads to
that entry too. -/
theorem Covers.extend (h : ix.Covers before) (apart : ∀ b ∈ before, b.Apart e) :
    (ix.extend before.length e).Covers (before ++ [e]) where
  keys := by
    intro key
    rw [Index.extend, Places.find?_insert, h.keys, List.findIdx?_append]
    by_cases hkey : key = e.key
    · have free : before.findIdx? (·.key == key) = none := by
        rw [List.findIdx?_eq_none_iff]
        intro b hb
        simpa [hkey] using (apart b hb).1
      rw [if_pos hkey, free]
      simp [hkey]
    · have hne : (e.key == key) = false := by simpa using Ne.symm hkey
      simp [hkey, hne]
  spellings := by
    intro token
    rw [Index.extend, Places.find?_insertAll, h.spellings, List.findIdx?_append]
    by_cases htoken : token ∈ e.flag.spellings
    · have free : before.findIdx? (·.flag.accepts token) = none := by
        rw [List.findIdx?_eq_none_iff]
        intro b hb
        rw [← Bool.not_eq_true, Flag.accepts_iff]
        exact fun hmem => (apart b hb).2 token hmem htoken
      simp [free, htoken, Flag.accepts_iff.2 htoken]
    · have hne : e.flag.accepts token = false := by
        rw [← Bool.not_eq_true, Flag.accepts_iff]
        exact htoken
      simp [htoken, hne]

/-- A pass over the entries behind those the index covers finds their first clash, or
ends with an index that covers all of them. -/
theorem addFrom_cases (h : ix.Covers before) :
    (∃ d, Catalog.firstClash? catalog before rest = some d ∧
        addFrom catalog (before ++ rest) ix before.length rest = .error d) ∨
      Catalog.firstClash? catalog before rest = none ∧
        ∃ ix', addFrom catalog (before ++ rest) ix before.length rest = .ok ix' ∧
          ix'.Covers (before ++ rest) := by
  induction rest generalizing ix before with
  | nil => exact .inr ⟨rfl, ix, rfl, by simpa using h⟩
  | cons e rest ih =>
    have hadd : ix.add catalog (before ++ e :: rest) before.length e = _ := add_eq h
    rw [addFrom, Catalog.firstClash?]
    cases hclash : Catalog.clash? catalog before e with
    | some d =>
      rw [hclash] at hadd
      exact .inl ⟨d, rfl, by rw [hadd]; rfl⟩
    | none =>
      rw [hclash] at hadd
      have next := h.extend (Catalog.clash?_eq_none_iff.1 hclash)
      have hrest := ih next
      simp only [List.append_assoc, List.singleton_append, List.length_append,
        List.length_singleton] at hrest
      rw [hadd]
      exact hrest

theorem ofEntries_cases (catalog : String) (es : List Entry) :
    (∃ d, Catalog.firstClash? catalog [] es = some d ∧ ofEntries catalog es = .error d) ∨
      Catalog.firstClash? catalog [] es = none ∧
        ∃ ix, ofEntries catalog es = .ok ix ∧ ix.Covers es :=
  addFrom_cases covers_empty

theorem apart_of_ofEntries {es : List Entry} (h : ofEntries catalog es = .ok ix) :
    es.Pairwise Entry.Apart := by
  obtain ⟨d, _, herror⟩ | ⟨hnone, _⟩ := ofEntries_cases catalog es
  · rw [h] at herror
    cases herror
  · exact (Catalog.firstClash?_eq_none_iff.1 hnone).1

end Index

/-! ## Catalogs with an index -/

/-- A catalog with the places of its names. -/
structure IndexedCatalog extends Catalog where
  index : Index

namespace IndexedCatalog

/-- Indexed catalogs are the same if their names and entries are, whatever their indexes. -/
instance : BEq IndexedCatalog := ⟨fun a b => a.name == b.name && a.entries == b.entries⟩

theorem beq_iff {a b : IndexedCatalog} :
    (a == b) = true ↔ a.name = b.name ∧ a.entries = b.entries := by
  change (a.name == b.name && a.entries == b.entries) = true ↔ _
  simp

/-! ### Building -/

/-- The catalog of these entries with its index, or their first clash. -/
def ofEntries (name : String) (es : List Entry) : Except Defect IndexedCatalog :=
  match h : Index.ofEntries name es with
  | .ok ix => .ok ⟨⟨name, es, Index.apart_of_ofEntries h⟩, ix⟩
  | .error d => .error d

/-- A catalog that declares these flags. -/
def ofFlags (name : String) (flags : List (String × Flag)) : Except Defect IndexedCatalog :=
  ofEntries name (flags.map fun f => ⟨f.1, name, f.2⟩)

/-- The catalog that was declared step by step, or its first defect. -/
def ofBuilder (b : Catalog.Builder) : Except Defect IndexedCatalog := do
  ofFlags b.name (← b.declared)

/-- The entries of several catalogs, in their order, as one catalog. -/
def union (name : String) (cs : List IndexedCatalog) : Except Defect IndexedCatalog :=
  ofEntries name (cs.flatMap (·.entries))

/-! ### Look-up -/

/-- The entry at the place noted for a key. -/
def entry (c : IndexedCatalog) (key : String) : Except Defect Entry :=
  match (c.index.keys.find? key).bind (c.entries[·]?) with
  | some e => .ok e
  | none => .error (.unknownKey key c.name)

/-- The flag under a key. -/
def lookup (c : IndexedCatalog) (key : String) : Except Defect Flag := (·.flag) <$> c.entry key

/-- Whether a key is noted. -/
def containsKey (c : IndexedCatalog) (key : String) : Bool := (c.index.keys.find? key).isSome

/-- The entry at the place noted for a spelling. -/
def resolve (c : IndexedCatalog) (token : String) : Option Entry :=
  (c.index.spellings.find? token).bind (c.entries[·]?)

/-! ### Parts of other catalogs -/

/-- The entries under `keys` as a catalog, in the order of `keys`. -/
def select (name : String) (source : IndexedCatalog) (keys : List String) :
    Except Defect IndexedCatalog := do
  ofEntries name (← keys.mapM source.entry)

/-- The catalog of this name. -/
def find (cs : List IndexedCatalog) (name : String) : Except Defect IndexedCatalog :=
  match cs.find? (·.name == name) with
  | some c => .ok c
  | none => .error (.unknownCatalog name)

/-- The flag set that a recipe assembles from these catalogs. -/
def assemble (cs : List IndexedCatalog) (q : Recipe) : Except Defect IndexedCatalog := do
  let whole ← q.catalogs.mapM (find cs)
  let picked ← q.picks.mapM fun p => do (← find cs p.catalog).entry p.key
  ofEntries q.name (whole.flatMap (·.entries) ++ picked)

end IndexedCatalog

end OptionAtlas
