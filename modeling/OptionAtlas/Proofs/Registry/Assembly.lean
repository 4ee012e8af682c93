import OptionAtlas.Proofs.Catalog.Lookup
import OptionAtlas.Registry

/-!
# The assembly of commands

The flag set of a command holds the flags that its recipe takes, and no others: all
entries of the catalogs it names and the entries it picks. Catalogs can be built into
a registry together with recipes exactly when the names on both sides are distinct
and every recipe can be assembled on its own.

## Main definitions

* `Recipe.Takes` — a recipe takes an entry from a catalog.

## Main statements

* `Recipe.mem_entries_iff`, `Recipe.eq_of_takes` — the flag set holds what the recipe
  takes, and takes it from one catalog only.
* `assembleCommands_eq_ok_iff` — when catalogs and recipes fit together.
-/

namespace OptionAtlas

/-! ## References -/

section References

variable {cs : List Catalog}

theorem findCatalog_eq_ok_iff (distinct : (cs.map (·.name)).Nodup) {name : String}
    {c : Catalog} : findCatalog cs name = .ok c ↔ c ∈ cs ∧ c.name = name := by
  rw [← find?_eq_some_iff_of_nodup distinct]
  rw [findCatalog]
  cases cs.find? (·.name == name) <;> simp

theorem findCatalog_eq_error_iff {name : String} {d : Defect} :
    findCatalog cs name = .error d ↔ d = .unknownCatalog name ∧ ∀ c ∈ cs, c.name ≠ name := by
  have hnone : (∀ c ∈ cs, c.name ≠ name) ↔ cs.find? (·.name == name) = none := by simp
  rw [hnone, findCatalog]
  cases cs.find? (·.name == name) <;> simp [eq_comm]

theorem Pick.entry_eq_ok_iff (distinct : (cs.map (·.name)).Nodup) {p : Pick} {e : Entry} :
    p.entry cs = .ok e ↔ ∃ c ∈ cs, c.name = p.catalog ∧ e ∈ c.entries ∧ e.key = p.key := by
  rw [Pick.entry, bind_eq_ok_iff]
  simp only [findCatalog_eq_ok_iff distinct, Catalog.entry_eq_ok_iff, and_assoc]

end References

namespace Recipe

/-! ## The flags of one command -/

/-- The recipe takes the entry `e` from the catalog `c`: it takes `c` whole or picks
the key of `e` from it. -/
def Takes (q : Recipe) (c : Catalog) (e : Entry) : Prop :=
  e ∈ c.entries ∧ (c.name ∈ q.catalogs ∨ ⟨c.name, e.key⟩ ∈ q.picks)

variable {cs : List Catalog} {q : Recipe} {es : List Entry} {c d : Catalog} {e : Entry}

theorem entries_eq_ok_iff :
    q.entries cs = .ok es ↔ ∃ (whole : List Catalog) (picked : List Entry),
      q.catalogs.map (findCatalog cs) = whole.map .ok ∧
      q.picks.map (Pick.entry cs) = picked.map .ok ∧
      whole.flatMap (·.entries) ++ picked = es := by
  simp only [entries, bind_eq_ok_iff, pure_eq_ok_iff, mapM_eq_ok_iff, exists_and_left]

/-- A recipe has entries when everything it refers to is there. -/
theorem exists_entries_iff :
    (∃ es, q.entries cs = .ok es) ↔
      (∀ n ∈ q.catalogs, ∃ c, findCatalog cs n = .ok c) ∧
        ∀ p ∈ q.picks, ∃ e, p.entry cs = .ok e := by
  simp only [entries_eq_ok_iff, ← mapM_eq_ok_iff, ← exists_mapM_eq_ok_iff]
  constructor
  · intro h
    rcases h with ⟨es, whole, picked, hw, hp, _⟩
    exact ⟨⟨whole, hw⟩, ⟨picked, hp⟩⟩
  · intro h
    rcases h with ⟨⟨whole, hw⟩, ⟨picked, hp⟩⟩
    exact ⟨_, whole, picked, hw, hp, rfl⟩

/-- Nothing is lost and nothing is added: the entries of a recipe are those it takes. -/
theorem mem_entries_iff (distinct : (cs.map (·.name)).Nodup) (h : q.entries cs = .ok es) :
    e ∈ es ↔ ∃ c ∈ cs, q.Takes c e := by
  obtain ⟨whole, picked, hw, hp, rfl⟩ := entries_eq_ok_iff.1 h
  simp only [List.mem_append, List.mem_flatMap, mem_of_map_eq_map_ok hw,
    mem_of_map_eq_map_ok hp, findCatalog_eq_ok_iff distinct, Pick.entry_eq_ok_iff distinct]
  constructor
  · intro h
    rcases h with ⟨c, ⟨n, hn, hc, rfl⟩, he⟩ | ⟨p, hpick, c, hc, hname, he, hkey⟩
    · exact ⟨c, hc, he, .inl hn⟩
    · refine ⟨c, hc, he, .inr ?_⟩
      rw [hname, hkey]
      exact hpick
  · intro h
    rcases h with ⟨c, hc, he, hname | hpick⟩
    · exact .inl ⟨c, ⟨c.name, hname, hc, rfl⟩, he⟩
    · exact .inr ⟨⟨c.name, e.key⟩, hpick, c, hc, rfl, he, rfl⟩

/-- A recipe whose entries do not repeat takes each of them from one catalog: a second
catalog would put the entry into the list a second time. -/
theorem eq_of_takes (distinct : (cs.map (·.name)).Nodup) (h : q.entries cs = .ok es)
    (nodup : es.Nodup) (hc : c ∈ cs) (hd : d ∈ cs) (hce : q.Takes c e) (hde : q.Takes d e) :
    c = d := by
  obtain ⟨whole, picked, hw, hp, rfl⟩ := entries_eq_ok_iff.1 h
  rw [List.nodup_append] at nodup
  obtain ⟨nodup_whole, nodup_picked, apart⟩ := nodup
  have mem_whole {b : Catalog} (hb : b ∈ cs) (hn : b.name ∈ q.catalogs) : b ∈ whole :=
    (mem_of_map_eq_map_ok hw).2 ⟨b.name, hn, (findCatalog_eq_ok_iff distinct).2 ⟨hb, rfl⟩⟩
  have entry_pick {b : Catalog} (hb : b ∈ cs) (he : e ∈ b.entries) :
      Pick.entry cs ⟨b.name, e.key⟩ = .ok e :=
    (Pick.entry_eq_ok_iff distinct).2 ⟨b, hb, rfl, he, rfl⟩
  have absurd_both {a b : Catalog} (ha : a ∈ cs) (hb : b ∈ cs) (hae : e ∈ a.entries)
      (hbe : e ∈ b.entries) (hname : a.name ∈ q.catalogs)
      (hpick : ⟨b.name, e.key⟩ ∈ q.picks) : False := by
    refine apart e (List.mem_flatMap.2 ⟨a, mem_whole ha hname, hae⟩) e ?_ rfl
    exact (mem_of_map_eq_map_ok hp).2 ⟨_, hpick, entry_pick hb hbe⟩
  obtain ⟨hec, hname | hpick⟩ := hce <;> obtain ⟨hed, hname' | hpick'⟩ := hde
  · by_contra hne
    have symm : Std.Symm (Function.onFun List.Disjoint Catalog.entries) :=
      ⟨fun _ _ h _ hx hy => h hy hx⟩
    have disjoint := (List.nodup_flatMap.1 nodup_whole).2.forall (mem_whole hc hname)
      (mem_whole hd hname') hne
    exact disjoint hec hed
  · exact (absurd_both hc hd hec hed hname hpick').elim
  · exact (absurd_both hd hc hed hec hname' hpick).elim
  · -- The picks of `e` are one pick, since the picked entries do not repeat.
    have nodup_picks : (q.picks.map (Pick.entry cs)).Nodup := by
      rw [hp]
      exact nodup_picked.map fun _ _ => Except.ok.inj
    have hpicks := List.inj_on_of_nodup_map nodup_picks hpick hpick'
      ((entry_pick hc hec).trans (entry_pick hd hed).symm)
    exact List.inj_on_of_nodup_map distinct hc hd (congrArg Pick.catalog hpicks)

/-! ## The flag sets of all commands -/

theorem assemble_nil : q.assemble cs [] = q.entries cs >>= Catalog.ofEntries q.name := by
  rw [assemble, if_neg List.not_mem_nil]

theorem assemble_eq_ok_iff {earlier : List String} :
    q.assemble cs earlier = .ok c ↔
      q.name ∉ earlier ∧ c.name = q.name ∧ q.entries cs = .ok c.entries := by
  rw [assemble]
  by_cases hmem : q.name ∈ earlier
  · simp [hmem, throw, throwThe, MonadExceptOf.throw, bind, Except.bind]
  · simp only [hmem, if_false, not_false_eq_true, true_and, bind_eq_ok_iff,
      Catalog.ofEntries_eq_ok_iff]
    constructor
    · intro h
      rcases h with ⟨es, hes, hname, rfl⟩
      exact ⟨hname, hes⟩
    · intro h
      rcases h with ⟨hname, hes⟩
      exact ⟨c.entries, hes, hname, rfl⟩

/-- Other commands matter to a recipe by their names only. -/
theorem assemble_eq_ok_iff_alone {earlier : List String} :
    q.assemble cs earlier = .ok c ↔ q.name ∉ earlier ∧ q.assemble cs [] = .ok c := by
  simp [assemble_eq_ok_iff]

/-- A recipe is assembled when its entries are there and pairwise apart. -/
theorem exists_assemble_iff :
    (∃ c, q.assemble cs [] = .ok c) ↔
      ∃ es, q.entries cs = .ok es ∧ es.Pairwise Entry.Apart := by
  simp only [assemble_eq_ok_iff, List.not_mem_nil, not_false_eq_true, true_and]
  constructor
  · intro h
    rcases h with ⟨c, _, hc⟩
    exact ⟨c.entries, hc, c.apart⟩
  · intro h
    rcases h with ⟨es, hes, apart⟩
    exact ⟨⟨q.name, es, apart⟩, rfl, hes⟩

/-- The commands that follow those named in `earlier` are assembled each on its own.
Every step adds its name to `earlier`, so the names seen so far and the names to come
stay apart. -/
theorem assembleAll_eq_ok_iff {earlier : List String} {rs : List Recipe}
    {commands : List Catalog} :
    assembleAll cs earlier rs = .ok commands ↔
      (rs.map (·.name)).Nodup ∧ (∀ q ∈ rs, q.name ∉ earlier) ∧
        rs.map (assemble cs []) = commands.map .ok := by
  induction rs generalizing earlier commands with
  | nil => cases commands <;> simp [assembleAll]
  | cons q rs ih =>
      simp only [assembleAll, bind_eq_ok_iff, pure_eq_ok_iff, ih, List.map_cons,
        List.nodup_cons, List.forall_mem_cons]
      constructor
      · intro h
        rcases h with ⟨c, hc, rest, ⟨hnodup, hlater, hrest⟩, rfl⟩
        obtain ⟨hfresh, hc⟩ := assemble_eq_ok_iff_alone.1 hc
        refine ⟨⟨?_, hnodup⟩, ⟨hfresh, ?_⟩, ?_⟩
        · intro hmem
          obtain ⟨b, hb, hname⟩ := List.mem_map.1 hmem
          exact hlater b hb (by simp [hname])
        · intro b hb hmem
          exact hlater b hb (by simp [hmem])
        · rw [hc, hrest, List.map_cons]
      · intro h
        rcases h with ⟨⟨hne, hnodup⟩, ⟨hfresh, hlater⟩, hok⟩
        cases commands with
        | nil => simp at hok
        | cons c rest =>
            rw [List.map_cons, List.cons.injEq] at hok
            refine ⟨c, assemble_eq_ok_iff_alone.2 ⟨hfresh, hok.1⟩, rest,
              ⟨hnodup, ?_, hok.2⟩, rfl⟩
            intro b hb hmem
            rcases List.mem_append.1 hmem with hmem | hmem
            · exact hlater b hb hmem
            · exact hne (List.mem_map.2 ⟨b, hb, List.mem_singleton.1 hmem⟩)

end Recipe

theorem firstRepeat?_eq_none_iff {seen ns : List String} :
    firstRepeat? seen ns = none ↔ ns.Nodup ∧ ∀ n ∈ ns, n ∉ seen := by
  induction ns generalizing seen with
  | nil => simp [firstRepeat?]
  | cons n ns ih =>
      rw [firstRepeat?]
      by_cases hmem : n ∈ seen
      · simp [hmem]
      · rw [if_neg hmem, ih, List.nodup_cons, List.forall_mem_cons]
        constructor
        · intro h
          rcases h with ⟨hnodup, hlater⟩
          refine ⟨⟨?_, hnodup⟩, hmem, ?_⟩
          · intro hn
            exact hlater n hn (by simp)
          · intro b hb hseen
            exact hlater b hb (by simp [hseen])
        · intro h
          rcases h with ⟨⟨hne, hnodup⟩, _, hlater⟩
          refine ⟨hnodup, ?_⟩
          intro b hb hseen
          rcases List.mem_append.1 hseen with hseen | hseen
          · exact hlater b hb hseen
          · exact hne (List.mem_singleton.1 hseen ▸ hb)

theorem firstRepeat?_nil_eq_none_iff {ns : List String} :
    firstRepeat? [] ns = none ↔ ns.Nodup := by
  simp [firstRepeat?_eq_none_iff]

theorem assembleCommands_eq_ok_iff {cs : List Catalog} {rs : List Recipe}
    {commands : List Catalog} :
    assembleCommands cs rs = .ok commands ↔
      (cs.map (·.name)).Nodup ∧ (rs.map (·.name)).Nodup ∧
        rs.map (Recipe.assemble cs []) = commands.map .ok := by
  rw [assembleCommands]
  cases h : firstRepeat? [] (cs.map (·.name)) with
  | some n =>
      have hnot : ¬ (cs.map (·.name)).Nodup := by
        rw [← firstRepeat?_nil_eq_none_iff, h]
        simp
      simp [hnot]
  | none =>
      have hnodup := firstRepeat?_nil_eq_none_iff.1 h
      simp [hnodup, Recipe.assembleAll_eq_ok_iff]

end OptionAtlas
