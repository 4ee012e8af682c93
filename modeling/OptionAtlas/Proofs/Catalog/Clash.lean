import OptionAtlas.Proofs.Catalog.Index
import OptionAtlas.Proofs.Flag.Grammar

/-!
# The first clash of a list

A list of entries that cannot form a catalog is refused for the first entry that cannot
follow those in front of it. A taken key is reported before a taken spelling and a taken
short name before a taken long one. Short and long names never meet, so a spelling is
shared by two short names or by two long names, and never by the names of one flag.

## Main definitions

* `Catalog.Clash` — what keeps an entry from following others.
* `Catalog.FirstClash` — the first entry of a list that cannot follow those in front.

## Main statements

* `Catalog.forall_not_clash_iff` — an entry clashes unless it is apart from all in front.
* `Catalog.ofEntries_eq_error_iff_firstClash` — the defect of a list that is refused.
-/

namespace OptionAtlas

namespace Flag

/-- A shared spelling is the short name of both flags or the long name of both. -/
theorem short_or_long_of_shared {f g : Flag} {s : String} (hf : s ∈ f.spellings)
    (hg : s ∈ g.spellings) :
    f.short = some s ∧ g.short = some s ∨ f.long = s ∧ g.long = s := by
  rcases mem_spellings.1 hf with hf | rfl <;> rcases mem_spellings.1 hg with hg | hg
  · exact .inl ⟨hf, hg⟩
  · exact absurd hg.symm ((f.shortName hf).ne_long g.longName)
  · exact absurd rfl ((g.shortName hg).ne_long f.longName)
  · exact .inr ⟨rfl, hg⟩

/-- A search of the spellings looks at the short name before the long one. -/
theorem findSome?_spellings_eq_some_iff {α : Type} {f : Flag} {p : String → Option α} {a : α} :
    f.spellings.findSome? p = some a ↔
      ∃ s, (f.short = some s ∨ f.long = s ∧ ∀ t, f.short = some t → p t = none) ∧
        p s = some a := by
  rw [spellings, List.findSome?_append]
  cases f.short with
  | none => simp
  | some t => cases ht : p t <;> simp [ht]

end Flag

namespace Catalog

/-! ## One entry behind others -/

/-- The defect `d` keeps the entry `e` from following `before`: its key is taken, or else
a spelling of it, the short name if that is taken and otherwise the long one. -/
inductive Clash (name : String) (before : List Entry) (e : Entry) : Defect → Prop where
  | key {owner : Entry} (member : owner ∈ before) (same : owner.key = e.key) :
      Clash name before e (.repeatedKey e.key name)
  | spelling {s : String} {owner : Entry} (free : ∀ b ∈ before, b.key ≠ e.key)
      (first : e.flag.short = some s ∨ e.flag.long = s ∧
        ∀ t, e.flag.short = some t → ∀ b ∈ before, t ∉ b.flag.spellings)
      (member : owner ∈ before) (owns : s ∈ owner.flag.spellings) :
      Clash name before e (.sharedSpelling s name [owner.key, e.key])

variable {name : String} {before es : List Entry} {e : Entry} {d : Defect}

theorem Clash.exists_not_apart (h : Clash name before e d) : ∃ b ∈ before, ¬ b.Apart e := by
  cases h with
  | @key owner member same => exact ⟨owner, member, fun apart => apart.1 same⟩
  | @spelling s owner free first member owns =>
      have ours : s ∈ e.flag.spellings := Flag.mem_spellings.2 (first.imp_right And.left)
      exact ⟨owner, member, fun apart => apart.2 s owns ours⟩

/-- An entry clashes with those in front of it unless it is apart from all of them. -/
theorem forall_not_clash_iff :
    (∀ d, ¬ Clash name before e d) ↔ ∀ b ∈ before, b.Apart e := by
  constructor
  · intro h b hb
    have free : ∀ b ∈ before, b.key ≠ e.key := fun b hb same => h _ (.key hb same)
    have short_free : ∀ t, e.flag.short = some t → ∀ b ∈ before, t ∉ b.flag.spellings :=
      fun t ht b hb owns => h _ (.spelling free (.inl ht) hb owns)
    refine ⟨free b hb, ?_⟩
    intro s owns ours
    rcases Flag.mem_spellings.1 ours with hshort | hlong
    · exact short_free s hshort b hb owns
    · exact h _ (.spelling free (.inr ⟨hlong, short_free⟩) hb owns)
  · intro hall d h
    rcases h.exists_not_apart with ⟨b, hb, hnot⟩
    exact hnot (hall b hb)

/-- Among entries that are pairwise apart, a spelling has one owner at most, and that is
the one whose key is reported. -/
theorem clash?_eq_some_iff (apart : before.Pairwise Entry.Apart) :
    clash? name before e = some d ↔ Clash name before e d := by
  have howner : ∀ s owner, before.find? (·.flag.accepts s) = some owner ↔
      owner ∈ before ∧ s ∈ owner.flag.spellings := by
    intro s owner
    rw [← Flag.accepts_iff]
    apply find?_eq_some_iff_of_unique
    intro a ha b hb has hbs
    exact (⟨name, before, apart⟩ : Catalog).eq_of_mem_spellings ha hb
      (Flag.accepts_iff.1 has) (Flag.accepts_iff.1 hbs)
  unfold clash?
  by_cases hkey : before.any (·.key == e.key) = true
  · rw [if_pos hkey]
    simp only [List.any_eq_true, beq_iff_eq] at hkey
    rcases hkey with ⟨owner, member, same⟩
    constructor
    · rintro ⟨⟩
      exact .key member same
    · intro h
      cases h with
      | key => rfl
      | spelling free => exact absurd same (free owner member)
  · rw [if_neg hkey]
    have free : ∀ b ∈ before, b.key ≠ e.key := by simpa using hkey
    simp only [Flag.findSome?_spellings_eq_some_iff, Option.map_eq_some_iff,
      Option.map_eq_none_iff, List.find?_eq_none, Flag.accepts_iff, howner]
    constructor
    · rintro ⟨s, first, owner, ⟨member, owns⟩, rfl⟩
      exact .spelling free first member owns
    · intro h
      cases h with
      | key member same => exact absurd same (free _ member)
      | spelling _ first member owns => exact ⟨_, first, _, ⟨member, owns⟩, rfl⟩

/-! ## The first entry that clashes -/

/-- The entry `e` at place `i` clashes with those in front of it, and no entry in front
of `i` does. -/
structure FirstClash (name : String) (es : List Entry) (i : Nat) (e : Entry) (d : Defect) :
    Prop where
  here : es[i]? = some e
  clash : Clash name (es.take i) e d
  first : ∀ j < i, ∀ a, es[j]? = some a → ∀ b ∈ es.take j, b.Apart a

theorem firstAt_clash_iff {i : Nat} :
    FirstAt (Clash name) es i d ↔ ∃ e, FirstClash name es i e d := by
  simp only [FirstAt, forall_not_clash_iff]
  exact exists_congr fun e => ⟨fun h => ⟨h.1, h.2.1, h.2.2⟩, fun h => ⟨h.here, h.clash, h.first⟩⟩

/-- Entries in front of the first clash are pairwise apart, and every step puts one more
of them in front. -/
theorem firstClash?_eq_some_iff (apart : before.Pairwise Entry.Apart) :
    firstClash? name before es = some d ↔
      ∃ i, FirstAt (fun front => Clash name (before ++ front)) es i d := by
  induction es generalizing before with
  | nil => simp [firstClash?]
  | cons e es ih =>
      rw [firstClash?, exists_firstAt_cons_iff, List.append_nil]
      simp only [← clash?_eq_some_iff apart]
      cases h : clash? name before e with
      | some d' => simp
      | none =>
          have hall := clash?_eq_none_iff.1 h
          have apart' : (before ++ [e]).Pairwise Entry.Apart := by
            simpa [List.pairwise_append, apart] using hall
          simp [ih apart']

/-- A list is refused for the first entry that clashes with those in front of it. -/
theorem ofEntries_eq_error_iff_firstClash :
    ofEntries name es = .error d ↔ ∃ i e, FirstClash name es i e d := by
  rw [ofEntries_eq_error_iff, firstClash?_eq_some_iff .nil]
  exact exists_congr fun i => firstAt_clash_iff

theorem pairwise_take_of_apart {i : Nat}
    (h : ∀ j < i, ∀ a, es[j]? = some a → ∀ b ∈ es.take j, b.Apart a) :
    (es.take i).Pairwise Entry.Apart := by
  induction i with
  | zero => simp
  | succ i ih =>
      have apart := ih fun j hj => h j (by omega)
      rw [List.take_add_one]
      cases ha : es[i]? with
      | none => simpa using apart
      | some a => simpa [List.pairwise_append, apart] using h i (by omega) a ha

/-- The spelling that is reported has one owner in front of the clash, under another key. -/
theorem FirstClash.exists_owner {i : Nat} {s catalog : String} {keys : List String}
    (h : FirstClash name es i e (.sharedSpelling s catalog keys)) :
    ∃ j owner, j < i ∧ es[j]? = some owner ∧ keys = [owner.key, e.key] ∧
      owner.key ≠ e.key ∧ s ∈ owner.flag.spellings ∧ s ∈ e.flag.spellings ∧
      ∀ k < i, ∀ b, es[k]? = some b → s ∈ b.flag.spellings → k = j := by
  have apart := pairwise_take_of_apart h.first
  have clash := h.clash
  cases clash with
  | @spelling _ owner free first member owns =>
      obtain ⟨j, hj⟩ := List.mem_iff_getElem?.1 member
      have hlt : j < i := by
        by_contra hge
        rw [List.getElem?_take, if_neg hge] at hj
        cases hj
      have ours : s ∈ e.flag.spellings := Flag.mem_spellings.2 (first.imp_right And.left)
      refine ⟨j, owner, hlt, ?_, rfl, free owner member, owns, ours, ?_⟩
      · rwa [List.getElem?_take, if_pos hlt] at hj
      · intro k hk b hb hbs
        have hb' : (es.take i)[k]? = some b := by rw [List.getElem?_take, if_pos hk, hb]
        exact place_eq_of_not_apart (c := ⟨name, es.take i, apart⟩) hb' hj
          fun hapart => hapart.2 s hbs owns

/-! ## Lists without a clash -/

theorem pairwise_apart_iff :
    es.Pairwise Entry.Apart ↔
      (es.map (·.key)).Nodup ∧
        ∀ (i j : Nat) (a b : Entry) (s : String), es[i]? = some a → es[j]? = some b →
          s ∈ a.flag.spellings → s ∈ b.flag.spellings → i = j := by
  constructor
  · intro apart
    refine ⟨nodup_keys ⟨"", es, apart⟩, ?_⟩
    intro i j a b s ha hb hsa hsb
    exact place_eq_of_not_apart (c := ⟨"", es, apart⟩) ha hb fun hapart => hapart.2 s hsa hsb
  · rintro ⟨keys, places⟩
    rw [List.pairwise_iff_getElem]
    intro i j hi hj hlt
    refine ⟨List.pairwise_iff_getElem.1 (List.pairwise_map.1 keys) i j hi hj hlt, ?_⟩
    intro s hsi hsj
    have heq := places i j es[i] es[j] s (List.getElem?_eq_getElem hi)
      (List.getElem?_eq_getElem hj) hsi hsj
    omega

end Catalog

/-! ## Building with an index -/

namespace IndexedCatalog

variable {name : String} {es : List Entry}

theorem ofEntries_eq_error_iff {d : Defect} :
    ofEntries name es = .error d ↔ Catalog.ofEntries name es = .error d := by
  rw [← toCatalog_ofEntries]
  cases ofEntries name es <;> simp

theorem exists_ofEntries_iff : (∃ c, ofEntries name es = .ok c) ↔ es.Pairwise Entry.Apart := by
  have happart : (∃ c, Catalog.ofEntries name es = .ok c) ↔ _ := Catalog.exists_ofEntries_iff
  rw [← happart, ← toCatalog_ofEntries]
  cases ofEntries name es <;> simp

theorem ofEntries_eq_ok {c : IndexedCatalog} (h : ofEntries name es = .ok c) :
    c.name = name ∧ c.entries = es := by
  obtain ⟨d, herror, _⟩ | ⟨c', hok, hname, hes, _⟩ := ofEntries_cases name es
  · rw [h] at herror
    cases herror
  · rw [h] at hok
    cases hok
    exact ⟨hname, hes⟩

/-- A catalog is built anew from its own name and entries. -/
theorem Reachable.ofEntries_self {c : IndexedCatalog} (h : c.Reachable) :
    ofEntries c.name c.entries = .ok c := by
  obtain ⟨name, es, built⟩ := h.exists_ofEntries
  obtain ⟨rfl, rfl⟩ := ofEntries_eq_ok built
  exact built

/-- **A list becomes a catalog when no name in it is taken twice, and otherwise its first
clash is reported.**  That is the first entry whose key or spelling occurs in front of it.
A shared spelling has one owner there, which shares it in the same role. -/
theorem ofEntries_by_first_clash (name : String) (es : List Entry) :
    ((∃ c, ofEntries name es = .ok c) ↔
        (es.map (·.key)).Nodup ∧
          ∀ (i j : Nat) (a b : Entry) (s : String), es[i]? = some a → es[j]? = some b →
            s ∈ a.flag.spellings → s ∈ b.flag.spellings → i = j) ∧
      (∀ c, ofEntries name es = .ok c → c.name = name ∧ c.entries = es) ∧
      (∀ d, ofEntries name es = .error d ↔ ∃ i e, Catalog.FirstClash name es i e d) ∧
      ∀ i e s keys, Catalog.FirstClash name es i e (.sharedSpelling s name keys) →
        ∃ j owner, j < i ∧ es[j]? = some owner ∧ keys = [owner.key, e.key] ∧
          owner.key ≠ e.key ∧
          (∀ k < i, ∀ b, es[k]? = some b → (s ∈ b.flag.spellings ↔ k = j)) ∧
          (owner.flag.short = some s ∧ e.flag.short = some s ∨
            owner.flag.long = s ∧ e.flag.long = s) := by
  refine ⟨?_, fun _ => ofEntries_eq_ok, ?_, ?_⟩
  · rw [exists_ofEntries_iff, Catalog.pairwise_apart_iff]
  · intro d
    rw [ofEntries_eq_error_iff, Catalog.ofEntries_eq_error_iff_firstClash]
  · intro i e s keys h
    obtain ⟨j, owner, hlt, hj, hkeys, hne, owns, ours, unique⟩ := h.exists_owner
    refine ⟨j, owner, hlt, hj, hkeys, hne, ?_, Flag.short_or_long_of_shared owns ours⟩
    intro k hk b hb
    constructor
    · exact unique k hk b hb
    · rintro rfl
      rw [hj] at hb
      cases hb
      exact owns

/-- Two entries whose flags have both names in common. -/
def tabEntries : List Entry :=
  [⟨"TAB", "edit", ⟨"--tab", some "-t", by decide, by rintro s ⟨⟩; decide⟩⟩,
    ⟨"TAB_WIDTH", "edit", ⟨"--tab", some "-t", by decide, by rintro s ⟨⟩; decide⟩⟩]

theorem ofEntries_by_first_clash_tabEntries :
    (∃ c, ofEntries "edit" (tabEntries.take 1) = .ok c ∧ c.entries = tabEntries.take 1) ∧
      ofEntries "edit" tabEntries =
        .error (.sharedSpelling "-t" "edit" ["TAB", "TAB_WIDTH"]) ∧
      ∃ j owner, j < 1 ∧ tabEntries[j]? = some owner ∧ owner.key = "TAB" := by
  have places : ∀ (i j : Nat) (a b : Entry) (s : String), (tabEntries.take 1)[i]? = some a →
      (tabEntries.take 1)[j]? = some b → s ∈ a.flag.spellings → s ∈ b.flag.spellings →
        i = j := by
    intro i j a b s hi hj _ _
    have hi : i < 1 := (List.getElem?_eq_some_iff.1 hi).1
    have hj : j < 1 := (List.getElem?_eq_some_iff.1 hj).1
    omega
  have first : ∃ e, Catalog.FirstClash "edit" tabEntries 1 e
      (.sharedSpelling "-t" "edit" ["TAB", "TAB_WIDTH"]) := by
    refine ⟨_, rfl, .spelling (by decide) (.inl rfl) (List.mem_singleton.2 rfl) (by decide), ?_⟩
    intro j hj a _ b hb
    obtain rfl : j = 0 := by omega
    cases hb
  obtain ⟨haccepts, hkeeps, _⟩ := ofEntries_by_first_clash "edit" (tabEntries.take 1)
  obtain ⟨_, _, hrefuses, howner⟩ := ofEntries_by_first_clash "edit" tabEntries
  obtain ⟨c, hc⟩ := haccepts.2 ⟨List.nodup_singleton _, places⟩
  obtain ⟨e, he⟩ := first
  obtain ⟨j, owner, hlt, hj, hkeys, _⟩ := howner 1 e _ _ he
  exact ⟨⟨c, hc, (hkeeps c hc).2⟩, (hrefuses _).2 ⟨1, e, he⟩, j, owner, hlt, hj,
    (List.cons.inj hkeys).1.symm⟩

end IndexedCatalog

end OptionAtlas
