import Mathlib.Algebra.Ring.Nat
import OptionAtlas.Proofs.Catalog.Clash

/-!
# Unions of catalogs

Catalogs form a union when no entry of one clashes with an entry of another. A key and a
spelling then lead to one source at most, so the union answers as the sources do when
they are asked one after the other, in whatever order. What a union is made of are
entries: it does not matter whether they come from its sources or from a union of these.

## Main definitions

* `IndexedCatalog.Disjoint` — two catalogs that can be sources of one union.

## Main statements

* `IndexedCatalog.exists_union_iff` — which catalogs form a union.
* `IndexedCatalog.resolve_union_eq_some_iff`, `IndexedCatalog.entry_union_eq_ok_iff`,
  `IndexedCatalog.entry_union_eq_error_iff` — the answers of a union.
* `IndexedCatalog.source_eq_of_resolve`, `IndexedCatalog.source_eq_of_containsKey` — one
  source answers.
* `IndexedCatalog.union_nested` — a union among the sources of another.
-/

namespace OptionAtlas.IndexedCatalog

/-! ## Sources -/

/-- Every entry of the one catalog can stand beside every entry of the other. -/
def Disjoint (a b : IndexedCatalog) : Prop := ∀ x ∈ a.entries, ∀ y ∈ b.entries, x.Apart y

instance : Std.Symm Disjoint := ⟨fun _ _ h x hx y hy => (h y hy x hx).symm⟩

variable {name : String} {cs : List IndexedCatalog} {u : IndexedCatalog}

theorem union_eq_ok (h : union name cs = .ok u) :
    u.name = name ∧ u.entries = cs.flatMap (·.entries) :=
  ofEntries_eq_ok h

/-- The entries of a catalog are apart, so that only those of different sources can clash. -/
theorem exists_union_iff : (∃ u, union name cs = .ok u) ↔ cs.Pairwise Disjoint := by
  rw [union, exists_ofEntries_iff, List.pairwise_flatMap]
  constructor
  · intro h
    exact h.2
  · intro h
    exact ⟨fun c _ => c.apart, h⟩

theorem size_union (h : union name cs = .ok u) : u.size = (cs.map (·.size)).sum := by
  rw [Catalog.size, (union_eq_ok h).2, List.length_flatMap]
  rfl

/-- Entries that are not apart have one source. -/
theorem source_eq_of_not_apart (h : union name cs = .ok u) {i j : Nat} {a b : IndexedCatalog}
    (ha : cs[i]? = some a) (hb : cs[j]? = some b) {x y : Entry} (hx : x ∈ a.entries)
    (hy : y ∈ b.entries) (hxy : ¬ x.Apart y) : i = j :=
  place_eq_of_pairwise (exists_union_iff.1 ⟨u, h⟩) ha hb fun disjoint =>
    hxy (disjoint x hx y hy)

/-! ## Answers -/

section Answers

variable (reachable : ∀ c ∈ cs, c.Reachable) (h : union name cs = .ok u)
include reachable h

theorem resolve_union_eq_some_iff {token : String} {e : Entry} :
    u.resolve token = some e ↔ ∃ c ∈ cs, c.resolve token = some e := by
  have covers := (Reachable.union reachable h).covers
  rw [resolve_eq_some_iff covers, (union_eq_ok h).2, List.mem_flatMap]
  constructor
  · rintro ⟨⟨c, hc, he⟩, htoken⟩
    exact ⟨c, hc, (resolve_eq_some_iff (reachable c hc).covers).2 ⟨he, htoken⟩⟩
  · rintro ⟨c, hc, hanswer⟩
    obtain ⟨he, htoken⟩ := (resolve_eq_some_iff (reachable c hc).covers).1 hanswer
    exact ⟨⟨c, hc, he⟩, htoken⟩

/-- The sources may be asked in any order: there is no second answer to be found. -/
theorem resolve_union_eq_findSome? {tried : List IndexedCatalog} (order : tried.Perm cs)
    (token : String) : u.resolve token = tried.findSome? (·.resolve token) := by
  refine (findSome?_eq_of_iff fun e => ?_).symm
  simp only [resolve_union_eq_some_iff reachable h, order.mem_iff]

theorem resolve_union_eq_none_iff {token : String} :
    u.resolve token = none ↔ ∀ c ∈ cs, c.resolve token = none := by
  rw [resolve_union_eq_findSome? reachable h (List.Perm.refl cs), List.findSome?_eq_none_iff]

theorem entry_union_eq_ok_iff {key : String} {e : Entry} :
    u.entry key = .ok e ↔ ∃ c ∈ cs, c.entry key = .ok e := by
  have covers := (Reachable.union reachable h).covers
  rw [entry_eq_ok_iff covers, (union_eq_ok h).2, List.mem_flatMap]
  constructor
  · rintro ⟨⟨c, hc, he⟩, hkey⟩
    exact ⟨c, hc, (entry_eq_ok_iff (reachable c hc).covers).2 ⟨he, hkey⟩⟩
  · rintro ⟨c, hc, hanswer⟩
    obtain ⟨he, hkey⟩ := (entry_eq_ok_iff (reachable c hc).covers).1 hanswer
    exact ⟨⟨c, hc, he⟩, hkey⟩

theorem containsKey_union_iff {key : String} :
    u.containsKey key = true ↔ ∃ c ∈ cs, c.containsKey key = true := by
  have covers := (Reachable.union reachable h).covers
  rw [← exists_entry_iff covers]
  simp only [entry_union_eq_ok_iff reachable h]
  constructor
  · rintro ⟨e, c, hc, he⟩
    exact ⟨c, hc, (exists_entry_iff (reachable c hc).covers).1 ⟨e, he⟩⟩
  · rintro ⟨c, hc, hkey⟩
    obtain ⟨e, he⟩ := (exists_entry_iff (reachable c hc).covers).2 hkey
    exact ⟨e, c, hc, he⟩

theorem entry_union_eq_error_iff {key : String} {d : Defect} :
    u.entry key = .error d ↔
      d = .unknownKey key name ∧ ∀ c ∈ cs, c.containsKey key = false := by
  have covers := (Reachable.union reachable h).covers
  rw [entry_eq_error_iff covers, (union_eq_ok h).1, ← Bool.not_eq_true,
    containsKey_union_iff reachable h]
  simp only [not_exists, not_and, Bool.not_eq_true]

variable {i j : Nat} {a b : IndexedCatalog} (ha : cs[i]? = some a) (hb : cs[j]? = some b)
include ha hb

/-- One source answers a token. -/
theorem source_eq_of_resolve {token : String} (hat : a.resolve token ≠ none)
    (hbt : b.resolve token ≠ none) : i = j := by
  obtain ⟨x, hx⟩ := Option.ne_none_iff_exists'.1 hat
  obtain ⟨y, hy⟩ := Option.ne_none_iff_exists'.1 hbt
  rw [resolve_eq_some_iff (reachable a (List.mem_of_getElem? ha)).covers] at hx
  rw [resolve_eq_some_iff (reachable b (List.mem_of_getElem? hb)).covers] at hy
  exact source_eq_of_not_apart h ha hb hx.1 hy.1 fun apart => apart.2 token hx.2 hy.2

/-- One source contains a key. -/
theorem source_eq_of_containsKey {key : String} (hak : a.containsKey key = true)
    (hbk : b.containsKey key = true) : i = j := by
  rw [containsKey_iff (reachable a (List.mem_of_getElem? ha)).covers] at hak
  rw [containsKey_iff (reachable b (List.mem_of_getElem? hb)).covers] at hbk
  obtain ⟨x, hx, hxkey⟩ := hak
  obtain ⟨y, hy, hykey⟩ := hbk
  exact source_eq_of_not_apart h ha hb hx hy fun apart => apart.1 (hxkey.trans hykey.symm)

end Answers

/-- **A union answers as its sources do, one by one.**  A token and a key each belong to
one place among the sources at most. The union gives the answer of that source, whichever
order the sources are asked in, and knows nothing that no source knows. -/
theorem look_up_union_by_sources (reachable : ∀ c ∈ cs, c.Reachable)
    (h : union name cs = .ok u) :
    u.name = name ∧ u.entries = cs.flatMap (·.entries) ∧ u.size = (cs.map (·.size)).sum ∧
      (∀ token,
        (∀ (i j : Nat) (a b : IndexedCatalog), cs[i]? = some a → cs[j]? = some b →
          a.resolve token ≠ none → b.resolve token ≠ none → i = j) ∧
        (∀ e, u.resolve token = some e ↔ ∃ c ∈ cs, c.resolve token = some e) ∧
        (u.resolve token = none ↔ ∀ c ∈ cs, c.resolve token = none) ∧
        ∀ tried : List IndexedCatalog, tried.Perm cs →
          u.resolve token = tried.findSome? (·.resolve token)) ∧
      ∀ key,
        (∀ (i j : Nat) (a b : IndexedCatalog), cs[i]? = some a → cs[j]? = some b →
          a.containsKey key = true → b.containsKey key = true → i = j) ∧
        (∀ e, u.entry key = .ok e ↔ ∃ c ∈ cs, c.entry key = .ok e) ∧
        ∀ d, u.entry key = .error d ↔
          d = .unknownKey key name ∧ ∀ c ∈ cs, c.containsKey key = false := by
  obtain ⟨hname, hentries⟩ := union_eq_ok h
  refine ⟨hname, hentries, size_union h, fun token => ?_, fun key => ?_⟩
  · refine ⟨?_, fun _ => resolve_union_eq_some_iff reachable h,
      resolve_union_eq_none_iff reachable h, ?_⟩
    · intro i j a b ha hb hat hbt
      exact source_eq_of_resolve reachable h ha hb hat hbt
    · intro tried order
      exact resolve_union_eq_findSome? reachable h order token
  · refine ⟨?_, fun _ => entry_union_eq_ok_iff reachable h,
      fun _ => entry_union_eq_error_iff reachable h⟩
    intro i j a b ha hb hak hbk
    exact source_eq_of_containsKey reachable h ha hb hak hbk

/-- The catalogs of these names, each built flag by flag. -/
def built (ss : List (String × List Catalog.Declaration)) : Except Defect (List IndexedCatalog) :=
  ss.mapM fun s => ofBuilder ((Catalog.Builder.start s.1).flagAll s.2)

theorem reachable_of_built {ss : List (String × List Catalog.Declaration)}
    (h : built ss = .ok cs) : ∀ c ∈ cs, c.Reachable := by
  intro c hc
  obtain ⟨s, _, hs⟩ := (mem_of_map_eq_map_ok (mapM_eq_ok_iff.1 h)).1 hc
  exact .ofBuilder hs

/-- Two catalogs of one flag each, between two that have none. -/
def runSources : Except Defect (List IndexedCatalog) :=
  built [("none", []), ("base", [⟨"WORKING_DIR", "--working-dir", some "-w"⟩]),
    ("output", [⟨"OUTPUT_PATH", "--output-path", some "-o"⟩]), ("none", [])]

theorem look_up_union_by_sources_runSources :
    ∃ cs u, runSources = .ok cs ∧ (∀ c ∈ cs, c.Reachable) ∧ union "run" cs = .ok u ∧
      u.size = (cs.map (·.size)).sum ∧
      u.resolve "-o" = cs.reverse.findSome? (·.resolve "-o") ∧
      u.entry "COLOR" = .error (.unknownKey "COLOR" "run") := by
  have hrun : (runSources.map fun cs => ((union "run" cs).map (·.size),
      cs.all fun c => !c.containsKey "COLOR")) = .ok (.ok 2, true) := by
    decide +kernel
  obtain ⟨cs, hcs, hfacts⟩ := map_eq_ok_iff.1 hrun
  obtain ⟨hunion, hcolor⟩ := Prod.mk.inj hfacts
  obtain ⟨u, hu, _⟩ := map_eq_ok_iff.1 hunion
  have unknown : ∀ c ∈ cs, c.containsKey "COLOR" = false := by simpa using hcolor
  have reachable := reachable_of_built hcs
  obtain ⟨_, _, hsize, hresolve, hentry⟩ := look_up_union_by_sources reachable hu
  exact ⟨cs, u, hcs, reachable, hu, hsize, (hresolve "-o").2.2.2 _ cs.reverse_perm,
    ((hentry "COLOR").2.2 _).2 ⟨rfl, unknown⟩⟩

/-! ## Unions among the sources -/

section Nested

variable {m n : String} {xs ys zs : List IndexedCatalog}

/-- A union among the sources stands for its own sources, in success and in failure. -/
theorem union_nested (h : union m ys = .ok u) :
    union n (xs ++ [u] ++ zs) = union n (xs ++ ys ++ zs) := by
  have same : (xs ++ [u] ++ zs).flatMap (·.entries) = (xs ++ ys ++ zs).flatMap (·.entries) := by
    simp only [List.flatMap_append, List.flatMap_singleton, (union_eq_ok h).2]
  rw [union, union, same]

/-- Some of the sources of a union form a union as well. -/
theorem exists_union_of_sublist (hsub : ys.Sublist cs) (h : union n cs = .ok u) :
    ∃ v, union m ys = .ok v :=
  exists_union_iff.2 ((exists_union_iff.1 ⟨u, h⟩).sublist hsub)

/-- Catalogs that clash among themselves clash in any company. What is reported may be a
clash with the company. -/
theorem exists_union_eq_error {d : Defect} (h : union m ys = .error d) :
    ∃ d', union n (xs ++ ys ++ zs) = .error d' := by
  cases hall : union n (xs ++ ys ++ zs) with
  | error d' => exact ⟨d', rfl⟩
  | ok v =>
      have hsub : ys.Sublist (xs ++ ys ++ zs) :=
        (List.sublist_append_right xs ys).trans (List.sublist_append_left _ zs)
      obtain ⟨w, hw⟩ := exists_union_of_sublist (m := m) hsub hall
      rw [h] at hw
      cases hw

end Nested

/-- **Unions flatten.**  A union among the sources of another can be replaced by its own
sources: the results are the same, be it a catalog or a defect. Sources that form no union
form none together with others. The union of one catalog under its own name is that
catalog. -/
theorem union_flattens (n m : String) (xs ys zs : List IndexedCatalog) :
    (∀ u, union m ys = .ok u → union n (xs ++ [u] ++ zs) = union n (xs ++ ys ++ zs)) ∧
      (∀ d, union m ys = .error d → ∃ d', union n (xs ++ ys ++ zs) = .error d') ∧
      ∀ c : IndexedCatalog, c.Reachable → union c.name [c] = .ok c := by
  refine ⟨fun u => union_nested, fun d => exists_union_eq_error, fun c reachable => ?_⟩
  rw [union, List.flatMap_singleton]
  exact reachable.ofEntries_self

/-- Two catalogs that share a short name. -/
def widthSources : Except Defect (List IndexedCatalog) :=
  built [("base", [⟨"WORKING_DIR", "--working-dir", some "-w"⟩]),
    ("output", [⟨"WIDTH", "--width", some "-w"⟩])]

theorem union_flattens_widthSources :
    ∃ base output u d d', widthSources = .ok [base, output] ∧ base.Reachable ∧
      union "all" [base] = .ok u ∧
      union "run" ([] ++ [u] ++ [output]) = union "run" ([] ++ [base] ++ [output]) ∧
      union "all" [base, output] = .error d ∧
      union "run" ([base] ++ [base, output] ++ []) = .error d' ∧
      union base.name [base] = .ok base := by
  have hwidth : (widthSources.map fun cs => (cs.length, (union "all" cs).isOk)) =
      .ok (2, false) := by
    decide +kernel
  obtain ⟨cs, hcs, hfacts⟩ := map_eq_ok_iff.1 hwidth
  obtain ⟨hlength, hclash⟩ := Prod.mk.inj hfacts
  obtain ⟨base, output, rfl⟩ := List.length_eq_two.1 hlength
  have hbase : ∃ u, union "all" [base] = .ok u :=
    exists_union_iff.2 (List.pairwise_singleton Disjoint base)
  obtain ⟨u, hu⟩ := hbase
  have reachable := reachable_of_built hcs base (by simp)
  cases hunion : union "all" [base, output] with
  | ok v => rw [hunion] at hclash; cases hclash
  | error d =>
      obtain ⟨d', hd'⟩ := (union_flattens "run" "all" [base] [base, output] []).2.1 d hunion
      exact ⟨base, output, u, d, d', hcs, reachable, hu,
        (union_flattens "run" "all" [] [base] [output]).1 u hu, hunion, hd',
        (union_flattens "run" "all" [] [] []).2.2 base reachable⟩

end OptionAtlas.IndexedCatalog
