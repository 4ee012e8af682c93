import Mathlib.Data.List.Perm.Basic
import OptionAtlas.Proofs.Table.Acceptance

/-!
# The order within a table

Which catalog comes first, in which order a catalog declares its flags and in which
order a command names what it takes can change the defect that is reported for a table,
but neither whether the table is accepted nor any answer of the registry read from it.

## Main definitions

* `Table.Reordered` — two tables that differ in the order of their parts.
* `Table.Gives` — a table gives a flag of a catalog to a command.

## Main statements

* `Table.Reordered.accepted` — whether a table is accepted does not depend on the order.
* `Table.resolve_eq_some_iff_gives` — answers as membership in the table.
-/

namespace OptionAtlas

/-! ## Tables that differ in the order of their parts -/

/-- The same catalog with its flags in some order. -/
structure Table.Section.Reordered (s s' : Table.Section) : Prop where
  name : s.name = s'.name
  flags : s.flags.Perm s'.flags

/-- The same command with what it takes in some order. -/
structure Recipe.Reordered (q q' : Recipe) : Prop where
  name : q.name = q'.name
  catalogs : q.catalogs.Perm q'.catalogs
  picks : q.picks.Perm q'.picks

/-- The elements of a list, each with its parts in some order, themselves in some order. -/
def Rearranged {α : Type} (same : α → α → Prop) (xs ys : List α) : Prop :=
  ∃ zs, List.Forall₂ same xs zs ∧ zs.Perm ys

/-- The same version, catalogs and commands, each in some order. -/
structure Table.Reordered (t u : Table) : Prop where
  version : t.version = u.version
  catalogs : Rearranged Section.Reordered t.catalogs u.catalogs
  commands : Rearranged Recipe.Reordered t.commands u.commands

theorem Table.Section.Reordered.symm {s s' : Table.Section} (h : s.Reordered s') :
    s'.Reordered s :=
  ⟨h.name.symm, h.flags.symm⟩

theorem Recipe.Reordered.symm {q q' : Recipe} (h : q.Reordered q') : q'.Reordered q :=
  ⟨h.name.symm, h.catalogs.symm, h.picks.symm⟩

namespace Rearranged

variable {α β : Type} {same : α → α → Prop} {xs ys : List α}

theorem symm (hsame : ∀ x y, same x y → same y x) (h : Rearranged same xs ys) :
    Rearranged same ys xs := by
  obtain ⟨zs, hall, hperm⟩ := h
  have hback : List.Forall₂ same zs xs := hall.flip.imp fun z x hxz => hsame x z hxz
  obtain ⟨ws, hall', hperm'⟩ := List.perm_comp_forall₂ hperm.symm hback
  exact ⟨ws, hall', hperm'⟩

/-- What the order of the parts does not change has the same values. -/
theorem map_perm (h : Rearranged same xs ys) {f : α → β} (hf : ∀ x y, same x y → f x = f y) :
    (xs.map f).Perm (ys.map f) := by
  obtain ⟨zs, hall, hperm⟩ := h
  have heq : xs.map f = zs.map f := by
    clear hperm
    induction hall with
    | nil => rfl
    | cons hxz _ ih => rw [List.map_cons, List.map_cons, hf _ _ hxz, ih]
  exact heq ▸ hperm.map f

theorem exists_of_mem (h : Rearranged same xs ys) {x : α} (hx : x ∈ xs) :
    ∃ y ∈ ys, same x y := by
  obtain ⟨zs, hall, hperm⟩ := h
  obtain ⟨z, hz, hsame⟩ : ∃ z ∈ zs, same x z := by
    clear hperm
    induction hall with
    | nil => simp at hx
    | @cons a z as zs haz _ ih =>
        rcases List.mem_cons.1 hx with rfl | hx
        · exact ⟨z, by simp, haz⟩
        · obtain ⟨z', hz', hsame⟩ := ih hx
          exact ⟨z', by simp [hz'], hsame⟩
  exact ⟨z, hperm.subset hz, hsame⟩

end Rearranged

namespace Table

variable {t u : Table}

theorem Reordered.symm (h : t.Reordered u) : u.Reordered t where
  version := h.version.symm
  catalogs := h.catalogs.symm fun _ _ => Section.Reordered.symm
  commands := h.commands.symm fun _ _ => Recipe.Reordered.symm

/-! ## Acceptance -/

theorem Clear.of_perm {ds ds' : List Catalog.Declaration} (hperm : ds.Perm ds') (h : Clear ds) :
    Clear ds' where
  keys := (hperm.map _).nodup_iff.1 h.keys
  spellings := by
    refine hperm.pairwise h.spellings ?_
    intro a b hab s hb ha
    exact hab s ha hb

/-- Under a name stand the same flags, whatever their order within the catalogs. -/
theorem flags_perm_of_forall₂ {ss ss' : List Section} (h : List.Forall₂ Section.Reordered ss ss')
    (name : String) :
    ((ss.filter fun s => s.name = name).flatMap (·.flags)).Perm
      ((ss'.filter fun s => s.name = name).flatMap (·.flags)) := by
  induction h with
  | nil => exact .refl _
  | @cons s s' ss ss' hs _ ih =>
      by_cases hname : s.name = name
      · have hname' : s'.name = name := hs.name ▸ hname
        rw [List.filter_cons_of_pos (by simpa using hname),
          List.filter_cons_of_pos (by simpa using hname'), List.flatMap_cons, List.flatMap_cons]
        exact hs.flags.append ih
      · have hname' : s'.name ≠ name := hs.name ▸ hname
        rw [List.filter_cons_of_neg (by simpa using hname),
          List.filter_cons_of_neg (by simpa using hname')]
        exact ih

theorem flagsOf_perm (h : t.Reordered u) (name : String) :
    (t.flagsOf name).Perm (u.flagsOf name) := by
  obtain ⟨ss, hall, hperm⟩ := h.catalogs
  exact (flags_perm_of_forall₂ hall name).trans ((hperm.filter _).flatMap_right _)

theorem taken_perm (h : t.Reordered u) {q q' : Recipe} (hq : q.Reordered q') :
    (t.taken q).Perm (u.taken q') := by
  have hwhole : (q.catalogs.flatMap t.flagsOf).Perm (q'.catalogs.flatMap u.flagsOf) :=
    hq.catalogs.flatMap fun n _ => flagsOf_perm h n
  have hpicked : (q.picks.flatMap t.flagsAt).Perm (q'.picks.flatMap u.flagsAt) :=
    hq.picks.flatMap fun p _ => (flagsOf_perm h p.catalog).filter _
  exact hwhole.append hpicked

/-- Catalogs and commands fit together in every order. -/
theorem Reordered.composable (h : t.Reordered u) (ht : t.Composable) : u.Composable := by
  have back := h.symm
  refine ⟨?_, ?_, ?_, ?_, ?_⟩
  · exact (h.catalogs.map_perm fun _ _ hs => hs.name).nodup_iff.1 ht.catalogs_distinct
  · exact (h.commands.map_perm fun _ _ hq => hq.name).nodup_iff.1 ht.commands_distinct
  · intro q' hq' n hn
    obtain ⟨q, hq, hsame⟩ := back.commands.exists_of_mem hq'
    obtain ⟨s, hs, rfl⟩ := ht.catalogs_declared q hq n (hsame.catalogs.subset hn)
    obtain ⟨s', hs', hsame'⟩ := h.catalogs.exists_of_mem hs
    exact ⟨s', hs', hsame'.name.symm⟩
  · intro q' hq' p hp
    obtain ⟨q, hq, hsame⟩ := back.commands.exists_of_mem hq'
    obtain ⟨s, hs, hname, d, hd, hkey⟩ := ht.picks_declared q hq p (hsame.picks.subset hp)
    obtain ⟨s', hs', hsame'⟩ := h.catalogs.exists_of_mem hs
    exact ⟨s', hs', hsame'.name ▸ hname, d, hsame'.flags.subset hd, hkey⟩
  · intro q' hq'
    obtain ⟨q, hq, hsame⟩ := back.commands.exists_of_mem hq'
    exact (ht.taken_clear q hq).of_perm (taken_perm h hsame.symm)

/-- A table is accepted when its version is known, its catalogs can be declared and its
commands fit them. -/
theorem exists_toRegistry_iff_declared :
    (∃ r, t.toRegistry = .ok r) ↔
      supported t.version = true ∧ (∃ cs, t.builtCatalogs = .ok cs) ∧ t.Composable := by
  constructor
  · intro h
    rcases h with ⟨r, hr⟩
    obtain ⟨hversion, hcatalogs, native, hrecipes⟩ := toRegistry_eq_ok_iff.1 hr
    have hcomposable := (exists_build_iff_composable hcatalogs).1
      ⟨r, Registry.build_eq_ok_iff.2 ⟨rfl, hrecipes⟩⟩
    exact ⟨hversion, ⟨_, builtCatalogs_eq_ok_iff.2 ⟨hcatalogs, native⟩⟩, hcomposable⟩
  · intro h
    rcases h with ⟨hversion, ⟨cs, hcs⟩, hcomposable⟩
    obtain ⟨hcatalogs, native⟩ := builtCatalogs_eq_ok_iff.1 hcs
    obtain ⟨r, hr⟩ := (exists_build_iff_composable hcatalogs).2 hcomposable
    obtain ⟨rfl, hrecipes⟩ := Registry.build_eq_ok_iff.1 hr
    exact ⟨r, toRegistry_eq_ok_iff.2 ⟨hversion, hcatalogs, native, hrecipes⟩⟩

/-- A table is accepted in every order. -/
theorem Reordered.accepted (h : t.Reordered u) (ht : ∃ r, t.toRegistry = .ok r) :
    ∃ r, u.toRegistry = .ok r := by
  rw [exists_toRegistry_iff_declared, exists_builtCatalogs_iff] at ht ⊢
  obtain ⟨hversion, hdeclared, hcomposable⟩ := ht
  refine ⟨h.version ▸ hversion, ?_, h.composable hcomposable⟩
  intro s' hs'
  obtain ⟨s, hs, hsame⟩ := h.symm.catalogs.exists_of_mem hs'
  obtain ⟨named, clear⟩ := hdeclared s hs
  exact ⟨fun d hd => named d (hsame.flags.subset hd), clear.of_perm hsame.flags.symm⟩

/-! ## Answers -/

/-- The table declares the entry `e` in a catalog and gives it to the command: a recipe
of that name takes the catalog whole or picks the key from it. -/
def Gives (t : Table) (command : String) (e : Entry) : Prop :=
  ∃ q ∈ t.commands, q.name = command ∧ ∃ s ∈ t.catalogs,
    s.name = e.group ∧ declarationOf e ∈ s.flags ∧
      (s.name ∈ q.catalogs ∨ ⟨s.name, e.key⟩ ∈ q.picks)

theorem eq_of_declarationOf_eq {e e' : Entry} (hgroup : e.group = e'.group)
    (h : declarationOf e = declarationOf e') : e = e' := by
  obtain ⟨key, group, ⟨long, short, _, _⟩⟩ := e
  obtain ⟨key', group', ⟨long', short', _, _⟩⟩ := e'
  obtain ⟨rfl, rfl, rfl⟩ := Catalog.Declaration.mk.inj h
  obtain rfl : group = group' := hgroup
  rfl

theorem gives_iff_takes {r : Registry} (h : t.toRegistry = .ok r) {command : String} {e : Entry} :
    t.Gives command e ↔
      ∃ q ∈ r.recipes, q.name = command ∧ ∃ c ∈ r.catalogs, q.Takes c e := by
  obtain ⟨_, hcatalogs, native, hrecipes⟩ := toRegistry_eq_ok_iff.1 h
  rw [Gives, hrecipes, ← hcatalogs]
  constructor
  · intro h
    rcases h with ⟨q, hq, hname, s, hs, hgroup, hd, htaken⟩
    obtain ⟨c, hc, rfl⟩ := List.mem_map.1 hs
    obtain ⟨e', he', hdecl⟩ := List.mem_map.1 hd
    obtain rfl := eq_of_declarationOf_eq ((native c hc e' he').trans hgroup) hdecl
    exact ⟨q, hq, hname, c, hc, he', htaken⟩
  · intro h
    rcases h with ⟨q, hq, hname, c, hc, he, htaken⟩
    exact ⟨q, hq, hname, sectionOf c, List.mem_map_of_mem hc, (native c hc e he).symm,
      List.mem_map_of_mem he, htaken⟩

/-- The registry read from a table answers with what the table gives to a command. -/
theorem resolve_eq_some_iff_gives {r : Registry} (h : t.toRegistry = .ok r)
    {command token : String} {e : Entry} :
    r.resolve command token = .ok (some e) ↔
      token ∈ e.flag.spellings ∧ t.Gives command e := by
  rw [Registry.resolve_eq_some_iff, gives_iff_takes h]

theorem Reordered.gives (h : t.Reordered u) {command : String} {e : Entry}
    (ht : t.Gives command e) : u.Gives command e := by
  obtain ⟨q, hq, hname, s, hs, hgroup, hd, htaken⟩ := ht
  obtain ⟨q', hq', hsameq⟩ := h.commands.exists_of_mem hq
  obtain ⟨s', hs', hsames⟩ := h.catalogs.exists_of_mem hs
  refine ⟨q', hq', hsameq.name ▸ hname, s', hs', hsames.name ▸ hgroup,
    hsames.flags.subset hd, ?_⟩
  rw [← hsames.name]
  exact htaken.imp (fun hn => hsameq.catalogs.subset hn) fun hp => hsameq.picks.subset hp

theorem Reordered.resolve_error {r r' : Registry} (h : t.Reordered u)
    (ht : t.toRegistry = .ok r) (hu : u.toRegistry = .ok r') {command token : String} {d : Defect}
    (hd : r.resolve command token = .error d) : r'.resolve command token = .error d := by
  obtain ⟨_, _, _, hrecipes⟩ := toRegistry_eq_ok_iff.1 ht
  obtain ⟨_, _, _, hrecipes'⟩ := toRegistry_eq_ok_iff.1 hu
  rw [Registry.resolve_eq_error_iff, hrecipes] at hd
  rw [Registry.resolve_eq_error_iff, hrecipes']
  refine ⟨hd.1, ?_⟩
  intro q' hq' hname
  obtain ⟨q, hq, hsame⟩ := h.symm.commands.exists_of_mem hq'
  exact hd.2 q hq (hsame.name ▸ hname)

/-- **Order never changes what a table means.**  Tables that differ in the order of their
parts are accepted together, and the registries read from them give the same answers. -/
theorem resolve_of_reordered (h : t.Reordered u) :
    ((∃ r, t.toRegistry = .ok r) ↔ ∃ r', u.toRegistry = .ok r') ∧
      ∀ r r', t.toRegistry = .ok r → u.toRegistry = .ok r' →
        ∀ command token, r.resolve command token = r'.resolve command token := by
  refine ⟨?_, ?_⟩
  · exact ⟨h.accepted, h.symm.accepted⟩
  · intro r r' ht hu command token
    have hsome : ∀ e, r.resolve command token = .ok (some e) ↔
        r'.resolve command token = .ok (some e) := by
      intro e
      rw [resolve_eq_some_iff_gives ht, resolve_eq_some_iff_gives hu]
      exact and_congr_right fun _ => ⟨h.gives, h.symm.gives⟩
    have herror : ∀ d, r.resolve command token = .error d ↔
        r'.resolve command token = .error d :=
      fun d => ⟨h.resolve_error ht hu, h.symm.resolve_error hu ht⟩
    cases hanswer : r.resolve command token with
    | error d => exact ((herror d).1 hanswer).symm
    | ok found =>
        cases found with
        | some e => exact ((hsome e).1 hanswer).symm
        | none =>
            -- Any other answer on the right would be one on the left.
            cases hanswer' : r'.resolve command token with
            | error d => rw [(herror d).2 hanswer'] at hanswer; cases hanswer
            | ok found' =>
                cases found' with
                | none => rfl
                | some e => rw [(hsome e).2 hanswer'] at hanswer; cases hanswer

/-- Three catalogs of which two clash, and two commands. -/
def layeredTable : Table where
  version := "1.0"
  catalogs :=
    [⟨"base", [⟨"WORKING_DIR", "--working-dir", some "-w"⟩, ⟨"NO_CACHE", "--no-cache", none⟩]⟩,
     ⟨"trace", [⟨"TRACE", "--trace", none⟩]⟩,
     ⟨"output", [⟨"OUTPUT_PATH", "--output-path", some "-o"⟩, ⟨"WIDTH", "--width", some "-w"⟩]⟩]
  commands :=
    [⟨"repl", ["base", "trace"], []⟩,
     ⟨"export", ["trace"], [⟨"output", "WIDTH"⟩, ⟨"base", "NO_CACHE"⟩]⟩]

/-- The same table with everything turned round. -/
def turnedTable : Table where
  version := "1.0"
  catalogs :=
    [⟨"output", [⟨"WIDTH", "--width", some "-w"⟩, ⟨"OUTPUT_PATH", "--output-path", some "-o"⟩]⟩,
     ⟨"trace", [⟨"TRACE", "--trace", none⟩]⟩,
     ⟨"base", [⟨"NO_CACHE", "--no-cache", none⟩, ⟨"WORKING_DIR", "--working-dir", some "-w"⟩]⟩]
  commands :=
    [⟨"export", ["trace"], [⟨"base", "NO_CACHE"⟩, ⟨"output", "WIDTH"⟩]⟩,
     ⟨"repl", ["trace", "base"], []⟩]

theorem reordered_layeredTable : layeredTable.Reordered turnedTable where
  version := rfl
  catalogs := ⟨turnedTable.catalogs.reverse,
    .cons ⟨rfl, by decide⟩ (.cons ⟨rfl, by decide⟩ (.cons ⟨rfl, by decide⟩ .nil)),
    List.reverse_perm _⟩
  commands := ⟨turnedTable.commands.reverse,
    .cons ⟨rfl, by decide, by decide⟩ (.cons ⟨rfl, by decide, by decide⟩ .nil),
    List.reverse_perm _⟩

theorem resolve_of_reordered_layeredTable :
    layeredTable.Reordered turnedTable ∧
      ∃ r r', layeredTable.toRegistry = .ok r ∧ turnedTable.toRegistry = .ok r' ∧
        ∀ command token, r.resolve command token = r'.resolve command token := by
  have hok : layeredTable.toRegistry.isOk = true := by decide +kernel
  obtain ⟨accepted, answers⟩ := resolve_of_reordered reordered_layeredTable
  cases h : layeredTable.toRegistry with
  | error d => rw [h] at hok; cases hok
  | ok r =>
      obtain ⟨r', h'⟩ := accepted.1 ⟨r, h⟩
      exact ⟨reordered_layeredTable, r, r', rfl, h', answers r r' h h'⟩

end Table

end OptionAtlas
