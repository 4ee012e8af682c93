import Mathlib.Data.List.Forall2
import OptionAtlas.Catalog.Indexed
import OptionAtlas.Program
import OptionAtlas.Proofs.Flag.Usage
import OptionAtlas.Proofs.Json.Form

/-!
# Catalogs as documents

The document of a catalog holds its name and its entries in order, each with the key, the
group and the names of its flag in one record. A short name that is absent has no field, so
the fields of a record tell whether there is one. Since a JSON text belongs to one document,
it belongs to one catalog.

## Main statements

* `Catalog.tree_inj` — the document tells the name and the entries.
* `IndexedCatalog.document_eq_iff` — two catalogs with the same text are the same.
-/

namespace OptionAtlas

/-! ## Entries -/

theorem Flag.eq_iff_names {f g : Flag} : f = g ↔ f.long = g.long ∧ f.short = g.short := by
  constructor
  · rintro rfl
    exact ⟨rfl, rfl⟩
  · intro h
    exact eq_of_names h.1 h.2

theorem Entry.eq_iff_parts {e e' : Entry} :
    e = e' ↔ e.key = e'.key ∧ e.group = e'.group ∧ e.flag.long = e'.flag.long ∧
      e.flag.short = e'.flag.short := by
  cases e
  cases e'
  simp only [mk.injEq, Flag.eq_iff_names]

/-! ## Documents -/

theorem Tree.optional_inj {name : String} {o o' : Option String} :
    Tree.optional name o = Tree.optional name o' ↔ o = o' := by
  cases o <;> cases o' <;> simp [Tree.optional]

theorem Flag.fields_inj {f g : Flag} : f.fields = g.fields ↔ f = g := by
  rw [eq_iff_names, fields, fields, List.cons.injEq, Tree.optional_inj]
  simp

theorem Entry.tree_inj {e e' : Entry} : e.tree = e'.tree ↔ e = e' := by
  simp only [tree, Tree.record.injEq, List.cons_append, List.nil_append, List.cons.injEq,
    Prod.mk.injEq, Tree.text.injEq, true_and, Flag.fields_inj, Flag.eq_iff_names, eq_iff_parts]

/-- The document of a catalog tells everything that is looked up in it. -/
theorem Catalog.tree_inj {a b : Catalog} :
    a.tree = b.tree ↔ a.name = b.name ∧ a.entries = b.entries := by
  have hentries : Function.Injective Entry.tree := fun _ _ => Entry.tree_inj.1
  simp only [tree, Tree.record.injEq, List.cons.injEq, Prod.mk.injEq, Tree.text.injEq,
    Tree.list.injEq, true_and, and_true, List.map_inj_right hentries]

/-! ## Texts -/

theorem showCatalog_json_inj {a b : Catalog} :
    showCatalog a .json = showCatalog b .json ↔ a.tree = b.tree := by
  rw [showCatalog, showCatalog, String.append_left_inj, Json.pretty_inj]

/-- **The text of a catalog identifies it.**  Two catalogs have the same JSON text, as it is
shown or in either form, exactly if they are the same catalog: they agree in name and, entry by
entry, in key, group and long name, and in the short name, be it present or absent. -/
theorem IndexedCatalog.document_eq_iff (a b : IndexedCatalog) :
    (showCatalog a.toCatalog .json = showCatalog b.toCatalog .json ↔ (a == b) = true) ∧
      (Json.pretty a.tree = Json.pretty b.tree ↔ (a == b) = true) ∧
      (Json.compact a.tree = Json.compact b.tree ↔ (a == b) = true) ∧
      ((a == b) = true ↔ a.name = b.name ∧
        List.Forall₂ (fun e e' => e.key = e'.key ∧ e.group = e'.group ∧
          e.flag.long = e'.flag.long ∧ e.flag.short = e'.flag.short) a.entries b.entries) := by
  have htree : a.tree = b.tree ↔ (a == b) = true := by
    rw [Catalog.tree_inj, beq_iff]
  refine ⟨?_, ?_, ?_, ?_⟩
  · rw [showCatalog_json_inj, htree]
  · rw [Json.pretty_inj, htree]
  · rw [Json.compact_inj, htree]
  · simp only [beq_iff, ← Entry.eq_iff_parts, List.forall₂_eq_eq_eq]

end OptionAtlas
