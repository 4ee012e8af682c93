import OptionAtlas.Proofs.Source
import OptionAtlas.Proofs.Yaml.Layout
import OptionAtlas.Table.Schema

/-!
# Tables are read as they are written

The fields of a table are described once for reading and once for writing. Both agree:
whatever the format, as long as it keeps the laws of sources, a table is read from its
own document. Nothing is assumed about the texts in it. The document of a table has the
shape that block style asks for: no record in it is empty, and no list is an item.

## Main statements

* `Table.reads_source` — a table is read from the document that is written for it.
* `Table.laid_tree` — this document can be written in block style.
-/

namespace OptionAtlas.Table

open OptionAtlas LawfulSource

variable {m : Type → Type} [Monad m] [Source m] [LawfulSource m]

/-! ## Fields -/

section Fields

variable {α β : Type} {name : String} {a : α}

theorem reads_textField (put : α → String → α) (s : String) :
    Reads ((textField (m := m) name put).read a) (.text s) (put a s) :=
  reads_map (put a) (reads_text s)

theorem reads_listField {item : m β} {write : β → Tree} {bs : List β} (put : α → List β → α)
    (h : ∀ b ∈ bs, Reads item (write b) b) :
    Reads ((listField name item put).read a) (.list (bs.map write)) (put a bs) :=
  reads_map (put a) (reads_items h)

end Fields

/-! ## Records -/

/-- A flag is read back with its short name or without one. -/
theorem reads_declarationSource (d : Catalog.Declaration) :
    Reads (declarationSource (m := m)) (declarationTree d) d := by
  obtain ⟨key, long, short⟩ := d
  refine reads_record (.cons rfl (reads_textField _ key)
    (.cons rfl (reads_textField _ long) ?_)) ?_ ?_
  · cases short with
    | none => exact .nil _
    | some short => exact .cons rfl (reads_map _ (reads_optionalText short)) (.nil _)
  · cases short <;> simp [Tree.optional]
  · simp [textField]

theorem reads_sectionSource (s : Section) : Reads (sectionSource (m := m)) (sectionTree s) s := by
  refine reads_record (.cons rfl (reads_textField _ s.name)
    (.cons rfl (reads_listField _ ?_) (.nil _))) (by simp) (by simp [textField, listField])
  intro d _
  exact reads_declarationSource d

theorem reads_pickSource (p : Pick) : Reads (pickSource (m := m)) (pickTree p) p :=
  reads_record (.cons rfl (reads_textField _ p.catalog)
    (.cons rfl (reads_textField _ p.key) (.nil _))) (by simp) (by simp [textField])

theorem reads_recipeSource (q : Recipe) : Reads (recipeSource (m := m)) (recipeTree q) q := by
  refine reads_record (.cons rfl (reads_textField _ q.name) (.cons rfl (reads_listField _ ?_)
    (.cons rfl (reads_listField _ ?_) (.nil _)))) (by simp) (by simp [textField, listField])
  · intro n _
    exact reads_text n
  · intro p _
    exact reads_pickSource p

/-- A table is read from the document that is written for it. -/
theorem reads_source (t : Table) : Reads (source (m := m)) t.tree t := by
  refine reads_record (.cons rfl (reads_textField _ t.version) (.cons rfl (reads_listField _ ?_)
    (.cons rfl (reads_listField _ ?_) (.nil _)))) (by simp) (by simp [textField, listField])
  · intro s _
    exact reads_sectionSource s
  · intro q _
    exact reads_recipeSource q

/-! ## Block style -/

theorem laid_list {α : Type} {write : α → Tree} (as : List α) (items : ∀ a, (write a).Laid)
    (flat : ∀ a us, write a ≠ .list us) : (Tree.list (as.map write)).Laid := by
  refine .list ?_ ?_
  · intro t ht
    obtain ⟨a, -, rfl⟩ := List.mem_map.1 ht
    exact items a
  · intro t ht
    obtain ⟨a, -, rfl⟩ := List.mem_map.1 ht
    exact flat a

theorem laid_record {fs : List (String × Tree)} (ne_nil : fs ≠ [])
    (names : ∀ k ∈ fs.map Prod.fst, Yaml.FieldName k) (values : ∀ t ∈ fs.map Prod.snd, t.Laid) :
    (Tree.record fs).Laid :=
  .record ne_nil (fun f hf => names f.1 (List.mem_map_of_mem hf))
    (fun f hf => values f.2 (List.mem_map_of_mem hf))

theorem laid_declarationTree (d : Catalog.Declaration) : (declarationTree d).Laid := by
  obtain ⟨key, long, short⟩ := d
  cases short with
  | none =>
      have names : ∀ k ∈ ["key", "long"], Yaml.FieldName k := by decide
      exact laid_record (by simp) names (by simp [Tree.optional, Tree.Laid.text])
  | some short =>
      have names : ∀ k ∈ ["key", "long", "short"], Yaml.FieldName k := by decide
      exact laid_record (by simp) names (by simp [Tree.optional, Tree.Laid.text])

theorem laid_sectionTree (s : Section) : (sectionTree s).Laid := by
  have names : ∀ k ∈ ["name", "flags"], Yaml.FieldName k := by decide
  have hflags := laid_list s.flags laid_declarationTree (fun _ _ => by simp [declarationTree])
  exact laid_record (by simp) names (by simpa [Tree.Laid.text] using hflags)

theorem laid_pickTree (p : Pick) : (pickTree p).Laid := by
  have names : ∀ k ∈ ["catalog", "key"], Yaml.FieldName k := by decide
  exact laid_record (by simp) names (by simp [Tree.Laid.text])

theorem laid_recipeTree (q : Recipe) : (recipeTree q).Laid := by
  have names : ∀ k ∈ ["name", "catalogs", "flags"], Yaml.FieldName k := by decide
  have hnames := laid_list q.catalogs Tree.Laid.text (by simp)
  have hpicks := laid_list q.picks laid_pickTree (fun _ _ => by simp [pickTree])
  exact laid_record (by simp) names
    (by simpa [Tree.Laid.text, Tree.texts] using ⟨hnames, hpicks⟩)

/-- The document of a table can be written in block style. -/
theorem laid_tree (t : Table) : t.tree.Laid := by
  have names : ∀ k ∈ ["version", "catalogs", "commands"], Yaml.FieldName k := by decide
  have hsections := laid_list t.catalogs laid_sectionTree (fun _ _ => by simp [sectionTree])
  have hrecipes := laid_list t.commands laid_recipeTree (fun _ _ => by simp [recipeTree])
  exact laid_record (by simp) names (by simpa [Tree.Laid.text] using ⟨hsections, hrecipes⟩)

end OptionAtlas.Table
