import OptionAtlas.Proofs.Source
import OptionAtlas.Proofs.Yaml.Parsing
import OptionAtlas.Proofs.Yaml.Tokens
import OptionAtlas.Yaml.Reader

/-!
# YAML is read as it is written

The node of a written document holds no anchors and no tags, so readers find in it what
the document says, and follow no alias. The laws of sources hold for them, and a whole
text is read as the document it was written for.

## Main definitions

* `Yaml.ReadsNode` — a reader reads a value from the node of a document.

## Main statements

* `LawfulSource Yaml.Reader` — lists, records and texts are read as they are written.
* `Yaml.readDocument_print` — a whole text.
-/

namespace OptionAtlas.Yaml

/-- From the node of the document the reader reads this value and follows no alias. -/
def ReadsNode {α : Type} (r : Reader α) (t : Tree) (a : α) : Prop :=
  ∀ (context : Context) (followed : Nat), r (nodeOf t) context followed = .ok (a, followed)

namespace Reader

variable {α β : Type} {r : Reader α} {a : α} {n : Node} {context : Context} {k l : Nat}

/-- After a reader that is known, the readers that follow go on from its count. -/
theorem bind_of_ok {next : α → Reader β} (h : r n context k = .ok (a, l)) :
    (r >>= next) n context k = next a n context l := by
  simp only [bind, ReaderT.bind, StateT.bind, h, Except.bind]

theorem into_of_ok {step : Step} {m : Node} (h : r n context k = .ok (a, l)) :
    into step n r m context k = .ok (a, l) := by
  simp only [into, h]

/-- A written node stands for itself. -/
theorem subject_nodeOf (t : Tree) : subject (nodeOf t) context k = .ok (nodeOf t, k) := by
  cases t <;> rw [nodeOf] <;> rfl

end Reader

open Reader

variable {α : Type} {context : Context} {k : Nat}

/-! ## Texts -/

theorem readsNode_map {β : Type} {r : Reader α} {t : Tree} {a : α} (f : α → β)
    (h : ReadsNode r t a) : ReadsNode (r >>= fun x => pure (f x)) t (f a) :=
  fun context k => bind_of_ok (h context k)

theorem readsNode_text (expected s : String) : ReadsNode (text expected) (.text s) s := by
  intro context k
  rw [text, bind_of_ok (subject_nodeOf _), nodeOf]
  rfl

/-- A text that is written plainly is no word for no value. -/
theorem isAbsent_styleOf (s : String) : isAbsent none (styleOf s = .plain) s = .ok false := by
  unfold isAbsent
  rcases styleOf_cases s with ⟨hstyle, htext, -⟩ | ⟨hstyle, -⟩ | hstyle | ⟨hstyle, -⟩
  · simp [ne_nothing_of_readsAsText htext]
  all_goals simp [hstyle]

theorem readsNode_optionalText (s : String) : ReadsNode optionalText (.text s) (some s) := by
  intro context k
  rw [optionalText, bind_of_ok (subject_nodeOf _), nodeOf]
  simp only [isAbsent_styleOf]
  rfl

/-! ## Lists -/

section Lists

variable {r : Reader α} {write : α → Tree} {as : List α}

theorem itemsFrom_nodesOf (h : ∀ a ∈ as, ReadsNode r (write a) a) (i : Nat) (n : Node) :
    itemsFrom r i (nodesOf (as.map write)) n context k = .ok (as, k) := by
  induction as generalizing i with
  | nil => rfl
  | cons a as ih =>
      simp only [List.mem_cons, forall_eq_or_imp] at h
      rw [List.map_cons, nodesOf, itemsFrom, bind_of_ok (into_of_ok (h.1 context k)),
        bind_of_ok (ih h.2 (i + 1))]
      rfl

theorem readsNode_items (h : ∀ a ∈ as, ReadsNode r (write a) a) :
    ReadsNode (items r) (.list (as.map write)) as := by
  intro context k
  rw [items, bind_of_ok (subject_nodeOf _), nodeOf]
  exact itemsFrom_nodesOf h 0 _

end Lists

/-! ## Records -/

section Records

variable {fields : List (Field Reader α)} {fs : List (String × Tree)} {a b : α}

theorem fieldName_scalar (name : String) (n : Node) :
    fieldName (.scalar none true name) n context k = .ok ((name, .field name), k) := rfl

/-- The fields of a record, each for the first time. -/
theorem fieldsFrom_pairsOf (seen : List String) (h : FieldsRead ReadsNode fields a fs b)
    (fresh : (fs.map Prod.fst).Disjoint seen) (nodup : (fs.map Prod.fst).Nodup) (n : Node)
    (context : Context) (k : Nat) :
    fieldsFrom fields seen a (pairsOf fs) n context k =
      .ok ((b, (fs.map Prod.fst).reverse ++ seen), k) := by
  induction h generalizing seen with
  | nil a => rfl
  | @cons a b c name t fs f known value _ ih =>
      rw [List.map_cons, List.nodup_cons] at nodup
      rw [List.map_cons, List.disjoint_cons_left] at fresh
      have hfresh : (fs.map Prod.fst).Disjoint (name :: seen) :=
        List.disjoint_cons_right.2 ⟨nodup.1, fresh.2⟩
      rw [Yaml.pairsOf, fieldsFrom, bind_of_ok (fieldName_scalar name n)]
      simp only [known, if_neg fresh.1]
      rw [bind_of_ok (into_of_ok (value context k)), ih _ hfresh nodup.2]
      simp

theorem readsNode_record {title : String} {empty : α} (h : FieldsRead ReadsNode fields empty fs a)
    (nodup : (fs.map Prod.fst).Nodup)
    (required : ∀ f ∈ fields, f.required = true → f.name ∈ fs.map Prod.fst) :
    ReadsNode (record title empty fields) (.record fs) a := by
  intro context k
  have hfields := fieldsFrom_pairsOf [] h (by simp) nodup (.mapping (Yaml.pairsOf fs)) context k
  have hnone : firstMissing? ((fs.map Prod.fst).reverse ++ []) fields = none := by
    refine firstMissing?_eq_none fun f hf hrequired => ?_
    simpa using required f hf hrequired
  rw [record, bind_of_ok (subject_nodeOf _), nodeOf]
  simp only [Reader.pairsOf]
  rw [bind_of_ok hfields]
  simp only [hnone]
  rfl

end Records

/-! ## Documents -/

instance : LawfulSource Reader where
  Reads := ReadsNode
  reads_map := readsNode_map
  reads_text := readsNode_text _
  reads_optionalText := readsNode_optionalText
  reads_items := readsNode_items
  reads_record := readsNode_record

/-- A whole text is read as the record or the list it was written for. -/
theorem readDocument_print {r : Reader α} {a : α} {t : Tree} (hlaid : t.Laid)
    (block : ∀ s, t ≠ .text s) (h : LawfulSource.Reads r t a) :
    readDocument r (Text.Symbol.ofString (print t)) = .ok a := by
  have hallowed : (documentChars t).all isAllowed = true :=
    List.all_eq_true.2 fun _ hc => isAllowed_of_mem_documentChars hlaid hc
  have hdocument : Document.ofIntake ⟨documentChars t, true⟩ = ⟨nodeOf t, true⟩ := by
    rw [Document.ofIntake, tokens_documentChars hlaid block, Document.ofTokens_documentTokens hlaid]
  rw [Text.Symbol.ofString, print, String.toList_ofList, readDocument,
    Intake.ofSymbols_map_char hallowed, readIntake, hdocument]
  simp only [h _ 0, bind, Except.bind]
  rfl

end OptionAtlas.Yaml
