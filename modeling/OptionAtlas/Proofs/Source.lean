import OptionAtlas.Source
import OptionAtlas.Tree

/-!
# Sources that read what is written

A document that is written and read again should give the value it was written from.
For a format this comes down to a few laws, one for each kind of value. A description of
a record over any source is then read back from every format that keeps the laws.

## Main definitions

* `FieldsRead` — the fields of a written record, read in their order.
* `LawfulSource` — a source whose readers undo the writing of documents.
-/

namespace OptionAtlas

/-- The written fields, read in their order from `a` on. Each of them belongs to the record. -/
inductive FieldsRead {m : Type → Type} {α : Type} (reads : m α → Tree → α → Prop)
    (fields : List (Field m α)) : α → List (String × Tree) → α → Prop
  | nil (a : α) : FieldsRead reads fields a [] a
  | cons {a b c : α} {name : String} {t : Tree} {fs : List (String × Tree)} {f : Field m α}
      (known : fields.find? (·.name == name) = some f) (value : reads (f.read a) t b)
      (rest : FieldsRead reads fields b fs c) :
      FieldsRead reads fields a ((name, t) :: fs) c

/-- A source with a relation that says what its readers read from a written document. -/
class LawfulSource (m : Type → Type) [Monad m] [Source m] where
  /-- The reader reads this value from the document. -/
  Reads {α : Type} : m α → Tree → α → Prop
  reads_map {α β : Type} {r : m α} {t : Tree} {a : α} (f : α → β) :
    Reads r t a → Reads (r >>= fun x => pure (f x)) t (f a)
  reads_text (s : String) : Reads Source.text (.text s) s
  /-- An optional text that is written is present, whatever it looks like. -/
  reads_optionalText (s : String) : Reads Source.optionalText (.text s) (some s)
  reads_items {α : Type} {r : m α} {write : α → Tree} {as : List α} :
    (∀ a ∈ as, Reads r (write a) a) → Reads (Source.items r) (.list (as.map write)) as
  /-- No field may be written twice, and every required one has to be written. -/
  reads_record {α : Type} {title : String} {empty a : α} {fields : List (Field m α)}
    {fs : List (String × Tree)} :
    FieldsRead Reads fields empty fs a → (fs.map Prod.fst).Nodup →
      (∀ f ∈ fields, f.required = true → f.name ∈ fs.map Prod.fst) →
      Reads (Source.record title empty fields) (.record fs) a

/-- Once every required field was seen, none is missing. -/
theorem firstMissing?_eq_none {m : Type → Type} {α : Type} {seen : List String}
    {fields : List (Field m α)} (h : ∀ f ∈ fields, f.required = true → f.name ∈ seen) :
    firstMissing? seen fields = none := by
  rw [firstMissing?, Option.map_eq_none_iff, List.find?_eq_none]
  intro f hf hmissing
  simp only [Bool.and_eq_true, Bool.not_eq_true', List.contains_eq_mem, decide_eq_false_iff_not]
    at hmissing
  exact hmissing.2 (h f hf hmissing.1)

end OptionAtlas
