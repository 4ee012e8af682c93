/-!
# Written documents

What the library writes, in JSON or in YAML, is a tree of texts, lists and records.
A record keeps its fields in the order in which they are written.

## Main definitions

* `Tree` — a document to be written.
* `Tree.optional` — a field that is left out when it has no value.

## Main statements

* `Tree.induction` — what holds of a document whenever it holds of its parts holds of all.
-/

namespace OptionAtlas

/-- A document to be written. -/
inductive Tree where
  | text (s : String)
  | list (items : List Tree)
  | record (fields : List (String × Tree))

namespace Tree

/-- A list of texts. -/
def texts (ss : List String) : Tree := .list (ss.map .text)

/-- A field that is left out when it has no value. -/
def optional (name : String) : Option String → List (String × Tree)
  | some s => [(name, .text s)]
  | none => []

theorem sizeOf_snd_lt_of_mem {f : String × Tree} {fs : List (String × Tree)} (h : f ∈ fs) :
    sizeOf f.2 < sizeOf fs := by
  have hmem := List.sizeOf_lt_of_mem h
  have hpair : sizeOf f = 1 + sizeOf f.1 + sizeOf f.2 := Prod.mk.sizeOf_spec f.1 f.2
  omega

/-- A property of documents that passes from the parts of a document to the document. -/
@[elab_as_elim]
theorem induction {motive : Tree → Prop} (text : ∀ s, motive (.text s))
    (list : ∀ ts, (∀ t ∈ ts, motive t) → motive (.list ts))
    (record : ∀ fs, (∀ f ∈ fs, motive f.2) → motive (.record fs)) : ∀ t, motive t
  | .text s => text s
  | .list ts => list ts fun t _ => induction text list record t
  | .record fs => record fs fun f hf =>
      have := sizeOf_snd_lt_of_mem hf
      induction text list record f.2

end Tree

end OptionAtlas
