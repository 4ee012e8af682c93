import Mathlib.Data.List.Forall2
import OptionAtlas.Program
import OptionAtlas.Proofs.Json.Reading
import OptionAtlas.Proofs.Text.Columns
import OptionAtlas.Proofs.Yaml.Reading

/-!
# What is shown of classified tokens

A line holds the token in a column of thirty characters and says what the token is. A
document is a list with a record for each token, and it is read as these records again, in
order, whatever characters the tokens hold. So a document tells the tokens and their
classes; a line need not, since a token may hold blanks itself.

## Main definitions

* `TokenClass.Shown` — the words and the fields for each class.
* `TokenReport.HasLine`, `TokenReport.HasFields` — the line and the record of a token.
* `Style.Shows` — a text shows reports.

## Main statements

* `TokenReport.hasLine_line`, `TokenReport.exists_hasFields` — lines and records of reports.
* `shows_showReports` — the text about reports shows them.
* `Style.Shows.unique` — a document shows nothing else.
-/

namespace OptionAtlas

open LawfulSource
open Text (Symbol)

/-! ## Records of texts -/

/-- A record of texts. -/
def Tree.ofTexts (fs : List (String × String)) : Tree := .record (fs.map fun f => (f.1, .text f.2))

section Texts

variable {m : Type → Type} [Monad m] [Source m]

/-- A text that is noted under its name, behind what was noted before. -/
def namedText (name : String) : Field m (List (String × String)) :=
  ⟨name, false, fun fs => do return fs ++ [(name, ← Source.text)]⟩

/-- The texts with these names in a record, in the order in which they are written. -/
def textsSource (names : List String) : m (List (String × String)) :=
  Source.record "texts" [] (names.map namedText)

theorem find?_namedText {names : List String} {name : String} (h : name ∈ names) :
    (names.map (namedText (m := m))).find? (·.name == name) = some (namedText name) := by
  induction names with
  | nil => exact absurd h List.not_mem_nil
  | cons n names ih =>
      by_cases hn : n = name
      · simp [namedText, hn]
      · have hmem : name ∈ names := (List.mem_cons.1 h).resolve_left (Ne.symm hn)
        rw [List.map_cons, List.find?_cons_of_neg (by simpa [namedText] using hn), ih hmem]

variable [LawfulSource m]

theorem fieldsRead_texts {names : List String} {fs : List (String × String)}
    (known : ∀ f ∈ fs, f.1 ∈ names) (before : List (String × String)) :
    FieldsRead (Reads (m := m)) (names.map namedText) before
      (fs.map fun f => (f.1, .text f.2)) (before ++ fs) := by
  induction fs generalizing before with
  | nil => simpa using .nil before
  | cons f fs ih =>
      simp only [List.mem_cons, forall_eq_or_imp] at known
      have htail := ih known.2 (before ++ [f])
      rw [List.append_assoc, List.singleton_append] at htail
      exact .cons (find?_namedText known.1)
        (reads_map (fun s => before ++ [(f.1, s)]) (reads_text f.2)) htail

/-- A record of texts is read as it is written. -/
theorem reads_textsSource {names : List String} {fs : List (String × String)}
    (known : ∀ f ∈ fs, f.1 ∈ names) (nodup : (fs.map Prod.fst).Nodup) :
    Reads (textsSource (m := m) names) (Tree.ofTexts fs) fs := by
  refine reads_record (fieldsRead_texts known []) ?_ ?_
  · simpa [Function.comp_def] using nodup
  · simp [namedText]

end Texts

/-! ## Reports -/

/-- How a token of each class is shown: what a line says about it, and the fields that
follow the token in a record. -/
inductive TokenClass.Shown : TokenClass → String → List (String × String) → Prop
  | flag (key group : String) :
    Shown (.flag key group none) (key ++ " (" ++ group ++ ")")
      [("kind", "flag"), ("key", key), ("group", group)]
  | valued (key group value : String) :
    Shown (.flag key group (some value)) (key ++ " (" ++ group ++ ") = " ++ value)
      [("kind", "flag"), ("key", key), ("group", group), ("value", value)]
  | unknownOption : Shown .unknownOption "unknown option" [("kind", "unknown_option")]
  | positional : Shown .positional "positional" [("kind", "positional")]
  | terminator : Shown .terminator "end of options" [("kind", "terminator")]

theorem TokenClass.exists_shown (c : TokenClass) : ∃ fields, c.Shown c.description fields ∧
    ("kind", .text c.name) :: c.fields = fields.map fun f => (f.1, Tree.text f.2) := by
  cases c with
  | flag key group value =>
      cases value with
      | none => exact ⟨_, .flag key group, rfl⟩
      | some value => exact ⟨_, .valued key group value, rfl⟩
  | unknownOption => exact ⟨_, .unknownOption, rfl⟩
  | positional => exact ⟨_, .positional, rfl⟩
  | terminator => exact ⟨_, .terminator, rfl⟩

namespace TokenReport

/-- The line of a token: the token, spaces up to thirty characters, a space, and what the
token is. -/
def HasLine (r : TokenReport) (line : List Char) : Prop :=
  ∃ words fields, r.kind.Shown words fields ∧
    line = r.token.toList ++ List.replicate (30 - r.token.toList.length) ' ' ++
      ' ' :: words.toList ++ ['\n']

/-- The fields of the record of a token. -/
def HasFields (r : TokenReport) (fs : List (String × String)) : Prop :=
  ∃ words fields, r.kind.Shown words fields ∧ fs = ("token", r.token) :: fields

theorem hasLine_line (r : TokenReport) : r.HasLine r.line.toList := by
  obtain ⟨fields, hshown, _⟩ := r.kind.exists_shown
  refine ⟨_, fields, hshown, ?_⟩
  simp [line]

theorem exists_hasFields (r : TokenReport) : ∃ fs, r.HasFields fs ∧ r.tree = Tree.ofTexts fs := by
  obtain ⟨fields, hshown, hfields⟩ := r.kind.exists_shown
  refine ⟨_, ⟨_, fields, hshown, rfl⟩, ?_⟩
  rw [tree, Tree.ofTexts, List.map_cons, ← hfields]
  rfl

/-- The fields that a record of a token may have. -/
def fieldNames : List String := ["token", "kind", "key", "group", "value"]

variable {r r' : TokenReport} {fs : List (String × String)}

theorem HasFields.names (h : r.HasFields fs) :
    (∀ f ∈ fs, f.1 ∈ fieldNames) ∧ (fs.map Prod.fst).Nodup := by
  obtain ⟨token, kind⟩ := r
  obtain ⟨words, fields, hshown, rfl⟩ := h
  cases hshown <;> simp [fieldNames]

theorem HasFields.laid (h : r.HasFields fs) : (Tree.ofTexts fs).Laid := by
  have names : ∀ k ∈ fieldNames, Yaml.FieldName k := by decide
  refine .record ?_ ?_ ?_
  · obtain ⟨words, fields, -, rfl⟩ := h
    simp
  · intro f hf
    obtain ⟨g, hg, rfl⟩ := List.mem_map.1 hf
    exact names _ (h.names.1 g hg)
  · intro f hf
    obtain ⟨g, -, rfl⟩ := List.mem_map.1 hf
    exact .text g.2

theorem HasFields.unique (h : r.HasFields fs) (h' : r'.HasFields fs) : r = r' := by
  obtain ⟨token, kind⟩ := r
  obtain ⟨token', kind'⟩ := r'
  obtain ⟨words, fields, hshown, rfl⟩ := h
  obtain ⟨words', fields', hshown', heq⟩ := h'
  cases hshown <;> cases hshown' <;> simp_all

end TokenReport

/-! ## Texts about reports -/

/-- A text shows reports: in columns their lines, one after the other; in a document the list
of their records, which is also what the document is read as. -/
def Style.Shows (reports : List TokenReport) (text : String) : Style → Prop
  | .table => ∃ lines, List.Forall₂ TokenReport.HasLine reports lines ∧ text.toList = lines.flatten
  | .json => ∃ records, List.Forall₂ TokenReport.HasFields reports records ∧
      text = Json.pretty (.list (records.map Tree.ofTexts)) ++ "\n" ∧
      Json.readDocument (Source.items (textsSource TokenReport.fieldNames))
        (Symbol.ofString text) = .ok records
  | .yaml => ∃ records, List.Forall₂ TokenReport.HasFields reports records ∧
      text = Yaml.print (.list (records.map Tree.ofTexts)) ∧
      Yaml.readDocument (Source.items (textsSource TokenReport.fieldNames))
        (Symbol.ofString text) = .ok records

variable {rs rs' : List TokenReport} {records : List (List (String × String))}

theorem exists_records (rs : List TokenReport) :
    ∃ records, List.Forall₂ TokenReport.HasFields rs records ∧
      (∀ fs ∈ records, ∃ r : TokenReport, r.HasFields fs) ∧
      rs.map TokenReport.tree = records.map Tree.ofTexts := by
  choose fields hfields htree using TokenReport.exists_hasFields
  refine ⟨rs.map fields, ?_, ?_, ?_⟩
  · rw [List.forall₂_map_right_iff, List.forall₂_same]
    exact fun r _ => hfields r
  · intro fs hfs
    obtain ⟨r, -, rfl⟩ := List.mem_map.1 hfs
    exact ⟨r, hfields r⟩
  · simp [htree]

theorem reads_records {m : Type → Type} [Monad m] [Source m] [LawfulSource m]
    (h : ∀ fs ∈ records, ∃ r : TokenReport, r.HasFields fs) :
    Reads (m := m) (Source.items (textsSource TokenReport.fieldNames))
      (.list (records.map Tree.ofTexts)) records := by
  refine reads_items fun fs hfs => ?_
  obtain ⟨r, hr⟩ := h fs hfs
  exact reads_textsSource hr.names.1 hr.names.2

theorem laid_records (h : ∀ fs ∈ records, ∃ r : TokenReport, r.HasFields fs) :
    (Tree.list (records.map Tree.ofTexts)).Laid := by
  refine .list ?_ (by simp [Tree.ofTexts])
  intro t ht
  obtain ⟨fs, hfs, rfl⟩ := List.mem_map.1 ht
  obtain ⟨r, hr⟩ := h fs hfs
  exact hr.laid

theorem shows_showReports (rs : List TokenReport) (style : Style) :
    style.Shows rs (showReports rs style) := by
  obtain ⟨records, hrecords, hfields, htrees⟩ := exists_records rs
  cases style with
  | table =>
      refine ⟨rs.map fun r => r.line.toList, ?_, ?_⟩
      · rw [List.forall₂_map_right_iff, List.forall₂_same]
        exact fun r _ => r.hasLine_line
      · rw [showReports, Text.toList_intercalate_empty, List.flatMap_map, List.flatMap_def]
  | json =>
      have hgap : ∀ c ∈ "\n".toList, Json.isGap (.char c) = true := by simp [Json.isGap]
      rw [showReports, htrees]
      exact ⟨records, hrecords, rfl,
        Json.readDocument_pretty_append hgap (reads_records hfields)⟩
  | yaml =>
      rw [showReports, htrees]
      exact ⟨records, hrecords, rfl,
        Yaml.readDocument_print (laid_records hfields) (by simp) (reads_records hfields)⟩

example : showReports [⟨"--format=a=b", .flag "FORMAT" "base" (some "a=b")⟩] .yaml =
    "- token: --format=a=b\n  kind: flag\n  key: FORMAT\n  group: base\n  value: a=b\n" := by
  decide +kernel

/-- A document shows the reports of one list of tokens only. -/
theorem Style.Shows.unique {style : Style} {text : String} (hstyle : style ≠ .table)
    (h : style.Shows rs text) (h' : style.Shows rs' text) : rs = rs' := by
  have hunique : Relator.LeftUnique TokenReport.HasFields := fun _ _ _ h h' => h.unique h'
  cases style with
  | table => exact absurd rfl hstyle
  | json | yaml =>
      obtain ⟨records, hrecords, -, hread⟩ := h
      obtain ⟨records', hrecords', -, hread'⟩ := h'
      obtain rfl := Except.ok.inj (hread.symm.trans hread')
      exact List.left_unique_forall₂' hunique hrecords hrecords'

end OptionAtlas
