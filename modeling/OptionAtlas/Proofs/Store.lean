import OptionAtlas.Proofs.File.Keeping
import OptionAtlas.Proofs.File.Path
import OptionAtlas.Proofs.Json.Reading
import OptionAtlas.Proofs.Table.Schema
import OptionAtlas.Proofs.Text.Bytes
import OptionAtlas.Proofs.Yaml.Reading
import OptionAtlas.Store

/-!
# Tables are loaded as they were saved

Saving a table writes its text in the format that the path names, and loading reads the
file in the format that the same path names. On a disk that keeps the file nothing is
lost if the format reads its own texts.

## Main statements

* `Store.load_save` — a saved table is loaded again if its format reads its own text.
* `Store.load_save_json` — for every table and every path of a JSON file.
* `Store.load_save_yaml` — for every table and every other path.
-/

namespace OptionAtlas

open Text (Symbol)

namespace TableFormat

theorem ofPath_of_namesJson {path : String} (h : Path.NamesJson path) : ofPath path = .json :=
  if_pos (Path.isJson_iff.2 h)

theorem ofPath_of_not_namesJson {path : String} (h : ¬ Path.NamesJson path) :
    ofPath path = .yaml :=
  if_neg (mt Path.isJson_iff.1 h)

/-- Every table is read from its JSON text. -/
theorem readTable_writeTable_json (t : Table) :
    json.readTable (Symbol.ofString (json.writeTable t)) = .ok t :=
  Json.readDocument_pretty (Table.reads_source t)

/-- Every table is read from its YAML text. -/
theorem readTable_writeTable_yaml (t : Table) :
    yaml.readTable (Symbol.ofString (yaml.writeTable t)) = .ok t :=
  Yaml.readDocument_print (Table.laid_tree t) (by simp [Table.tree]) (Table.reads_source t)

end TableFormat

namespace Store

variable {σ : Type} {d : σ}

/-- After an operation that is known, the operations that follow are run from its state. -/
theorem run_bind_of_run {α β : Type} {x : StateM σ α} {next : α → StateM σ β} {a : α} {d₁ : σ}
    (h : x.run d = (a, d₁)) : (x >>= next).run d = (next a).run d₁ := by
  rw [StateT.run_bind, h]
  rfl

variable [Disk (StateM σ)] {path : String} {t : Table}

/-- The contents of a file of a table are decoded if its format reads its own text. -/
theorem decode_toUTF8 {f : TableFormat}
    (hread : f.readTable (Symbol.ofString (f.writeTable t)) = .ok t) :
    decode f (some (f.writeTable t).toUTF8) = .ok t := by
  simp only [decode, Symbol.ofBytes_toUTF8, hread]

/-- On a disk that keeps the file, the bytes of the text are in it after saving. -/
theorem exists_save (h : Disk.Keeps d path) (t : Table) :
    ∃ d', (save (m := StateM σ) path t).run d = (.ok (), d') ∧
      (Disk.read (m := StateM σ) path).run d' =
        (.ok (some ((TableFormat.ofPath path).writeTable t).toUTF8), d') := by
  rcases h with ⟨d₁, hcreate, hfill⟩
  rcases hfill ((TableFormat.ofPath path).writeTable t) with ⟨d₂, hwrite, hread⟩
  refine ⟨d₂, ?_, hread⟩
  rw [save, run_bind_of_run hcreate]
  exact (run_bind_of_run hwrite).trans rfl

theorem load_of_read {contents : Option ByteArray} {d' : σ}
    (h : (Disk.read (m := StateM σ) path).run d = (.ok contents, d')) :
    (load (m := StateM σ) path).run d = (decode (.ofPath path) contents, d') := by
  rw [load, run_bind_of_run h]
  rfl

/-- On a disk that keeps the file, a saved table is loaded again if its format reads its
own text. -/
theorem load_save {f : TableFormat} (h : Disk.Keeps d path) (hformat : .ofPath path = f)
    (hread : f.readTable (Symbol.ofString (f.writeTable t)) = .ok t) :
    ∃ d', (save (m := StateM σ) path t).run d = (.ok (), d') ∧
      (Disk.read (m := StateM σ) path).run d' = (.ok (some (f.writeTable t).toUTF8), d') ∧
      (load (m := StateM σ) path).run d' = (.ok t, d') := by
  subst hformat
  rcases exists_save h t with ⟨d', hsave, hbytes⟩
  refine ⟨d', hsave, hbytes, ?_⟩
  rw [load_of_read hbytes, decode_toUTF8 hread]

/-- A table with quotation marks, control characters, NUL, a character of a higher plane,
line breaks, marks, words for no value and for other kinds of values, empty lists, and
short names that are present but empty or such words. -/
def awkwardTable : Table :=
  ⟨"\"1\"\\\n\x00\x1f", [⟨"", []⟩, ⟨"𝔽", [⟨"a\tb/", "~", some ""⟩, ⟨"é\x7f", "--é", none⟩,
    ⟨"\n a\n\n", "- b: 'c' #", some "~"⟩, ⟨"0x1F ", "true", some "null"⟩]⟩],
    [⟨"null", [], []⟩, ⟨" - ", ["𝔽", ""], [⟨"", "#"⟩]⟩]⟩

/-- Every table is read from its JSON text, and where a disk keeps a JSON file, saving a
table to it succeeds, writes this text and lets the same table be loaded. -/
theorem load_save_json (t : Table) :
    TableFormat.json.readTable (Symbol.ofString (TableFormat.json.writeTable t)) = .ok t ∧
      ∀ {σ : Type} [Disk (StateM σ)] (d : σ) (path : String), Path.NamesJson path →
        Disk.Keeps d path →
        ∃ d', (save (m := StateM σ) path t).run d = (.ok (), d') ∧
          (Disk.read (m := StateM σ) path).run d' =
            (.ok (some (TableFormat.json.writeTable t).toUTF8), d') ∧
          (load (m := StateM σ) path).run d' = (.ok t, d') := by
  have hread := TableFormat.readTable_writeTable_json t
  refine ⟨hread, ?_⟩
  intro σ _ d path hpath hkeeps
  exact load_save hkeeps (TableFormat.ofPath_of_namesJson hpath) hread

theorem load_save_json_awkwardTable :
    Path.NamesJson "flags.JSON" ∧ Disk.Keeps Memory.start "flags.JSON" ∧
      ∃ d', (save (m := StateM Memory) "flags.JSON" awkwardTable).run Memory.start = (.ok (), d') ∧
        (Disk.read (m := StateM Memory) "flags.JSON").run d' =
          (.ok (some (TableFormat.json.writeTable awkwardTable).toUTF8), d') ∧
        (load (m := StateM Memory) "flags.JSON").run d' = (.ok awkwardTable, d') := by
  have hpath : Path.NamesJson "flags.JSON" := Path.isJson_iff.1 (by decide +kernel)
  have hplace : Memory.start.target "flags.JSON" = .ok ["tmp", "work", "flags.JSON"] := by rfl
  have hkeeps := Memory.keeps_of_target hplace (by nofun) (by nofun)
  exact ⟨hpath, hkeeps, (load_save_json awkwardTable).2 _ _ hpath hkeeps⟩

/-- Every table is read from its YAML text, and where a disk keeps a file that is not named
as JSON, saving a table to it succeeds, writes this text and lets the same table be loaded. -/
theorem load_save_yaml (t : Table) :
    TableFormat.yaml.readTable (Symbol.ofString (TableFormat.yaml.writeTable t)) = .ok t ∧
      ∀ {σ : Type} [Disk (StateM σ)] (d : σ) (path : String), ¬ Path.NamesJson path →
        Disk.Keeps d path →
        ∃ d', (save (m := StateM σ) path t).run d = (.ok (), d') ∧
          (Disk.read (m := StateM σ) path).run d' =
            (.ok (some (TableFormat.yaml.writeTable t).toUTF8), d') ∧
          (load (m := StateM σ) path).run d' = (.ok t, d') := by
  have hread := TableFormat.readTable_writeTable_yaml t
  refine ⟨hread, ?_⟩
  intro σ _ d path hpath hkeeps
  exact load_save hkeeps (TableFormat.ofPath_of_not_namesJson hpath) hread

theorem load_save_yaml_awkwardTable :
    ¬ Path.NamesJson "flags.yaml" ∧ Disk.Keeps Memory.start "flags.yaml" ∧
      ∃ d', (save (m := StateM Memory) "flags.yaml" awkwardTable).run Memory.start = (.ok (), d') ∧
        (Disk.read (m := StateM Memory) "flags.yaml").run d' =
          (.ok (some (TableFormat.yaml.writeTable awkwardTable).toUTF8), d') ∧
        (load (m := StateM Memory) "flags.yaml").run d' = (.ok awkwardTable, d') := by
  have hpath : ¬ Path.NamesJson "flags.yaml" := mt Path.isJson_iff.2 (by decide +kernel)
  have hplace : Memory.start.target "flags.yaml" = .ok ["tmp", "work", "flags.yaml"] := by rfl
  have hkeeps := Memory.keeps_of_target hplace (by nofun) (by nofun)
  exact ⟨hpath, hkeeps, (load_save_yaml awkwardTable).2 _ _ hpath hkeeps⟩

end Store

end OptionAtlas
