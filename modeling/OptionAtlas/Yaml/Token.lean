import OptionAtlas.Yaml.Cursor

/-!
# Tokens of YAML

## Main definitions

* `Token` — marks, names and scalars of a text, and the starts and ends of blocks
  that its indentation implies.
-/

namespace OptionAtlas.Yaml

/-- A mark, a name or a scalar. -/
inductive Token where
  | streamEnd
  /-- A directive that names a version. -/
  | version (major minor : Nat)
  /-- A directive that gives a handle of tags its text. -/
  | tagHandle (handle lead : String)
  | documentStart
  | documentEnd
  | blockSequenceStart
  | blockMappingStart
  | blockEnd
  | flowSequenceStart
  | flowSequenceEnd
  | flowMappingStart
  | flowMappingEnd
  | blockEntry
  | flowEntry
  | key
  | value
  | alias (name : String)
  | anchor (name : String)
  /-- A tag: its handle, empty for a tag that is written in full, and what follows. -/
  | tag (handle rest : String)
  | scalar (plain : Bool) (text : String)
deriving DecidableEq, Repr

end OptionAtlas.Yaml
