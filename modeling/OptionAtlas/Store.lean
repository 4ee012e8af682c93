import OptionAtlas.File.Disk
import OptionAtlas.Json.Printer
import OptionAtlas.Json.Reader
import OptionAtlas.Table.Schema
import OptionAtlas.Yaml.Printer
import OptionAtlas.Yaml.Reader

/-!
# Table files

A table is kept in a file as JSON or as YAML; the name of the file decides which.

## Main definitions

* `TableFormat` — JSON or YAML.
* `TableFormat.ofPath`, `TableFormat.readTable`, `TableFormat.writeTable` — texts of tables.
* `Store.Failure` — why a table could not be loaded or saved.
* `Store.load`, `Store.save` — tables in files.
-/

namespace OptionAtlas

/-- A format of tables. -/
inductive TableFormat where
  | json
  | yaml
deriving DecidableEq, Repr

namespace TableFormat

/-- The format of a file. -/
def ofPath (path : String) : TableFormat := if Path.isJson path then .json else .yaml

/-- The table that a text describes. -/
def readTable (f : TableFormat) (s : List Text.Symbol) : Except Fault Table :=
  match f with
  | .json => Json.readDocument Table.source s
  | .yaml => Yaml.readDocument Table.source s

/-- A document as text. -/
def write (f : TableFormat) (t : Tree) : String :=
  match f with
  | .json => Json.pretty t
  | .yaml => Yaml.print t

/-- The text of a table. -/
def writeTable (f : TableFormat) (t : Table) : String := f.write t.tree

end TableFormat

namespace Store

/-- Why a table could not be loaded or saved. -/
inductive Failure where
  /-- An operation on the file was refused. -/
  | file (fault : FileFault)
  /-- The text is no table in its format. -/
  | text (format : TableFormat) (fault : Fault)
deriving DecidableEq, Repr

/-- The wording of a failure. -/
def Failure.message : Failure → String
  | .file fault => "I/O error: " ++ fault.message
  | .text .json fault => "JSON error: " ++ fault.message
  | .text .yaml fault => "YAML error: " ++ fault.message

variable {m : Type → Type} [Monad m] [Disk m]

/-- The table in the contents of a file. What cannot be read is no text of the format. -/
def decode (f : TableFormat) : Option ByteArray → Except Failure Table
  | none => .error (.text f .malformed)
  | some bytes =>
    match f.readTable (Text.Symbol.ofBytes bytes) with
    | .ok t => .ok t
    | .error fault => .error (.text f fault)

/-- The table in a file. -/
def load (path : String) : m (Except Failure Table) := do
  match ← Disk.read path with
  | .ok contents => pure (decode (.ofPath path) contents)
  | .error fault => pure (.error (.file fault))

/-- Whether a text is held back until its file is complete. There is room for 8192
bytes. JSON comes in small pieces and may fill the room; YAML comes in one piece, which
is not held back if it does. -/
def isHeldBack (f : TableFormat) (text : String) : Bool :=
  match f with
  | .json => text.utf8ByteSize ≤ 8192
  | .yaml => text.utf8ByteSize < 8192

/-- The failure of writing a text: if it is held back, the file refuses it when it is
complete, and otherwise while it is still being put into its format. -/
def writeFailure (f : TableFormat) (text : String) (fault : FileFault) : Failure :=
  if isHeldBack f text then .file fault else .text f .malformed

/-- Writes a table to a file. -/
def save (path : String) (t : Table) : m (Except Failure Unit) := do
  let f := TableFormat.ofPath path
  let text := f.writeTable t
  match ← Disk.create path with
  | .error fault => pure (.error (.file fault))
  | .ok () =>
    match ← Disk.fill path text with
    | .ok () => pure (.ok ())
    | .error fault => pure (.error (writeFailure f text fault))

end Store

end OptionAtlas
