import OptionAtlas.File.Path

/-!
# Disks

Tables are kept in files. A `Disk` is a monad that can read and write files and make
folders; each operation may be refused. A folder can be opened for reading, but
there is nothing to be read from it.

## Main definitions

* `FileFault` — why an operation is refused.
* `Disk` — the operations.
* `Disk.makeFolders` — makes a folder and those around it.
-/

namespace OptionAtlas

/-- Why an operation on files is refused. -/
inductive FileFault where
  | absent
  | occupied
  | notAFolder
  | aFolder
  | full
  | nameTooLong
  /-- A path that holds the character NUL. -/
  | badName
  /-- Another cause, with its number and its text. -/
  | other (code : Nat) (reason : String)
deriving DecidableEq, Repr

/-- The wording of a refusal. -/
def FileFault.message : FileFault → String
  | .absent => "No such file or directory (os error 2)"
  | .occupied => "File exists (os error 17)"
  | .notAFolder => "Not a directory (os error 20)"
  | .aFolder => "Is a directory (os error 21)"
  | .full => "No space left on device (os error 28)"
  | .nameTooLong => "File name too long (os error 36)"
  | .badName => "file name contained an unexpected NUL byte"
  | .other code reason => reason ++ " (os error " ++ toString code ++ ")"

/-- Operations on files. -/
class Disk (m : Type → Type) where
  /-- The contents of a file; `none` for what can be opened but not read. -/
  read : String → m (Except FileFault (Option ByteArray))
  /-- Makes an empty file, or empties one. -/
  create : String → m (Except FileFault Unit)
  /-- Gives a file that was created its contents. -/
  fill : String → String → m (Except FileFault Unit)
  /-- Makes one folder. -/
  makeFolder : String → m (Except FileFault Unit)
  isFolder : String → m Bool

namespace Disk

variable {m : Type → Type} [Monad m] [Disk m]

/-- Makes a folder; one that is there already is no error. -/
def ensureFolder (path : String) : m (Except FileFault Unit) := do
  match ← makeFolder path with
  | .ok () => pure (.ok ())
  | .error e => if ← isFolder path then pure (.ok ()) else pure (.error e)

/-- Makes a folder and, where they are absent, those around it; `fuel` bounds their
number. -/
def makeFoldersFrom : Nat → String → m (Except FileFault Unit)
  | 0, _ => pure (.error .absent)
  | fuel + 1, path => do
    if path = "" then return .ok ()
    match ← makeFolder path with
    | .error .absent =>
      match Path.parent? path with
      | none => pure (.error .absent)
      | some parent =>
        match ← makeFoldersFrom fuel parent with
        | .ok () => ensureFolder path
        | .error e => pure (.error e)
    | .ok () => pure (.ok ())
    | .error e => if ← isFolder path then pure (.ok ()) else pure (.error e)

/-- Makes a folder and those around it. -/
def makeFolders (path : String) : m (Except FileFault Unit) :=
  makeFoldersFrom (path.toList.length + 1) path

end Disk

end OptionAtlas
