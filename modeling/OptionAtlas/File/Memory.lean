import OptionAtlas.File.Disk

/-!
# A disk in memory

The names of a disk in memory form a tree. Paths that do not start with a slash
start at the working folder. Two devices stand beside the files: one that is always
full, and one that forgets what is written to it.

## Main definitions

* `Memory` — what is on the disk.
* `Memory.start` — a disk with an empty working folder.
* `Memory.walk` — where a path leads.
-/

namespace OptionAtlas

/-- What a name stands for. -/
inductive Memory.Node where
  | file (contents : ByteArray)
  | folder
  /-- A device that is always full. -/
  | full
  /-- A device that holds nothing. -/
  | null

/-- Everything on the disk but its root, each by the names that lead to it. -/
structure Memory where
  nodes : List (List String × Memory.Node)

namespace Memory

/-- The working folder. -/
def home : List String := ["tmp", "work"]

/-- A disk with an empty working folder. -/
def start : Memory :=
  ⟨[(["tmp"], .folder), (home, .folder), (["dev"], .folder), (["dev", "full"], .full),
    (["dev", "null"], .null)]⟩

/-- What stands at a place. -/
def node? (d : Memory) (place : List String) : Option Node :=
  if place = [] then some .folder else d.nodes.lookup place

/-- Puts a node at a place. -/
def put (place : List String) (n : Node) (d : Memory) : Memory :=
  ⟨(place, n) :: d.nodes.filter (·.1 ≠ place)⟩

/-- The parts of a path; slashes next to each other leave empty parts. -/
def parts (path : String) : List String :=
  (path.toList.splitOn '/').map String.ofList

/-- A path that is not empty and does not hold NUL. -/
def checked (path : String) : Except FileFault Unit :=
  if path.toList.contains '\x00' then .error .badName
  else if path = "" then .error .absent
  else if 4096 ≤ path.utf8ByteSize then .error .nameTooLong
  else .ok ()

/-- The place that one part leads to from a place that has to be a folder. -/
def step (d : Memory) (place : List String) (part : String) : Except FileFault (List String) :=
  match d.node? place with
  | some .folder =>
    if part = "" ∨ part = "." then .ok place
    else if part = ".." then .ok place.dropLast
    else if 255 < part.utf8ByteSize then .error .nameTooLong
    else .ok (place ++ [part])
  | some _ => .error .notAFolder
  | none => .error .absent

/-- The place that parts lead to; all but the last have to be there. -/
def walk (d : Memory) (place : List String) (ps : List String) : Except FileFault (List String) :=
  ps.foldlM (d.step ·) place

/-- Where a path starts. -/
def origin (path : String) : List String := if path.toList.head? = some '/' then [] else home

/-- The place that a path leads to. -/
def locate (d : Memory) (path : String) : Except FileFault (List String) := do
  checked path
  d.walk (origin path) (parts path)

/-- The contents at a path. -/
def read (d : Memory) (path : String) : Except FileFault (Option ByteArray) := do
  match d.node? (← d.locate path) with
  | some (.file contents) => .ok (some contents)
  | some .null => .ok (some ByteArray.empty)
  | some _ => .ok none
  | none => .error .absent

/-- The parts of a path, the last first, without empty ones at its end. -/
def lastFirst (path : String) : List String := (parts path).reverse.dropWhile (· = "")

/-- The place of a file to be written. A path that ends in a slash does not lead to one. -/
def target (d : Memory) (path : String) : Except FileFault (List String) := do
  checked path
  match lastFirst path with
  | [] => .error .aFolder
  | part :: before =>
    let place ← d.step (← d.walk (origin path) before.reverse) part
    if (parts path).getLast? = some "" then .error .aFolder
    else match d.node? place with
      | some .folder => .error .aFolder
      | _ => .ok place

/-- The disk on which a file is written, if it can be. -/
def write (d : Memory) (path : String) (contents : ByteArray) : Except FileFault Memory := do
  let place ← d.target path
  match d.node? place with
  | some .full => if contents.isEmpty then .ok d else .error .full
  | some .null => .ok d
  | _ => .ok (d.put place (.file contents))

/-- The disk on which a folder is made, if it can be. -/
def makeFolder (d : Memory) (path : String) : Except FileFault Memory := do
  checked path
  match lastFirst path with
  | [] => .error .occupied
  | part :: before =>
    let place ← d.step (← d.walk (origin path) before.reverse) part
    match d.node? place with
    | some _ => .error .occupied
    | none => .ok (d.put place .folder)

/-- Whether a path leads to a folder. -/
def isFolder (d : Memory) (path : String) : Bool :=
  match d.locate path with
  | .ok place =>
    match d.node? place with
    | some .folder => true
    | _ => false
  | .error _ => false

/-- Replaces the disk, or reports why it stays as it is. -/
def change (f : Memory → Except FileFault Memory) :
    StateM Memory (Except FileFault Unit) := fun d =>
  match f d with
  | .ok d => (.ok (), d)
  | .error e => (.error e, d)

instance : Disk (StateM Memory) where
  read path := fun d => (d.read path, d)
  create path := change (·.write path ByteArray.empty)
  fill path text := change (·.write path text.toUTF8)
  makeFolder path := change (·.makeFolder path)
  isFolder path := fun d => (d.isFolder path, d)

end Memory

end OptionAtlas
