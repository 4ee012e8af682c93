/-!
# Nodes of a YAML document

A document is a tree of scalars, sequences and mappings. An anchor gives a node a
number, and an alias stands for the node of a number. Where the text is refused the
tree breaks off: everything up to that point is there, and a missing node follows.

## Main definitions

* `Node` — a document.
* `Node.complete` — whether nothing is missing.
* `Node.size` — the number of its parts, as the limit on aliases counts them.
* `Node.targets` — the nodes that carry anchors.
-/

namespace OptionAtlas.Yaml

/-- A document or a part of one. -/
inductive Node where
  | scalar (tag : Option String) (plain : Bool) (text : String)
  | sequence (items : List Node)
  | mapping (pairs : List (Node × Node))
  | alias (id : Nat)
  | anchored (id : Nat) (node : Node)
  /-- What would stand where the text is refused. -/
  | missing

namespace Node

/-- A value that is not written. -/
def empty : Node := .scalar none true ""

/-- Whether there is nothing of a node at all. -/
def isMissing : Node → Bool
  | .missing => true
  | _ => false

mutual

/-- Whether nothing is missing. -/
def complete : Node → Bool
  | .scalar _ _ _ => true
  | .sequence ns => completeItems ns
  | .mapping ps => completePairs ps
  | .alias _ => true
  | .anchored _ n => n.complete
  | .missing => false

/-- Whether nothing is missing in any of the nodes. -/
def completeItems : List Node → Bool
  | [] => true
  | n :: ns => n.complete && completeItems ns

/-- Whether nothing is missing in any of the pairs. -/
def completePairs : List (Node × Node) → Bool
  | [] => true
  | (k, v) :: ps => k.complete && v.complete && completePairs ps

end

mutual

/-- The number of parts: a scalar or an alias is one, and a collection has one for
its start and, if it is not broken off, one for its end. -/
def size : Node → Nat
  | .scalar _ _ _ => 1
  | .sequence ns => 1 + sizeItems ns
  | .mapping ps => 1 + sizePairs ps
  | .alias _ => 1
  | .anchored _ n => n.size
  | .missing => 0

/-- The number of parts of the items and of the end behind them. -/
def sizeItems : List Node → Nat
  | [] => 1
  | n :: ns => if n.complete then n.size + sizeItems ns else n.size

/-- The number of parts of the pairs and of the end behind them. -/
def sizePairs : List (Node × Node) → Nat
  | [] => 1
  | (k, v) :: ps =>
    if k.complete && v.complete then k.size + v.size + sizePairs ps else k.size + v.size

end

mutual

/-- The nodes that carry anchors, with the numbers of these, in the order of the text. -/
def targets : Node → List (Nat × Node)
  | .scalar _ _ _ => []
  | .sequence ns => targetsOfItems ns
  | .mapping ps => targetsOfPairs ps
  | .alias _ => []
  | .anchored id n => if n.isMissing then [] else (id, n) :: n.targets
  | .missing => []

/-- The anchored nodes within items. -/
def targetsOfItems : List Node → List (Nat × Node)
  | [] => []
  | n :: ns => n.targets ++ targetsOfItems ns

/-- The anchored nodes within pairs. -/
def targetsOfPairs : List (Node × Node) → List (Nat × Node)
  | [] => []
  | (k, v) :: ps => k.targets ++ v.targets ++ targetsOfPairs ps

end

/-- The node of a number; of several the last. -/
def target? (targets : List (Nat × Node)) (id : Nat) : Option Node :=
  (targets.reverse.lookup id)

end Node

end OptionAtlas.Yaml
