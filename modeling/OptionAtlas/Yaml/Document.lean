import OptionAtlas.Yaml.Lexer
import OptionAtlas.Yaml.Node

/-!
# Documents from tokens

The first document of a token list is read into a node. Collections nest as their
start and end marks say; a value that is not written is an empty scalar. An alias
has to follow the anchor it names.

## Main definitions

* `Document` — the root of a document, and whether nothing but its end follows.
* `Document.ofTokens` — reads the first document.
-/

namespace OptionAtlas.Yaml

/-- Tokens that are left, and the anchors so far: each name once, with its number. -/
structure Input where
  tokens : List Token
  anchors : List (String × Nat)
  /-- The handles of tags and what they stand for. -/
  handles : List (String × String)

namespace Input

/-- Whether the tokens go on with one of these marks. -/
def startsWith (marks : List Token) (s : Input) : Bool := s.tokens.head?.any (· ∈ marks)

/-- Notes an anchor and gives it a number: how many names there were before. -/
def addAnchor (name : String) (s : Input) : Nat × Input :=
  (s.anchors.length,
    { s with anchors := (name, s.anchors.length) :: s.anchors.filter (·.1 != name) })

/-- The text of a tag: the handle's text and what follows; `none` if the handle is unknown. -/
def tagText? (handle rest : String) (s : Input) : Option String :=
  if handle = "" then some rest else (s.handles.lookup handle).map (· ++ rest)

end Input

/-- A node and the input behind it; no input if something is missing. -/
abbrev Parsed := Node × Option Input

/-- The nodes of a collection and the input behind it; no input if something is missing. -/
abbrev ParsedList (α : Type) := List α × Option Input

/-- The items of a list that starts with a parsed node and goes on as `k` says. -/
def Parsed.cons (r : Parsed) (k : Input → ParsedList Node) : ParsedList Node :=
  match r with
  | (n, none) => ([n], none)
  | (n, some s) =>
    let (ns, s) := k s
    (n :: ns, s)

/-- A parsed key and the value that `v` reads behind it. -/
def Parsed.pair (r : Parsed) (v : Input → Parsed) : (Node × Node) × Option Input :=
  match r with
  | (n, none) => ((n, .missing), none)
  | (n, some s) =>
    let (w, s) := v s
    ((n, w), s)

/-- The pairs of a mapping that starts with a parsed pair and goes on as `k` says. -/
def consPair (r : (Node × Node) × Option Input) (k : Input → ParsedList (Node × Node)) :
    ParsedList (Node × Node) :=
  match r with
  | (p, none) => ([p], none)
  | (p, some s) =>
    let (ps, s) := k s
    (p :: ps, s)

/-- The end of a single pair, if any token follows. -/
def Input.endPair (s : Input) : ParsedList (Node × Node) :=
  if s.tokens.isEmpty then ([(.missing, .missing)], none) else ([], some s)

/-- A value that `p` reads, or an empty one in front of one of the marks. -/
def orEmpty (marks : List Token) (p : Input → Parsed) (s : Input) : Parsed :=
  if s.startsWith marks then (.empty, some s) else p s

/-- What `p` reads behind the mark of a value. Without the mark the value is empty. -/
def valueBy (p : Input → Parsed) (s : Input) : Parsed :=
  match s.tokens with
  | [] => (.missing, none)
  | .value :: ts => p { s with tokens := ts }
  | _ => (.empty, some s)

/-- The anchor and the tag in front of a node. -/
structure Properties where
  anchor : Option String
  tag : Option String

/-- The properties at the front of the input, in either order, and the input behind
them; `none` if a tag has an unknown handle. -/
def Properties.read (s : Input) : Option (Properties × Input) :=
  match s.tokens with
  | .anchor a :: .tag h r :: ts => do
    some (⟨some a, some (← s.tagText? h r)⟩, { s with tokens := ts })
  | .anchor a :: ts => some (⟨some a, none⟩, { s with tokens := ts })
  | .tag h r :: .anchor a :: ts => do
    some (⟨some a, some (← s.tagText? h r)⟩, { s with tokens := ts })
  | .tag h r :: ts => do some (⟨none, some (← s.tagText? h r)⟩, { s with tokens := ts })
  | _ => some (⟨none, none⟩, s)

/-- Notes the anchor, if there is one, and puts the node that follows under it. -/
def Properties.around (props : Properties) (p : Input → Parsed) (s : Input) : Parsed :=
  match props.anchor with
  | none => p s
  | some a =>
    let (id, s) := s.addAnchor a
    let (n, s) := p s
    (.anchored id n, s)

namespace Node

mutual

/-- The node at the front of the input. `inBlock` says whether a block may start here,
and `dashes` whether a list may start without being indented. `fuel` bounds the number
of calls within each other. -/
def parse (inBlock dashes : Bool) : Nat → Input → Parsed
  | 0, _ => (.missing, none)
  | fuel + 1, s =>
    match s.tokens with
    | .alias name :: ts =>
      match s.anchors.lookup name with
      | some id => (.alias id, some { s with tokens := ts })
      | none => (.missing, none)
    | _ =>
      match Properties.read s with
      | none => (.missing, none)
      | some (props, s) => props.around (parseContent inBlock dashes props fuel) s

/-- The content of a node behind its properties. -/
def parseContent (inBlock dashes : Bool) (props : Properties) : Nat → Input → Parsed
  | 0, _ => (.missing, none)
  | fuel + 1, s =>
    match s.tokens with
    | [] => (.missing, none)
    | t :: ts =>
      let rest : Input := { s with tokens := ts }
      if dashes && t = .blockEntry then
        let (ns, s) := parseDashes fuel s
        (.sequence ns, s)
      else match t with
        | .scalar plain text => (.scalar props.tag plain text, some rest)
        | .flowSequenceStart =>
          let (ns, s) := parseFlowItems true fuel rest
          (.sequence ns, s)
        | .flowMappingStart =>
          let (ps, s) := parseFlowPairs true fuel rest
          (.mapping ps, s)
        | _ =>
          if inBlock && t = .blockSequenceStart then
            let (ns, s) := parseItems fuel rest
            (.sequence ns, s)
          else if inBlock && t = .blockMappingStart then
            let (ps, s) := parsePairs fuel rest
            (.mapping ps, s)
          else if props.anchor.isSome || props.tag.isSome then
            (.scalar props.tag true "", some s)
          else (.missing, none)

/-- The items of an indented list. -/
def parseItems : Nat → Input → ParsedList Node
  | 0, _ => ([.missing], none)
  | fuel + 1, s =>
    match s.tokens with
    | .blockEntry :: ts =>
      (orEmpty [.blockEntry, .blockEnd] (parse true false fuel) { s with tokens := ts }).cons
        (parseItems fuel)
    | .blockEnd :: ts => ([], some { s with tokens := ts })
    | _ => ([.missing], none)

/-- The items of a list that is not indented; anything but a dash ends it. -/
def parseDashes : Nat → Input → ParsedList Node
  | 0, _ => ([.missing], none)
  | fuel + 1, s =>
    match s.tokens with
    | .blockEntry :: ts =>
      (orEmpty [.blockEntry, .key, .value, .blockEnd] (parse true false fuel)
        { s with tokens := ts }).cons (parseDashes fuel)
    | [] => ([.missing], none)
    | _ => ([], some s)

/-- The pairs of an indented mapping. -/
def parsePairs : Nat → Input → ParsedList (Node × Node)
  | 0, _ => ([(.missing, .missing)], none)
  | fuel + 1, s =>
    match s.tokens with
    | .key :: ts =>
      let written := orEmpty [.key, .value, .blockEnd] (parse true true fuel)
      consPair ((written { s with tokens := ts }).pair (valueBy written)) (parsePairs fuel)
    | .blockEnd :: ts => ([], some { s with tokens := ts })
    | _ => ([(.missing, .missing)], none)

/-- The items between square brackets; all but the first stand behind commas. An item
may be a single pair. -/
def parseFlowItems (first : Bool) : Nat → Input → ParsedList Node
  | 0, _ => ([.missing], none)
  | fuel + 1, s =>
    match s.tokens with
    | .flowSequenceEnd :: ts => ([], some { s with tokens := ts })
    | t :: ts =>
      if first then parseFlowItem fuel s
      else if t = .flowEntry then parseFlowItem fuel { s with tokens := ts }
      else ([.missing], none)
    | [] => ([.missing], none)

/-- The items between square brackets from the start of an item on. -/
def parseFlowItem : Nat → Input → ParsedList Node
  | 0, _ => ([.missing], none)
  | fuel + 1, s =>
    match s.tokens with
    | .flowSequenceEnd :: ts => ([], some { s with tokens := ts })
    | .key :: ts =>
      (parseFlowPair fuel { s with tokens := ts }).cons (parseFlowItems false fuel)
    | _ => (parse false false fuel s).cons (parseFlowItems false fuel)

/-- A single pair between square brackets, behind the mark of its key. A key that is
not written takes the mark behind it away. Only the mark that follows ends the pair. -/
def parseFlowPair : Nat → Input → Parsed
  | 0, _ => (.mapping [(.missing, .missing)], none)
  | fuel + 1, s =>
    let written (s : Input) : Parsed :=
      if s.startsWith [.value, .flowEntry, .flowSequenceEnd] then
        (.empty, some { s with tokens := s.tokens.tail })
      else parse false false fuel s
    let value := orEmpty [.flowEntry, .flowSequenceEnd] (parse false false fuel)
    let (ps, s) := consPair ((written s).pair (valueBy value)) Input.endPair
    (.mapping ps, s)

/-- The pairs between braces; all but the first stand behind commas. -/
def parseFlowPairs (first : Bool) : Nat → Input → ParsedList (Node × Node)
  | 0, _ => ([(.missing, .missing)], none)
  | fuel + 1, s =>
    match s.tokens with
    | .flowMappingEnd :: ts => ([], some { s with tokens := ts })
    | t :: ts =>
      if first then parseFlowEntry fuel s
      else if t = .flowEntry then parseFlowEntry fuel { s with tokens := ts }
      else ([(.missing, .missing)], none)
    | [] => ([(.missing, .missing)], none)

/-- The pairs between braces from the start of a pair on. A node without a key mark is
a key whose value is not written. -/
def parseFlowEntry : Nat → Input → ParsedList (Node × Node)
  | 0, _ => ([(.missing, .missing)], none)
  | fuel + 1, s =>
    match s.tokens with
    | .flowMappingEnd :: ts => ([], some { s with tokens := ts })
    | .key :: ts =>
      let written := orEmpty [.value, .flowEntry, .flowMappingEnd] (parse false false fuel)
      let value := orEmpty [.flowEntry, .flowMappingEnd] (parse false false fuel)
      consPair ((written { s with tokens := ts }).pair (valueBy value)) (parseFlowPairs false fuel)
    | _ =>
      let bare (s : Input) : Parsed :=
        if s.tokens.isEmpty then (.missing, none) else (.empty, some s)
      consPair ((parse false false fuel s).pair bare) (parseFlowPairs false fuel)

end

end Node

/-! ## Documents -/

/-- The root of a document, and whether nothing but its end follows. -/
structure Document where
  root : Node
  sole : Bool

namespace Document

/-- The handles that need no directive. -/
def defaultHandles : List (String × String) := [("!", "!"), ("!!", "tag:yaml.org,2002:")]

/-- The handles of the directives at the front of the tokens, and the tokens behind
them; `none` if a directive is repeated or names a version other than 1.1 and 1.2. -/
def directives (versioned : Bool) (handles : List (String × String)) :
    List Token → Option (List (String × String) × List Token)
  | .version major minor :: ts =>
    if versioned || major ≠ 1 || (minor ≠ 1 && minor ≠ 2) then none
    else directives true handles ts
  | .tagHandle handle lead :: ts =>
    if (handles.lookup handle).isSome then none
    else directives versioned (handles ++ [(handle, lead)]) ts
  | ts => some (handles, ts)

/-- Whether a token ends a document that has no content. -/
def endsContent : Token → Bool
  | .version _ _ | .tagHandle _ _ | .documentStart | .documentEnd | .streamEnd => true
  | _ => false

/-- The node from which on the tokens hold a document. -/
def rootOf (handles : List (String × String)) (ts : List Token) : Parsed :=
  Node.parse true false (4 * ts.length + 4) ⟨ts, [], handles ++ defaultHandles⟩

/-- The first document of a token list: without a mark at its start, or behind
directives and a mark. -/
def parsed (ts : List Token) : Parsed :=
  let empty (ts : List Token) : Parsed := (.empty, some ⟨ts, [], []⟩)
  match ts with
  | .streamEnd :: _ => empty ts
  | .version _ _ :: _ | .tagHandle _ _ :: _ | .documentStart :: _ =>
    match directives false [] ts with
    | some (handles, .documentStart :: t :: ts) =>
      if endsContent t then empty (t :: ts) else rootOf handles (t :: ts)
    | _ => (.missing, none)
  | _ => rootOf [] ts

/-- Whether the tokens behind a document are its end marks and the end of the text. -/
def endsHere (ts : List Token) : Bool :=
  (ts.dropWhile (· = .documentEnd)).head? = some .streamEnd

/-- The first document of a token list. -/
def ofTokens (ts : List Token) : Document :=
  let (root, rest) := parsed ts
  ⟨root, rest.any (endsHere ·.tokens)⟩

/-- The first document of a text. -/
def ofIntake (t : Intake) : Document := ofTokens (tokens t)

end Document

end OptionAtlas.Yaml
