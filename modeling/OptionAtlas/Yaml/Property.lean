import OptionAtlas.Yaml.Token

/-!
# Anchors, aliases, tags and directives

## Main definitions

* `Property.name` — the name behind the mark of an anchor or alias.
* `Property.tag` — a tag.
* `Property.directive` — a directive line.
-/

namespace OptionAtlas.Yaml.Property

/-- The word characters at a cursor, and the cursor behind them. -/
def word (c : Cursor) : List Char × Cursor := (c.rest.takeWhile isWord, c.skipWhile isWord)

/-! ## Anchors and aliases -/

/-- The characters that may stand directly behind a name. -/
def followsName (cs : List Char) : Bool :=
  gapAhead cs ||
    match cs with
    | c :: _ => c ∈ ['?', ':', ',', ']', '}', '%', '@', '\x60']
    | [] => true

/-- The name behind the mark of an anchor or alias; it is not empty. -/
def name (c : Cursor) : Option (String × Cursor) :=
  match word (c.skip 1) with
  | ([], _) => none
  | (cs, c) => if followsName c.rest then some (String.ofList cs, c) else none

/-! ## Tags -/

/-- The octet that a percent sign and two digits at the front of a text stand for. -/
def octet? : List Char → Option (Nat × List Char)
  | '%' :: a :: b :: cs => do some ((← hexValue? a) * 16 + (← hexValue? b), cs)
  | _ => none

/-- `n` octets that continue a character. -/
def moreOctets : Nat → List Char → Option (List Nat × List Char)
  | 0, cs => some ([], cs)
  | n + 1, cs => do
    let (o, cs) ← octet? cs
    if o / 0x40 = 2 then
      let (os, cs) ← moreOctets n cs
      some (o :: os, cs)
    else none

/-- The escaped octets of one character at the front of a text. -/
def escaped (cs : List Char) : Option (List Nat × List Char) := do
  let (o, cs) ← octet? cs
  let n ← octetCount? o
  let (os, cs) ← moreOctets (n - 1) cs
  some (o :: os, cs)

/-- The characters of a tag; brackets and commas only in a tag written in full. -/
def isTagChar (full : Bool) (c : Char) : Bool :=
  isWord c || c ∈ [';', '/', '?', ':', '@', '&', '=', '+', '$', '.', '!', '~', '*', '\'', '(', ')']
    || (full && c ∈ [',', '[', ']'])

/-- The characters of a tag at the front of a text, escapes as their octets, and the
rest; `fuel` bounds their number. -/
def tagChars (full : Bool) : Nat → List Char → Option (List Char × List Char)
  | 0, cs => some ([], cs)
  | _ + 1, [] => some ([], [])
  | fuel + 1, c :: cs =>
    if c = '%' then do
      let (os, rest) ← escaped (c :: cs)
      let (more, rest) ← tagChars full fuel rest
      some (os.map Char.ofNat ++ more, rest)
    else if isTagChar full c then do
      let (more, rest) ← tagChars full fuel cs
      some (c :: more, rest)
    else some ([], c :: cs)

/-- The text of a tag at a cursor behind what was read of it already; it is not empty. -/
def tagText (full : Bool) (read : List Char) (c : Cursor) : Option (List Char × Cursor) := do
  let (cs, rest) ← tagChars full c.rest.length c.rest
  if read.isEmpty && cs.isEmpty then none
  else some (read ++ cs, c.skip (c.rest.length - rest.length))

/-- What the text of a tag says: all of it, or the part before an escaped NUL. -/
def tagValue (cs : List Char) : String := String.ofList (cs.takeWhile (· ≠ '\x00'))

/-- An exclamation mark, word characters and, if there is one, a second mark. -/
def handle (c : Cursor) : List Char × Cursor :=
  let (cs, c) := word (c.skip 1)
  match c.rest with
  | '!' :: _ => ('!' :: cs ++ ['!'], c.skip 1)
  | _ => ('!' :: cs, c)

/-- Whether a tag may end here: at a gap, and inside brackets also at a comma. -/
def endsTag (inFlow : Bool) (cs : List Char) : Bool :=
  gapAhead cs || (inFlow && cs.head? = some ',')

/-- A tag between angle brackets, behind its exclamation mark. -/
def fullTag (c : Cursor) : Option (Token × Cursor) := do
  let (cs, c) ← tagText true [] (c.skip 2)
  match c.rest with
  | '>' :: _ => some (.tag "" (tagValue cs), c.skip 1)
  | _ => none

/-- A tag that starts with a handle. One mark alone is a tag of its own. -/
def shortTag (c : Cursor) : Option (Token × Cursor) := do
  let (h, c) := handle c
  if 1 < h.length ∧ h.getLast? = some '!' then
    let (cs, c) ← tagText false [] c
    some (.tag (String.ofList h) (tagValue cs), c)
  else
    let (cs, c) ← tagText false h c
    let value := tagValue cs.tail
    some (if value.isEmpty then .tag "" "!" else .tag "!" value, c)

/-- The tag at a cursor. -/
def tag (inFlow : Bool) (c : Cursor) : Option (Token × Cursor) := do
  let (t, c) ← match c.rest with
    | _ :: '<' :: _ => fullTag c
    | _ => shortTag c
  if endsTag inFlow c.rest then some (t, c) else none

/-! ## Directives -/

/-- A number of at most nine digits. -/
def versionNumber (c : Cursor) : Option (Nat × Cursor) :=
  let ds := c.rest.takeWhile Char.isDigit
  if ds.isEmpty || 9 < ds.length then none
  else some (ds.foldl (fun n d => n * 10 + (d.toNat - '0'.toNat)) 0, c.skipWhile Char.isDigit)

/-- A version: two numbers with a point between them. -/
def version (c : Cursor) : Option (Token × Cursor) := do
  let (major, c) ← versionNumber (c.skipWhile isBlank)
  match c.rest with
  | '.' :: _ =>
    let (minor, c) ← versionNumber (c.skip 1)
    some (.version major minor, c)
  | _ => none

/-- A handle and the text it stands for. -/
def tagHandle (c : Cursor) : Option (Token × Cursor) := do
  let c := c.skipWhile isBlank
  match c.rest with
  | '!' :: _ =>
    let (h, c) := handle c
    if h.getLast? ≠ some '!' then none
    else match c.rest with
      | d :: _ =>
        if isBlank d then
          let (cs, c) ← tagText true [] (c.skipWhile isBlank)
          if gapAhead c.rest then some (.tagHandle (String.ofList h) (tagValue cs), c) else none
        else none
      | [] => none
  | _ => none

/-- The directive line at a cursor. Directives of other names are refused. -/
def directive (c : Cursor) : Option (Token × Cursor) := do
  let (cs, c) := word (c.skip 1)
  if gapAhead c.rest then
    let (t, c) ← if cs = ['Y', 'A', 'M', 'L'] then version c
      else if cs = ['T', 'A', 'G'] then tagHandle c
      else none
    some (t, ← c.finishLine)
  else none

end OptionAtlas.Yaml.Property
