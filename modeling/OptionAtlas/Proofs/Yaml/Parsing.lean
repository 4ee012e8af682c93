import OptionAtlas.Proofs.Yaml.Layout

/-!
# The node of a written document

From the tokens of a document its node is parsed, and the parser stops behind them. A
list that is not indented ends at the first token that is no dash, so such a token has
to follow; a list that no field holds ends with its block. Three calls within each other
are enough for each token.

## Main definitions

* `Opening` — the tokens that a document starts with.
* `Node.Parses` — from its tokens a document is parsed into its node.

## Main statements

* `Node.parses_of_laid` — every document in block style is parsed into its node.
* `Document.ofTokens_documentTokens` — the tokens of a whole text.
-/

namespace OptionAtlas.Yaml

/-- The tokens that a document starts with. -/
inductive Opening : Token → Prop
  | scalar (plain : Bool) (s : String) : Opening (.scalar plain s)
  | brackets : Opening .flowSequenceStart
  | dash : Opening .blockEntry
  | record : Opening .blockMappingStart
  | list : Opening .blockSequenceStart

theorem exists_tokensOf_eq_cons (t : Tree) :
    ∃ x xs, tokensOf t = x :: xs ∧ Opening x ∧ ((∀ us, t ≠ .list us) → x ≠ .blockEntry) := by
  cases t with
  | text s => exact ⟨_, _, by rw [tokensOf], .scalar .., by simp⟩
  | list us =>
      cases us with
      | nil => exact ⟨_, _, by rw [tokensOf], .brackets, by simp⟩
      | cons u us =>
          exact ⟨_, _, by rw [tokensOf, itemsTokens, List.cons_append], .dash,
            fun h => absurd rfl (h _)⟩
  | record fs => exact ⟨_, _, by rw [tokensOf, List.cons_append], .record, by simp⟩

theorem exists_documentTokens_eq_cons (t : Tree) :
    ∃ x xs, documentTokens t = x :: xs ∧ Opening x := by
  rcases exists_tokensOf_eq_cons t with ⟨x, xs, hx, hopening, -⟩
  cases t with
  | text s => exact ⟨x, xs, hx, hopening⟩
  | list us =>
      cases us with
      | nil => exact ⟨x, xs, hx, hopening⟩
      | cons u us => exact ⟨.blockSequenceStart, _, rfl, .list⟩
  | record fs => exact ⟨x, xs, hx, hopening⟩

theorem Opening.not_mem_fieldMarks {x : Token} (h : Opening x) :
    x ∉ [Token.key, .value, .blockEnd] := by
  cases h <;> simp

theorem Opening.not_mem_itemMarks {x : Token} (h : Opening x) (hdash : x ≠ .blockEntry) :
    x ∉ [Token.blockEntry, .key, .value, .blockEnd] := by
  rw [List.mem_cons, not_or]
  exact ⟨hdash, h.not_mem_fieldMarks⟩

namespace Node

variable {a : List (String × Nat)} {l : List (String × String)} {n : Nat} {b dashes : Bool}
  {rest xs : List Token} {x : Token}

/-- Some token follows, and it is no dash. -/
def EndsList (rest : List Token) : Prop := ∃ x xs, rest = x :: xs ∧ x ≠ .blockEntry

/-- From its tokens a document is parsed into its node, whatever follows if it is no list
or no list may start without being indented. -/
def Parses (dashes : Bool) (t : Tree) : Prop :=
  ∀ (a : List (String × Nat)) (l : List (String × String)) (n : Nat) (rest : List Token),
    (dashes = true → EndsList rest) → 3 * (tokensOf t).length + 3 ≤ n →
    parse true dashes n ⟨tokensOf t ++ rest, a, l⟩ = (nodeOf t, some ⟨rest, a, l⟩)

/-! ## Single calls -/

/-- Without properties the content of a node is at the front of the input. -/
theorem parse_of_opening (h : Opening x) :
    parse b dashes (n + 1) ⟨x :: xs, a, l⟩ =
      parseContent b dashes ⟨none, none⟩ n ⟨x :: xs, a, l⟩ := by
  cases h <;> rfl

theorem parse_scalar (plain : Bool) (s : String) :
    parse b dashes (n + 2) ⟨.scalar plain s :: rest, a, l⟩ =
      (.scalar none plain s, some ⟨rest, a, l⟩) := by
  rw [parse_of_opening (.scalar plain s), parseContent]
  simp

theorem parse_brackets :
    parse b dashes (n + 3) ⟨.flowSequenceStart :: .flowSequenceEnd :: rest, a, l⟩ =
      (.sequence [], some ⟨rest, a, l⟩) := by
  rw [parse_of_opening .brackets, parseContent]
  simp [parseFlowItems]

theorem parse_dash {ns : List Node} {s : Option Input}
    (h : parseDashes n ⟨.blockEntry :: xs, a, l⟩ = (ns, s)) :
    parse b true (n + 2) ⟨.blockEntry :: xs, a, l⟩ = (.sequence ns, s) := by
  rw [parse_of_opening .dash, parseContent]
  simp [h]

theorem parse_record {ps : List (Node × Node)} {s : Option Input}
    (h : parsePairs n ⟨xs, a, l⟩ = (ps, s)) :
    parse true dashes (n + 2) ⟨.blockMappingStart :: xs, a, l⟩ = (.mapping ps, s) := by
  rw [parse_of_opening .record, parseContent]
  simp [h]

theorem parse_list {ns : List Node} {s : Option Input} (h : parseItems n ⟨xs, a, l⟩ = (ns, s)) :
    parse true dashes (n + 2) ⟨.blockSequenceStart :: xs, a, l⟩ = (.sequence ns, s) := by
  rw [parse_of_opening .list, parseContent]
  simp [h]

theorem orEmpty_of_not_mem {marks : List Token} (h : x ∉ marks) (p : Input → Parsed) :
    orEmpty marks p ⟨x :: xs, a, l⟩ = p ⟨x :: xs, a, l⟩ := by
  simp [orEmpty, Input.startsWith, h]

/-! ## Lists -/

theorem parseDashes_of_endsList (h : EndsList rest) :
    parseDashes (n + 1) ⟨rest, a, l⟩ = ([], some ⟨rest, a, l⟩) := by
  rcases h with ⟨x, xs, rfl, hx⟩
  simp only [parseDashes]
  split
  next heq => exact absurd (List.cons.inj heq).1 hx
  next heq => cases heq
  next => rfl

/-- An item that is written is parsed behind its dash, and the list goes on behind it. -/
theorem parseDashes_item {v : Node} {s : Input} (h : Opening x) (hdash : x ≠ .blockEntry)
    (hitem : parse true false n ⟨x :: xs, a, l⟩ = (v, some s)) :
    parseDashes (n + 1) ⟨.blockEntry :: x :: xs, a, l⟩ =
      (v :: (parseDashes n s).1, (parseDashes n s).2) := by
  simp only [parseDashes, orEmpty_of_not_mem (h.not_mem_itemMarks hdash), hitem, Parsed.cons]

/-- In a list that has a block of its own an item is parsed in the same way. -/
theorem parseItems_item {v : Node} {s : Input} (h : Opening x) (hdash : x ≠ .blockEntry)
    (hitem : parse true false n ⟨x :: xs, a, l⟩ = (v, some s)) :
    parseItems (n + 1) ⟨.blockEntry :: x :: xs, a, l⟩ =
      (v :: (parseItems n s).1, (parseItems n s).2) := by
  have hmarks : x ∉ [Token.blockEntry, .blockEnd] := by
    have hnone := h.not_mem_itemMarks hdash
    simp only [List.mem_cons, not_or] at hnone ⊢
    exact ⟨hnone.1, hnone.2.2.2⟩
  simp only [parseItems, orEmpty_of_not_mem hmarks, hitem, Parsed.cons]

/-- Parsers of items that take one written item after the other, up to the end of the list,
parse a list into its nodes. -/
theorem parsed_itemsTokens {f : Nat → Input → ParsedList Node} {rest' : List Token}
    {us : List Tree}
    (item : ∀ {n : Nat} {x : Token} {xs : List Token} {v : Node} {s : Input}, Opening x →
      x ≠ .blockEntry → parse true false n ⟨x :: xs, a, l⟩ = (v, some s) →
      f (n + 1) ⟨.blockEntry :: x :: xs, a, l⟩ = (v :: (f n s).1, (f n s).2))
    (stop : ∀ n, f (n + 1) ⟨rest, a, l⟩ = ([], some ⟨rest', a, l⟩))
    (items : ∀ t ∈ us, Parses false t) (flat : ∀ t ∈ us, ∀ vs, t ≠ .list vs)
    (hn : 3 * (itemsTokens us).length + 1 ≤ n) :
    f n ⟨itemsTokens us ++ rest, a, l⟩ = (nodesOf us, some ⟨rest', a, l⟩) := by
  induction us generalizing n with
  | nil =>
      obtain ⟨n, rfl⟩ : ∃ m, n = m + 1 := ⟨n - 1, by omega⟩
      exact stop n
  | cons t us ih =>
      obtain ⟨n, rfl⟩ : ∃ m, n = m + 1 := ⟨n - 1, by omega⟩
      simp only [List.mem_cons, forall_eq_or_imp] at items flat
      simp only [itemsTokens, List.length_append, List.length_cons] at hn
      have hitem := items.1 a l n (itemsTokens us ++ rest) (by simp) (by omega)
      have hitems := ih items.2 flat.2 (n := n) (by omega)
      rcases exists_tokensOf_eq_cons t with ⟨x, xs, hx, hopening, hdash⟩
      rw [hx, List.cons_append] at hitem
      rw [itemsTokens, hx, List.append_assoc, List.cons_append, List.cons_append,
        item hopening (hdash flat.1) hitem, hitems, nodesOf]

/-! ## Records -/

/-- A field is parsed from its mark on, and the record goes on behind its value. -/
theorem parsePairs_field {k : String} {v : Node} {s : Input} (h : Opening x)
    (hvalue : parse true true (n + 2) ⟨x :: xs, a, l⟩ = (v, some s)) :
    parsePairs (n + 3) ⟨.key :: .scalar true k :: .value :: x :: xs, a, l⟩ =
      ((.scalar none true k, v) :: (parsePairs (n + 2) s).1, (parsePairs (n + 2) s).2) := by
  have hkey : orEmpty [.key, .value, .blockEnd] (parse true true (n + 2))
      ⟨.scalar true k :: .value :: x :: xs, a, l⟩ =
      (.scalar none true k, some ⟨.value :: x :: xs, a, l⟩) := by
    rw [orEmpty_of_not_mem (Opening.scalar true k).not_mem_fieldMarks, parse_scalar]
  rw [parsePairs]
  simp only [hkey, Parsed.pair, valueBy, orEmpty_of_not_mem h.not_mem_fieldMarks, hvalue, consPair]

theorem endsList_fieldsTokens (fs : List (String × Tree)) (rest : List Token) :
    EndsList (fieldsTokens fs ++ .blockEnd :: rest) := by
  cases fs with
  | nil => exact ⟨.blockEnd, rest, rfl, by simp⟩
  | cons f fs =>
      obtain ⟨k, t⟩ := f
      exact ⟨.key, _, by rw [fieldsTokens, List.cons_append, List.cons_append], by simp⟩

/-- The fields of a record, up to the end of its block. -/
theorem parsePairs_fieldsTokens {fs : List (String × Tree)} (rest : List Token)
    (values : ∀ f ∈ fs, Parses true f.2)
    (hn : 3 * (fieldsTokens fs).length + 1 ≤ n) :
    parsePairs n ⟨fieldsTokens fs ++ .blockEnd :: rest, a, l⟩ =
      (pairsOf fs, some ⟨rest, a, l⟩) := by
  induction fs generalizing n with
  | nil =>
      obtain ⟨n, rfl⟩ : ∃ m, n = m + 1 := ⟨n - 1, by omega⟩
      rfl
  | cons f fs ih =>
      obtain ⟨k, t⟩ := f
      simp only [List.mem_cons, forall_eq_or_imp] at values
      simp only [fieldsTokens, List.length_append, List.length_cons] at hn
      obtain ⟨n, rfl⟩ : ∃ m, n = m + 3 := ⟨n - 3, by omega⟩
      have hvalue := values.1 a l (n + 2) _ (fun _ => endsList_fieldsTokens fs rest) (by omega)
      have hfields := ih values.2 (n := n + 2) (by omega)
      rcases exists_tokensOf_eq_cons t with ⟨x, xs, hx, hopening, -⟩
      rw [hx, List.cons_append] at hvalue
      simp only [fieldsTokens, hx, List.append_assoc, List.cons_append]
      rw [parsePairs_field hopening hvalue, hfields, pairsOf]

/-! ## Documents -/

theorem parses_text (s : String) : Parses dashes (.text s) := by
  intro a l n rest _ hn
  obtain ⟨n, rfl⟩ : ∃ m, n = m + 2 := ⟨n - 2, by omega⟩
  rw [tokensOf, nodeOf]
  exact parse_scalar _ s

theorem parses_list {us : List Tree} (items : ∀ t ∈ us, Parses false t)
    (flat : ∀ t ∈ us, ∀ vs, t ≠ .list vs) : Parses true (.list us) := by
  intro a l n rest hrest hn
  obtain ⟨n, rfl⟩ : ∃ m, n = m + 3 := ⟨n - 3, by omega⟩
  cases us with
  | nil =>
      rw [tokensOf, nodeOf, nodesOf]
      exact parse_brackets
  | cons t us =>
      rw [tokensOf] at hn ⊢
      have hitems := parsed_itemsTokens (a := a) (l := l) (n := n + 1) parseDashes_item
        (fun _ => parseDashes_of_endsList (hrest rfl)) items flat (by omega)
      rw [itemsTokens, List.cons_append, List.cons_append] at hitems ⊢
      rw [parse_dash hitems, nodeOf]

theorem parses_record {fs : List (String × Tree)} (values : ∀ f ∈ fs, Parses true f.2) :
    Parses dashes (.record fs) := by
  intro a l n rest _ hn
  obtain ⟨n, rfl⟩ : ∃ m, n = m + 2 := ⟨n - 2, by omega⟩
  simp only [tokensOf, List.cons_append, List.length_cons, List.length_append] at hn
  have hpairs := parsePairs_fieldsTokens (a := a) (l := l) (n := n) rest values (by omega)
  rw [tokensOf, nodeOf, List.cons_append, List.cons_append, List.append_assoc]
  exact parse_record hpairs

/-- Every document in block style is parsed into its node, as a field and, unless it is
a list, as an item. -/
theorem parses_of_laid {t : Tree} (h : t.Laid) :
    Parses true t ∧ ((∀ us, t ≠ .list us) → Parses false t) := by
  induction h with
  | text s => exact ⟨parses_text s, fun _ => parses_text s⟩
  | list _ flat ih =>
      exact ⟨parses_list (fun t ht => (ih t ht).2 (flat t ht)) flat, fun h => absurd rfl (h _)⟩
  | @record fs _ _ _ ih =>
      have values : ∀ f ∈ fs, Parses true f.2 := fun f hf => (ih f hf).1
      exact ⟨parses_record values, fun _ => parses_record values⟩

/-- A list that has a block of its own is parsed into the same node, whatever follows. -/
theorem parse_documentTokens {t : Tree} (h : t.Laid) (hn : 3 * (documentTokens t).length + 3 ≤ n) :
    parse true false n ⟨documentTokens t ++ rest, a, l⟩ = (nodeOf t, some ⟨rest, a, l⟩) := by
  cases h with
  | text s => exact parses_text s a l n rest (by simp) hn
  | record ne_nil names values =>
      exact (parses_of_laid (.record ne_nil names values)).2 (by simp) a l n rest (by simp) hn
  | @list us items flat =>
      obtain ⟨n, rfl⟩ : ∃ m, n = m + 3 := ⟨n - 3, by omega⟩
      cases us with
      | nil =>
          have htokens : documentTokens (.list []) = [.flowSequenceStart, .flowSequenceEnd] := rfl
          rw [htokens, nodeOf, nodesOf]
          exact parse_brackets
      | cons u us =>
          simp only [documentTokens, List.cons_append, List.length_cons, List.length_append] at hn
          have hitems : parseItems (n + 1) ⟨itemsTokens (u :: us) ++ .blockEnd :: rest, a, l⟩ =
              (nodesOf (u :: us), some ⟨rest, a, l⟩) :=
            parsed_itemsTokens parseItems_item (fun _ => rfl)
              (fun u hu => (parses_of_laid (items u hu)).2 (flat u hu)) flat (by omega)
          rw [documentTokens, nodeOf, List.cons_append, List.cons_append, List.append_assoc]
          exact parse_list hitems

end Node

theorem Document.parsed_of_opening {x : Token} (h : Opening x) (xs : List Token) :
    parsed (x :: xs) = rootOf [] (x :: xs) := by
  cases h <;> rfl

/-- A document is the only one of its tokens. -/
theorem Document.ofTokens_documentTokens {t : Tree} (h : t.Laid) :
    ofTokens (documentTokens t ++ [.streamEnd]) = ⟨nodeOf t, true⟩ := by
  have hroot : rootOf [] (documentTokens t ++ [.streamEnd]) =
      (nodeOf t, some ⟨[.streamEnd], [], [] ++ defaultHandles⟩) :=
    Node.parse_documentTokens h (by rw [List.length_append]; omega)
  have hparsed : parsed (documentTokens t ++ [.streamEnd]) =
      rootOf [] (documentTokens t ++ [.streamEnd]) := by
    rcases exists_documentTokens_eq_cons t with ⟨x, xs, hx, hopening⟩
    rw [hx, List.cons_append]
    exact parsed_of_opening hopening _
  rw [ofTokens, hparsed, hroot]
  rfl

end OptionAtlas.Yaml
