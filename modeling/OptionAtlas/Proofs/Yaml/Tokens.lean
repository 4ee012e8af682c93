import OptionAtlas.Proofs.Yaml.Lexing

/-!
# The tokens of a written document

A field is read from the colon of its name to the start of the line behind it, and an
item from its dash. What stands there is never right of the record or list at hand, so a
part of a document is read alike wherever it stands and whatever follows it. The number
of steps stays below the number of characters.

## Main definitions

* `Margin` — what may stand behind a part of a document.
* `Lexer.FieldLexes`, `Lexer.ItemLexes` — the value of a field or an item is read as its tokens.
* `Lexer.FieldsLex`, `Lexer.ItemsLex` — the fields of a record and the items of a list are.

## Main statements

* `Lexer.lexes_of_laid` — every document in block style is read as its tokens.
* `tokens_documentChars` — the tokens of a whole text.
-/

namespace OptionAtlas.Yaml

/-- The end of a text, or a line that starts at column `d` or left of it. -/
inductive Margin (d : Nat) : List Char → Prop
  | intro {n : Nat} {cs : List Char} (left : n ≤ d) (opens : ∀ x ∈ cs.head?, opensLine x = true) :
    Margin d (indent n ++ cs)

namespace Margin

variable {d : Nat} {tail : List Char}

theorem nil : Margin d [] := .intro (Nat.zero_le d) (by simp)

theorem mono {e : Nat} (h : Margin d tail) (hde : d ≤ e) : Margin e tail := by
  cases h with
  | intro left opens => exact .intro (Nat.le_trans left hde) opens

theorem fields {fs : List (String × Tree)} (names : ∀ f ∈ fs, FieldName f.1)
    (h : Margin d tail) : Margin d (fieldsChars d fs ++ tail) := by
  cases fs with
  | nil => exact h
  | cons f fs =>
      obtain ⟨k, t⟩ := f
      rcases (names (k, t) List.mem_cons_self).exists_cons with ⟨c, cs, hcs, hc⟩
      simp only [fieldsChars, hcs, List.append_assoc, List.cons_append]
      exact .intro (Nat.le_refl d) (opensLine_head (opensLine_of_isAlpha hc) _)

theorem items (h : Margin d tail) (ts : List Tree) : Margin d (itemsChars d ts ++ tail) := by
  cases ts with
  | nil => exact h
  | cons t ts =>
      simp only [itemsChars, List.append_assoc, List.cons_append]
      exact .intro (Nat.le_refl d) (opensLine_head (by decide) _)

end Margin

theorem gapAhead_fieldChars (d : Nat) (t : Tree) (rest : List Char) :
    gapAhead (fieldChars d t ++ rest) = true := by
  cases t with
  | text s => rfl
  | list ts => cases ts <;> rfl
  | record fs => cases fs <;> rfl

namespace Lexer

variable {d : Nat} {tail : List Char} {p : Place}

/-- What stands behind the colon of a field is read as the tokens of its value. -/
def FieldLexes (t : Tree) : Prop :=
  ∀ {d : Nat} {tail : List Char} {p : Place} (ts : List Token) (bs : List Nat),
    Margin d tail → d + 1 ≤ p.column →
    ∃ q : Place, q.column = 0 ∧
      Leads (fieldChars d t).length (clear false ts (d :: bs) ⟨fieldChars d t ++ tail, p⟩)
        (clear true ((tokensOf t).reverse ++ ts) (d :: bs) ⟨tail, q⟩)

/-- What stands behind a dash is read as the tokens of the item. -/
def ItemLexes (t : Tree) : Prop :=
  ∀ {d : Nat} {tail : List Char} {p : Place} (ts : List Token) (bs : List Nat),
    Margin d tail → p.column = d + 1 →
    ∃ q : Place, q.column = 0 ∧
      Leads ((itemChars d t).length + 1)
        (clear true ts (d :: bs) ⟨' ' :: (itemChars d t ++ tail), p⟩)
        (clear true ((tokensOf t).reverse ++ ts) (d :: bs) ⟨tail, q⟩)

/-! ## Gaps between the parts -/

theorem settle_indent (ka : Bool) (ts : List Token) (bs : List Nat) (n : Nat) (cs : List Char)
    (p : Place) :
    (clear ka ts bs ⟨indent n ++ cs, p⟩).settle =
      (clear ka ts bs ⟨cs, p.right (indent n)⟩).settle :=
  settle_clear_congr (gapFrom_indent n cs p ka)

theorem settle_newline (ka : Bool) (ts : List Token) (bs : List Nat) (cs : List Char) (p : Place) :
    (clear ka ts bs ⟨'\n' :: cs, p⟩).settle = (clear true ts bs ⟨cs, p.down ['\n']⟩).settle :=
  settle_clear_congr (gapFrom_newline cs p ka)

/-- A block right of the margin is closed before the next token. -/
theorem settle_close {ts : List Token} {bs : List Nat} {b : Nat} (hb : d < b) (h : Margin d tail)
    (hp : p.column = 0) :
    (clear true ts (b :: bs) ⟨tail, p⟩).settle =
      (clear true (.blockEnd :: ts) bs ⟨tail, p⟩).settle := by
  cases h with
  | @intro n cs left opens =>
      rw [settle_indent, settle_indent, settle_eq_closeBlocks (gapFrom_opens opens _ _),
        settle_eq_closeBlocks (gapFrom_opens opens _ _)]
      have hcolumn : (p.right (indent n)).column + 1 ≤ b := by
        rw [column_right_indent]
        omega
      simp only [clear, closeBlocks, inFlow, closeTo, if_pos hcolumn]
      rfl

/-! ## Records and lists -/

/-- The fields of a record whose block is open are read as their tokens. -/
def FieldsLex (d : Nat) (fs : List (String × Tree)) (tail : List Char) : Prop :=
  ∀ {p : Place} (ts : List Token) (bs : List Nat), p.column = 0 →
    ∃ q : Place, q.column = 0 ∧
      Leads (fieldsChars d fs).length (clear true ts (d :: bs) ⟨fieldsChars d fs ++ tail, p⟩)
        (clear true ((fieldsTokens fs).reverse ++ ts) (d :: bs) ⟨tail, q⟩)

/-- Behind the key of a field its value is read, and then the fields that follow. -/
theorem leads_behindKey {k : String} {t : Tree} {fs : List (String × Tree)} (ts : List Token)
    (bs : List Nat) (hvalue : FieldLexes t) (hfields : FieldsLex d fs tail)
    (htail : Margin d (fieldsChars d fs ++ tail)) (hp : d + 1 ≤ p.column) :
    ∃ q : Place, q.column = 0 ∧
      Leads ((fieldsChars d fs).length + (fieldChars d t).length)
        (clear false (.value :: .scalar true k :: .key :: ts) (d :: bs)
          ⟨fieldChars d t ++ (fieldsChars d fs ++ tail), p⟩)
        (clear true ((fieldsTokens ((k, t) :: fs)).reverse ++ ts) (d :: bs) ⟨tail, q⟩) := by
  rcases hvalue (.value :: .scalar true k :: .key :: ts) bs htail hp with ⟨q, hq, hleads⟩
  rcases hfields ((tokensOf t).reverse ++ .value :: .scalar true k :: .key :: ts) bs hq with
    ⟨q', hq', hleads'⟩
  have htokens : (fieldsTokens ((k, t) :: fs)).reverse ++ ts = (fieldsTokens fs).reverse ++
      ((tokensOf t).reverse ++ .value :: .scalar true k :: .key :: ts) := by
    simp [fieldsTokens]
  rw [htokens]
  exact ⟨q', hq', hleads.trans hleads'⟩

theorem fieldsLex_of_values {fs : List (String × Tree)} (names : ∀ f ∈ fs, FieldName f.1)
    (values : ∀ f ∈ fs, FieldLexes f.2) (htail : Margin d tail) : FieldsLex d fs tail := by
  induction fs with
  | nil => exact fun ts bs hp => ⟨_, hp, .rest rfl⟩
  | cons f fs ih =>
      intro p ts bs hp
      obtain ⟨k, t⟩ := f
      simp only [List.mem_cons, forall_eq_or_imp] at names values
      have hcolumn : (p.right (indent d)).column = d := by
        rw [column_right_indent, hp, Nat.zero_add]
      have hcolumn' : d + 1 ≤ ((p.right (indent d)).right (k.toList ++ [':'])).column := by
        rw [Place.column_right, hcolumn, List.length_append, List.length_singleton]
        omega
      have hkey := (leads_key ts bs names.1 hcolumn
        (gapAhead_fieldChars d t (fieldsChars d fs ++ tail))).of_settle_eq
          (settle_indent true ts (d :: bs) d _ p)
      rcases leads_behindKey ts bs values.1 (ih names.2 values.2) (htail.fields names.2) hcolumn'
        with ⟨q, hq, hleads⟩
      have hchars : fieldsChars d ((k, t) :: fs) ++ tail = indent d ++ (k.toList ++
          ':' :: (fieldChars d t ++ (fieldsChars d fs ++ tail))) := by
        simp [fieldsChars]
      have hpos := names.1.length_pos
      refine ⟨q, hq, ?_⟩
      rw [hchars]
      refine (hkey.trans hleads).mono ?_
      simp only [fieldsChars, List.length_append, List.length_cons]
      omega

/-- A record right of the blocks around it opens a block of its own. -/
theorem leads_record {fs : List (String × Tree)} (ts : List Token) {bs : List Nat}
    (hne : fs ≠ []) (names : ∀ f ∈ fs, FieldName f.1) (values : ∀ f ∈ fs, FieldLexes f.2)
    (hbs : ∀ b ∈ bs.head?, b < d) (htail : Margin d tail) (hp : p.column = d) :
    ∃ q : Place, q.column = 0 ∧
      Leads (recordChars d fs).length (clear true ts bs ⟨recordChars d fs ++ tail, p⟩)
        (clear true ((fieldsTokens fs).reverse ++ .blockMappingStart :: ts) (d :: bs)
          ⟨tail, q⟩) := by
  cases fs with
  | nil => exact absurd rfl hne
  | cons f fs =>
      obtain ⟨k, t⟩ := f
      simp only [List.mem_cons, forall_eq_or_imp] at names values
      have hcolumn : d + 1 ≤ (p.right (k.toList ++ [':'])).column := by
        simp only [Place.column_right, hp, List.length_append, List.length_singleton]
        omega
      have hkey := leads_firstKey ts names.1 hp hbs
        (gapAhead_fieldChars d t (fieldsChars d fs ++ tail))
      rcases leads_behindKey (.blockMappingStart :: ts) bs values.1
        (fieldsLex_of_values names.2 values.2 htail) (htail.fields names.2) hcolumn with
        ⟨q, hq, hleads⟩
      have hchars : recordChars d ((k, t) :: fs) ++ tail = k.toList ++
          ':' :: (fieldChars d t ++ (fieldsChars d fs ++ tail)) := by
        simp [recordChars]
      have hpos := names.1.length_pos
      refine ⟨q, hq, ?_⟩
      rw [hchars]
      refine (hkey.trans hleads).mono ?_
      simp only [recordChars, List.length_append, List.length_cons]
      omega

/-- The items of a list whose dashes stand at the column of the innermost block are read as
their tokens. -/
def ItemsLex (d : Nat) (us : List Tree) (tail : List Char) : Prop :=
  ∀ {p : Place} (ts : List Token) (bs : List Nat), p.column = 0 →
    ∃ q : Place, q.column = 0 ∧
      Leads (itemsChars d us).length (clear true ts (d :: bs) ⟨itemsChars d us ++ tail, p⟩)
        (clear true ((itemsTokens us).reverse ++ ts) (d :: bs) ⟨tail, q⟩)

/-- Behind a dash its item is read, and then the items that follow. -/
theorem leads_behindDash {t : Tree} {us : List Tree} (ts : List Token) (bs : List Nat)
    (hitem : ItemLexes t) (hitems : ItemsLex d us tail) (htail : Margin d tail)
    (hp : p.column = d + 1) :
    ∃ q : Place, q.column = 0 ∧
      Leads ((itemsChars d us).length + ((itemChars d t).length + 1))
        (clear true (.blockEntry :: ts) (d :: bs)
          ⟨' ' :: (itemChars d t ++ (itemsChars d us ++ tail)), p⟩)
        (clear true ((itemsTokens (t :: us)).reverse ++ ts) (d :: bs) ⟨tail, q⟩) := by
  rcases hitem (.blockEntry :: ts) bs (htail.items us) hp with ⟨q, hq, hleads⟩
  rcases hitems ((tokensOf t).reverse ++ .blockEntry :: ts) bs hq with ⟨q', hq', hleads'⟩
  have htokens : (itemsTokens (t :: us)).reverse ++ ts = (itemsTokens us).reverse ++
      ((tokensOf t).reverse ++ .blockEntry :: ts) := by
    simp [itemsTokens]
  rw [htokens]
  exact ⟨q', hq', hleads.trans hleads'⟩

theorem itemsLex_of_items {us : List Tree} (items : ∀ t ∈ us, ItemLexes t)
    (htail : Margin d tail) : ItemsLex d us tail := by
  induction us with
  | nil => exact fun ts bs hp => ⟨_, hp, .rest rfl⟩
  | cons t us ih =>
      intro p ts bs hp
      simp only [List.mem_cons, forall_eq_or_imp] at items
      have hcolumn : (p.right (indent d)).column = d := by
        rw [column_right_indent, hp, Nat.zero_add]
      have hcolumn' : ((p.right (indent d)).right ['-']).column = d + 1 := by
        rw [Place.column_right, hcolumn, List.length_singleton]
      have hdash := (leads_dash ts bs hcolumn
        (itemChars d t ++ (itemsChars d us ++ tail))).of_settle_eq
          (settle_indent true ts (d :: bs) d _ p)
      rcases leads_behindDash ts bs items.1 (ih items.2) htail hcolumn' with ⟨q, hq, hleads⟩
      have hchars : itemsChars d (t :: us) ++ tail =
          indent d ++ '-' :: ' ' :: (itemChars d t ++ (itemsChars d us ++ tail)) := by
        simp [itemsChars]
      refine ⟨q, hq, ?_⟩
      rw [hchars]
      refine (hdash.trans hleads).mono ?_
      simp only [itemsChars, List.length_append, List.length_cons]
      omega

/-- A list that no field holds opens a block of its own. -/
theorem leads_list {t : Tree} {us : List Tree} (items : ∀ u ∈ t :: us, ItemLexes u)
    (htail : Margin 0 tail) (hp : p.column = 0) :
    ∃ q : Place, q.column = 0 ∧
      Leads (itemsChars 0 (t :: us)).length (clear true [] [] ⟨itemsChars 0 (t :: us) ++ tail, p⟩)
        (clear true ((itemsTokens (t :: us)).reverse ++ [.blockSequenceStart]) [0]
          ⟨tail, q⟩) := by
  simp only [List.mem_cons, forall_eq_or_imp] at items
  have hcolumn : (p.right ['-']).column = 0 + 1 := by
    rw [Place.column_right, hp, List.length_singleton]
  have hbs : ∀ b ∈ ([] : List Nat).head?, b < 0 := by simp
  have hdash := leads_firstDash [] hp hbs (itemChars 0 t ++ (itemsChars 0 us ++ tail))
  rcases leads_behindDash [.blockSequenceStart] [] items.1 (itemsLex_of_items items.2 htail) htail
    hcolumn with ⟨q, hq, hleads⟩
  have hchars : itemsChars 0 (t :: us) ++ tail =
      '-' :: ' ' :: (itemChars 0 t ++ (itemsChars 0 us ++ tail)) := by
    simp [itemsChars, indent]
  refine ⟨q, hq, ?_⟩
  rw [hchars]
  refine (hdash.trans hleads).mono ?_
  simp only [itemsChars, List.length_append, List.length_cons]
  omega

/-! ## Documents -/

theorem fieldLexes_text (s : String) : FieldLexes (.text s) := by
  intro d tail p ts bs htail hp
  cases htail with
  | intro left opens =>
      rcases leads_text s hp left opens with ⟨q, hq, htext⟩
      exact ⟨q, hq, htext.mono (by simp [fieldChars])⟩

theorem itemLexes_text (s : String) : ItemLexes (.text s) := by
  intro d tail p ts bs htail hp
  cases htail with
  | intro left opens =>
      rcases leads_text s (Nat.le_of_eq hp.symm) left opens with ⟨q, hq, htext⟩
      exact ⟨q, hq, htext.mono (by omega)⟩

theorem fieldLexes_list {us : List Tree} (items : ∀ t ∈ us, ItemLexes t) :
    FieldLexes (.list us) := by
  intro d tail p ts bs htail hp
  cases us with
  | nil =>
      refine ⟨(p.right [' ', '[', ']']).down ['\n'], rfl, ?_⟩
      exact (leads_brackets (Nat.le_of_succ_le hp) tail).mono (by simp [fieldChars])
  | cons t us =>
      rcases itemsLex_of_items items htail (p := p.down ['\n']) ts bs rfl with ⟨q, hq, hitems⟩
      refine ⟨q, hq, ?_⟩
      exact (hitems.of_settle_eq (settle_newline false ts (d :: bs) _ p)).mono
        (by simp [fieldChars])

/-- A record inside another block is closed behind its last field. -/
theorem leads_inner_record {fs : List (String × Tree)} (ts : List Token) (bs : List Nat)
    (hne : fs ≠ []) (names : ∀ f ∈ fs, FieldName f.1) (values : ∀ f ∈ fs, FieldLexes f.2)
    (htail : Margin d tail) (hp : p.column = d + 2) :
    ∃ q : Place, q.column = 0 ∧
      Leads (recordChars (d + 2) fs).length
        (clear true ts (d :: bs) ⟨recordChars (d + 2) fs ++ tail, p⟩)
        (clear true ((tokensOf (.record fs)).reverse ++ ts) (d :: bs) ⟨tail, q⟩) := by
  have hbs : ∀ b ∈ (d :: bs).head?, b < d + 2 := by simp
  rcases leads_record ts hne names values hbs (htail.mono (Nat.le_add_right d 2)) hp with
    ⟨q, hq, hrecord⟩
  have htokens : (tokensOf (.record fs)).reverse ++ ts =
      .blockEnd :: ((fieldsTokens fs).reverse ++ .blockMappingStart :: ts) := by
    simp [tokensOf]
  have hleft : d < d + 2 := by omega
  rw [htokens]
  exact ⟨q, hq, (hrecord.trans (.rest (n := 0) (settle_close hleft htail hq))).mono (by simp)⟩

theorem fieldLexes_record {fs : List (String × Tree)} (hne : fs ≠ [])
    (names : ∀ f ∈ fs, FieldName f.1) (values : ∀ f ∈ fs, FieldLexes f.2) :
    FieldLexes (.record fs) := by
  intro d tail p ts bs htail hp
  have hcolumn : ((p.down ['\n']).right (indent (d + 2))).column = d + 2 := by
    rw [column_right_indent, Place.column_down, Nat.zero_add]
  rcases leads_inner_record ts bs hne names values htail hcolumn with
    ⟨q, hq, hrecord⟩
  refine ⟨q, hq, ?_⟩
  have hchars : fieldChars d (.record fs) =
      '\n' :: (indent (d + 2) ++ recordChars (d + 2) fs) := by
    cases fs with
    | nil => exact absurd rfl hne
    | cons f fs => simp [fieldChars]
  rw [hchars, List.cons_append, List.append_assoc]
  refine ((hrecord.of_settle_eq (settle_indent ..)).of_settle_eq (settle_newline ..)).mono ?_
  simp only [List.length_append, List.length_cons]
  omega

theorem itemLexes_record {fs : List (String × Tree)} (hne : fs ≠ [])
    (names : ∀ f ∈ fs, FieldName f.1) (values : ∀ f ∈ fs, FieldLexes f.2) :
    ItemLexes (.record fs) := by
  intro d tail p ts bs htail hp
  have hcolumn : (p.right [' ']).column = d + 2 := by simp [hp]
  rcases leads_inner_record ts bs hne names values htail hcolumn with
    ⟨q, hq, hrecord⟩
  refine ⟨q, hq, ?_⟩
  have hchars : itemChars d (.record fs) = recordChars (d + 2) fs := by
    cases fs with
    | nil => exact absurd rfl hne
    | cons f fs => simp [itemChars]
  rw [hchars]
  exact (hrecord.of_settle_eq (settle_clear_congr (gapFrom_space ..))).mono (Nat.le_succ _)

/-- Every document in block style is read as its tokens, as a field and, unless it is a
list, as an item. -/
theorem lexes_of_laid {t : Tree} (h : t.Laid) :
    FieldLexes t ∧ ((∀ us, t ≠ .list us) → ItemLexes t) := by
  induction h with
  | text s => exact ⟨fieldLexes_text s, fun _ => itemLexes_text s⟩
  | list _ flat ih =>
      exact ⟨fieldLexes_list fun t ht => (ih t ht).2 (flat t ht), fun h => absurd rfl (h _)⟩
  | @record fs ne_nil names _ ih =>
      have values : ∀ f ∈ fs, FieldLexes f.2 := fun f hf => (ih f hf).1
      exact ⟨fieldLexes_record ne_nil names values, fun _ => itemLexes_record ne_nil names values⟩

/-- The end of the text closes the block of the whole document. -/
theorem step_atEnd (ts : List Token) {q : Place} (hq : q.column = 0) :
    (clear true ts [0] ⟨[], q⟩).step =
      some (clear false (.streamEnd :: .blockEnd :: ts) [] ⟨[], q.lineStart⟩) := by
  have hsettle : (clear true ts [0] ⟨[], q⟩).settle = some (clear true ts [0] ⟨[], q⟩) :=
    settle_clear rfl (by simp [hq])
  exact (step_of_read hsettle rfl rfl rfl).trans rfl

end Lexer

theorem tokens_brackets : tokens ⟨['[', ']', '\n'], true⟩ =
    [.flowSequenceStart, .flowSequenceEnd, .streamEnd] := by
  decide

/-- A record or a list is read as its tokens from the text that is written for it. -/
theorem tokens_documentChars {t : Tree} (h : t.Laid) (block : ∀ s, t ≠ .text s) :
    tokens ⟨documentChars t, true⟩ = documentTokens t ++ [.streamEnd] := by
  cases h with
  | text s => exact absurd rfl (block s)
  | @list us items flat =>
      have hitems : ∀ u ∈ us, Lexer.ItemLexes u :=
        fun u hu => (Lexer.lexes_of_laid (items u hu)).2 (flat u hu)
      cases us with
      | nil => exact tokens_brackets
      | cons u us =>
          rcases Lexer.leads_list hitems Margin.nil (p := ⟨0, 0, 0⟩) rfl with ⟨q, hq, hleads⟩
          rw [List.append_nil] at hleads
          rw [documentChars, tokens]
          refine (Lexer.run_of_leads hleads (Lexer.step_atEnd _ hq) rfl
            (Nat.lt_succ_self _)).trans ?_
          simp [Lexer.clear, documentTokens]
  | @record fs ne_nil names values =>
      have hvalues : ∀ f ∈ fs, Lexer.FieldLexes f.2 :=
        fun f hf => (Lexer.lexes_of_laid (values f hf)).1
      have hbs : ∀ b ∈ ([] : List Nat).head?, b < 0 := by simp
      rcases Lexer.leads_record [] (p := ⟨0, 0, 0⟩) ne_nil names hvalues hbs
        Margin.nil rfl with ⟨q, hq, hleads⟩
      have hchars : documentChars (.record fs) = recordChars 0 fs := by
        cases fs with
        | nil => exact absurd rfl ne_nil
        | cons f fs => rfl
      rw [List.append_nil] at hleads
      rw [hchars, tokens]
      refine (Lexer.run_of_leads hleads (Lexer.step_atEnd _ hq) rfl (Nat.lt_succ_self _)).trans ?_
      simp [Lexer.clear, documentTokens, tokensOf]

end OptionAtlas.Yaml
