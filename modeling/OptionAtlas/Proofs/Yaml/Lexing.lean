import OptionAtlas.Proofs.Yaml.Layout
import OptionAtlas.Proofs.Yaml.Scalar.Block
import OptionAtlas.Proofs.Yaml.Scalar.Plain
import OptionAtlas.Proofs.Yaml.Scalar.Quoted
import OptionAtlas.Yaml.Lexer

/-!
# Steps of the lexer on written text

Before the lexer looks at a token it passes over gaps, drops keys that are no longer
possible and closes blocks. Two states that agree after that are read alike, wherever
in the gap between two tokens they stand. The steps below lead from one such state to
the next: one for each kind of token that is written.

## Main definitions

* `Lexer.clear` — a state outside brackets in which no key is possible.
* `Lexer.settle` — what happens before a token is read.
* `Lexer.Leads` — steps of the lexer, up to the gap in front of the next token.

## Main statements

* `Lexer.run_of_leads` — steps that lead to the end of the text give its tokens.
* `Lexer.leads_text` — a written text is one scalar.
* `Lexer.leads_key` — a written name of a field is a key.
-/

namespace OptionAtlas.Yaml

namespace Lexer

/-! ## States between tokens -/

/-- A state outside brackets in which no key is possible. -/
def clear (keyAllowed : Bool) (ts : List Token) (bs : List Nat) (c : Cursor) : Lexer :=
  ⟨c, true, ts, bs, keyAllowed, none, []⟩

/-- What happens before a token is read: gaps are passed over, keys that are no longer
possible are dropped, and blocks are closed. -/
def settle (s : Lexer) : Option Lexer :=
  s.toNextToken.refreshKeys.map fun s => s.closeBlocks (s.column + 1)

theorem readable_closeBlocks (least : Nat) (s : Lexer) :
    (s.closeBlocks least).readable = s.readable := by
  unfold closeBlocks
  split <;> rfl

/-- A step depends on nothing but the settled state. -/
theorem step_eq_bind_settle (s : Lexer) :
    s.step = s.settle.bind fun s =>
      if s.readable then
        s.read.bind fun s => if s.readableBehind then s.refreshKeys else none
      else none := by
  unfold step settle
  cases s.toNextToken.refreshKeys with
  | none => rfl
  | some s =>
      simp only [Option.bind_eq_bind, Option.bind_some, Option.map_some, readable_closeBlocks]

theorem step_eq_of_settle_eq {s s' : Lexer} (h : s.settle = s'.settle) : s.step = s'.step := by
  rw [step_eq_bind_settle, step_eq_bind_settle, h]

/-- With the whole text at hand a step reads the token at which the state settles. -/
theorem step_of_read {s s₁ s₂ : Lexer} (hsettle : s.settle = some s₁) (hwhole : s₁.whole = true)
    (hread : s₁.read = some s₂) (hwhole' : s₂.whole = true) : s.step = s₂.refreshKeys := by
  rw [step_eq_bind_settle, hsettle, Option.bind_some, if_pos (by simp [readable, hwhole]), hread,
    Option.bind_some, if_pos (by simp [readableBehind, hwhole'])]

/-! ## Steps -/

/-- At most `n` steps lead from one state to another, up to the gap in front of the next
token. None of them reaches the end of the text. -/
inductive Leads : Nat → Lexer → Lexer → Prop
  | rest {n : Nat} {s s' : Lexer} (h : s.settle = s'.settle) : Leads n s s'
  | step {n : Nat} {s s₁ s' : Lexer} (h : s.step = some s₁)
      (more : s₁.tokens.head? ≠ some .streamEnd) (rest : Leads n s₁ s') : Leads (n + 1) s s'

theorem Leads.of_settle_eq {n : Nat} {s s' s'' : Lexer} (h : s.settle = s'.settle)
    (h' : Leads n s' s'') : Leads n s s'' := by
  cases h' with
  | rest h' => exact .rest (h.trans h')
  | step h' more rest => exact .step ((step_eq_of_settle_eq h).trans h') more rest

theorem Leads.mono {m n : Nat} {s s' : Lexer} (h : Leads m s s') (hmn : m ≤ n) :
    Leads n s s' := by
  induction h generalizing n with
  | rest h => exact .rest h
  | step h more _ ih =>
      obtain ⟨n, rfl⟩ : ∃ k, n = k + 1 := ⟨n - 1, by omega⟩
      exact .step h more (ih (by omega))

theorem Leads.trans {m n : Nat} {s s' s'' : Lexer} (h : Leads m s s') (h' : Leads n s' s'') :
    Leads (n + m) s s'' := by
  induction h with
  | rest h => exact (h'.of_settle_eq h).mono (Nat.le_add_right ..)
  | step h more _ ih => exact .step h more (ih h')

theorem leads_one {s s₁ s' : Lexer} (h : s.step = some s₁)
    (more : s₁.tokens.head? ≠ some .streamEnd) (hsettle : s₁.settle = s'.settle) :
    Leads 1 s s' :=
  .step h more (.rest hsettle)

/-- Steps that lead to the end of the text give its tokens. -/
theorem run_of_leads {n fuel : Nat} {s s' e : Lexer} (h : Leads n s s') (hend : s'.step = some e)
    (hstream : e.tokens.head? = some .streamEnd) (hfuel : n < fuel) :
    run fuel s = e.tokens.reverse := by
  induction h generalizing fuel with
  | rest h =>
      obtain ⟨fuel, rfl⟩ : ∃ k, fuel = k + 1 := ⟨fuel - 1, by omega⟩
      simp only [run, step_eq_of_settle_eq h, hend, hstream, if_true]
  | step h more _ ih =>
      obtain ⟨fuel, rfl⟩ : ∃ k, fuel = k + 1 := ⟨fuel - 1, by omega⟩
      simp only [run, h, if_neg more]
      exact ih hend (by omega)

/-! ## Gaps -/

section Gaps

variable {ka ka' : Bool} {ts : List Token} {bs : List Nat} {c c' : Cursor} {cs : List Char}
  {p : Place}

theorem closeTo_of_lt {least : Nat} (h : ∀ b ∈ bs.head?, b < least) (ts : List Token) :
    closeTo least bs ts = (bs, ts) := by
  cases bs with
  | nil => rfl
  | cons b bs => rw [closeTo, if_neg (by simpa using h b rfl)]

/-- A clear state settles behind its gap, with the blocks closed that do not reach there. -/
theorem settle_eq_closeBlocks (hgap : gapFrom false c.rest c.place ka false = (c', ka')) :
    (clear ka ts bs c).settle =
      some ((clear ka' ts bs c').closeBlocks (c'.place.column + 1)) := by
  have hnext : (clear ka ts bs c).toNextToken = clear ka' ts bs c' := by
    unfold toNextToken
    simp only [clear, inFlow, List.isEmpty_nil, Bool.not_true, hgap]
  rw [settle, hnext]
  rfl

theorem settle_clear (hgap : gapFrom false c.rest c.place ka false = (c', ka'))
    (hbs : ∀ b ∈ bs.head?, b ≤ c'.place.column) :
    (clear ka ts bs c).settle = some (clear ka' ts bs c') := by
  have hclose := closeTo_of_lt (fun b hb => Nat.lt_succ_of_le (hbs b hb)) ts
  rw [settle_eq_closeBlocks hgap]
  simp [clear, closeBlocks, inFlow, hclose]

/-- Clear states whose gaps end alike settle alike. -/
theorem settle_clear_congr {d : Cursor}
    (h : gapFrom false c.rest c.place ka false = gapFrom false d.rest d.place ka' false) :
    (clear ka ts bs c).settle = (clear ka' ts bs d).settle := by
  rw [settle_eq_closeBlocks h, settle_eq_closeBlocks rfl]

theorem gapFrom_opens (h : ∀ x ∈ cs.head?, opensLine x = true) (p : Place) (ka : Bool) :
    gapFrom false cs p ka false = (⟨cs, p⟩, ka) := by
  cases cs with
  | nil => rfl
  | cons x xs =>
      have hx := h x rfl
      simp only [opensLine, isGap, isBlank, Bool.and_eq_true, Bool.not_eq_true',
        Bool.or_eq_false_iff, decide_eq_true_eq, decide_eq_false_iff_not] at hx
      rcases hx with ⟨⟨⟨⟨hspace, htab⟩, hbreak⟩, hsharp⟩, hmark⟩
      rw [gapFrom]
      · simp [hspace, htab, hbreak, hsharp, hmark]
      · exact fun _ hc _ => ne_return_of_not_isBreak hbreak hc

theorem gapFrom_space (cs : List Char) (p : Place) (ka : Bool) :
    gapFrom false (' ' :: cs) p ka false = gapFrom false cs (p.right [' ']) ka false := by
  simp [gapFrom, isBreak]

theorem gapFrom_indent (n : Nat) (cs : List Char) (p : Place) (ka : Bool) :
    gapFrom false (indent n ++ cs) p ka false =
      gapFrom false cs (p.right (indent n)) ka false :=
  eq_right_indent (f := fun cs p => gapFrom false cs p ka false)
    (fun cs p _ => gapFrom_space cs p ka) n cs p (Nat.le_refl _)

theorem gapFrom_newline (cs : List Char) (p : Place) (ka : Bool) :
    gapFrom false ('\n' :: cs) p ka false = gapFrom false cs (p.down ['\n']) true false := by
  simp [gapFrom, isBreak]

end Gaps

/-! ## Keys that are no longer possible -/

section Spent

variable {ka : Bool} {ts : List Token} {bs : List Nat} {c : Cursor} {k : Option PossibleKey}

/-- A possible key that is not required is forgotten once its line has ended. -/
theorem refreshKeys_spent (ka : Bool) (ts : List Token) (bs : List Nat) (c : Cursor)
    (hrequired : ∀ k' ∈ k, k'.required = false)
    (hline : ∀ k' ∈ k, k'.place.line < (gapFrom false c.rest c.place ka false).1.place.line) :
    ∃ s, refreshKeys { clear ka ts bs c with possible := k } = some s ∧ s.tokens = ts ∧
      s.settle = (clear ka ts bs c).settle := by
  cases k with
  | none => exact ⟨clear ka ts bs c, rfl, rfl, rfl⟩
  | some k =>
      have hreq := hrequired k rfl
      by_cases hstale : k.stale c.place = true
      · refine ⟨clear ka ts bs c, ?_, rfl, rfl⟩
        simp [clear, refreshKeys, PossibleKey.refresh, hstale, hreq]
      · refine ⟨{ clear ka ts bs c with possible := some k }, ?_, rfl, ?_⟩
        · simp [clear, refreshKeys, PossibleKey.refresh, hstale]
        · have hstale' : k.stale (gapFrom false c.rest c.place ka false).1.place = true := by
            simp [PossibleKey.stale, hline k rfl]
          simp [settle, clear, toNextToken, inFlow, refreshKeys, PossibleKey.refresh, hstale', hreq]

end Spent

/-! ## Marks -/

section Marks

variable {ka : Bool} {ts : List Token} {bs : List Nat} {d : Nat} {cs : List Char} {p : Place}

/-- No block is opened at the column of the innermost one or left of it. -/
theorem openBlock_of_lt {s : Lexer} {column : Nat} (h : column < s.inner) (order : Nat)
    (t : Token) : s.openBlock column order t = s := by
  rw [openBlock, if_neg]
  simp [h]

theorem openBlock_of_le {s : Lexer} {column : Nat} (hflow : s.inFlow = false)
    (h : s.inner ≤ column) (order : Nat) (t : Token) :
    s.openBlock column order t = { s.insert order t with blocks := column :: s.blocks } := by
  rw [openBlock, if_pos (by simp [hflow, h])]

/-- A blank stands between a mark and what follows it on its line. -/
theorem settle_space {x : Char} {xs : List Char} (hx : opensLine x = true)
    (hp : d ≤ p.column) :
    (clear ka ts (d :: bs) ⟨' ' :: x :: xs, p⟩).settle =
      some (clear ka ts (d :: bs) ⟨x :: xs, p.right [' ']⟩) := by
  have hbs : ∀ b ∈ (d :: bs).head?, b ≤ (p.right [' ']).column := by
    intro b hb
    obtain rfl := Option.some.inj hb
    exact Nat.le_trans hp (Nat.le_add_right ..)
  refine settle_clear ?_ hbs
  rw [gapFrom_space]
  exact gapFrom_opens (opensLine_head hx _) _ _

/-- A dash is an entry of the block that is open behind it, an old one or a new one. -/
theorem leads_of_openHere {us : List Token} {bs' : List Nat}
    (hbs : ∀ b ∈ bs.head?, b ≤ p.column)
    (hopen : (clear true ts bs ⟨'-' :: ' ' :: cs, p⟩).openHere .blockSequenceStart =
      some (clear true us bs' ⟨'-' :: ' ' :: cs, p⟩)) :
    Leads 1 (clear true ts bs ⟨'-' :: ' ' :: cs, p⟩)
      (clear true (.blockEntry :: us) bs' ⟨' ' :: cs, p.right ['-']⟩) := by
  have hsettle : (clear true ts bs ⟨'-' :: ' ' :: cs, p⟩).settle =
      some (clear true ts bs ⟨'-' :: ' ' :: cs, p⟩) :=
    settle_clear (gapFrom_opens (opensLine_head (by decide) _) p true) hbs
  have hread : (clear true ts bs ⟨'-' :: ' ' :: cs, p⟩).read =
      (clear true ts bs ⟨'-' :: ' ' :: cs, p⟩).blockEntry := by
    simp [clear, read, marksDocument, isGap, isBlank]
  have hentry : (clear true ts bs ⟨'-' :: ' ' :: cs, p⟩).blockEntry =
      some (clear true (.blockEntry :: us) bs' ⟨' ' :: cs, p.right ['-']⟩) := by
    simp only [blockEntry, hopen, Option.bind_eq_bind, Option.bind_some]
    rfl
  exact leads_one (step_of_read hsettle rfl (hread.trans hentry) rfl) (by simp [clear]) rfl

/-- A dash at the column of the block around it is an entry of it. -/
theorem leads_dash (ts : List Token) (bs : List Nat) (hp : p.column = d) (cs : List Char) :
    Leads 1 (clear true ts (d :: bs) ⟨'-' :: ' ' :: cs, p⟩)
      (clear true (.blockEntry :: ts) (d :: bs) ⟨' ' :: cs, p.right ['-']⟩) := by
  refine leads_of_openHere (by simp [hp]) (congrArg some (openBlock_of_lt ?_ _ _))
  change p.column < d + 1
  omega

/-- The first dash of a list right of the blocks around it opens a block for it. -/
theorem leads_firstDash (ts : List Token) (hp : p.column = d) (hbs : ∀ b ∈ bs.head?, b < d)
    (cs : List Char) :
    Leads 1 (clear true ts bs ⟨'-' :: ' ' :: cs, p⟩)
      (clear true (.blockEntry :: .blockSequenceStart :: ts) (d :: bs)
        ⟨' ' :: cs, p.right ['-']⟩) := by
  have hinner : (clear true ts bs ⟨'-' :: ' ' :: cs, p⟩).inner ≤ p.column := by
    rw [hp]
    cases bs with
    | nil => exact Nat.zero_le _
    | cons b bs => exact hbs b rfl
  refine leads_of_openHere (fun b hb => hp ▸ Nat.le_of_lt (hbs b hb))
    (congrArg some ((openBlock_of_le rfl hinner _ _).trans ?_))
  simp [clear, insert, hp]

/-- The state behind an opening bracket. -/
def inBrackets (ts : List Token) (bs : List Nat) (c : Cursor) : Lexer :=
  ⟨c, true, ts, bs, true, none, [none]⟩

theorem step_closeBracket (cs : List Char) (p : Place) :
    (inBrackets ts bs ⟨']' :: cs, p⟩).step =
      some (clear false (.flowSequenceEnd :: ts) bs ⟨cs, p.right [']']⟩) := by
  have hsettle : (inBrackets ts bs ⟨']' :: cs, p⟩).settle =
      some (inBrackets ts bs ⟨']' :: cs, p⟩) := by
    simp [inBrackets, settle, toNextToken, inFlow, gapFrom, isBreak, refreshKeys,
      PossibleKey.refresh, closeBlocks]
  have hread : (inBrackets ts bs ⟨']' :: cs, p⟩).read =
      (inBrackets ts bs ⟨']' :: cs, p⟩).closeFlow .flowSequenceEnd := by
    simp [inBrackets, read, marksDocument]
  exact (step_of_read hsettle rfl (hread.trans rfl) rfl).trans rfl

/-- Brackets with nothing between them, behind a colon. -/
theorem leads_brackets (hp : d ≤ p.column) (cs : List Char) :
    Leads 2 (clear false ts (d :: bs) ⟨' ' :: '[' :: ']' :: '\n' :: cs, p⟩)
      (clear true (.flowSequenceEnd :: .flowSequenceStart :: ts) (d :: bs)
        ⟨cs, (p.right [' ', '[', ']']).down ['\n']⟩) := by
  have hsettle : (clear false ts (d :: bs) ⟨' ' :: '[' :: ']' :: '\n' :: cs, p⟩).settle =
      some (clear false ts (d :: bs) ⟨'[' :: ']' :: '\n' :: cs, p.right [' ']⟩) :=
    settle_space (by decide) hp
  have hopen : (clear false ts (d :: bs) ⟨' ' :: '[' :: ']' :: '\n' :: cs, p⟩).step =
      some (inBrackets (.flowSequenceStart :: ts) (d :: bs)
        ⟨']' :: '\n' :: cs, p.right [' ', '[']⟩) := by
    have hread : (clear false ts (d :: bs) ⟨'[' :: ']' :: '\n' :: cs, p.right [' ']⟩).read =
        (clear false ts (d :: bs) ⟨'[' :: ']' :: '\n' :: cs, p.right [' ']⟩).openFlow
          .flowSequenceStart := by
      simp [clear, read, marksDocument]
    exact (step_of_read hsettle rfl (hread.trans rfl) rfl).trans rfl
  refine .step hopen (by simp [inBrackets])
    (leads_one (step_closeBracket ('\n' :: cs) _) (by simp [clear]) ?_)
  rw [Place.right_right]
  exact settle_clear_congr (gapFrom_newline ..)

end Marks

/-! ## Keys -/

section Keys

variable {ts : List Token} {bs : List Nat} {d : Nat} {c : Char} {cs rest : List Char} {p : Place}

/-- What starts like a plain scalar is read as one. -/
theorem read_eq_plainScalar {s : Lexer} (hrest : s.cursor.rest = c :: cs) (houter : s.outer = [])
    (hlead : isLeadMark c = false) (hgap : isGap c = false)
    (hmark : c = '-' ∨ c = '?' ∨ c = ':' → gapAhead cs = false)
    (hdocument : s.column = 0 → marksDocument (c :: cs) = false) : s.read = s.plainScalar := by
  have hflow : s.inFlow = false := by simp [inFlow, houter]
  have hdocument' : (decide (s.column = 0) && marksDocument (c :: cs)) = false := by
    simpa using hdocument
  have hentry (x : Char) (hx : x = '-' ∨ x = '?' ∨ x = ':') :
      (decide (c = x) && gapAhead cs) = false := by
    by_cases hc : c = x
    · subst hc
      simp [hmark hx]
    · simp [hc]
  have hstarts : startsPlain false c cs = true := by
    by_cases hc : c = '-' ∨ c = '?' ∨ c = ':'
    · have hahead := hmark hc
      rcases hc with rfl | rfl | rfl
      · cases cs with
        | nil => simp at hahead
        | cons x xs =>
            simp only [gapAhead_cons, isGap, Bool.or_eq_false_iff] at hahead
            simp [startsPlain, hahead.1]
      · simp [startsPlain, hahead]
      · simp [startsPlain, hahead]
    · simp only [not_or] at hc
      simp only [isLeadMark, List.mem_cons, List.not_mem_nil, or_false,
        decide_eq_false_iff_not, not_or] at hlead
      simp [startsPlain, isIndicator, hgap, hc, hlead]
  simp only [isLeadMark, List.mem_cons, List.not_mem_nil, or_false, not_or,
    decide_eq_false_iff_not] at hlead
  unfold read
  rw [hrest]
  simp [hlead, hflow, hdocument', hentry, hstarts]

/-- The key that becomes possible at the cursor, if one may start there. -/
def noted (ka : Bool) (ts : List Token) (bs : List Nat) (c : Cursor) : Option PossibleKey :=
  if ka then some ⟨ts.length, c.place, (clear ka ts bs c).inner = c.place.column + 1⟩ else none

theorem noteKey_clear (ka : Bool) (ts : List Token) (bs : List Nat) (c : Cursor) :
    (clear ka ts bs c).noteKey = some { clear ka ts bs c with possible := noted ka ts bs c } := by
  cases ka <;> rfl

theorem plainScalar_clear (ka : Bool) (ts : List Token) (bs : List Nat) {c : Cursor}
    {r : Plain.Scanned}
    (h : Plain.scan false (clear ka ts bs c).inner c = some r) :
    (clear ka ts bs c).plainScalar =
      some { clear r.broken (.scalar true (String.ofList r.text) :: ts) bs r.cursor with
        possible := noted ka ts bs c } := by
  unfold plainScalar
  rw [noteKey_clear]
  exact (congrArg (Option.bind · _) h).trans rfl

theorem insert_append (us ts : List Token) (t : Token) (s : Lexer) :
    insert ts.length t { s with tokens := us ++ ts } = { s with tokens := us ++ t :: ts } := by
  simp [insert]

variable {k : String}

/-- The state behind a word that may turn out to be a key. -/
def behindWord (required : Bool) (k : String) (ts : List Token) (bs : List Nat)
    (rest : List Char) (p : Place) : Lexer :=
  ⟨⟨':' :: rest, p.right k.toList⟩, true, .scalar true k :: ts, bs, false,
    some ⟨ts.length, p, required⟩, []⟩

/-- The word is on the line of the cursor and not too long, so it may still be a key. -/
theorem refreshKeys_behindWord (hk : FieldName k) (required : Bool) :
    (behindWord required k ts bs rest p).refreshKeys =
      some (behindWord required k ts bs rest p) := by
  have hshort := hk.short
  have hstale : PossibleKey.stale (p.right k.toList) ⟨ts.length, p, required⟩ = false := by
    simpa [PossibleKey.stale] using hshort
  simp [refreshKeys, behindWord, PossibleKey.refresh, hstale]

theorem step_word (ts : List Token) (hk : FieldName k) (hbs : ∀ b ∈ bs.head?, b ≤ p.column)
    (hrest : gapAhead rest = true) :
    ∃ required, (clear true ts bs ⟨k.toList ++ ':' :: rest, p⟩).step =
      some (behindWord required k ts bs rest p) := by
  rcases hk.exists_cons with ⟨c, cs, hcs, hc⟩
  have hsettle : (clear true ts bs ⟨k.toList ++ ':' :: rest, p⟩).settle =
      some (clear true ts bs ⟨k.toList ++ ':' :: rest, p⟩) := by
    refine settle_clear (gapFrom_opens ?_ p true) hbs
    simp [hcs, opensLine_of_isAlpha hc]
  have hread : (clear true ts bs ⟨k.toList ++ ':' :: rest, p⟩).read =
      (clear true ts bs ⟨k.toList ++ ':' :: rest, p⟩).plainScalar := by
    have hcursor : (clear true ts bs ⟨k.toList ++ ':' :: rest, p⟩).cursor.rest =
        c :: (cs ++ ':' :: rest) := by simp [clear, hcs]
    refine read_eq_plainScalar hcursor rfl (isLeadMark_of_isAlpha hc) (isGap_of_isAlpha hc) ?_ ?_
    · rintro (rfl | rfl | rfl) <;> exact absurd hc (by decide)
    · exact fun _ => marksDocument_of_isAlpha hc _
  have hscalar := plainScalar_clear true ts bs (Plain.scan_word hk.letters hrest p)
  rw [String.ofList_toList] at hscalar
  exact ⟨_, (step_of_read hsettle rfl (hread.trans hscalar) rfl).trans
    (refreshKeys_behindWord hk _)⟩

theorem settle_behindWord (hk : FieldName k) (hbs : ∀ b ∈ bs.head?, b ≤ p.column)
    (required : Bool) :
    (behindWord required k ts bs rest p).settle = some (behindWord required k ts bs rest p) := by
  have hnext : (behindWord required k ts bs rest p).toNextToken =
      behindWord required k ts bs rest p := by
    unfold toNextToken
    rw [show (behindWord required k ts bs rest p).inFlow = false from rfl,
      show (behindWord required k ts bs rest p).cursor.rest = ':' :: rest from rfl,
      gapFrom_opens (opensLine_head (by decide) _)]
    rfl
  have hclose : closeTo ((p.right k.toList).column + 1) bs (.scalar true k :: ts) =
      (bs, .scalar true k :: ts) :=
    closeTo_of_lt (fun b hb => Nat.lt_succ_of_le (Nat.le_trans (hbs b hb) (Nat.le_add_right ..))) _
  rw [settle, hnext, refreshKeys_behindWord hk, Option.map_some, closeBlocks]
  simp only [behindWord, inFlow, List.isEmpty_nil, Bool.not_true, Bool.false_eq_true, if_false,
    column, hclose]

theorem read_behindWord (hrest : gapAhead rest = true) (required : Bool) :
    (behindWord required k ts bs rest p).read = (behindWord required k ts bs rest p).value := by
  simp [read, behindWord, hrest, marksDocument]

/-- The colon behind a word makes the word a key. -/
theorem step_behindWord (required : Bool) (hk : FieldName k)
    (hbs : ∀ b ∈ bs.head?, b ≤ p.column) (hrest : gapAhead rest = true) {us : List Token}
    {bs' : List Nat}
    (hopen : openBlock p.column ts.length .blockMappingStart
      { behindWord required k ts bs rest p with tokens := .scalar true k :: .key :: ts } =
      { behindWord required k ts bs rest p with tokens := us, blocks := bs' }) :
    (behindWord required k ts bs rest p).step =
      some (clear false (.value :: us) bs' ⟨rest, p.right (k.toList ++ [':'])⟩) := by
  have hinsert : (behindWord required k ts bs rest p).insert ts.length .key =
      { behindWord required k ts bs rest p with tokens := .scalar true k :: .key :: ts } :=
    insert_append [.scalar true k] ts .key (behindWord required k ts bs rest p)
  have hvalue : (behindWord required k ts bs rest p).value =
      some (clear false (.value :: us) bs' ⟨rest, p.right (k.toList ++ [':'])⟩) := by
    change some (allowKey false (mark 1 .value { openBlock p.column ts.length .blockMappingStart
      ((behindWord required k ts bs rest p).insert ts.length .key) with possible := none })) = _
    rw [hinsert, hopen]
    simp [behindWord, clear, mark, allowKey, Cursor.skip]
  rw [step_of_read (settle_behindWord hk hbs required) rfl
    ((read_behindWord hrest required).trans hvalue) rfl]
  rfl

/-- A key at the column of the record around it. -/
theorem leads_key (ts : List Token) (bs : List Nat) (hk : FieldName k) (hp : p.column = d)
    (hrest : gapAhead rest = true) :
    Leads 2 (clear true ts (d :: bs) ⟨k.toList ++ ':' :: rest, p⟩)
      (clear false (.value :: .scalar true k :: .key :: ts) (d :: bs)
        ⟨rest, p.right (k.toList ++ [':'])⟩) := by
  have hbs : ∀ b ∈ (d :: bs).head?, b ≤ p.column := by simp [hp]
  rcases step_word ts hk hbs hrest with ⟨required, hword⟩
  have hcolon := step_behindWord required hk hbs hrest
    (openBlock_of_lt (by change p.column < d + 1; omega) ts.length .blockMappingStart)
  exact .step hword (by simp [behindWord]) (leads_one hcolon (by simp [clear]) rfl)

/-- The first key of a record right of the blocks around it opens a block for it. -/
theorem leads_firstKey (ts : List Token) (hk : FieldName k) (hp : p.column = d)
    (hbs : ∀ b ∈ bs.head?, b < d) (hrest : gapAhead rest = true) :
    Leads 2 (clear true ts bs ⟨k.toList ++ ':' :: rest, p⟩)
      (clear false (.value :: .scalar true k :: .key :: .blockMappingStart :: ts) (d :: bs)
        ⟨rest, p.right (k.toList ++ [':'])⟩) := by
  have hbs' : ∀ b ∈ bs.head?, b ≤ p.column := fun b hb => hp ▸ Nat.le_of_lt (hbs b hb)
  rcases step_word ts hk hbs' hrest with ⟨required, hword⟩
  have hinner : ({ behindWord required k ts bs rest p with
      tokens := .scalar true k :: .key :: ts } : Lexer).inner ≤ d := by
    cases bs with
    | nil => exact Nat.zero_le _
    | cons b bs => exact hbs b rfl
  have hopen : openBlock p.column ts.length .blockMappingStart
      { behindWord required k ts bs rest p with tokens := .scalar true k :: .key :: ts } =
      { behindWord required k ts bs rest p with
        tokens := .scalar true k :: .key :: .blockMappingStart :: ts, blocks := d :: bs } := by
    have hinsert := insert_append [.scalar true k, .key] ts .blockMappingStart
      (behindWord required k ts bs rest p)
    rw [hp, openBlock_of_le rfl hinner]
    exact congrArg (fun s => { s with blocks := d :: bs }) hinsert
  have hcolon := step_behindWord required hk hbs' hrest hopen
  exact .step hword (by simp [behindWord]) (leads_one hcolon (by simp [clear]) rfl)

end Keys

/-! ## Texts -/

section Texts

variable {ka ka' : Bool} {ts : List Token} {bs : List Nat} {d n : Nat} {c c' : Cursor}
  {rest : List Char} {p q : Place}

/-- A scalar is read, and the gap behind it ends at the start of a later line. -/
theorem leads_of_scalar {s : Lexer} {t : Token} {k : Option PossibleKey}
    (hsettle : s.settle = some (clear ka ts (d :: bs) c)) (hc : d + 2 ≤ c.place.column)
    (hread : (clear ka ts (d :: bs) c).read =
      some { clear ka' (t :: ts) (d :: bs) c' with possible := k })
    (hk : ∀ k' ∈ k, k' ∈ noted ka ts (d :: bs) c) (ht : t ≠ .streamEnd)
    (hline : c.place.line < q.line) (hopens : ∀ x ∈ rest.head?, opensLine x = true)
    (hgap : gapFrom false c'.rest c'.place ka' false = (⟨rest, q.right (indent n)⟩, true)) :
    Leads 1 s (clear true (t :: ts) (d :: bs) ⟨indent n ++ rest, q⟩) := by
  have hnoted : ∀ k' ∈ k, k'.required = false ∧ k'.place = c.place := by
    intro k' hk'
    have hmem := hk k' hk'
    cases ka with
    | false => simp [noted] at hmem
    | true =>
        obtain rfl := Option.some.inj hmem
        refine ⟨?_, rfl⟩
        change decide (d + 1 = c.place.column + 1) = false
        exact decide_eq_false (by omega)
  rcases refreshKeys_spent ka' (t :: ts) (d :: bs) c' (fun k' hk' => (hnoted k' hk').1)
    (fun k' hk' => by rw [(hnoted k' hk').2, hgap]; exact hline) with
    ⟨s₃, hrefresh, htokens, hsettle₃⟩
  refine leads_one ((step_of_read hsettle rfl hread rfl).trans hrefresh) (by simp [htokens, ht]) ?_
  rw [hsettle₃]
  exact settle_clear_congr (by rw [hgap, gapFrom_indent, gapFrom_opens hopens])

theorem leads_plain (ka : Bool) (ts : List Token) (bs : List Nat) {x : Char} {xs : List Char}
    (hp : d + 1 ≤ p.column) (hn : n ≤ d) (hopens : ∀ x ∈ rest.head?, opensLine x = true)
    (h : PlainText x xs) :
    ∃ q : Place, q.column = 0 ∧
      Leads 1 (clear ka ts (d :: bs) ⟨' ' :: (endLine (x :: xs) ++ (indent n ++ rest)), p⟩)
        (clear true (.scalar true (String.ofList (x :: xs)) :: ts) (d :: bs)
          ⟨indent n ++ rest, q⟩) := by
  have hscan := plainScalar_clear ka ts (d :: bs)
    (Plain.scan_plainText (d + 1) (p := p.right [' ']) (Nat.lt_succ_of_le hn) hopens h
      (Nat.le_succ_of_le hp))
  have hread := read_eq_plainScalar (s := clear ka ts (d :: bs)
      ⟨x :: xs ++ '\n' :: (indent n ++ rest), p.right [' ']⟩) rfl rfl h.lead h.not_gap
    (fun hx => (gapAhead_append_newline ..).trans (h.start hx))
    (fun hzero => absurd hzero (Nat.succ_ne_zero _))
  refine ⟨((p.right [' ']).right (x :: xs)).down ['\n'], rfl, ?_⟩
  rw [h.endLine, List.append_assoc, List.singleton_append]
  refine leads_of_scalar (settle_space h.opensLine (Nat.le_of_succ_le hp)) (Nat.succ_le_succ hp)
    (hread.trans hscan) (fun _ => id) (by simp) (Nat.lt_succ_self _) hopens ?_
  exact gapFrom_opens hopens ..

theorem quotedScalar_clear (single : Bool) {text : List Char} (ka : Bool) (ts : List Token)
    (bs : List Nat) (c : Cursor) (h : (if single
      then Quoted.single (c.skip 1).rest (c.skip 1).place .empty
      else Quoted.double 0 (c.skip 1).rest (c.skip 1).place .empty) = some (text, c')) :
    (clear ka ts bs c).quotedScalar single =
      some { clear false (.scalar false (String.ofList text) :: ts) bs c' with
        possible := noted ka ts bs c } := by
  unfold quotedScalar
  rw [noteKey_clear]
  cases single with
  | false => exact (congrArg (Option.bind · _) h).trans rfl
  | true => exact (congrArg (Option.bind · _) h).trans rfl

/-- A closing quote stands at the end of its line. -/
theorem leads_of_quoted {quote : Char} (single : Bool) {body : List Char} {s : String}
    (hp : d + 1 ≤ p.column) (hopens : ∀ x ∈ rest.head?, opensLine x = true)
    (hquote : opensLine quote = true)
    (hread : (clear ka ts (d :: bs) ⟨quote :: body, p.right [' ']⟩).read =
      (clear ka ts (d :: bs) ⟨quote :: body, p.right [' ']⟩).quotedScalar single)
    (hline : p.line ≤ q.line)
    (hscan : (if single then Quoted.single body ((p.right [' ']).right [quote]) .empty
      else Quoted.double 0 body ((p.right [' ']).right [quote]) .empty) =
        some (s.toList, ⟨'\n' :: (indent n ++ rest), q⟩)) :
    Leads 1 (clear ka ts (d :: bs) ⟨' ' :: quote :: body, p⟩)
      (clear true (.scalar false s :: ts) (d :: bs) ⟨indent n ++ rest, q.down ['\n']⟩) := by
  have hquoted := quotedScalar_clear single ka ts (d :: bs) ⟨quote :: body, p.right [' ']⟩ hscan
  rw [String.ofList_toList] at hquoted
  refine leads_of_scalar (settle_space hquote (Nat.le_of_succ_le hp)) (Nat.succ_le_succ hp)
    (hread.trans hquoted) (fun _ => id) (by simp) (Nat.lt_succ_of_le hline) hopens ?_
  change gapFrom false ('\n' :: (indent n ++ rest)) q false false = _
  rw [gapFrom_newline, gapFrom_indent, gapFrom_opens hopens]

theorem leads_single {s : String} (hp : d + 1 ≤ p.column)
    (hopens : ∀ x ∈ rest.head?, opensLine x = true) (h : singleAllowed s.toList = true)
    (hfeed : ∀ c ∈ s.toList, c ≠ '\n') :
    ∃ q : Place, q.column = 0 ∧
      Leads 1 (clear ka ts (d :: bs) ⟨' ' :: (endLine ('\'' :: singleBody (d + 2) false s.toList) ++
        (indent n ++ rest)), p⟩)
        (clear true (.scalar false s :: ts) (d :: bs) ⟨indent n ++ rest, q⟩) := by
  rw [singleAllowed_iff] at h
  have hdepth : 0 < d + 2 := by omega
  rcases Quoted.single_singleBody hdepth .empty (.within (.inl rfl)) h.1 hfeed h.2.1 h.2.2
    (p := (p.right [' ']).right ['\'']) (by simp)
    (indent n ++ rest) with ⟨q, hline, hscan⟩
  have hend : endLine ('\'' :: singleBody (d + 2) false s.toList) =
      '\'' :: singleBody (d + 2) false s.toList ++ ['\n'] := by
    rcases Quoted.exists_singleBody_concat (d + 2) false s.toList with ⟨front, hfront⟩
    rw [hfront, ← List.cons_append]
    exact endLine_concat (by decide) _
  refine ⟨q.down ['\n'], rfl, ?_⟩
  rw [hend, List.append_assoc, List.singleton_append]
  refine leads_of_quoted true hp hopens (by decide) ?_ hline hscan
  simp [clear, read, marksDocument]

theorem leads_double (s : String) (hp : d + 1 ≤ p.column)
    (hopens : ∀ x ∈ rest.head?, opensLine x = true) :
    ∃ q : Place, q.column = 0 ∧
      Leads 1 (clear ka ts (d :: bs) ⟨' ' ::
        (endLine ('"' :: s.toList.flatMap doubleChar ++ ['"']) ++ (indent n ++ rest)), p⟩)
        (clear true (.scalar false s :: ts) (d :: bs) ⟨indent n ++ rest, q⟩) := by
  have hcolumn : 0 < ((p.right [' ']).right ['"']).column := by simp
  have hscan := Quoted.double_flatMap_doubleChar s.toList ('\n' :: (indent n ++ rest)) hcolumn []
  refine ⟨Place.down ['\n'] (((p.right [' ']).right ['"']).right
    (s.toList.flatMap doubleChar ++ ['"'])), rfl, ?_⟩
  rw [endLine_concat (by decide), List.append_assoc, List.append_assoc, List.singleton_append]
  refine leads_of_quoted false hp hopens (by decide) ?_ (Nat.le_refl _) hscan
  simp [clear, read, marksDocument]

theorem leads_literal {s : String} (hp : d + 1 ≤ p.column) (hn : n ≤ d)
    (hopens : ∀ x ∈ rest.head?, opensLine x = true) (h : blockAllowed s.toList = true) :
    ∃ q : Place, q.column = 0 ∧
      Leads 1 (clear ka ts (d :: bs) ⟨' ' :: (endLine ('|' :: literalMarks s.toList ++
        '\n' :: literalBody (d + 2) true s.toList) ++ (indent n ++ rest)), p⟩)
        (clear true (.scalar false s :: ts) (d :: bs) ⟨indent n ++ rest, q⟩) := by
  rcases blockAllowed_imp h with ⟨hne, hprint⟩
  rcases Block.scan_literal hn hopens hne hprint ((p.right [' ']).right ['|']) with
    ⟨q, hline, hcolumn, hscan⟩
  refine ⟨q, hcolumn, ?_⟩
  rw [Block.endLine_literal hne, List.cons_append, List.append_assoc, List.cons_append]
  generalize hc : (⟨'|' :: (literalMarks s.toList ++ '\n' ::
    (endLine (literalBody (d + 2) true s.toList) ++ (indent n ++ rest))), p.right [' ']⟩ : Cursor) =
    c
  have hblock : (clear ka ts (d :: bs) c).blockScalar false =
      some (clear true (.scalar false s :: ts) (d :: bs) ⟨rest, q.right (indent n)⟩) := by
    subst hc
    refine (congrArg (Option.bind · _) hscan).trans ?_
    simp [clear, push, allowKey]
  have hread : (clear ka ts (d :: bs) c).read = (clear ka ts (d :: bs) c).blockScalar false := by
    subst hc
    simp [clear, read, marksDocument, inFlow]
  subst hc
  refine leads_of_scalar (settle_space (by decide) (Nat.le_of_succ_le hp)) (Nat.succ_le_succ hp)
    (hread.trans hblock) (by simp) (by simp) hline hopens ?_
  exact gapFrom_opens hopens ..

/-- A written text is one scalar, whatever its characters are, and is followed by a line
that starts left of the text. -/
theorem leads_text (s : String) (hp : d + 1 ≤ p.column) (hn : n ≤ d)
    (hopens : ∀ x ∈ rest.head?, opensLine x = true) :
    ∃ q : Place, q.column = 0 ∧
      Leads 1 (clear ka ts (d :: bs) ⟨' ' :: (endLine (scalarChars (d + 2) s) ++
        (indent n ++ rest)), p⟩)
        (clear true (.scalar (styleOf s = .plain) s :: ts) (d :: bs) ⟨indent n ++ rest, q⟩) := by
  rcases styleOf_cases s with ⟨hstyle, htext, hplain⟩ | ⟨hstyle, hsingle, hfeed⟩ | hstyle |
    ⟨hstyle, hblock⟩
  · obtain ⟨x, xs, hxs⟩ : ∃ x xs, s.toList = x :: xs :=
      List.exists_cons_of_ne_nil (by simpa using (ne_nothing_of_readsAsText htext).1)
    have hs : s = String.ofList (x :: xs) := by rw [← hxs, String.ofList_toList]
    have h := leads_plain ka ts bs hp hn hopens (.of_plainAllowed (hxs ▸ hplain))
    simpa only [scalarChars, hstyle, hxs, ← hs, decide_true] using h
  · simpa [scalarChars, hstyle] using leads_single hp hopens hsingle hfeed
  · simpa [scalarChars, hstyle] using leads_double s hp hopens
  · simpa [scalarChars, hstyle] using leads_literal hp hn hopens hblock

end Texts

end Lexer

end OptionAtlas.Yaml
