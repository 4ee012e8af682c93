import Mathlib.Algebra.Group.Nat.Defs
import Mathlib.Tactic.SplitIfs
import OptionAtlas.Proofs.Yaml.Style
import OptionAtlas.Yaml.Scalar.Quoted

/-!
# Quoted scalars are read as they are written

Between single quotes only a quote is written in another form, and a break may be
followed by an indentation. Both are undone by the reader, which drops the blanks behind
a break. Between double quotes every break and every character that cannot be printed is
escaped, so the text stays on its line.

## Main definitions

* `Quoted.Pending` — the gap that is kept in front of the rest of a text.
* `Quoted.Closes` — the rest of a text is read up to the closing quote.

## Main statements

* `Quoted.single_singleBody` — what is written between single quotes.
* `Quoted.doubleChar_cases` — a character as it is written between double quotes.
* `Quoted.double_flatMap_doubleChar` — what is written between double quotes.
-/

namespace OptionAtlas.Yaml.Quoted

variable {c : Char} {cs rest : List Char} {p : Place} {gap : Gap}

/-! ## Single quotes -/

theorem single_space (cs : List Char) (p : Place) (gap : Gap) :
    single (' ' :: cs) p gap = single cs (p.right [' ']) (gap.addBlank ' ') := by
  simp [single, isBreak, isBlank]

theorem single_indent (n : Nat) (cs : List Char) (p : Place) (first : Option Char)
    (more : List Char) :
    single (indent n ++ cs) p (.across first more) =
      single cs (p.right (indent n)) (.across first more) :=
  eq_right_indent (f := fun cs p => single cs p (.across first more))
    (fun cs p _ => single_space cs p _) n cs p (Nat.le_refl _)

theorem single_break (h : isBreak c = true) (hreturn : c ≠ '\r') (cs : List Char) (p : Place)
    (gap : Gap) : single (c :: cs) p gap = single cs (p.down [c]) (gap.addBreak c) := by
  have hquote : c ≠ '\'' := by
    rintro rfl
    revert h
    decide
  rw [single]
  · rw [if_pos h]
  · exact fun _ hc _ => hreturn hc
  · exact fun _ hc _ => hquote hc

/-- A character that is no gap, as it is written between single quotes. -/
def singleChar (c : Char) : List Char := if c = '\'' then ['\'', '\''] else [c]

theorem single_singleChar (h : isGap c = false) (hp : 0 < p.column) (cs : List Char) (gap : Gap) :
    single (singleChar c ++ cs) p gap =
      (single cs (p.right (singleChar c)) .empty).map (prepend (gap.text ++ [c])) := by
  simp only [isGap, Bool.or_eq_false_iff] at h
  unfold singleChar
  split_ifs with hquote
  · subst hquote
    rw [List.cons_append, List.cons_append, List.nil_append, single]
  · rw [List.cons_append, List.nil_append, single]
    · have hcolumn : p.column ≠ 0 := by omega
      simp [h, hcolumn, hquote]
    · exact fun _ hc _ => ne_return_of_not_isBreak h.2 hc
    · exact fun _ hc _ => hquote hc

/-- A quote at the end of its line ends the scalar. -/
theorem single_close (hp : 0 < p.column) (rest : List Char) (gap : Gap) :
    single ('\'' :: '\n' :: rest) p gap = some (gap.text, ⟨'\n' :: rest, p.right ['\'']⟩) := by
  have hcolumn : p.column ≠ 0 := by omega
  simp [single, isBreak, isBlank, hcolumn]

/-- The gap that the reader keeps in front of the rest of a text. `fresh` says whether the
writer is behind a break, which has not been indented yet. -/
inductive Pending : Bool → Gap → List Char → Prop
  | within {bs cs} (h : bs = [] ∨ cs.head?.any isBreak = false) : Pending false (.within bs) cs
  | across {b more cs} (first : b ≠ '\n') (h : cs.head?.any isSpace = false) :
    Pending true (.across (some b) more) cs

theorem Pending.single_lead {fresh : Bool} {depth : Nat} (h : Pending fresh gap cs)
    (hdepth : 0 < depth) (hp : fresh = false → 0 < p.column) :
    ∃ q : Place, p.line ≤ q.line ∧ 0 < q.column ∧ ∀ rest,
      single ((if fresh then indent depth else []) ++ rest) p gap = single rest q gap := by
  cases h with
  | within _ => exact ⟨p, Nat.le_refl _, hp rfl, fun _ => rfl⟩
  | across _ _ =>
      refine ⟨p.right (indent depth), Nat.le_refl _, ?_, fun rest => single_indent depth rest p _ _⟩
      rw [column_right_indent]
      omega

theorem Pending.addBreak_text {fresh : Bool} (h : Pending fresh gap (c :: cs))
    (hbreak : isBreak c = true) (hprint : isPrintable c = true) (hfeed : c ≠ '\n')
    (hspace : cs.head?.any isSpace = false) :
    Pending true (gap.addBreak c) cs ∧ (gap.addBreak c).text = gap.text ++ [c] := by
  cases h with
  | @within bs _ h =>
      have hnil : bs = [] := by simpa [hbreak] using h
      simp only [Gap.addBreak, breakValue_of_isPrintable hprint hbreak]
      exact ⟨.across hfeed hspace, by simp [hnil, Gap.text, hfeed]⟩
  | across first _ =>
      simp only [Gap.addBreak, breakValue_of_isPrintable hprint hbreak]
      exact ⟨.across first hspace, by simp [Gap.text, first]⟩

theorem Pending.addBlank_text {fresh : Bool} (h : Pending fresh gap (' ' :: cs))
    (hbreak : cs.head?.any isBreak = false) :
    Pending fresh (gap.addBlank ' ') cs ∧ (gap.addBlank ' ').text = gap.text ++ [' '] := by
  cases h with
  | within _ => exact ⟨.within (.inr hbreak), rfl⟩
  | across _ h => simp [isSpace] at h

/-- From behind the gap in front of it the rest of a text is read up to the closing quote. -/
def Closes (depth : Nat) (fresh : Bool) (cs rest : List Char) (p : Place) (gap : Gap) : Prop :=
  ∃ q : Place, p.line ≤ q.line ∧
    single (singleBody depth fresh cs ++ '\n' :: rest) p gap =
      some (gap.text ++ cs, ⟨'\n' :: rest, q⟩)

section Closes

variable {depth : Nat} {fresh : Bool}

theorem closes_nil (hgap : Pending fresh gap []) (hdepth : 0 < depth)
    (hp : fresh = false → 0 < p.column) : Closes depth fresh [] rest p gap := by
  rcases hgap.single_lead hdepth hp with ⟨q, hline, hcolumn, hlead⟩
  refine ⟨q.right ['\''], hline, ?_⟩
  have hbody : singleBody depth fresh [] = (if fresh then indent depth else []) ++ ['\''] := rfl
  rw [hbody, List.append_assoc, hlead, List.cons_append, List.nil_append, single_close hcolumn,
    List.append_nil]

theorem closes_space (htext : (gap.addBlank ' ').text = gap.text ++ [' '])
    (h : Closes depth fresh cs rest (p.right [' ']) (gap.addBlank ' ')) :
    Closes depth fresh (' ' :: cs) rest p gap := by
  rcases h with ⟨q, hline, hread⟩
  refine ⟨q, hline, ?_⟩
  rw [singleBody, if_pos rfl, List.cons_append, single_space, hread, htext, List.append_assoc,
    List.singleton_append]

theorem closes_break (hc : isBreak c = true) (hprint : isPrintable c = true)
    (htext : (gap.addBreak c).text = gap.text ++ [c])
    (h : Closes depth true cs rest (p.down [c]) (gap.addBreak c)) :
    Closes depth fresh (c :: cs) rest p gap := by
  have hspace : c ≠ ' ' := by
    rintro rfl
    exact absurd hc (by decide)
  have hreturn : c ≠ '\r' := by
    rintro rfl
    exact absurd hprint (by decide)
  rcases h with ⟨q, hline, hread⟩
  refine ⟨q, Nat.le_trans (Nat.le_succ _) hline, ?_⟩
  rw [singleBody, if_neg hspace, if_pos hc, List.cons_append, single_break hc hreturn, hread,
    htext, List.append_assoc, List.singleton_append]

theorem closes_char (hc : isGap c = false) (hgap : Pending fresh gap (c :: cs))
    (hdepth : 0 < depth) (hp : fresh = false → 0 < p.column)
    (h : ∀ q : Place, 0 < q.column → Closes depth false cs rest q .empty) :
    Closes depth fresh (c :: cs) rest p gap := by
  have hspace : c ≠ ' ' := by
    rintro rfl
    exact absurd hc (by decide)
  have hbreak : ¬ isBreak c = true := by
    simp only [isGap, Bool.or_eq_false_iff] at hc
    simp [hc.2]
  have hbody : singleBody depth fresh (c :: cs) =
      (if fresh then indent depth else []) ++ (singleChar c ++ singleBody depth false cs) := by
    rw [singleBody, if_neg hspace, if_neg hbreak, List.append_assoc]
    rfl
  rcases hgap.single_lead hdepth hp with ⟨q, hline, hcolumn, hlead⟩
  rcases h (q.right (singleChar c)) (Nat.lt_of_lt_of_le hcolumn (Nat.le_add_right ..)) with
    ⟨q', hline', hread⟩
  refine ⟨q', Nat.le_trans hline hline', ?_⟩
  rw [hbody, List.append_assoc, hlead, List.append_assoc, single_singleChar hc hcolumn, hread]
  simp [prepend]

/-- A text without line feeds is read from between its single quotes if no space stands
next to a break in it. -/
theorem single_singleBody (hdepth : 0 < depth) (gap : Gap) (hgap : Pending fresh gap cs)
    (hprint : ∀ c ∈ cs, isPrintable c = true) (hfeed : ∀ c ∈ cs, c ≠ '\n')
    (hspace : hasPair isSpace isBreak cs = false) (hbreak : hasPair isBreak isSpace cs = false)
    (hp : fresh = false → 0 < p.column) (rest : List Char) :
    Closes depth fresh cs rest p gap := by
  induction cs generalizing p gap fresh with
  | nil => exact closes_nil hgap hdepth hp
  | cons c cs ih =>
      simp only [List.mem_cons, forall_eq_or_imp] at hprint hfeed
      rw [hasPair_cons_eq_false] at hspace hbreak
      by_cases hc : c = ' '
      · subst hc
        rcases hgap.addBlank_text (hspace.1 rfl) with ⟨hgap', htext⟩
        exact closes_space htext (ih _ hgap' hprint.2 hfeed.2 hspace.2 hbreak.2
          (fun h => Nat.lt_of_lt_of_le (hp h) (Nat.le_add_right ..)))
      · by_cases hc' : isBreak c = true
        · rcases hgap.addBreak_text hc' hprint.1 hfeed.1 (hbreak.1 hc') with ⟨hgap', htext⟩
          exact closes_break hc' hprint.1 htext
            (ih _ hgap' hprint.2 hfeed.2 hspace.2 hbreak.2 (by simp))
        · rw [Bool.not_eq_true] at hc'
          exact closes_char (isGap_eq_false hprint.1 hc' hc) hgap hdepth hp fun q hq =>
            ih .empty (.within (.inl rfl)) hprint.2 hfeed.2 hspace.2 hbreak.2 fun _ => hq

end Closes

theorem exists_singleBody_concat (depth : Nat) (fresh : Bool) (cs : List Char) :
    ∃ front, singleBody depth fresh cs = front ++ ['\''] := by
  induction cs generalizing fresh with
  | nil => exact ⟨_, rfl⟩
  | cons c cs ih =>
      rcases ih fresh with ⟨same, hsame⟩
      rcases ih true with ⟨line, hline⟩
      rcases ih false with ⟨word, hword⟩
      rw [singleBody, hsame, hline, hword]
      split_ifs
      · exact ⟨' ' :: same, rfl⟩
      · exact ⟨c :: line, rfl⟩
      all_goals exact ⟨_, (List.append_assoc ..).symm⟩

/-! ## Escapes -/

theorem hexValue?_digitChar {n : Nat} (h : n < 16) :
    hexValue? (Nat.digitChar n).toUpper = some n := by
  have all : ∀ n, n < 16 → hexValue? (Nat.digitChar n).toUpper = some n := by decide
  exact all n h

theorem code?_hexDigits (width k n v : Nat) (cs : List Char) :
    code? (width + k) (hexDigits width n ++ cs) v =
      code? k cs (v * 16 ^ width + n % 16 ^ width) := by
  induction width generalizing n k cs with
  | zero => simp [hexDigits, Nat.mod_one]
  | succ width ih =>
      have hvalue : (v * 16 ^ width + n / 16 % 16 ^ width) * 16 + n % 16 =
          v * 16 ^ (width + 1) + n % 16 ^ (width + 1) := by
        rw [Nat.pow_succ, Nat.mul_comm (16 ^ width) 16, Nat.mod_mul, ← Nat.mul_assoc,
          Nat.mul_right_comm]
        omega
      rw [hexDigits, List.append_assoc, Nat.add_right_comm, Nat.add_assoc, ih, List.cons_append,
        List.nil_append, code?, hexValue?_digitChar (Nat.mod_lt n (by decide)),
        Option.bind_eq_bind, Option.bind_some, hvalue]

theorem charOf?_toNat (c : Char) : charOf? c.toNat = some c := by
  have hvalid : c.toNat.isValidChar := c.valid
  rw [charOf?, dif_pos hvalid]
  rfl

theorem length_hexDigits (width n : Nat) : (hexDigits width n).length = width := by
  induction width generalizing n with
  | zero => rfl
  | succ width ih => simp [hexDigits, ih]

/-- A letter and the digits of a code point stand for its character. -/
theorem escape?_hexDigits {mark : Char} {width : Nat} (hmark : codeLength? mark = some width)
    (hshort : shortEscapes.lookup mark = none) (hc : c.toNat < 16 ^ width) (rest : List Char) :
    escape? (mark :: hexDigits width c.toNat ++ rest) = some (c, width + 1) := by
  have hcode := code?_hexDigits width 0 c.toNat 0 rest
  rw [Nat.add_zero, Nat.zero_mul, Nat.zero_add, Nat.mod_eq_of_lt hc, code?] at hcode
  simp only [List.cons_append, escape?, hshort, hmark, Option.bind_eq_bind, Option.bind_some,
    hcode, charOf?_toNat]

/-- The letters of short escapes stand for the characters they are written for. -/
theorem lookup_shortEscapes {letter : Char} (h : escapeLetters.lookup c = some letter) :
    shortEscapes.lookup letter = some c ∧ isBreak letter = false := by
  have all : ∀ e ∈ escapeLetters, shortEscapes.lookup e.2 = some e.1 ∧ isBreak e.2 = false := by
    decide
  rcases List.lookup_eq_some_iff.1 h with ⟨before, behind, hsplit, -⟩
  exact all (c, letter) (by rw [hsplit]; simp)

/-- A character between double quotes is written as it is, or as an escape that stands
for it. -/
theorem doubleChar_cases (c : Char) :
    (doubleChar c = [c] ∧ isPrintable c = true ∧ isBreak c = false ∧ c ≠ '"' ∧ c ≠ '\\') ∨
      ∃ mark more, doubleChar c = '\\' :: mark :: more ∧ isBreak mark = false ∧
        ∀ rest, escape? (mark :: more ++ rest) = some (c, more.length + 1) := by
  have hvalid : c.toNat < 0x110000 := by
    have := c.valid
    simp only [UInt32.isValidChar, Nat.isValidChar] at this
    simp only [Char.toNat]
    omega
  unfold doubleChar
  by_cases hplain : (isPrintable c && !isBreak c && c ≠ '"' && c ≠ '\\') = true
  · left
    rw [if_pos hplain]
    simpa [and_assoc] using hplain
  · right
    rw [if_neg hplain]
    cases hletter : escapeLetters.lookup c with
    | some letter =>
      rcases lookup_shortEscapes hletter with ⟨hlookup, hbreak⟩
      exact ⟨letter, [], rfl, hbreak, fun rest => by simp [escape?, hlookup]⟩
    | none =>
      simp only
      split_ifs with hx hu
      · refine ⟨'x', hexDigits 2 c.toNat, rfl, rfl, fun rest => ?_⟩
        rw [length_hexDigits]
        exact escape?_hexDigits rfl rfl (by omega) rest
      · refine ⟨'u', hexDigits 4 c.toNat, rfl, rfl, fun rest => ?_⟩
        rw [length_hexDigits]
        exact escape?_hexDigits rfl rfl (by omega) rest
      · refine ⟨'U', hexDigits 8 c.toNat, rfl, rfl, fun rest => ?_⟩
        rw [length_hexDigits]
        exact escape?_hexDigits rfl rfl (by omega) rest

/-! ## Double quotes -/

/-- The characters of an escape are passed over. -/
theorem double_append (cs rest : List Char) (p : Place) (gap : Gap) :
    double cs.length (cs ++ rest) p gap = double 0 rest p gap := by
  induction cs with
  | nil => rfl
  | cons c cs ih =>
      rw [List.length_cons, List.cons_append, double]
      exact ih

theorem double_escape {mark : Char} {more : List Char} (hbreak : isBreak mark = false)
    (hescape : ∀ rest, escape? (mark :: more ++ rest) = some (c, more.length + 1))
    (rest : List Char) (p : Place) (gap : Gap) :
    double 0 ('\\' :: mark :: more ++ rest) p gap =
      (double 0 rest (p.right ('\\' :: mark :: more)) .empty).map (prepend (gap.text ++ [c])) := by
  have hlength : more.length + 1 = (mark :: more).length := rfl
  rw [List.cons_append, List.cons_append, double]
  · simp only [hbreak, Bool.false_eq_true, if_false, ← List.cons_append, hescape]
    rw [hlength, double_append, List.take_left]
  · exact fun _ hc _ => ne_return_of_not_isBreak hbreak hc

theorem double_space (cs : List Char) (p : Place) (bs : List Char) :
    double 0 (' ' :: cs) p (.within bs) = double 0 cs (p.right [' ']) (.within (bs ++ [' '])) := by
  simp [double, isBreak, isBlank, Gap.addBlank]

theorem double_plain (hgap : isGap c = false) (hquote : c ≠ '"') (hslash : c ≠ '\\')
    (hp : 0 < p.column) (cs : List Char) (gap : Gap) :
    double 0 (c :: cs) p gap =
      (double 0 cs (p.right [c]) .empty).map (prepend (gap.text ++ [c])) := by
  simp only [isGap, Bool.or_eq_false_iff] at hgap
  have hcolumn : p.column ≠ 0 := by omega
  rw [double]
  · simp [hgap, hcolumn, hquote, hslash]
  · exact fun _ hc _ => hslash hc
  · exact fun _ hc _ => ne_return_of_not_isBreak hgap.2 hc
  · exact fun _ _ hc _ => hslash hc

/-- Every text is read from between its double quotes. -/
theorem double_flatMap_doubleChar (cs rest : List Char) (hp : 0 < p.column) (bs : List Char) :
    double 0 (cs.flatMap doubleChar ++ '"' :: rest) p (.within bs) =
      some (bs ++ cs, ⟨rest, p.right (cs.flatMap doubleChar ++ ['"'])⟩) := by
  induction cs generalizing p bs with
  | nil =>
      have hcolumn : p.column ≠ 0 := by omega
      simp [double, isBreak, isBlank, hcolumn, Gap.text]
  | cons c cs ih =>
      have hp' : ∀ ds, 0 < (p.right ds).column :=
        fun _ => Nat.lt_of_lt_of_le hp (Nat.le_add_right ..)
      rw [List.flatMap_cons, List.append_assoc]
      rcases doubleChar_cases c with ⟨hchar, hprint, hbreak, hquote, hslash⟩ |
        ⟨mark, more, hchar, hbreak, hescape⟩
      · rw [hchar, List.cons_append, List.nil_append]
        by_cases hc : c = ' '
        · subst hc
          rw [double_space, ih (hp' _)]
          simp
        · have hgap := isGap_eq_false hprint hbreak hc
          rw [double_plain hgap hquote hslash hp, show Gap.empty = .within [] from rfl, ih (hp' _)]
          simp [prepend, Gap.text]
      · rw [hchar, double_escape hbreak hescape, show Gap.empty = .within [] from rfl, ih (hp' _)]
        simp [prepend, Gap.text]

end OptionAtlas.Yaml.Quoted
