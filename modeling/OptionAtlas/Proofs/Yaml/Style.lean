import Mathlib.Data.List.Basic
import Mathlib.Tactic.SplitIfs
import OptionAtlas.Yaml.Cursor
import OptionAtlas.Yaml.Printer

/-!
# What the characters of a text allow

A text is written as it is only if its characters are printable. Then each of them is
allowed in a document, no tab and no carriage return is among them, and the breaks
among them stand for themselves.

## Main definitions

* `opensLine` — the characters that a line can start with behind its indentation.

## Main statements

* `isAllowed_of_isPrintable` — what is printable is allowed.
* `hasPair_cons_eq_false` — neighbours, step by step.
* `eq_right_indent` — indentations are passed over.
* `styleOf_cases` — how a text is written, and what is known of it then.
-/

namespace OptionAtlas.Yaml

variable {c : Char} {cs : List Char}

/-! ## Characters -/

/-- The characters that a line can start with behind its indentation: no gap, and neither
the start of a comment nor a byte order mark. -/
def opensLine (c : Char) : Bool := !isGap c && c ≠ '#' && c ≠ '\uFEFF'

theorem isAllowed_of_isPrintable (h : isPrintable c = true) : isAllowed c = true := by
  simp only [isPrintable, isAllowed, Bool.or_eq_true, Bool.and_eq_true, decide_eq_true_eq] at h ⊢
  grind

theorem ne_tab_of_isPrintable (h : isPrintable c = true) : c ≠ '\t' := by
  rintro rfl
  revert h
  decide

/-- The printable breaks are the line feed and the two separators, and they stand for
themselves in a scalar. -/
theorem breakValue_of_isPrintable (h : isPrintable c = true) (hbreak : isBreak c = true) :
    breakValue c = c := by
  simp only [isBreak, Bool.or_eq_true, decide_eq_true_eq] at hbreak
  rcases hbreak with (((rfl | rfl) | rfl) | rfl) | rfl <;> revert h <;> decide

theorem isBlank_eq_isSpace (h : isPrintable c = true) : isBlank c = isSpace c := by
  simp [isBlank, isSpace, ne_tab_of_isPrintable h]

/-- A space is the only printable gap within a line. -/
theorem isGap_eq_false (h : isPrintable c = true) (hbreak : isBreak c = false) (hc : c ≠ ' ') :
    isGap c = false := by
  simp [isGap, hbreak, isBlank_eq_isSpace h, isSpace, hc]

theorem ne_return_of_not_isBreak (h : isBreak c = false) : c ≠ '\r' := by
  rintro rfl
  revert h
  decide

/-- At the end of its line a text is followed by a gap. -/
theorem gapAhead_append_newline (cs rest : List Char) :
    gapAhead (cs ++ '\n' :: rest) = gapAhead cs := by
  cases cs <;> rfl

theorem getLast?_ne_of_cons {d : Char} (h : (c :: cs).getLast? ≠ some d) :
    cs.getLast? ≠ some d := by
  intro hlast
  exact h (by simp [List.getLast?_cons, hlast])

/-! ## Letters -/

theorem isGap_of_isAlpha (h : c.isAlpha = true) : isGap c = false := by
  have hgaps : ∀ x ∈ [' ', '\t', '\n', '\r', '\u0085', '\u2028', '\u2029'],
      (!x.isAlpha) = true := List.all_eq_true.1 (by decide)
  by_cases hgap : isGap c = true
  · have hmem : c ∈ [' ', '\t', '\n', '\r', '\u0085', '\u2028', '\u2029'] := by
      simpa [isGap, isBlank, isBreak, or_assoc] using hgap
    simpa [h] using hgaps c hmem
  · simpa using hgap

theorem isLeadMark_of_isAlpha (h : c.isAlpha = true) : isLeadMark c = false := by
  have hmarks : ∀ x ∈ ['#', ',', '[', ']', '{', '}', '&', '*', '!', '|', '>', '\'', '"', '%',
      '@', '\x60'], (!x.isAlpha) = true := List.all_eq_true.1 (by decide)
  by_cases hmark : isLeadMark c = true
  · simpa [h] using hmarks c (by simpa [isLeadMark] using hmark)
  · simpa using hmark

theorem ne_of_isAlpha {x : Char} (h : c.isAlpha = true) (hx : x.isAlpha = false) : c ≠ x := by
  rintro rfl
  simp [h] at hx

theorem opensLine_of_isAlpha (h : c.isAlpha = true) : opensLine c = true := by
  simp [opensLine, isGap_of_isAlpha h, ne_of_isAlpha (x := '#') h (by decide),
    ne_of_isAlpha (x := '\uFEFF') h (by decide)]

theorem marksDocument_of_isAlpha (h : c.isAlpha = true) (cs : List Char) :
    marksDocument (c :: cs) = false := by
  unfold marksDocument
  split
  next heq => exact absurd (List.cons.inj heq).1 (ne_of_isAlpha h (by decide))
  next heq => exact absurd (List.cons.inj heq).1 (ne_of_isAlpha h (by decide))
  next => rfl

/-! ## Starts and ends of lines -/

theorem isGap_of_opensLine (h : opensLine c = true) : isGap c = false := by
  simp only [opensLine, Bool.and_eq_true, Bool.not_eq_true'] at h
  exact h.1.1

theorem opensLine_head (h : opensLine c = true) (cs : List Char) :
    ∀ x ∈ (c :: cs).head?, opensLine x = true := by
  intro x hx
  obtain rfl := Option.some.inj hx
  exact h

theorem column_right_indent (n : Nat) (p : Place) : (p.right (indent n)).column = p.column + n := by
  simp [indent]

/-- What passes over a space passes over an indentation; up to column `w` is enough if the
indentation ends there. -/
theorem eq_right_indent {α : Type} {f : List Char → Place → α} {w : Nat}
    (h : ∀ cs p, p.column < w → f (' ' :: cs) p = f cs (p.right [' '])) (n : Nat) (cs : List Char)
    (p : Place) (hw : p.column + n ≤ w) : f (indent n ++ cs) p = f cs (p.right (indent n)) := by
  induction n generalizing p with
  | zero => simp [indent]
  | succ n ih =>
      have hcons : indent (n + 1) = ' ' :: indent n := List.replicate_succ
      have hnext : (p.right [' ']).column + n ≤ w := by
        rw [Place.column_right, List.length_singleton]
        omega
      rw [hcons, List.cons_append, h _ _ (by omega), ih _ hnext, Place.right_right]
      rfl

theorem endLine_append {bs : List Char} (hne : bs ≠ []) (cs : List Char) :
    endLine (cs ++ bs) = cs ++ endLine bs := by
  unfold endLine
  rw [List.getLast?_append_of_ne_nil _ hne]
  split_ifs <;> simp

theorem endLine_of_breaks {vs : List Char} (hne : vs ≠ []) (h : ∀ c ∈ vs, isBreak c = true) :
    endLine vs = vs := by
  have hlast : isBreak (vs.getLast hne) = true := h _ (List.getLast_mem hne)
  simp [endLine, List.getLast?_eq_getLast_of_ne_nil hne, hlast]

theorem endLine_concat (h : isBreak c = false) (cs : List Char) :
    endLine (cs ++ [c]) = cs ++ [c] ++ ['\n'] := by
  simp [endLine, h]

/-! ## Neighbours -/

theorem hasPair_cons_eq_false {p q : Char → Bool} :
    hasPair p q (c :: cs) = false ↔
      (p c = true → cs.head?.any q = false) ∧ hasPair p q cs = false := by
  cases cs with
  | nil => simp [hasPair]
  | cons d ds => cases hp : p c <;> simp [hasPair, hp]

theorem hasInnerMark_cons_cons_eq_false {d : Char} :
    hasInnerMark (c :: d :: cs) = false ↔
      ¬ (isGap c = true ∧ d = '#') ∧ ¬ (d = ':' ∧ gapAhead cs = true) ∧
        hasInnerMark (d :: cs) = false := by
  simp [hasInnerMark, and_assoc]

/-! ## Styles -/

/-- What is written plainly is neither empty nor a word for no value. -/
theorem ne_nothing_of_readsAsText {s : String} (h : readsAsText s = true) :
    s ≠ "" ∧ isNothing s = false := by
  simp only [readsAsText, Bool.and_eq_true, decide_eq_true_eq] at h
  have hsome : ¬ (s = "" ∨ isNothing s = true) := by
    intro hnothing
    rw [meaning, if_pos hnothing] at h
    exact absurd h.1 (by simp)
  rw [not_or, Bool.not_eq_true] at hsome
  exact hsome

theorem needsEscapes_eq_false :
    needsEscapes cs = false ↔
      (∀ c ∈ cs, isPrintable c = true) ∧ hasPair isSpace isBreak cs = false := by
  simp [needsEscapes]

/-- What is known of a text that may be written plainly. -/
structure PlainText (c : Char) (cs : List Char) : Prop where
  printable : ∀ x ∈ c :: cs, isPrintable x = true
  unbroken : ∀ x ∈ c :: cs, isBreak x = false
  lead : isLeadMark c = false
  start : c = '-' ∨ c = '?' ∨ c = ':' → gapAhead cs = false
  inner : hasInnerMark (c :: cs) = false
  not_gap : isGap c = false
  last : (c :: cs).getLast? ≠ some ' '

theorem PlainText.of_plainAllowed (h : plainAllowed (c :: cs) = true) : PlainText c cs := by
  simp only [plainAllowed, singleAllowed, Bool.and_eq_true, Bool.not_eq_true',
    needsEscapes_eq_false, decide_eq_true_eq] at h
  rcases h with ⟨⟨⟨⟨⟨⟨⟨hprint, _⟩, _⟩, hbreak⟩, hstart⟩, hmark⟩, hhead⟩, hlast⟩
  rw [List.any_eq_false] at hbreak
  simp only [startsLikeMark, Bool.or_eq_false_iff, Bool.and_eq_false_imp, Bool.or_eq_true,
    decide_eq_true_eq, or_assoc] at hstart
  have hgap : isGap c = false := isGap_eq_false (hprint c List.mem_cons_self)
    (by simpa using hbreak c List.mem_cons_self) (by simpa using hhead)
  exact ⟨hprint, fun x hx => by simpa using hbreak x hx, hstart.1.1.1, hstart.1.1.2, hmark, hgap,
    hlast⟩

theorem PlainText.opensLine (h : PlainText c cs) : opensLine c = true := by
  have hsharp : c ≠ '#' := by
    rintro rfl
    exact absurd h.lead (by decide)
  have hmark : c ≠ '\uFEFF' := by
    rintro rfl
    exact absurd (h.printable _ List.mem_cons_self) (by decide)
  simp [Yaml.opensLine, h.not_gap, hsharp, hmark]

theorem PlainText.endLine (h : PlainText c cs) : endLine (c :: cs) = c :: cs ++ ['\n'] := by
  rcases List.eq_nil_or_concat (c :: cs) with hnil | ⟨front, x, hx⟩
  · cases hnil
  · rw [List.concat_eq_append] at hx
    rw [hx]
    exact endLine_concat (h.unbroken x (by simp [hx])) front

/-- What is known of a text that may be written between single quotes. -/
theorem singleAllowed_iff :
    singleAllowed cs = true ↔ (∀ c ∈ cs, isPrintable c = true) ∧
      hasPair isSpace isBreak cs = false ∧ hasPair isBreak isSpace cs = false := by
  simp [singleAllowed, needsEscapes_eq_false, and_assoc]

/-- What is known of a text that may be written as a block. -/
theorem blockAllowed_imp (h : blockAllowed cs = true) :
    cs ≠ [] ∧ ∀ c ∈ cs, isPrintable c = true := by
  simp only [blockAllowed, Bool.and_eq_true, Bool.not_eq_true', needsEscapes_eq_false] at h
  exact ⟨by simpa using h.1.2, h.1.1.1⟩

/-- How a text is written and what is known of it then. -/
theorem styleOf_cases (s : String) :
    (styleOf s = .plain ∧ readsAsText s = true ∧ plainAllowed s.toList = true) ∨
      (styleOf s = .single ∧ singleAllowed s.toList = true ∧ ∀ c ∈ s.toList, c ≠ '\n') ∨
      styleOf s = .double ∨ (styleOf s = .literal ∧ blockAllowed s.toList = true) := by
  unfold styleOf
  simp only
  split_ifs with hfeed hblock hplain hsingle
  · exact .inr (.inr (.inr ⟨rfl, hblock⟩))
  · exact .inr (.inr (.inl rfl))
  · exact .inl ⟨rfl, by simpa using hplain⟩
  · refine .inr (.inl ⟨rfl, hsingle, ?_⟩)
    rintro _ hc rfl
    exact hfeed (by simpa using hc)
  · exact .inr (.inr (.inl rfl))

end OptionAtlas.Yaml
