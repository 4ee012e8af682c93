import OptionAtlas.Text.Blank

/-!
# The words of a text

A word is not empty and holds no blank. A text falls into its words in one way only: a
blank belongs to no word, and a word goes on until a blank or the end of the text. Blanks
that stand next to each other part two words like a single one.

## Main definitions

* `IsWord` — the texts that are one word.
* `FallsInto` — what the words of a text are.

## Main statements

* `words_eq_iff` — the words are those into which the text falls.
* `words_word_gap` — a word in front of a gap.
-/

namespace OptionAtlas.Text

/-- A text that is not empty and holds no blank. -/
def IsWord (w : List Char) : Prop := w ≠ [] ∧ ∀ c ∈ w, isBlank c = false

-- Checks the characters of the text only: the quantifier itself ranges over all characters.
instance : DecidablePred IsWord := fun w =>
  decidable_of_iff (w ≠ [] ∧ w.all (! isBlank ·)) (by simp [IsWord])

/-- The text falls into these words, in order. -/
inductive FallsInto : List Char → List (List Char) → Prop where
  | nil : FallsInto [] []
  /-- A blank belongs to no word. -/
  | blank {b : Char} {cs : List Char} {ws : List (List Char)} (hb : isBlank b = true)
      (rest : FallsInto cs ws) : FallsInto (b :: cs) ws
  /-- A word may end with the text. -/
  | last {w : List Char} (hw : IsWord w) : FallsInto w [w]
  /-- Otherwise it ends in front of a blank. -/
  | word {w : List Char} {b : Char} {cs : List Char} {ws : List (List Char)} (hw : IsWord w)
      (hb : isBlank b = true) (rest : FallsInto cs ws) : FallsInto (w ++ b :: cs) (w :: ws)

variable {w gap cs rest : List Char} {ws : List (List Char)} {b c : Char}

/-! ## The open run -/

theorem openRun_blank (hb : isBlank b = true) (cs : List Char) :
    openRun (b :: cs) = ([], words cs) := by
  rw [openRun, words]
  simp only [hb, if_true]

theorem openRun_append (hw : ∀ c ∈ w, isBlank c = false) (cs : List Char) :
    openRun (w ++ cs) = (w ++ (openRun cs).1, (openRun cs).2) := by
  induction w with
  | nil => rfl
  | cons c w ih =>
      obtain ⟨hc, hw⟩ := List.forall_mem_cons.1 hw
      rw [List.cons_append, openRun, ih hw]
      simp [hc]

/-! ## Words in front of a text -/

theorem words_blank (hb : isBlank b = true) (cs : List Char) : words (b :: cs) = words cs := by
  rw [words, openRun_blank hb]
  rfl

theorem words_append (hw : IsWord w) (cs : List Char) :
    words (w ++ cs) = (w ++ (openRun cs).1) :: (openRun cs).2 := by
  obtain ⟨hne, hall⟩ := hw
  have hrun : (w ++ (openRun cs).1).isEmpty = false := by simp [hne]
  rw [words, openRun_append hall]
  simp only [hrun, Bool.false_eq_true, if_false]

theorem words_word (hw : IsWord w) : words w = [w] := by
  have h := words_append hw []
  rwa [List.append_nil, openRun, List.append_nil] at h

theorem words_word_blank (hw : IsWord w) (hb : isBlank b = true) (cs : List Char) :
    words (w ++ b :: cs) = w :: words cs := by
  rw [words_append hw, openRun_blank hb, List.append_nil]

theorem words_gap (hgap : ∀ b ∈ gap, isBlank b = true) (cs : List Char) :
    words (gap ++ cs) = words cs := by
  induction gap with
  | nil => rfl
  | cons b gap ih =>
      obtain ⟨hb, hgap⟩ := List.forall_mem_cons.1 hgap
      rw [List.cons_append, words_blank hb, ih hgap]

/-- A word in front of a gap is the first word. -/
theorem words_word_gap (hw : IsWord w) (hne : gap ≠ []) (hgap : ∀ b ∈ gap, isBlank b = true)
    (cs : List Char) : words (w ++ (gap ++ cs)) = w :: words cs := by
  cases gap with
  | nil => exact absurd rfl hne
  | cons b gap =>
      obtain ⟨hb, hgap⟩ := List.forall_mem_cons.1 hgap
      rw [List.cons_append, words_word_blank hw hb, words_gap hgap]

/-! ## The words of a text -/

theorem FallsInto.words_eq (h : FallsInto cs ws) : words cs = ws := by
  induction h with
  | nil => rfl
  | blank hb _ ih => rw [words_blank hb, ih]
  | last hw => exact words_word hw
  | word hw hb _ ih => rw [words_word_blank hw hb, ih]

/-- Every text falls into its words, also behind a word that it goes on with. -/
theorem fallsInto_words_append (cs : List Char) :
    FallsInto cs (words cs) ∧ ∀ w, IsWord w → FallsInto (w ++ cs) (words (w ++ cs)) := by
  induction cs with
  | nil =>
      refine ⟨.nil, fun w hw => ?_⟩
      rw [List.append_nil, words_word hw]
      exact .last hw
  | cons c cs ih =>
      cases hc : isBlank c with
      | true =>
          refine ⟨?_, fun w hw => ?_⟩
          · rw [words_blank hc]
            exact .blank hc ih.1
          · rw [words_word_blank hw hc]
            exact .word hw hc ih.1
      | false =>
          have single : IsWord [c] := ⟨by simp, by simpa using hc⟩
          refine ⟨ih.2 [c] single, fun w hw => ?_⟩
          have longer : IsWord (w ++ [c]) := by
            refine ⟨by simp, ?_⟩
            simpa [or_imp, forall_and, hc] using hw.2
          simpa using ih.2 (w ++ [c]) longer

theorem words_eq_iff : words cs = ws ↔ FallsInto cs ws := by
  constructor
  · rintro rfl
    exact (fallsInto_words_append cs).1
  · exact FallsInto.words_eq

theorem fallsInto_wordsOf (s : String) :
    FallsInto s.toList ((wordsOf s).map String.toList) := by
  have hwords : (wordsOf s).map String.toList = words s.toList := by
    simp [wordsOf, Function.comp_def]
  rw [hwords]
  exact words_eq_iff.1 rfl

end OptionAtlas.Text
