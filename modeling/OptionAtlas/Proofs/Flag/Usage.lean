import OptionAtlas.Proofs.Flag.Grammar
import OptionAtlas.Proofs.Text.Words

/-!
# The usage of a flag

The form shown in help is a long name, or a short name with a comma and then the long name.
Neither holds a blank, and a short name is told from a long one by the character behind the
first dash. So the words of a usage tell which flag it shows.

## Main definitions

* `Flag.usageWords` — the words of a usage.

## Main statements

* `Flag.words_usage_append` — the words of a text that starts with a usage.
* `Flag.usageWords_append_inj` — the words in front tell the flag.
-/

namespace OptionAtlas

open Text

/-! ## Names as words -/

/-- Letters and digits stand below the code point 123, and up to there none of them is
blank. -/
theorem isBlank_eq_false_of_isAlphanum {c : Char} (h : c.isAlphanum = true) :
    isBlank c = false := by
  have small : c.toNat < 123 := by
    change (decide ('A' ≤ c ∧ c ≤ 'Z') || ('a' ≤ c && c ≤ 'z') || ('0' ≤ c && c ≤ '9')) =
      true at h
    simp only [Bool.or_eq_true, Bool.and_eq_true, decide_eq_true_eq] at h
    change ((65 ≤ c.toNat ∧ c.toNat ≤ 90) ∨ (97 ≤ c.toNat ∧ c.toNat ≤ 122)) ∨
      (48 ≤ c.toNat ∧ c.toNat ≤ 57) at h
    omega
  have all : ∀ n < 123, (Char.ofNat n).isAlphanum = true → isBlank (Char.ofNat n) = false := by
    decide
  have hc := all c.toNat small
  rw [Char.ofNat_toNat] at hc
  exact hc h

theorem LongName.isWord {l : String} (h : LongName l) : IsWord l.toList := by
  obtain ⟨word, hword, _, _, hall⟩ := h
  have hdash : isBlank '-' = false := by decide
  refine ⟨by simp [hword], ?_⟩
  rw [hword]
  intro c hc
  obtain hc | hc := List.mem_append.1 hc
  · obtain rfl : c = '-' := by simpa using hc
    exact hdash
  · exact (hall c hc).2

/-- A short name is a word together with the comma that stands behind it. -/
theorem ShortName.isWord_comma {s : String} (h : ShortName s) : IsWord (s.toList ++ [',']) := by
  obtain ⟨c, hc, halnum⟩ := h
  have hdash : isBlank '-' = false := by decide
  have hcomma : isBlank ',' = false := by decide
  refine ⟨by simp, ?_⟩
  simp [hc, hdash, hcomma, isBlank_eq_false_of_isAlphanum halnum]

/-! ## Usages -/

/-- The words of a usage: a short name stands in front, with a comma. -/
def Flag.usageWords (f : Flag) : List (List Char) :=
  match f.short with
  | some s => [s.toList ++ [','], f.long.toList]
  | none => [f.long.toList]

theorem Flag.words_usage_append (f : Flag) {gap : List Char} (hne : gap ≠ [])
    (hgap : ∀ b ∈ gap, isBlank b = true) (rest : List Char) :
    words (f.usage.toList ++ (gap ++ rest)) = f.usageWords ++ words rest := by
  have hlong : words (f.long.toList ++ (gap ++ rest)) = f.long.toList :: words rest :=
    words_word_gap f.longName.isWord hne hgap rest
  rw [usage, usageWords]
  cases hshort : f.short with
  | none => exact hlong
  | some s =>
      have hsplit : (s ++ ", " ++ f.long).toList ++ (gap ++ rest) =
          (s.toList ++ [',']) ++ ([' '] ++ (f.long.toList ++ (gap ++ rest))) := by
        simp
      simp only [hsplit]
      rw [words_word_gap (f.shortName hshort).isWord_comma (by simp)
        (List.forall_mem_singleton.2 (by decide)), hlong]
      rfl

theorem Flag.eq_of_names {f g : Flag} (hlong : f.long = g.long) (hshort : f.short = g.short) :
    f = g := by
  cases f
  cases g
  cases hlong
  cases hshort
  rfl

/-- A short name goes on behind its dash with a letter or a digit, a long name with a dash. -/
theorem Flag.short_comma_ne_long {f : Flag} {s : String} (h : f.short = some s) (g : Flag) :
    s.toList ++ [','] ≠ g.long.toList := by
  obtain ⟨c, hc, hdash, _⟩ := (f.shortName h).exists_toList
  obtain ⟨x, xs, hlong, _⟩ := g.longName.exists_toList
  simp [hc, hlong, hdash]

/-- The words of a usage tell which flag it shows and where it ends. -/
theorem Flag.usageWords_append_inj {f g : Flag} {ws ws' : List (List Char)}
    (h : f.usageWords ++ ws = g.usageWords ++ ws') : f = g ∧ ws = ws' := by
  rw [usageWords, usageWords] at h
  cases hf : f.short with
  | none =>
      cases hg : g.short with
      | none =>
          simp only [hf, hg, List.singleton_append, List.cons.injEq, String.toList_inj] at h
          exact ⟨eq_of_names h.1 (hf.trans hg.symm), h.2⟩
      | some t =>
          simp only [hf, hg, List.cons_append, List.cons.injEq] at h
          exact absurd h.1.symm (short_comma_ne_long hg f)
  | some s =>
      cases hg : g.short with
      | none =>
          simp only [hf, hg, List.cons_append, List.cons.injEq] at h
          exact absurd h.1 (short_comma_ne_long hf g)
      | some t =>
          simp only [hf, hg, List.cons_append, List.nil_append, List.cons.injEq,
            List.append_cancel_right_eq, String.toList_inj] at h
          obtain ⟨rfl, hlong, hrest⟩ := h
          exact ⟨eq_of_names hlong (hf.trans hg.symm), hrest⟩

end OptionAtlas
