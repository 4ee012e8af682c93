import OptionAtlas.Flag

/-!
# The grammar of names

A long name is two dashes and a word; a short name is a dash and one ASCII letter or
digit. A flag can be made of two names exactly when they follow this grammar, and
then it holds them unchanged.

## Main definitions

* `LongName`, `ShortName` — the grammar, said of whole names.

## Main statements

* `Flag.brokenRule?_eq_none_iff`, `Flag.exists_ofNames_iff` — the names that make a flag.
* `LongName.exists_toList`, `ShortName.exists_toList` — how names start.
-/

namespace OptionAtlas

/-- Two dashes, then a word that is not empty, does not start with a dash and holds
neither an equals sign nor a blank. -/
def LongName (s : String) : Prop :=
  ∃ word, s.toList = ['-', '-'] ++ word ∧ word ≠ [] ∧ word.head? ≠ some '-' ∧
    ∀ c ∈ word, c ≠ '=' ∧ Text.isBlank c = false

/-- A dash, then one ASCII letter or digit. -/
def ShortName (s : String) : Prop := ∃ c : Char, s.toList = ['-', c] ∧ c.isAlphanum = true

theorem isLongName_iff {s : String} : isLongName s.toList = true ↔ LongName s := by
  unfold LongName
  constructor
  · intro h
    unfold isLongName at h
    split at h
    next c cs heq =>
      refine ⟨c :: cs, by simp [heq], by simp, ?_, ?_⟩
      · intro hc
        have hdash : c = '-' := by simpa using hc
        simp [hdash] at h
      · intro x hx
        simp only [Bool.and_eq_true, List.all_eq_true] at h
        simpa using h.2 x hx
    next => simp at h
  · intro h
    rcases h with ⟨word, heq, hne, hhead, hall⟩
    cases word with
    | nil => exact absurd rfl hne
    | cons c cs =>
        have hc : c ≠ '-' := by simpa using hhead
        simp only [heq, isLongName, List.cons_append, List.nil_append, Bool.and_eq_true,
          List.all_eq_true, bne_iff_ne, Bool.not_eq_true']
        exact ⟨hc, hall⟩

theorem isShortName_iff {s : String} : isShortName s.toList = true ↔ ShortName s := by
  unfold ShortName
  constructor
  · intro h
    unfold isShortName at h
    split at h
    next c heq => exact ⟨c, heq, h⟩
    next => simp at h
  · intro h
    rcases h with ⟨c, heq, hc⟩
    rw [heq]
    exact hc

/-- A short name has two characters and a long name has more. -/
theorem ShortName.ne_long {s l : String} (hs : ShortName s) (hl : LongName l) : s ≠ l := by
  rintro rfl
  obtain ⟨c, hc, _⟩ := hs
  obtain ⟨word, hword, hne, _⟩ := hl
  rw [hc] at hword
  have hlen := congrArg List.length hword
  have hpos : 0 < word.length := List.length_pos_iff.2 hne
  simp only [List.length_cons, List.length_nil, List.length_append] at hlen
  omega

theorem LongName.ne_empty {l : String} (hl : LongName l) : l ≠ "" := by
  rintro rfl
  obtain ⟨word, hword, _⟩ := hl
  simp at hword

/-! ## The shape of names -/

theorem LongName.equals_notMem {l : String} (h : LongName l) : '=' ∉ l.toList := by
  obtain ⟨word, hword, _, _, hall⟩ := h
  rw [hword]
  intro hmem
  obtain hmem | hmem := List.mem_append.1 hmem
  · simp at hmem
  · exact (hall '=' hmem).1 rfl

theorem LongName.exists_toList {l : String} (h : LongName l) :
    ∃ c cs, l.toList = '-' :: '-' :: c :: cs ∧ c ≠ '-' := by
  obtain ⟨word, hword, hne, hhead, _⟩ := h
  cases word with
  | nil => exact absurd rfl hne
  | cons c cs => exact ⟨c, cs, hword, by simpa using hhead⟩

theorem ShortName.exists_toList {s : String} (h : ShortName s) :
    ∃ c, s.toList = ['-', c] ∧ c ≠ '-' ∧ c ≠ '=' := by
  obtain ⟨c, hc, halnum⟩ := h
  refine ⟨c, hc, ?_, ?_⟩ <;> rintro rfl <;> exact absurd halnum (by decide)

/-! ## Flags -/

namespace Flag

theorem brokenRule?_eq_none_iff {long : String} {short : Option String} :
    brokenRule? long short = none ↔
      LongName long ∧ ∀ s, short = some s → ShortName s := by
  constructor
  · intro h
    obtain ⟨hl, hs⟩ := valid_of_brokenRule?_eq_none h
    exact ⟨isLongName_iff.1 hl, fun s e => isShortName_iff.1 (shortOk_iff.1 hs s e)⟩
  · intro h
    rcases h with ⟨hl, hs⟩
    have hdiffer : short ≠ some long := fun e => (hs long e).ne_long hl rfl
    have hlong : isLongName long.toList = true := isLongName_iff.2 hl
    have hshort : shortOk short = true :=
      shortOk_iff.2 fun s e => isShortName_iff.2 (hs s e)
    unfold brokenRule?
    rw [if_neg hl.ne_empty, if_neg hdiffer, if_neg (by simp [hlong]), if_neg (by simp [hshort])]

/-- A flag is made of two names by taking them over unchanged. -/
theorem ofNames_eq_ok_iff {long : String} {short : Option String} {f : Flag} :
    ofNames long short = .ok f ↔ f.long = long ∧ f.short = short := by
  unfold ofNames
  constructor
  · intro h
    split at h
    next => cases h
    next => cases h; exact ⟨rfl, rfl⟩
  · intro h
    rcases h with ⟨rfl, rfl⟩
    have hnone : brokenRule? f.long f.short = none :=
      brokenRule?_eq_none_iff.2 ⟨isLongName_iff.1 f.long_valid,
        fun s e => isShortName_iff.1 (f.short_valid s e)⟩
    split
    next h => rw [hnone] at h; cases h
    next => rfl

theorem longName (f : Flag) : LongName f.long := isLongName_iff.1 f.long_valid

theorem shortName (f : Flag) {s : String} (h : f.short = some s) : ShortName s :=
  isShortName_iff.1 (f.short_valid s h)

/-- Two names make a flag when they follow the grammar. -/
theorem exists_ofNames_iff {long : String} {short : Option String} :
    (∃ f, ofNames long short = .ok f) ↔ LongName long ∧ ∀ s, short = some s → ShortName s := by
  simp only [ofNames_eq_ok_iff]
  constructor
  · intro h
    rcases h with ⟨f, rfl, rfl⟩
    exact ⟨f.longName, fun _ h => f.shortName h⟩
  · intro h
    rcases h with ⟨hl, hs⟩
    exact ⟨⟨long, short, isLongName_iff.2 hl, fun s h => isShortName_iff.2 (hs s h)⟩, rfl, rfl⟩

end Flag

end OptionAtlas
