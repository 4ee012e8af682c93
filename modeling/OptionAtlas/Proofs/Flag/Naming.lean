import OptionAtlas.Proofs.Checks
import OptionAtlas.Proofs.Flag.Usage

/-!
# Flags from names

Two names make a flag when they break no rule. Otherwise they are refused for the first rule
that they break, and this matters since the rules overlap: a short name that repeats a long
one breaks the rule for the one or for the other as well. The rules keep short names and long
names apart, and both apart from the dashes that stand alone on a command line.

## Main definitions

* `NameRule.Broken` — what it means that two names break a rule.
* `NameRule.inOrder` — the rules, in the order in which they are reported.
* `NameRule.Blames` — what is reported when two names break a rule.

## Main statements

* `Flag.ofNames_eq_error_iff` — the rule for which two names are refused.
* `Flag.usage_inj` — the usage of a flag tells the flag.
* `Flag.ofNames_by_grammar` — what flags are made of, and what follows for them.
-/

namespace OptionAtlas

open Text

variable {long : String} {short : Option String} {d : Defect}

/-! ## Rules -/

namespace NameRule

/-- What it means that two names break a rule. -/
def Broken (long : String) (short : Option String) : NameRule → Prop
  | .longPresent => long = ""
  | .namesDiffer => short = some long
  | .longForm => ¬ LongName long
  | .shortForm => ∃ s, short = some s ∧ ¬ ShortName s

/-- The rules, in the order in which they are reported. -/
def inOrder : List NameRule := [.longPresent, .namesDiffer, .longForm, .shortForm]

/-- Two names that break a rule are reported with its reason; where they were declared is
not known yet. -/
def Blames (long : String) (short : Option String) (rule : NameRule) (d : Defect) : Prop :=
  rule.Broken long short ∧ d = .invalidFlag long short rule.reason none none

/-- The reason tells the rule. -/
theorem reason_injective : Function.Injective reason := by
  intro a b h
  cases a <;> cases b <;> simp_all [reason]

end NameRule

namespace Flag

/-! ## Refused names -/

theorem isLongName_eq_false_iff : isLongName long.toList = false ↔ ¬ LongName long := by
  rw [← isLongName_iff, Bool.not_eq_true]

theorem shortOk_eq_false_iff : shortOk short = false ↔ ∃ s, short = some s ∧ ¬ ShortName s := by
  rw [← Bool.not_eq_true, shortOk_iff]
  simp only [isShortName_iff, not_forall, exists_prop]

theorem ofNames_eq_error_iff_brokenRule? :
    ofNames long short = .error d ↔
      ∃ rule, brokenRule? long short = some rule ∧
        d = .invalidFlag long short rule.reason none none := by
  unfold ofNames
  split
  next rule h => simp [h, eq_comm]
  next h => simp [h]

/-- Two names are refused for the first rule that they break. -/
theorem ofNames_eq_error_iff :
    ofNames long short = .error d ↔
      ∃ i, FirstAt (fun _ rule => rule.Blames long short) NameRule.inOrder i d := by
  rw [ofNames_eq_error_iff_brokenRule?]
  simp only [NameRule.inOrder, exists_firstAt_cons_iff, not_firstAt_nil, exists_false,
    NameRule.Blames, NameRule.Broken, ← isLongName_eq_false_iff, ← shortOk_eq_false_iff]
  unfold brokenRule?
  -- One case for each rule, with those in front of it kept, and one without a broken rule.
  split_ifs with hpresent hdiffer hlong hshort
  · simp [hpresent]
  · simp [hpresent, hdiffer]
  · simp [hpresent, hdiffer, hlong]
  · simp [hpresent, hdiffer, hlong, hshort]
  · simp [hpresent, hdiffer, hlong, hshort]

/-- A name that is given twice is reported as such, also if it is no long name. -/
example : ofNames "-f" (some "-f") =
    .error (.invalidFlag "-f" (some "-f") NameRule.namesDiffer.reason none none) := by
  decide +kernel

/-! ## Names of flags -/

variable {f g : Flag} {s : String}

theorem short_ne_some_long (f g : Flag) : f.short ≠ some g.long := by
  intro h
  exact (f.shortName h).ne_long g.longName rfl

/-- Every name of a flag goes on behind its dashes, and holds no equals sign. -/
theorem ne_dashes_of_mem_spellings (h : s ∈ f.spellings) :
    s ≠ "-" ∧ s ≠ "--" ∧ '=' ∉ s.toList := by
  obtain hshort | rfl := mem_spellings.1 h
  · obtain ⟨c, hc, hdash, hequals⟩ := (f.shortName hshort).exists_toList
    refine ⟨?_, ?_, ?_⟩
    · rintro rfl
      simp at hc
    · rintro rfl
      simp [hdash.symm] at hc
    · simp [hc, hequals.symm]
  · obtain ⟨c, cs, hl, _⟩ := f.longName.exists_toList
    refine ⟨?_, ?_, f.longName.equals_notMem⟩
    · intro h
      simp [h] at hl
    · intro h
      simp [h] at hl

/-- The words of a usage tell the flag, so the usage does. -/
theorem usage_inj : f.usage = g.usage ↔ f = g := by
  constructor
  · intro h
    have blank : ∀ b ∈ [' '], isBlank b = true := List.forall_mem_singleton.2 (by decide)
    have hwords := congrArg (fun u => words (u.toList ++ ([' '] ++ []))) h
    simp only [words_usage_append _ (List.cons_ne_nil _ _) blank] at hwords
    exact (usageWords_append_inj hwords).1
  · exact congrArg usage

/-- **Flags are made of the names that follow the grammar.**  They hold these names
unchanged, and other names are refused with the reason of the first rule that they break. So
no short name is a long name, no name is a dash or two or holds an equals sign, and a usage
belongs to one flag. -/
theorem ofNames_by_grammar :
    (∀ (long : String) (short : Option String),
      ((∃ f, ofNames long short = .ok f) ↔
        LongName long ∧ ∀ s, short = some s → ShortName s) ∧
      (∀ f, ofNames long short = .ok f ↔ f.long = long ∧ f.short = short) ∧
      ∀ d, ofNames long short = .error d ↔
        ∃ i, FirstAt (fun _ rule => rule.Blames long short) NameRule.inOrder i d) ∧
    Function.Injective NameRule.reason ∧
    ∀ f g : Flag, f.short ≠ some g.long ∧
      (∀ s ∈ f.spellings, s ≠ "-" ∧ s ≠ "--" ∧ '=' ∉ s.toList) ∧
      (f.usage = g.usage ↔ f = g) := by
  refine ⟨?_, NameRule.reason_injective, ?_⟩
  · intro long short
    exact ⟨exists_ofNames_iff, fun _ => ofNames_eq_ok_iff, fun _ => ofNames_eq_error_iff⟩
  · intro f g
    exact ⟨short_ne_some_long f g, fun _ => ne_dashes_of_mem_spellings, usage_inj⟩

end Flag

end OptionAtlas
