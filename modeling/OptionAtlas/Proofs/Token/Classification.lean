import Mathlib.Data.List.Basic
import OptionAtlas.Proofs.Catalog.Lookup
import OptionAtlas.Proofs.Flag.Grammar
import OptionAtlas.Token

/-!
# What tokens are

What a token in front of the separator is can be said without taking it apart: it is a
name of a flag, the long name of a flag with a value behind an equals sign, an argument,
or an option that the catalog does not know. Exactly one of these fits, because long
names hold no equals sign and no name belongs to two entries.

## Main definitions

* `TokenClass.Fits` — what the classes mean.

## Main statements

* `classOf_eq_iff` — the class of a token is the one that fits.
* `getElem?_classify` — the report at each place.
-/

namespace OptionAtlas

/-! ## Values behind an equals sign -/

theorem splitEquals_of_notMem {cs : List Char} (h : '=' ∉ cs) : splitEquals cs = (cs, none) := by
  induction cs with
  | nil => rfl
  | cons c cs ih =>
      rw [List.mem_cons, not_or] at h
      obtain ⟨hc, hcs⟩ := h
      rw [splitEquals, if_neg (Ne.symm hc), ih hcs]

theorem splitEquals_append {name value : List Char} (h : '=' ∉ name) :
    splitEquals (name ++ '=' :: value) = (name, some value) := by
  induction name with
  | nil => rfl
  | cons c cs ih =>
      rw [List.mem_cons, not_or] at h
      obtain ⟨hc, hcs⟩ := h
      rw [List.cons_append, splitEquals, if_neg (Ne.symm hc), ih hcs]

theorem eq_append_value_iff {token name value : String} :
    token = name ++ "=" ++ value ↔ token.toList = name.toList ++ '=' :: value.toList := by
  rw [← String.toList_inj, String.toList_append, String.toList_append, List.append_assoc]
  rfl

/-! ## Classes -/

/-- What it means for a token in front of the separator to be of a class. -/
def TokenClass.Fits (flags : Catalog) (token : String) : TokenClass → Prop
  | .flag key group none =>
    ∃ e ∈ flags.entries, e.key = key ∧ e.group = group ∧
      (token = e.flag.long ∨ e.flag.short = some token)
  | .flag key group (some value) =>
    ∃ e ∈ flags.entries, e.key = key ∧ e.group = group ∧ token = e.flag.long ++ "=" ++ value
  | .positional => token = "-" ∨ token.toList.head? ≠ some '-'
  | .unknownOption =>
    token ≠ "-" ∧ token.toList.head? = some '-' ∧
      ∀ e ∈ flags.entries, token ≠ e.flag.long ∧ e.flag.short ≠ some token ∧
        ∀ value, token ≠ e.flag.long ++ "=" ++ value
  | .terminator => False

variable {flags : Catalog} {token : String} {e : Entry}

theorem flagClass_of_mem {value : Option String} (he : e ∈ flags.entries)
    (htoken : token ∈ e.flag.spellings) :
    flagClass flags token value = .flag e.key e.group value := by
  rw [flagClass, Catalog.resolve_eq_some_iff.2 ⟨he, htoken⟩]

theorem flagClass_of_forall_notMem {value : Option String}
    (h : ∀ e ∈ flags.entries, token ∉ e.flag.spellings) :
    flagClass flags token value = .unknownOption := by
  rw [flagClass, Catalog.resolve_eq_none_iff.2 h]

theorem classOf_dashes {cs : List Char} (h : token.toList = '-' :: '-' :: cs) :
    classOf flags token =
      flagClass flags (String.ofList (splitEquals token.toList).1)
        ((splitEquals token.toList).2.map String.ofList) := by
  rw [classOf]
  split
  next => rfl
  next c cs' hne heq => exact absurd (h.symm.trans heq) (by grind)
  next hne _ => exact absurd h (hne cs)

theorem classOf_dash {c : Char} {cs : List Char} (h : token.toList = '-' :: c :: cs)
    (hc : c ≠ '-') : classOf flags token = flagClass flags token none := by
  rw [classOf]
  split
  next cs' heq => exact absurd (h.symm.trans heq) (by simp [hc])
  next => rfl
  next _ hne => exact absurd h (hne c cs)

/-- A name of an entry is a flag without a value. -/
theorem classOf_of_mem (he : e ∈ flags.entries) (htoken : token ∈ e.flag.spellings) :
    classOf flags token = .flag e.key e.group none := by
  obtain hshort | rfl := Flag.mem_spellings.1 htoken
  · obtain ⟨c, hc, hdash, _⟩ := (e.flag.shortName hshort).exists_toList
    rw [classOf_dash hc hdash, flagClass_of_mem he htoken]
  · obtain ⟨c, cs, hl, _⟩ := e.flag.longName.exists_toList
    rw [classOf_dashes hl, splitEquals_of_notMem e.flag.longName.equals_notMem,
      String.ofList_toList, Option.map_none, flagClass_of_mem he htoken]

/-- A long name with a value behind an equals sign is a flag with this value. -/
theorem classOf_of_value (he : e ∈ flags.entries) (value : String) :
    classOf flags (e.flag.long ++ "=" ++ value) = .flag e.key e.group (some value) := by
  have hlist := eq_append_value_iff.1 (Eq.refl (e.flag.long ++ "=" ++ value))
  obtain ⟨c, cs, hl, _⟩ := e.flag.longName.exists_toList
  have hdashes : (e.flag.long ++ "=" ++ value).toList =
      '-' :: '-' :: (c :: cs ++ '=' :: value.toList) := by
    rw [hlist, hl]
    rfl
  rw [classOf_dashes hdashes, hlist, splitEquals_append e.flag.longName.equals_notMem,
    String.ofList_toList, Option.map_some, String.ofList_toList, flagClass_of_mem he (by simp)]

theorem classOf_of_positional (h : token = "-" ∨ token.toList.head? ≠ some '-') :
    classOf flags token = .positional := by
  have hlist : token.toList = ['-'] ∨ token.toList.head? ≠ some '-' :=
    h.imp (fun h => by rw [h]; rfl) id
  rw [classOf]
  split
  next cs heq => simp [heq] at hlist
  next c cs _ heq => simp [heq] at hlist
  next => rfl

/-- The part in front of an equals sign is no name if the token is no long name with a
value: a short name does not go on with a second dash. -/
theorem front_notMem_spellings {cs name value : List Char}
    (hdashes : token.toList = '-' :: '-' :: cs) (hsplit : token.toList = name ++ '=' :: value)
    (hother : ∀ e ∈ flags.entries, ∀ v, token ≠ e.flag.long ++ "=" ++ v) :
    ∀ e ∈ flags.entries, String.ofList name ∉ e.flag.spellings := by
  intro e he hmem
  obtain hshort | hlong := Flag.mem_spellings.1 hmem
  · obtain ⟨c, hc, hne, _⟩ := (e.flag.shortName hshort).exists_toList
    rw [String.toList_ofList] at hc
    rw [hdashes, hc] at hsplit
    simp [hne.symm] at hsplit
  · refine hother e he (String.ofList value) (eq_append_value_iff.2 ?_)
    rw [hsplit, hlong, String.toList_ofList, String.toList_ofList]

/-- Behind a dash, what is neither a name nor a long name with a value is unknown. -/
theorem classOf_of_unknown (h : TokenClass.unknownOption.Fits flags token) :
    classOf flags token = .unknownOption := by
  obtain ⟨hdash, hhead, hother⟩ := h
  have unnamed : ∀ e ∈ flags.entries, token ∉ e.flag.spellings := by
    intro e he hmem
    obtain hshort | hlong := Flag.mem_spellings.1 hmem
    · exact (hother e he).2.1 hshort
    · exact (hother e he).1 hlong.symm
  match hlist : token.toList with
  | [] => simp [hlist] at hhead
  | [c] =>
      have hc : c = '-' := by simpa [hlist] using hhead
      refine absurd (String.toList_inj.1 ?_) hdash
      rw [hlist, hc]
      rfl
  | c :: d :: cs =>
      obtain rfl : c = '-' := by simpa [hlist] using hhead
      by_cases hd : d = '-'
      · subst hd
        rw [classOf_dashes hlist]
        by_cases hequals : '=' ∈ token.toList
        · obtain ⟨name, value, hsplit, hname⟩ := List.eq_append_cons_of_mem hequals
          have unnamed_front := front_notMem_spellings hlist hsplit fun e he => (hother e he).2.2
          rw [hsplit, splitEquals_append hname]
          exact flagClass_of_forall_notMem unnamed_front
        · rw [splitEquals_of_notMem hequals, String.ofList_toList]
          exact flagClass_of_forall_notMem unnamed
      · rw [classOf_dash hlist hd]
        exact flagClass_of_forall_notMem unnamed

/-- Whatever fits a token is its class. -/
theorem classOf_of_fits {c : TokenClass} (h : c.Fits flags token) : classOf flags token = c := by
  cases c with
  | flag key group value =>
      cases value with
      | none =>
          obtain ⟨e, he, rfl, rfl, hname⟩ := h
          exact classOf_of_mem he (Flag.mem_spellings.2 (hname.symm.imp id Eq.symm))
      | some value =>
          obtain ⟨e, he, rfl, rfl, rfl⟩ := h
          exact classOf_of_value he value
  | unknownOption => exact classOf_of_unknown h
  | positional => exact classOf_of_positional h
  | terminator => exact absurd h id

/-- Some class fits every token. -/
theorem exists_fits (flags : Catalog) (token : String) : ∃ c : TokenClass, c.Fits flags token := by
  by_cases hpositional : TokenClass.positional.Fits flags token
  · exact ⟨_, hpositional⟩
  by_cases hunknown : TokenClass.unknownOption.Fits flags token
  · exact ⟨_, hunknown⟩
  have hdash : token ≠ "-" ∧ token.toList.head? = some '-' := by
    simpa [TokenClass.Fits] using hpositional
  -- Since the token is not unknown, some entry has it as a name or in front of a value.
  simp only [TokenClass.Fits, hdash, ne_eq, not_false_eq_true, true_and, not_forall] at hunknown
  obtain ⟨e, he, hunknown⟩ := hunknown
  by_cases hname : token = e.flag.long ∨ e.flag.short = some token
  · exact ⟨.flag e.key e.group none, e, he, rfl, rfl, hname⟩
  · rw [not_or] at hname
    simp only [hname, not_false_eq_true, true_and, not_forall, not_not] at hunknown
    obtain ⟨value, hvalue⟩ := hunknown
    exact ⟨.flag e.key e.group (some value), e, he, rfl, rfl, hvalue⟩

theorem classOf_eq_iff {c : TokenClass} : classOf flags token = c ↔ c.Fits flags token := by
  constructor
  · intro h
    obtain ⟨c', hfits⟩ := exists_fits flags token
    rw [← h, classOf_of_fits hfits]
    exact hfits
  · exact classOf_of_fits

/-! ## Lists of tokens -/

/-- Classes are given up to the first separator; everything behind it is an argument. -/
theorem getElem?_classify (flags : Catalog) (ts : List String) (i : Nat) :
    (classify flags ts)[i]? = ts[i]?.map fun t =>
      ⟨t, if i < ts.idxOf "--" then classOf flags t
        else if i = ts.idxOf "--" then .terminator else .positional⟩ := by
  induction ts generalizing i with
  | nil => rfl
  | cons t ts ih =>
      rw [classify]
      by_cases ht : t = "--"
      · subst ht
        rw [if_pos rfl, List.idxOf_cons_self]
        cases i with
        | zero => rfl
        | succ i => simp
      · rw [if_neg ht, List.idxOf_cons_ne _ ht]
        cases i with
        | zero => simp
        | succ i => simp [ih]

theorem classOf_ne_terminator : classOf flags token ≠ .terminator := fun h => classOf_eq_iff.1 h

/-- Without a separator every token is classified on its own. -/
theorem classify_of_separator_notMem {ts : List String} (h : "--" ∉ ts) :
    classify flags ts = ts.map fun t => ⟨t, classOf flags t⟩ := by
  induction ts with
  | nil => rfl
  | cons t ts ih =>
      rw [List.mem_cons, not_or] at h
      rw [classify, if_neg (Ne.symm h.1), ih h.2, List.map_cons]

/-- Short names are never clustered, and take no value behind an equals sign. -/
theorem fits_unknownOption_of_cluster {c d : Char} {cs : List Char}
    (h : token.toList = '-' :: c :: d :: cs) (hc : c ≠ '-') :
    TokenClass.unknownOption.Fits flags token := by
  refine ⟨?_, by rw [h]; rfl, ?_⟩
  · rintro rfl
    cases h
  · intro e _
    obtain ⟨x, xs, hl, _⟩ := e.flag.longName.exists_toList
    refine ⟨?_, ?_, ?_⟩
    · rintro rfl
      exact hc (by simp_all)
    · intro hshort
      obtain ⟨x, hx, _⟩ := (e.flag.shortName hshort).exists_toList
      simp [h] at hx
    · intro value hvalue
      have heq := eq_append_value_iff.1 hvalue
      simp [h, hl, hc] at heq

/-- Two dashes and a value name no flag. -/
theorem fits_unknownOption_of_nameless (flags : Catalog) (value : String) :
    TokenClass.unknownOption.Fits flags ("--=" ++ value) := by
  have hlist : ("--=" ++ value).toList = '-' :: '-' :: '=' :: value.toList := by
    rw [String.toList_append]
    rfl
  refine ⟨?_, by rw [hlist]; rfl, ?_⟩
  · intro h
    rw [h] at hlist
    cases hlist
  · intro e _
    have unmarked := e.flag.longName.equals_notMem
    obtain ⟨x, xs, hl, _⟩ := e.flag.longName.exists_toList
    refine ⟨?_, ?_, ?_⟩
    · intro hlong
      rw [← hlong, hlist] at unmarked
      simp at unmarked
    · intro hshort
      obtain ⟨x, hx, _⟩ := (e.flag.shortName hshort).exists_toList
      simp [hlist] at hx
    · intro other hother
      have heq := eq_append_value_iff.1 hother
      rw [hlist, hl] at heq
      rw [hl] at unmarked
      simp_all

/-- **Tokens are classified by what they are.**  Each token is reported once, in its
place and unchanged. In front of the first separator the class is the one that fits, so
that clusters of short names and values without a name are unknown options; behind it
everything is an argument. -/
theorem kind_classify_iff_fits (flags : Catalog) (ts : List String) :
    (classify flags ts).map (·.token) = ts ∧
      ∀ (i : Nat) (r : TokenReport), (classify flags ts)[i]? = some r →
        (i < ts.idxOf "--" →
          (∀ c, r.kind = c ↔ c.Fits flags r.token) ∧
            ((∃ c d cs, r.token.toList = '-' :: c :: d :: cs ∧ c ≠ '-') ∨
              (∃ value, r.token = "--=" ++ value) → r.kind = .unknownOption)) ∧
        (i = ts.idxOf "--" → r.kind = .terminator) ∧
        (ts.idxOf "--" < i → r.kind = .positional) := by
  refine ⟨?_, ?_⟩
  · refine List.ext_getElem? fun i => ?_
    rw [List.getElem?_map, getElem?_classify, Option.map_map]
    exact Option.map_id_apply
  · intro i r hr
    rw [getElem?_classify] at hr
    obtain ⟨t, _, rfl⟩ := Option.map_eq_some_iff.1 hr
    refine ⟨?_, ?_, ?_⟩
    · intro hi
      simp only [if_pos hi]
      refine ⟨fun c => classOf_eq_iff, ?_⟩
      rintro (⟨c, d, cs, hcluster, hc⟩ | ⟨value, rfl⟩)
      · exact classOf_of_fits (fits_unknownOption_of_cluster hcluster hc)
      · exact classOf_of_fits (fits_unknownOption_of_nameless flags value)
    · intro hi
      simp only [if_neg (Nat.not_lt_of_le (Nat.le_of_eq hi.symm)), if_pos hi]
    · intro hi
      simp only [if_neg (Nat.lt_asymm hi), if_neg (Nat.ne_of_gt hi)]

/-- A catalog of one flag. -/
def formatFlags : Catalog :=
  ⟨"base", [⟨"FORMAT", "base", ⟨"--format", some "-f", by decide, by decide⟩⟩],
    List.pairwise_singleton _ _⟩

theorem kind_classify_iff_fits_formatFlags :
    (classify formatFlags ["-f", "--format=a=b", "-fx", "--", "-f"])[1]? =
        some ⟨"--format=a=b", .flag "FORMAT" "base" (some "a=b")⟩ ∧
      (TokenClass.flag "FORMAT" "base" (some "a=b")).Fits formatFlags "--format=a=b" := by
  have hreport : (classify formatFlags ["-f", "--format=a=b", "-fx", "--", "-f"])[1]? =
      some ⟨"--format=a=b", .flag "FORMAT" "base" (some "a=b")⟩ := by
    decide +kernel
  have fits := ((kind_classify_iff_fits formatFlags _).2 1 _ hreport).1 (by decide)
  exact ⟨hreport, (fits.1 _).1 rfl⟩

end OptionAtlas
