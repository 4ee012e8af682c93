import OptionAtlas.Proofs.Yaml.Style
import OptionAtlas.Yaml.Document

/-!
# What a written document stands for

A document that is written in block style consists of texts, of records with at least
one field, and of lists of texts and records. Each part of it has its tokens and its
node; both follow the document, and neither depends on where a part stands.

## Main definitions

* `FieldName` — a name that can be written as it is.
* `Tree.Laid` — the documents that are written in block style.
* `tokensOf`, `nodeOf` — the tokens and the node of a part of a document.
* `documentTokens` — the tokens of a whole document.

## Main statements

* `itemsChars_eq_flatMap` — the items of a list are written one by one.
* `isAllowed_of_mem_documentChars` — every written character is allowed in a text.
-/

namespace OptionAtlas

namespace Yaml

/-- A word that can stand in front of a colon: it is not too long to be a key. -/
structure FieldName (k : String) : Prop where
  ne_empty : k ≠ ""
  letters : ∀ c ∈ k.toList, c.isAlpha = true
  short : byteCount k.toList ≤ 1024

theorem FieldName.exists_cons {k : String} (h : FieldName k) :
    ∃ c cs, k.toList = c :: cs ∧ c.isAlpha = true := by
  obtain ⟨c, cs, hcs⟩ : ∃ c cs, k.toList = c :: cs :=
    List.exists_cons_of_ne_nil (by simpa using h.ne_empty)
  exact ⟨c, cs, hcs, h.letters c (by simp [hcs])⟩

theorem FieldName.length_pos {k : String} (h : FieldName k) : 0 < k.toList.length := by
  rcases h.exists_cons with ⟨c, cs, hcs, -⟩
  rw [hcs]
  exact Nat.zero_lt_succ _

instance (k : String) : Decidable (FieldName k) :=
  decidable_of_iff (k ≠ "" ∧ k.toList.all Char.isAlpha = true ∧ byteCount k.toList ≤ 1024)
    ⟨fun h => ⟨h.1, List.all_eq_true.1 h.2.1, h.2.2⟩,
      fun h => ⟨h.ne_empty, List.all_eq_true.2 h.letters, h.short⟩⟩

end Yaml

/-- A document of texts, of records with fields, and of lists whose items are no lists. -/
inductive Tree.Laid : Tree → Prop
  | text (s : String) : Laid (.text s)
  | list {ts : List Tree} (items : ∀ t ∈ ts, Laid t) (flat : ∀ t ∈ ts, ∀ us, t ≠ .list us) :
      Laid (.list ts)
  | record {fs : List (String × Tree)} (ne_nil : fs ≠ []) (names : ∀ f ∈ fs, Yaml.FieldName f.1)
      (values : ∀ f ∈ fs, Laid f.2) : Laid (.record fs)

namespace Yaml

mutual

/-- The tokens of a document; the dashes of its lists are not indented. -/
def tokensOf : Tree → List Token
  | .text s => [.scalar (styleOf s = .plain) s]
  | .list [] => [.flowSequenceStart, .flowSequenceEnd]
  | .list (t :: ts) => itemsTokens (t :: ts)
  | .record fs => .blockMappingStart :: fieldsTokens fs ++ [.blockEnd]

/-- The tokens of the items of a list. -/
def itemsTokens : List Tree → List Token
  | [] => []
  | t :: ts => .blockEntry :: tokensOf t ++ itemsTokens ts

/-- The tokens of the fields of a record. -/
def fieldsTokens : List (String × Tree) → List Token
  | [] => []
  | (k, t) :: fs => .key :: .scalar true k :: .value :: tokensOf t ++ fieldsTokens fs

end

/-- The tokens of a whole document: a list that no field holds opens a block for its dashes. -/
def documentTokens : Tree → List Token
  | .list (t :: ts) => .blockSequenceStart :: itemsTokens (t :: ts) ++ [.blockEnd]
  | t => tokensOf t

mutual

/-- The node of a document. -/
def nodeOf : Tree → Node
  | .text s => .scalar none (styleOf s = .plain) s
  | .list ts => .sequence (nodesOf ts)
  | .record fs => .mapping (pairsOf fs)

/-- The nodes of the items of a list. -/
def nodesOf : List Tree → List Node
  | [] => []
  | t :: ts => nodeOf t :: nodesOf ts

/-- The pairs of nodes of the fields of a record. -/
def pairsOf : List (String × Tree) → List (Node × Node)
  | [] => []
  | (k, t) :: fs => (.scalar none true k, nodeOf t) :: pairsOf fs

end

/-! ## Written characters -/

variable {c : Char} {cs : List Char} {d : Nat}

theorem isAllowed_of_isAlpha (h : c.isAlpha = true) : isAllowed c = true := by
  have hletter : (decide ('A'.val ≤ c.val ∧ c.val ≤ 'Z'.val) ||
      decide ('a'.val ≤ c.val) && decide (c.val ≤ 'z'.val)) = true := h
  simp only [Bool.or_eq_true, Bool.and_eq_true, decide_eq_true_eq,
    UInt32.le_iff_toNat_le] at hletter
  have hrange : 0x20 ≤ c.toNat ∧ c.toNat ≤ 0x7E := by
    change 65 ≤ c.toNat ∧ c.toNat ≤ 90 ∨ 97 ≤ c.toNat ∧ c.toNat ≤ 122 at hletter
    omega
  simp [isAllowed, hrange]

theorem isAllowed_of_mem_indent (h : c ∈ indent d) : isAllowed c = true := by
  obtain rfl := List.eq_of_mem_replicate h
  rfl

theorem isAllowed_of_mem_endLine (hcs : ∀ c ∈ cs, isAllowed c = true) (h : c ∈ endLine cs) :
    isAllowed c = true := by
  unfold endLine at h
  split_ifs at h
  · exact hcs c h
  · rcases List.mem_append.1 h with h | h
    · exact hcs c h
    · obtain rfl := List.mem_singleton.1 h
      rfl

theorem mem_singleBody {fresh : Bool} (h : c ∈ singleBody d fresh cs) :
    c = ' ' ∨ c = '\'' ∨ c ∈ cs := by
  induction cs generalizing fresh with
  | nil => cases fresh <;> simp [singleBody] at h <;> grind
  | cons x cs ih => grind [singleBody]

theorem mem_literalBody {fresh : Bool} (h : c ∈ literalBody d fresh cs) :
    c = ' ' ∨ c ∈ cs := by
  induction cs generalizing fresh with
  | nil => exact absurd h List.not_mem_nil
  | cons x cs ih => grind [literalBody]

theorem isAllowed_of_mem_literalMarks (h : c ∈ literalMarks cs) : isAllowed c = true := by
  have hmarks : ∀ x ∈ ['2', '-', '+'], isAllowed x = true := List.all_eq_true.1 (by decide)
  apply hmarks
  unfold literalMarks at h
  grind

theorem isAllowed_of_mem_hexDigits {width n : Nat} (h : c ∈ hexDigits width n) :
    isAllowed c = true := by
  have hdigit : ∀ n, n < 16 → isAllowed (Nat.digitChar n).toUpper = true := by decide
  induction width generalizing n with
  | zero => exact absurd h List.not_mem_nil
  | succ width ih =>
      rcases List.mem_append.1 h with h | h
      · exact ih h
      · rw [List.mem_singleton.1 h]
        exact hdigit _ (Nat.mod_lt n (by decide))

theorem isAllowed_of_mem_doubleChar {x : Char} (h : x ∈ doubleChar c) : isAllowed x = true := by
  have hmarks : ∀ y ∈ ['x', 'u', 'U'], isAllowed y = true := List.all_eq_true.1 (by decide)
  have hletters : ∀ e ∈ escapeLetters, isAllowed e.2 = true := by decide
  have hcode : ∀ {mark : Char} {width : Nat}, mark ∈ ['x', 'u', 'U'] →
      x ∈ '\\' :: mark :: hexDigits width c.toNat → isAllowed x = true := by
    intro mark width hmark hx
    rcases List.mem_cons.1 hx with rfl | hx
    · rfl
    · rcases List.mem_cons.1 hx with rfl | hx
      · exact hmarks x hmark
      · exact isAllowed_of_mem_hexDigits hx
  unfold doubleChar at h
  by_cases hplain : (isPrintable c && !isBreak c && c ≠ '"' && c ≠ '\\') = true
  · rw [if_pos hplain, List.mem_singleton] at h
    rw [h]
    simp only [Bool.and_eq_true] at hplain
    exact isAllowed_of_isPrintable hplain.1.1.1
  · rw [if_neg hplain] at h
    cases hletter : escapeLetters.lookup c with
    | some letter =>
        rcases List.lookup_eq_some_iff.1 hletter with ⟨before, behind, hsplit, -⟩
        have hmem : (c, letter) ∈ escapeLetters := by simp [hsplit]
        simp only [hletter, List.mem_cons, List.not_mem_nil, or_false] at h
        rcases h with rfl | rfl
        · rfl
        · exact hletters _ hmem
    | none =>
        simp only [hletter] at h
        split_ifs at h
        all_goals exact hcode (by simp) h

/-- Every character of a written text is allowed, also if the text itself holds others. -/
theorem isAllowed_of_mem_scalarChars {s : String} (h : c ∈ scalarChars d s) :
    isAllowed c = true := by
  unfold scalarChars at h
  rcases styleOf_cases s with ⟨hstyle, -, hplain⟩ | ⟨hstyle, hsingle, -⟩ | hstyle |
    ⟨hstyle, hblock⟩ <;> simp only [hstyle] at h
  · simp only [plainAllowed, Bool.and_eq_true, singleAllowed_iff] at hplain
    exact isAllowed_of_isPrintable (hplain.1.1.1.1.1.1 c h)
  · rw [singleAllowed_iff] at hsingle
    rcases List.mem_cons.1 h with rfl | h
    · rfl
    · rcases mem_singleBody h with rfl | rfl | h
      · rfl
      · rfl
      · exact isAllowed_of_isPrintable (hsingle.1 c h)
  · simp only [List.cons_append, List.mem_cons, List.mem_append, List.mem_flatMap,
      List.not_mem_nil, or_false] at h
    rcases h with rfl | ⟨x, -, hx⟩ | rfl
    · rfl
    · exact isAllowed_of_mem_doubleChar hx
    · rfl
  · simp only [List.cons_append, List.mem_cons, List.mem_append] at h
    rcases h with rfl | hmark | rfl | hbody
    · rfl
    · exact isAllowed_of_mem_literalMarks hmark
    · rfl
    · rcases mem_literalBody hbody with rfl | hbody
      · rfl
      · exact isAllowed_of_isPrintable ((blockAllowed_imp hblock).2 c hbody)

theorem itemsChars_eq_flatMap (d : Nat) (ts : List Tree) :
    itemsChars d ts = ts.flatMap fun t => indent d ++ '-' :: ' ' :: itemChars d t := by
  induction ts with
  | nil => rfl
  | cons t ts ih => simp [itemsChars, ih]

theorem isAllowed_of_mem_itemsChars {ts : List Tree}
    (items : ∀ t ∈ ts, ∀ d, ∀ c ∈ itemChars d t, isAllowed c = true) (h : c ∈ itemsChars d ts) :
    isAllowed c = true := by
  rw [itemsChars_eq_flatMap, List.mem_flatMap] at h
  obtain ⟨t, ht, h⟩ := h
  simp only [List.mem_append, List.mem_cons] at h
  rcases h with h | rfl | rfl | h
  · exact isAllowed_of_mem_indent h
  · rfl
  · rfl
  · exact items t ht d c h

theorem isAllowed_of_mem_fieldsChars {fs : List (String × Tree)}
    (names : ∀ f ∈ fs, FieldName f.1)
    (values : ∀ f ∈ fs, ∀ d, ∀ c ∈ fieldChars d f.2, isAllowed c = true)
    (h : c ∈ fieldsChars d fs) : isAllowed c = true := by
  induction fs with
  | nil => exact absurd h List.not_mem_nil
  | cons f fs ih =>
      obtain ⟨k, t⟩ := f
      simp only [List.mem_cons, forall_eq_or_imp] at names values
      simp only [fieldsChars, List.append_assoc, List.cons_append, List.mem_append,
        List.mem_cons] at h
      rcases h with h | h | rfl | h | h
      · exact isAllowed_of_mem_indent h
      · exact isAllowed_of_isAlpha (names.1.letters c h)
      · rfl
      · exact values.1 d c h
      · exact ih names.2 values.2 h

/-- The first field of a record stands in place and the others on their own lines. -/
theorem mem_fieldsChars_of_mem_recordChars {fs : List (String × Tree)}
    (h : c ∈ recordChars d fs) : c ∈ fieldsChars d fs := by
  cases fs with
  | nil => exact h
  | cons f fs =>
      simp only [recordChars, fieldsChars, List.append_assoc, List.mem_append] at h ⊢
      exact .inr h

/-- The first item of a list that is an item itself stands in place. -/
theorem mem_itemsChars_of_mem_itemChars {t : Tree} {ts : List Tree}
    (h : c ∈ itemChars d (.list (t :: ts))) : c ∈ itemsChars (d + 2) (t :: ts) := by
  simp only [itemChars, itemsChars, List.append_assoc, List.mem_append] at h ⊢
  exact .inr h

/-- Every written character is allowed, behind a colon and behind a dash. -/
theorem isAllowed_of_laid {t : Tree} (h : t.Laid) :
    ∀ d, (∀ c ∈ fieldChars d t, isAllowed c = true) ∧
      ∀ c ∈ itemChars d t, isAllowed c = true := by
  intro d
  induction h generalizing d with
  | text s =>
      have htext : ∀ c ∈ endLine (scalarChars (d + 2) s), isAllowed c = true := fun c hc =>
        isAllowed_of_mem_endLine (fun _ => isAllowed_of_mem_scalarChars) hc
      exact ⟨List.forall_mem_cons.2 ⟨rfl, htext⟩, htext⟩
  | @list ts _ _ ih =>
      have hitems : ∀ d, ∀ c ∈ itemsChars d ts, isAllowed c = true := fun d c hc =>
        isAllowed_of_mem_itemsChars (fun t ht d => (ih t ht d).2) hc
      cases ts with
      | nil => exact ⟨by simp [fieldChars, isAllowed], by simp [itemChars, isAllowed]⟩
      | cons t ts =>
          exact ⟨List.forall_mem_cons.2 ⟨rfl, hitems d⟩, fun c hc =>
            hitems (d + 2) c (mem_itemsChars_of_mem_itemChars hc)⟩
  | @record fs ne_nil names _ ih =>
      have hfields : ∀ c ∈ recordChars (d + 2) fs, isAllowed c = true := fun c hc =>
        isAllowed_of_mem_fieldsChars names (fun f hf d => (ih f hf d).1)
          (mem_fieldsChars_of_mem_recordChars hc)
      cases fs with
      | nil => exact absurd rfl ne_nil
      | cons f fs =>
          exact ⟨List.forall_mem_cons.2 ⟨rfl, List.forall_mem_append.2
            ⟨fun _ => isAllowed_of_mem_indent, hfields⟩⟩, hfields⟩

/-- Every character of a written document is allowed in a text. -/
theorem isAllowed_of_mem_documentChars {t : Tree} (h : t.Laid) (hc : c ∈ documentChars t) :
    isAllowed c = true := by
  cases h with
  | text s => exact isAllowed_of_mem_endLine (fun _ => isAllowed_of_mem_scalarChars) hc
  | @list ts items flat =>
      cases ts with
      | nil => exact (isAllowed_of_laid (.list items flat) 0).2 c hc
      | cons t ts =>
          exact isAllowed_of_mem_itemsChars (fun t ht d => (isAllowed_of_laid (items t ht) d).2) hc
  | @record fs ne_nil names values =>
      cases fs with
      | nil => exact absurd rfl ne_nil
      | cons f fs =>
          exact isAllowed_of_mem_fieldsChars names
            (fun f hf d => (isAllowed_of_laid (values f hf) d).1)
            (mem_fieldsChars_of_mem_recordChars hc)

end Yaml

end OptionAtlas
