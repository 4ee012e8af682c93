import Mathlib.Data.List.Basic
import OptionAtlas.Proofs.Json.Text
import OptionAtlas.Proofs.Source

/-!
# JSON is read as it is written

The indented form of a document can be read from any place of a text: its brackets and
quotes say where it ends, so nothing is assumed about what follows. The laws of sources
hold for it, and a whole text is read as the document it was written for.

## Main definitions

* `Json.ReadsAt` — a reader reads a value from a written document.

## Main statements

* `LawfulSource Json.Reader` — lists, records and texts are read as they are written.
* `Json.readDocument_pretty` — a whole text.
-/

namespace OptionAtlas.Json

open OptionAtlas.Text

/-- Wherever the document is written, behind blanks and in front of any text, the reader
reads this value and stops behind the document. -/
def ReadsAt {α : Type} (r : Reader α) (t : Tree) (a : α) : Prop :=
  ∀ (gap : List Char) (d : Nat) (rest : List Symbol), (∀ c ∈ gap, isGap (.char c) = true) →
    r (gap.map .char ++ ((prettyChars d t).map .char ++ rest)) = .ok (a, rest)

/-! ## Blanks -/

theorem skipGap_gap_append {gap : List Char} (h : ∀ c ∈ gap, isGap (.char c) = true)
    (s : List Symbol) : skipGap (gap.map .char ++ s) = skipGap s := by
  refine List.dropWhile_append_of_pos ?_
  intro x hx
  obtain ⟨c, hc, rfl⟩ := List.mem_map.1 hx
  exact h c hc

theorem skipGap_cons_of_not_gap {x : Symbol} (h : isGap x = false) (s : List Symbol) :
    skipGap (x :: s) = x :: s :=
  List.dropWhile_cons_of_neg (by simp [h])

theorem isGap_of_mem_newline {d : Nat} {c : Char} (h : c ∈ newline d) :
    isGap (.char c) = true := by
  rcases List.mem_cons.1 h with rfl | h
  · rfl
  · obtain rfl := List.eq_of_mem_replicate h
    rfl

theorem skipGap_newline_append (d : Nat) (s : List Symbol) :
    skipGap ((newline d).map .char ++ s) = skipGap s :=
  skipGap_gap_append (fun _ => isGap_of_mem_newline) s

/-- The marks that a written document starts with. -/
def opens (c : Char) : Prop := c = '"' ∨ c = '[' ∨ c = '{'

theorem exists_prettyChars_eq_cons (d : Nat) (t : Tree) :
    ∃ c cs, prettyChars d t = c :: cs ∧ opens c := by
  cases t with
  | text s => exact ⟨'"', _, rfl, .inl rfl⟩
  | list ts =>
      cases ts with
      | nil => exact ⟨'[', _, rfl, .inr (.inl rfl)⟩
      | cons t ts =>
          rw [prettyChars]
          exact ⟨'[', _, rfl, .inr (.inl rfl)⟩
  | record fs =>
      rcases fs with _ | ⟨⟨k, t⟩, fs⟩
      · exact ⟨'{', _, rfl, .inr (.inr rfl)⟩
      · rw [prettyChars]
        exact ⟨'{', _, rfl, .inr (.inr rfl)⟩

theorem opens.not_gap {c : Char} (h : opens c) : isGap (.char c) = false := by
  rcases h with rfl | rfl | rfl <;> rfl

theorem skipGap_prettyChars (d : Nat) (t : Tree) (rest : List Symbol) :
    skipGap ((prettyChars d t).map .char ++ rest) = (prettyChars d t).map .char ++ rest := by
  obtain ⟨c, cs, h, hopens⟩ := exists_prettyChars_eq_cons d t
  rw [h, List.map_cons, List.cons_append]
  exact skipGap_cons_of_not_gap hopens.not_gap _

/-! ## Texts -/

theorem readsAt_map {α β : Type} {r : Reader α} {t : Tree} {a : α} (f : α → β)
    (h : ReadsAt r t a) : ReadsAt (r >>= fun x => pure (f x)) t (f a) := by
  intro gap d rest hgap
  simp only [bind, StateT.bind, h gap d rest hgap, Except.bind]
  rfl

theorem string_append (s : String) (rest : List Symbol) :
    (string s).map .char ++ rest =
      .char '"' :: ((s.toList.flatMap escaped).map .char ++ .char '"' :: rest) := by
  simp [string]

theorem readsAt_text (s : String) : ReadsAt text (.text s) s := by
  intro gap d rest hgap
  rw [text, skipGap_gap_append hgap, skipGap_prettyChars, prettyChars, string_append]
  exact readString_flatMap_escaped s rest

theorem readsAt_optionalText (s : String) : ReadsAt optionalText (.text s) (some s) := by
  intro gap d rest hgap
  have hread := readsAt_map some (readsAt_text s) gap d rest hgap
  rw [optionalText, skipGap_gap_append hgap, skipGap_prettyChars]
  simp only [prettyChars, string_append] at hread ⊢
  exact hread

/-! ## Lists -/

/-- In front of a value the next item is found, the first one or one behind a comma. -/
theorem nextItem_first (d d' : Nat) (t : Tree) (rest : List Symbol) :
    nextItem true ((newline d).map .char ++ ((prettyChars d' t).map .char ++ rest)) =
      .ok (some ((prettyChars d' t).map .char ++ rest)) := by
  unfold nextItem
  rw [skipGap_newline_append, skipGap_prettyChars]
  obtain ⟨c, cs, h, hopens⟩ := exists_prettyChars_eq_cons d' t
  rw [h]
  rcases hopens with rfl | rfl | rfl <;> rfl

theorem nextItem_comma (d d' : Nat) (t : Tree) (rest : List Symbol) :
    nextItem false (.char ',' :: ((newline d).map .char ++
        ((prettyChars d' t).map .char ++ rest))) =
      .ok (some ((prettyChars d' t).map .char ++ rest)) := by
  unfold nextItem
  rw [skipGap_cons_of_not_gap rfl]
  simp only [skipGap_newline_append, skipGap_prettyChars]
  obtain ⟨c, cs, h, hopens⟩ := exists_prettyChars_eq_cons d' t
  rw [h]
  rcases hopens with rfl | rfl | rfl <;> rfl

theorem nextItem_close (first : Bool) (d : Nat) (rest : List Symbol) :
    nextItem first ((newline d).map .char ++ .char ']' :: rest) = .ok none := by
  unfold nextItem
  rw [skipGap_newline_append, skipGap_cons_of_not_gap rfl]
  cases first <;> rfl

theorem closeList_newline (d : Nat) (rest : List Symbol) :
    closeList ((newline d).map .char ++ .char ']' :: rest) = .ok rest := by
  unfold closeList
  rw [skipGap_newline_append, skipGap_cons_of_not_gap rfl]
  rfl

section Lists

variable {α : Type} {r : Reader α} {write : α → Tree}

theorem itemLoop_of_nextItem {s s' s'' : List Symbol} {a : α} {first : Bool}
    (hnext : nextItem first s = .ok (some s')) (hitem : r s' = .ok (a, s'')) (fuel : Nat) :
    itemLoop r (fuel + 1) first s =
      (itemLoop r fuel false s'').map fun p => (a :: p.1, p.2) := by
  simp only [itemLoop, hnext, hitem, bind, Except.bind]
  cases itemLoop r fuel false s'' <;> rfl

theorem length_le_length_prettyItems (d : Nat) (ts : List Tree) :
    ts.length ≤ (prettyItems d ts).length := by
  induction ts with
  | nil => simp
  | cons t ts ih =>
      simp only [prettyItems, List.length_append, List.length_cons]
      omega

/-- The items behind the first one, up to the closing bracket. -/
theorem itemLoop_prettyItems {as : List α} (h : ∀ a ∈ as, ReadsAt r (write a) a) (d d' : Nat)
    (rest : List Symbol) {fuel : Nat} (hfuel : as.length < fuel) :
    itemLoop r fuel false ((prettyItems d (as.map write)).map .char ++
        ((newline d').map .char ++ .char ']' :: rest)) =
      .ok (as, (newline d').map .char ++ .char ']' :: rest) := by
  induction as generalizing fuel with
  | nil =>
      obtain ⟨fuel, rfl⟩ : ∃ n, fuel = n + 1 := ⟨fuel - 1, by omega⟩
      simp only [List.map_nil, prettyItems, List.nil_append, itemLoop, nextItem_close]
      rfl
  | cons a as ih =>
      obtain ⟨fuel, rfl⟩ : ∃ n, fuel = n + 1 := ⟨fuel - 1, by omega⟩
      have hfuel' : as.length < fuel := by simpa using hfuel
      have hrest := ih (fun b hb => h b (by simp [hb])) hfuel'
      have hitem := h a (by simp) [] d ((prettyItems d (as.map write)).map .char ++
        ((newline d').map .char ++ .char ']' :: rest)) (by simp)
      simp only [List.map_cons, prettyItems, List.map_append, List.append_assoc,
        List.cons_append]
      rw [itemLoop_of_nextItem (nextItem_comma d d (write a) _) hitem, hrest]
      rfl

theorem readsAt_items {as : List α} (h : ∀ a ∈ as, ReadsAt r (write a) a) :
    ReadsAt (items r) (.list (as.map write)) as := by
  intro gap d rest hgap
  rw [items, skipGap_gap_append hgap, skipGap_prettyChars]
  cases as with
  | nil => rfl
  | cons a as =>
      have hitem := h a (by simp) [] (d + 1) ((prettyItems (d + 1) (as.map write)).map .char ++
        ((newline d).map .char ++ .char ']' :: rest)) (by simp)
      have hlength := length_le_length_prettyItems (d + 1) (as.map write)
      rw [List.length_map] at hlength
      simp only [List.map_cons, prettyChars, List.map_append, List.append_assoc,
        List.cons_append, List.map_nil, List.nil_append]
      rw [itemLoop_of_nextItem (nextItem_first (d + 1) (d + 1) (write a) _) hitem,
        itemLoop_prettyItems (fun b hb => h b (by simp [hb]))]
      · simp only [Except.map, bind, Except.bind, closeList_newline]
        rfl
      · simp only [List.length_append, List.length_map, List.length_cons]
        omega

end Lists

/-! ## Records -/

section Records

variable {α : Type} {fields : List (Field Reader α)}

theorem nextField_first (d : Nat) (name : String) (rest : List Symbol) :
    nextField true ((newline d).map .char ++ ((string name).map .char ++ rest)) =
      .ok (some (name, rest)) := by
  unfold nextField
  rw [skipGap_newline_append, string_append, skipGap_cons_of_not_gap rfl]
  simp only [readString_flatMap_escaped]
  rfl

theorem nextField_comma (d : Nat) (name : String) (rest : List Symbol) :
    nextField false (.char ',' :: ((newline d).map .char ++ ((string name).map .char ++ rest))) =
      .ok (some (name, rest)) := by
  unfold nextField
  rw [skipGap_cons_of_not_gap rfl]
  simp only [skipGap_newline_append, string_append]
  rw [skipGap_cons_of_not_gap rfl]
  simp only [readString_flatMap_escaped]
  rfl

theorem nextField_close (first : Bool) (d : Nat) (rest : List Symbol) :
    nextField first ((newline d).map .char ++ .char '}' :: rest) = .ok none := by
  unfold nextField
  rw [skipGap_newline_append, skipGap_cons_of_not_gap rfl]
  cases first <;> rfl

theorem closeRecord_newline (d : Nat) (rest : List Symbol) :
    closeRecord ((newline d).map .char ++ .char '}' :: rest) = .ok rest := by
  unfold closeRecord
  rw [skipGap_newline_append, skipGap_cons_of_not_gap rfl]
  rfl

/-- A field that belongs to the record and comes for the first time is read. -/
theorem fieldLoop_of_nextField (seen : List String) (rest : List Symbol) {s : List Symbol}
    {a b : α} {name : String} {t : Tree} {f : Field Reader α} {d : Nat}
    (hnext : nextField seen.isEmpty s =
      .ok (some (name, .char ':' :: .char ' ' :: ((prettyChars d t).map .char ++ rest))))
    (known : fields.find? (·.name == name) = some f) (fresh : name ∉ seen)
    (value : ReadsAt (f.read a) t b) (fuel : Nat) :
    fieldLoop fields (fuel + 1) seen a s = fieldLoop fields fuel (name :: seen) b rest := by
  have hread := value [' '] d rest (by simp [isGap])
  have hcolon : colon (.char ':' :: .char ' ' :: ((prettyChars d t).map .char ++ rest)) =
      .ok (.char ' ' :: ((prettyChars d t).map .char ++ rest)) := by
    unfold colon
    rw [skipGap_cons_of_not_gap rfl]
    rfl
  simp only [List.map_cons, List.map_nil, List.cons_append, List.nil_append] at hread
  simp only [fieldLoop, hnext, known, if_neg fresh, hcolon, hread, bind, Except.bind]

theorem length_le_length_prettyFields (d : Nat) (fs : List (String × Tree)) :
    fs.length ≤ (prettyFields d fs).length := by
  induction fs with
  | nil => simp
  | cons f fs ih =>
      obtain ⟨k, t⟩ := f
      simp only [prettyFields, List.length_append, List.length_cons]
      omega

/-- The fields behind the first one, up to the closing brace. -/
theorem fieldLoop_prettyFields {fs : List (String × Tree)} {a b : α} {seen : List String}
    (h : FieldsRead ReadsAt fields a fs b) (hseen : seen ≠ [])
    (fresh : (fs.map Prod.fst).Disjoint seen) (nodup : (fs.map Prod.fst).Nodup)
    (d d' : Nat) (rest : List Symbol) {fuel : Nat} (hfuel : fs.length < fuel) :
    fieldLoop fields fuel seen a ((prettyFields d fs).map .char ++
        ((newline d').map .char ++ .char '}' :: rest)) =
      .ok (b, (fs.map Prod.fst).reverse ++ seen, (newline d').map .char ++ .char '}' :: rest) := by
  induction h generalizing seen fuel with
  | nil a =>
      obtain ⟨fuel, rfl⟩ : ∃ n, fuel = n + 1 := ⟨fuel - 1, by omega⟩
      simp only [prettyFields, List.map_nil, List.nil_append, fieldLoop, nextField_close]
      rfl
  | @cons a b c name t fs f known value _ ih =>
      obtain ⟨fuel, rfl⟩ : ∃ n, fuel = n + 1 := ⟨fuel - 1, by omega⟩
      have hfuel' : fs.length < fuel := by simpa using hfuel
      rw [List.map_cons, List.nodup_cons] at nodup
      rw [List.map_cons, List.disjoint_cons_left] at fresh
      have hfresh : (fs.map Prod.fst).Disjoint (name :: seen) :=
        List.disjoint_cons_right.2 ⟨nodup.1, fresh.2⟩
      have hempty : seen.isEmpty = false := by simpa using hseen
      simp only [prettyFields, List.map_append, List.map_cons, List.append_assoc,
        List.cons_append]
      rw [fieldLoop_of_nextField seen _ (d := d) (by rw [hempty]; exact nextField_comma d name _)
        known fresh.1 value, ih (by simp) hfresh nodup.2 hfuel']
      simp

theorem readsAt_record {title : String} {empty a : α} {fs : List (String × Tree)}
    (h : FieldsRead ReadsAt fields empty fs a) (nodup : (fs.map Prod.fst).Nodup)
    (required : ∀ f ∈ fields, f.required = true → f.name ∈ fs.map Prod.fst) :
    ReadsAt (record title empty fields) (.record fs) a := by
  intro gap d rest hgap
  rw [record, skipGap_gap_append hgap, skipGap_prettyChars]
  cases h with
  | nil =>
      have hnone : firstMissing? [] fields = none := firstMissing?_eq_none required
      simp only [prettyChars, List.map_cons, List.map_nil, List.cons_append, List.nil_append,
        fieldLoop, nextField, skipGap_cons_of_not_gap (x := .char '}') rfl, List.isEmpty_nil]
      simp only [bind, Except.bind, pure, Except.pure, hnone, closeRecord,
        skipGap_cons_of_not_gap (x := .char '}') rfl]
  | @cons _ b _ name t fs f known value tail =>
      rw [List.map_cons, List.nodup_cons] at nodup
      have hnone : firstMissing? ((fs.map Prod.fst).reverse ++ [name]) fields = none := by
        refine firstMissing?_eq_none fun f hf hrequired => ?_
        simpa [or_comm] using required f hf hrequired
      have hfresh : (fs.map Prod.fst).Disjoint [name] := by simpa using nodup.1
      have hlength := length_le_length_prettyFields (d + 1) fs
      simp only [prettyChars, List.map_append, List.map_cons, List.append_assoc,
        List.cons_append, List.map_nil, List.nil_append]
      have hfirst := fieldLoop_of_nextField [] ((prettyFields (d + 1) fs).map .char ++
        ((newline d).map .char ++ .char '}' :: rest)) (d := d + 1)
        (nextField_first (d + 1) name _) known (by simp) value
      rw [hfirst, fieldLoop_prettyFields tail (by simp) hfresh nodup.2]
      · simp only [bind, Except.bind, pure, Except.pure, hnone, closeRecord_newline]
      · simp only [List.length_append, List.length_map, List.length_cons]
        omega

end Records

/-! ## Documents -/

instance : LawfulSource Reader where
  Reads := ReadsAt
  reads_map := readsAt_map
  reads_text := readsAt_text
  reads_optionalText := readsAt_optionalText
  reads_items := readsAt_items
  reads_record := readsAt_record

/-- A whole text is read as the document it was written for, with or without blanks behind
the document. -/
theorem readDocument_pretty_append {α : Type} {r : Reader α} {t : Tree} {a : α} {gap : String}
    (hgap : ∀ c ∈ gap.toList, isGap (.char c) = true) (h : LawfulSource.Reads r t a) :
    readDocument r (Symbol.ofString (pretty t ++ gap)) = .ok a := by
  have hread : r ((prettyChars 0 t).map .char ++ gap.toList.map .char) =
      .ok (a, gap.toList.map .char) := by
    simpa using h [] 0 (gap.toList.map .char) (by simp)
  have hskip : skipGap (gap.toList.map .char) = [] := by
    rw [← List.append_nil (gap.toList.map Symbol.char), skipGap_gap_append hgap]
    rfl
  rw [Symbol.ofString, pretty, String.toList_append, String.toList_ofList, List.map_append]
  simp only [readDocument, hread, bind, Except.bind, hskip]
  rfl

theorem readDocument_pretty {α : Type} {r : Reader α} {t : Tree} {a : α}
    (h : LawfulSource.Reads r t a) : readDocument r (Symbol.ofString (pretty t)) = .ok a := by
  have hgap : ∀ c ∈ "".toList, isGap (.char c) = true := by simp
  simpa using readDocument_pretty_append hgap h

end OptionAtlas.Json
