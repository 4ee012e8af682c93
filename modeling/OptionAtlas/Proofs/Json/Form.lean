import OptionAtlas.Proofs.Json.Reading

/-!
# Documents are told by their text

Both forms of JSON write a document in one way; they differ in the blanks that they put
between its parts. Quotes and brackets say where a part ends, so a document is told by its
text in front of any rest, and no two documents have the same text.

## Main definitions

* `Delimited` — what is written for a value tells the value and where it ends.
* `enclosed` — parts between brackets, with commas between them.
* `Form` — a way to write documents, with the blanks that it puts between their parts.

## Main statements

* `Form.delimited` — the documents of a form are delimited.
* `compact_inj`, `pretty_inj` — no two documents have the same text.
-/

namespace OptionAtlas.Json

open OptionAtlas.Text

variable {α β : Type}

/-! ## Texts that say where they end -/

/-- In front of any rest, what is written for `a` tells `a` from other values and says where
it ends. -/
def Delimited (write : α → List Char) (a : α) : Prop :=
  ∀ ⦃b : α⦄ ⦃rest rest' : List Char⦄, write a ++ rest = write b ++ rest' → a = b ∧ rest = rest'

/-- A string is told by what is read back from it. -/
theorem delimited_string (s : String) : Delimited string s := by
  intro t rest rest' h
  have hsymbols := congrArg (List.map Symbol.char) h
  rw [List.map_append, List.map_append, string_append, string_append, List.cons.injEq]
    at hsymbols
  have hread := congrArg readString hsymbols.2
  rw [readString_flatMap_escaped, readString_flatMap_escaped, Except.ok.injEq,
    Prod.mk.injEq] at hread
  exact ⟨hread.1, List.map_injective_iff.2 (fun _ _ => Symbol.char.inj) hread.2⟩

theorem Delimited.behind {write : α → List Char} {a : α} (h : Delimited write a)
    (front : List Char) : Delimited (fun x => front ++ write x) a := by
  intro b rest rest' heq
  simp only [List.append_assoc] at heq
  exact h (List.append_cancel_left heq)

theorem Delimited.pair {write : α → List Char} {write' : β → List Char} {a : α} {b : β}
    (ha : Delimited write a) (hb : Delimited write' b) :
    Delimited (fun p : α × β => write p.1 ++ write' p.2) (a, b) := by
  rintro ⟨a', b'⟩ rest rest' h
  simp only [List.append_assoc] at h
  obtain ⟨rfl, hbehind⟩ := ha h
  obtain ⟨rfl, hrest⟩ := hb hbehind
  exact ⟨rfl, hrest⟩

/-! ## Lists of parts -/

/-- Parts that each stand behind a comma. -/
def parts (write : α → List Char) (as : List α) : List Char := as.flatMap fun a => ',' :: write a

/-- Parts between brackets, with commas between them. The blanks of `gap` stand in front of
the closing bracket, unless there is no part. -/
def enclosed (left right : Char) (gap : List Char) (write : α → List Char) :
    List α → List Char
  | [] => [left, right]
  | a :: as => left :: write a ++ parts write as ++ gap ++ [right]

section Parts

variable {write : α → List Char} {left right : Char} {gap rest rest' : List Char}
  {as bs : List α}

/-- Behind blanks a mark is met where it stands. -/
theorem gap_append_ne {c : Char} {cs : List Char} (blank : ∀ x ∈ gap, isGap (.char x) = true)
    (hc : isGap (.char c) = false) (hcs : cs ≠ c :: rest) : gap ++ cs ≠ c :: rest := by
  cases gap with
  | nil => exact hcs
  | cons x gap =>
      intro h
      obtain ⟨rfl, _⟩ := List.cons.inj h
      rw [blank x (by simp)] at hc
      cases hc

/-- Behind each part either a comma or the closing bracket follows. -/
theorem parts_append_inj (delimited : ∀ a ∈ as, Delimited write a)
    (blank : ∀ c ∈ gap, isGap (.char c) = true) (hright : right ≠ ',')
    (h : parts write as ++ (gap ++ right :: rest) = parts write bs ++ (gap ++ right :: rest')) :
    as = bs ∧ rest = rest' := by
  have closed : ∀ r r', gap ++ right :: r ≠ ',' :: r' := fun r r' =>
    gap_append_ne blank rfl fun heq => hright (List.cons.inj heq).1
  induction as generalizing bs with
  | nil =>
      cases bs with
      | nil => exact ⟨rfl, (List.cons.inj (List.append_cancel_left h)).2⟩
      | cons b bs => exact absurd h (closed _ _)
  | cons a as ih =>
      cases bs with
      | nil => exact absurd h.symm (closed _ _)
      | cons b bs =>
          obtain ⟨ha, has⟩ := List.forall_mem_cons.1 delimited
          simp only [parts, List.flatMap_cons, List.cons_append, List.append_assoc,
            List.cons.injEq, true_and] at h
          obtain ⟨rfl, hbehind⟩ := ha h
          obtain ⟨rfl, hrest⟩ := ih has hbehind
          exact ⟨rfl, hrest⟩

theorem delimited_enclosed (delimited : ∀ a ∈ as, Delimited write a)
    (blank : ∀ c ∈ gap, isGap (.char c) = true) (hright : right ≠ ',')
    (apart : ∀ a r r', write a ++ r ≠ right :: r') :
    Delimited (enclosed left right gap write) as := by
  intro bs rest rest' h
  cases as with
  | nil =>
      cases bs with
      | nil => exact ⟨rfl, List.append_cancel_left h⟩
      | cons b bs =>
          simp only [enclosed, List.cons_append, List.append_assoc, List.cons.injEq, true_and]
            at h
          exact absurd h.symm (apart b _ _)
  | cons a as =>
      cases bs with
      | nil =>
          simp only [enclosed, List.cons_append, List.append_assoc, List.cons.injEq, true_and]
            at h
          exact absurd h (apart a _ _)
      | cons b bs =>
          obtain ⟨ha, has⟩ := List.forall_mem_cons.1 delimited
          simp only [enclosed, List.cons_append, List.append_assoc, List.nil_append,
            List.cons.injEq, true_and] at h
          obtain ⟨rfl, hbehind⟩ := ha h
          obtain ⟨rfl, hrest⟩ := parts_append_inj has blank hright hbehind
          exact ⟨rfl, hrest⟩

end Parts

/-! ## Forms -/

/-- A way to write documents: the blanks of `gap d` stand in front of each part at depth `d`
and of the bracket that closes a document at depth `d`, and `pad` stands behind colons. -/
structure Form (gap : Nat → List Char) (pad : List Char) (write : Nat → Tree → List Char) :
    Prop where
  blank : ∀ d, ∀ c ∈ gap d, isGap (.char c) = true
  text : ∀ d s, write d (.text s) = string s
  list : ∀ d ts, write d (.list ts) =
    enclosed '[' ']' (gap d) (fun t => gap (d + 1) ++ write (d + 1) t) ts
  record : ∀ d fs, write d (.record fs) =
    enclosed '{' '}' (gap d)
      (fun f => gap (d + 1) ++ (string f.1 ++ (':' :: pad ++ write (d + 1) f.2))) fs

/-- The mark that a document starts with. -/
def opening : Tree → Char
  | .text _ => '"'
  | .list _ => '['
  | .record _ => '{'

theorem opening_ne_close (t : Tree) : opening t ≠ ']' := by
  cases t <;> simp [opening]

namespace Form

variable {gap : Nat → List Char} {pad rest rest' : List Char} {write : Nat → Tree → List Char}
  {d : Nat} {t t' : Tree}

section

variable (form : Form gap pad write)
include form

theorem exists_write_eq_cons (d : Nat) (t : Tree) : ∃ cs, write d t = opening t :: cs := by
  cases t with
  | text s => exact ⟨_, form.text d s⟩
  | list ts =>
      rw [form.list]
      cases ts <;> exact ⟨_, rfl⟩
  | record fs =>
      rw [form.record]
      cases fs <;> exact ⟨_, rfl⟩

theorem opening_eq (h : write d t ++ rest = write d t' ++ rest') : opening t = opening t' := by
  obtain ⟨cs, hcs⟩ := form.exists_write_eq_cons d t
  obtain ⟨cs', hcs'⟩ := form.exists_write_eq_cons d t'
  rw [hcs, hcs'] at h
  exact (List.cons.inj h).1

theorem item_append_ne (d : Nat) (t : Tree) :
    (gap d ++ write d t) ++ rest ≠ ']' :: rest' := by
  obtain ⟨cs, hcs⟩ := form.exists_write_eq_cons d t
  rw [List.append_assoc, hcs]
  exact gap_append_ne (form.blank d) rfl fun h => opening_ne_close t (List.cons.inj h).1

theorem field_append_ne (d : Nat) (f : String × Tree) :
    (gap d ++ (string f.1 ++ (':' :: pad ++ write d f.2))) ++ rest ≠ '}' :: rest' := by
  rw [List.append_assoc]
  exact gap_append_ne (form.blank d) rfl (by simp [string])

/-- **The documents of a form are delimited.**  The first mark of a text says what kind of
document it is, and from there on each part says where it ends. -/
theorem delimited (t : Tree) (d : Nat) : Delimited (write d) t := by
  -- The other document is any one; the first mark leaves it only the kind of `t`.
  induction t using Tree.induction generalizing d with
  | text s =>
      intro t' rest rest' h
      have hopening := form.opening_eq h
      cases t' with
      | text s' =>
          rw [form.text, form.text] at h
          obtain ⟨rfl, hrest⟩ := delimited_string s h
          exact ⟨rfl, hrest⟩
      | list ts' => simp [opening] at hopening
      | record fs' => simp [opening] at hopening
  | list ts ih =>
      intro t' rest rest' h
      have hopening := form.opening_eq h
      cases t' with
      | text s' => simp [opening] at hopening
      | list ts' =>
          rw [form.list, form.list] at h
          have items : ∀ t ∈ ts, Delimited (fun t => gap (d + 1) ++ write (d + 1) t) t :=
            fun t ht => (ih t ht (d + 1)).behind _
          obtain ⟨rfl, hrest⟩ := delimited_enclosed items (form.blank d) (by decide)
            (fun t _ _ => form.item_append_ne (d + 1) t) h
          exact ⟨rfl, hrest⟩
      | record fs' => simp [opening] at hopening
  | record fs ih =>
      intro t' rest rest' h
      have hopening := form.opening_eq h
      cases t' with
      | text s' => simp [opening] at hopening
      | list ts' => simp [opening] at hopening
      | record fs' =>
          rw [form.record, form.record] at h
          have fields : ∀ f ∈ fs, Delimited (fun f : String × Tree =>
              gap (d + 1) ++ (string f.1 ++ (':' :: pad ++ write (d + 1) f.2))) f :=
            fun f hf => ((delimited_string f.1).pair ((ih f hf (d + 1)).behind _)).behind _
          obtain ⟨rfl, hrest⟩ := delimited_enclosed fields (form.blank d) (by decide)
            (fun f _ _ => form.field_append_ne (d + 1) f) h
          exact ⟨rfl, hrest⟩

theorem write_inj : write d t = write d t' ↔ t = t' := by
  constructor
  · intro h
    exact (form.delimited t d (congrArg (· ++ []) h)).1
  · exact congrArg (write d)

end

end Form

/-! ## The compact form -/

theorem compactItems_eq_parts (ts : List Tree) : compactItems ts = parts compactChars ts := by
  induction ts with
  | nil => rfl
  | cons t ts ih => simp [compactItems, parts, ih]

theorem compactFields_eq_parts (fs : List (String × Tree)) :
    compactFields fs = parts (fun f => string f.1 ++ ':' :: compactChars f.2) fs := by
  induction fs with
  | nil => rfl
  | cons f fs ih => simp [compactFields, parts, ih]

theorem form_compactChars : Form (fun _ => []) [] fun _ => compactChars where
  blank := by simp
  text _ _ := rfl
  list _ ts := by
    cases ts with
    | nil => rfl
    | cons t ts => simp [compactChars, enclosed, compactItems_eq_parts]
  record _ fs := by
    cases fs with
    | nil => rfl
    | cons f fs => simp [compactChars, enclosed, compactFields_eq_parts]

theorem compact_inj {t t' : Tree} : compact t = compact t' ↔ t = t' := by
  rw [compact, compact, String.ofList_inj]
  exact form_compactChars.write_inj (d := 0)

/-! ## The indented form -/

theorem prettyFields_eq_parts (d : Nat) (fs : List (String × Tree)) :
    prettyFields d fs =
      parts (fun f => newline d ++ (string f.1 ++ ':' :: ' ' :: prettyChars d f.2)) fs := by
  induction fs with
  | nil => rfl
  | cons f fs ih => simp [prettyFields, parts, ih]

theorem prettyItems_eq_parts (d : Nat) (ts : List Tree) :
    prettyItems d ts = parts (fun t => newline d ++ prettyChars d t) ts := by
  induction ts with
  | nil => rfl
  | cons t ts ih => simp [prettyItems, parts, ih]

theorem form_prettyChars : Form newline [' '] prettyChars where
  blank _ _ := isGap_of_mem_newline
  text _ _ := rfl
  list _ ts := by
    cases ts with
    | nil => rfl
    | cons t ts => simp [prettyChars, enclosed, prettyItems_eq_parts]
  record _ fs := by
    cases fs with
    | nil => rfl
    | cons f fs => simp [prettyChars, enclosed, prettyFields_eq_parts]

theorem pretty_inj {t t' : Tree} : pretty t = pretty t' ↔ t = t' := by
  rw [pretty, pretty, String.ofList_inj]
  exact form_prettyChars.write_inj

end OptionAtlas.Json
