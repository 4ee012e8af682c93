import OptionAtlas.Proofs.Yaml.Style
import OptionAtlas.Yaml.Scalar.Plain

/-!
# Plain scalars are read as they are written

A text that is written plainly holds no breaks and no marks, so it is read up to the end
of its line. The gap behind it reaches over that end to the start of the next token,
which stands too far left to go on with the scalar.

## Main statements

* `Plain.scan_plainText` — a plain text is read from its line.
* `Plain.scan_word` — a word is read up to a colon.
-/

namespace OptionAtlas.Yaml.Plain

variable {least : Nat} {c : Char} {cs : List Char} {p : Place} {gap : Gap}

/-! ## Single characters -/

theorem scanFrom_space (cs : List Char) (p : Place) (gap : Gap) :
    scanFrom false least (' ' :: cs) p gap =
      scanFrom false least cs (p.right [' ']) (gap.addBlank ' ') := by
  simp [scanFrom, isBreak, isBlank]

theorem scanFrom_newline (cs : List Char) (p : Place) (gap : Gap) :
    scanFrom false least ('\n' :: cs) p gap =
      scanFrom false least cs (p.down ['\n']) (gap.addBreak '\n') := by
  simp [scanFrom, isBreak]

/-- In front of what is no gap the scalar ends behind a gap, or at a colon before a gap,
or goes on. -/
theorem scanFrom_of_not_gap (h : isGap c = false) (cs : List Char) (p : Place) (gap : Gap) :
    scanFrom false least (c :: cs) p gap =
      if gap ≠ .empty ∧ endsLine false least p c cs = true then some ⟨[], ⟨c :: cs, p⟩, gap.broken⟩
      else if c = ':' ∧ gapAhead cs = true then some ⟨[], ⟨c :: cs, p⟩, gap.broken⟩
      else (scanFrom false least cs (p.right [c]) .empty).map (·.prepend (gap.text ++ [c])) := by
  simp only [isGap, Bool.or_eq_false_iff] at h
  have hreturn : ∀ ds, c = '\r' → cs = '\n' :: ds → False :=
    fun _ hc _ => ne_return_of_not_isBreak h.2 hc
  rw [scanFrom]
  · simp [h, isStrayColon, endsWord]
  · exact hreturn

/-! ## The gap behind a line -/

theorem scanFrom_indent (n : Nat) (cs : List Char) (p : Place) (first : Option Char)
    (more : List Char) :
    scanFrom false least (indent n ++ cs) p (.across first more) =
      scanFrom false least cs (p.right (indent n)) (.across first more) :=
  eq_right_indent (f := fun cs p => scanFrom false least cs p (.across first more))
    (fun cs p _ => scanFrom_space cs p _) n cs p (Nat.le_refl _)

/-- A scalar ends with its line if the next one starts left of the least column. -/
theorem scanFrom_newline_indent {n : Nat} (hn : n < least)
    (hopens : ∀ x ∈ cs.head?, opensLine x = true) (p : Place) (bs : List Char) :
    scanFrom false least ('\n' :: (indent n ++ cs)) p (.within bs) =
      some ⟨[], ⟨cs, (p.down ['\n']).right (indent n)⟩, true⟩ := by
  rw [scanFrom_newline, Gap.addBreak, scanFrom_indent]
  cases cs with
  | nil => simp [scanFrom, Gap.broken]
  | cons x xs =>
      rw [scanFrom_of_not_gap (isGap_of_opensLine (hopens x rfl)), if_pos]
      · rfl
      · simp [Gap.empty, endsLine, indent, hn]

/-! ## Lines -/

/-- Right of the least column only a comment behind a gap ends a scalar. -/
theorem endsLine_eq_false (hleast : 0 < least) (hp : least ≤ p.column) (hc : c ≠ '#')
    (cs : List Char) : endsLine false least p c cs = false := by
  have hleft : ¬ p.column < least := by omega
  have hzero : p.column ≠ 0 := by omega
  simp [endsLine, hleft, hzero, hc]

/-- Behind the character `q` and the blanks `bs` the rest of a line is read. -/
theorem scanFrom_line {n : Nat} {rest : List Char} (hn : n < least)
    (hopens : ∀ x ∈ rest.head?, opensLine x = true) {q : Char} {bs : List Char}
    (hprint : ∀ c ∈ cs, isPrintable c = true) (hbreak : ∀ c ∈ cs, isBreak c = false)
    (hmark : hasInnerMark (q :: cs) = false) (hq : bs ≠ [] → isGap q = true)
    (hbs : ∀ b ∈ bs, b = ' ') (hlast : (bs ++ cs).getLast? ≠ some ' ') (hp : least ≤ p.column) :
    scanFrom false least (cs ++ '\n' :: (indent n ++ rest)) p (.within bs) =
      some ⟨bs ++ cs, ⟨rest, ((p.right cs).down ['\n']).right (indent n)⟩, true⟩ := by
  induction cs generalizing p q bs with
  | nil =>
      have hnil : bs = [] := by
        rcases List.eq_nil_or_concat bs with h | ⟨front, b, h⟩
        · exact h
        · exact absurd (hbs b (by simp [h])) (by simpa [h] using hlast)
      rw [List.nil_append, scanFrom_newline_indent hn hopens]
      simp [hnil]
  | cons c cs ih =>
      simp only [List.mem_cons, forall_eq_or_imp] at hprint hbreak
      rw [hasInnerMark_cons_cons_eq_false] at hmark
      rcases hmark with ⟨hcomment, hcolon, hmark⟩
      have hp' : least ≤ (p.right [c]).column := Nat.le_trans hp (Nat.le_add_right ..)
      by_cases hc : c = ' '
      · -- A blank is kept until it is known what follows it.
        subst hc
        rw [List.cons_append, scanFrom_space, Gap.addBlank,
          ih hprint.2 hbreak.2 hmark (fun _ => rfl) (by simpa [or_imp, forall_and] using hbs)
            (by simpa using hlast) hp']
        simp
      · have hgap := isGap_eq_false hprint.1 hbreak.1 hc
        have hends : ¬ (Gap.within bs ≠ .empty ∧
            endsLine false least p c (cs ++ '\n' :: (indent n ++ rest)) = true) := by
          rintro ⟨hne, hends⟩
          have hsharp : c ≠ '#' := fun h => hcomment ⟨hq (by simpa [Gap.empty] using hne), h⟩
          rw [endsLine_eq_false (Nat.zero_lt_of_lt hn) hp hsharp] at hends
          cases hends
        have hahead : ¬ (c = ':' ∧ gapAhead (cs ++ '\n' :: (indent n ++ rest)) = true) := by
          rwa [gapAhead_append_newline]
        have hlast' : ([] ++ cs).getLast? ≠ some ' ' := by
          refine getLast?_ne_of_cons (c := c) fun hc => hlast ?_
          rw [List.nil_append] at hc
          rw [List.getLast?_append, hc]
          rfl
        rw [List.cons_append, scanFrom_of_not_gap hgap, if_neg hends, if_neg hahead,
          show Gap.empty = .within [] from rfl,
          ih hprint.2 hbreak.2 hmark (by simp) (by simp) hlast' hp']
        simp [Scanned.prepend, Gap.text]

/-- A plain text is read from its line if the next one starts left of the least column. -/
theorem scan_plainText (least : Nat) {n : Nat} {rest : List Char} (hn : n < least)
    (hopens : ∀ x ∈ rest.head?, opensLine x = true) (h : PlainText c cs)
    (hp : least ≤ p.column) :
    scan false least ⟨c :: cs ++ '\n' :: (indent n ++ rest), p⟩ =
      some ⟨c :: cs, ⟨rest, ((p.right (c :: cs)).down ['\n']).right (indent n)⟩, true⟩ := by
  have hcolon : ¬ (c = ':' ∧ gapAhead (cs ++ '\n' :: (indent n ++ rest)) = true) := by
    rintro ⟨hc, hahead⟩
    rw [gapAhead_append_newline, h.start (.inr (.inr hc))] at hahead
    cases hahead
  rw [scan, List.cons_append, scanFrom_of_not_gap h.not_gap, if_neg (by simp), if_neg hcolon,
    show Gap.empty = .within [] from rfl,
    scanFrom_line hn hopens (fun x hx => h.printable x (List.mem_cons_of_mem _ hx))
      (fun x hx => h.unbroken x (List.mem_cons_of_mem _ hx)) h.inner (by simp) (by simp)
      (getLast?_ne_of_cons h.last) (Nat.le_trans hp (Nat.le_add_right ..))]
  simp [Scanned.prepend, Gap.text]

/-- A word is read up to the colon behind it. -/
theorem scan_word (hcs : ∀ c ∈ cs, c.isAlpha = true) {rest : List Char}
    (hrest : gapAhead rest = true) (p : Place) :
    scan false least ⟨cs ++ ':' :: rest, p⟩ = some ⟨cs, ⟨':' :: rest, p.right cs⟩, false⟩ := by
  unfold scan
  induction cs generalizing p with
  | nil =>
      rw [List.nil_append, scanFrom_of_not_gap (by decide), if_neg (by simp),
        if_pos ⟨rfl, hrest⟩]
      rfl
  | cons c cs ih =>
      simp only [List.mem_cons, forall_eq_or_imp] at hcs
      have hcolon : c ≠ ':' := ne_of_isAlpha hcs.1 (by decide)
      rw [List.cons_append, scanFrom_of_not_gap (isGap_of_isAlpha hcs.1), if_neg (by simp),
        if_neg (by simp [hcolon])]
      simp only [ih hcs.2]
      simp [Scanned.prepend]

end OptionAtlas.Yaml.Plain
