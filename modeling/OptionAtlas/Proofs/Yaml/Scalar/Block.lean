import Mathlib.Data.List.DropRight
import Mathlib.Tactic.SplitIfs
import OptionAtlas.Proofs.Yaml.Style
import OptionAtlas.Yaml.Scalar.Block

/-!
# Literal blocks are read as they are written

A block holds the lines of a text, each behind the same indentation. Its header says how
deep they are if the text starts with a gap, and what happens to the breaks at the end.
A text consists of lines up to a character that is no break, and of breaks behind it;
the mark in the header is the one that keeps just these.

## Main definitions

* `Block.Passes` — the lines of a text are read up to its last character.
* `Block.chompingOf` — what the header says about the breaks at the end of a text.

## Main statements

* `Block.passes_of_last` — the lines of a text up to its last character.
* `Block.scan_literal` — a text that may be written as a block is read from it.
-/

namespace OptionAtlas.Yaml.Block

variable {ch : Chomping} {depth n : Nat} {c : Char} {cs rest : List Char} {p : Place} {b : Pending}

/-! ## Single characters -/

theorem lines_space (hp : p.column < depth) (cs : List Char) (b : Pending) :
    lines false ch depth (' ' :: cs) p false b =
      lines false ch depth cs (p.right [' ']) false b := by
  simp [lines, isBreak, hp]

theorem lines_indent (hp : p.column + n ≤ depth) (cs : List Char) (b : Pending) :
    lines false ch depth (indent n ++ cs) p false b =
      lines false ch depth cs (p.right (indent n)) false b :=
  eq_right_indent (f := fun cs p => lines false ch depth cs p false b)
    (fun cs _ hp => lines_space hp cs b) n cs p hp

theorem lines_break (h : isBreak c = true) (hprint : isPrintable c = true) (cs : List Char)
    (p : Place) (inside : Bool) (b : Pending) :
    lines false ch depth (c :: cs) p inside b =
      lines false ch depth cs (p.down [c]) false (b.add inside c) := by
  rw [lines]
  · rw [if_pos h, breakValue_of_isPrintable hprint h]
  · rintro _ rfl _
    exact absurd hprint (by decide)

theorem lines_inside (h : isBreak c = false) (cs : List Char) (p : Place) (b : Pending) :
    lines false ch depth (c :: cs) p true b =
      (lines false ch depth cs (p.right [c]) true b).map fun r => (c :: r.1, r.2) := by
  rw [lines]
  · simp [h]
  · exact fun _ hc _ => ne_return_of_not_isBreak h hc

/-- A line starts at the column of the block, whatever its first character is. -/
theorem lines_start (h : isBreak c = false) (hp : p.column = depth) (cs : List Char)
    (b : Pending) :
    lines false ch depth (c :: cs) p false b =
      (lines false ch depth cs (p.right [c]) true ⟨none, [], isBlank c⟩).map fun r =>
        (b.first.toList ++ b.more ++ c :: r.1, r.2) := by
  rw [lines]
  · simp [h, hp, Pending.joint]
  · exact fun _ hc _ => ne_return_of_not_isBreak h hc

/-- A line that starts left of the block ends it. -/
theorem lines_stop (hn : n < depth) (hopens : ∀ x ∈ rest.head?, opensLine x = true)
    (hp : p.column = 0) (b : Pending) :
    lines false ch depth (indent n ++ rest) p false b =
      some (b.tail ch, ⟨rest, p.right (indent n)⟩) := by
  rw [lines_indent (by omega)]
  cases rest with
  | nil => rfl
  | cons x xs =>
      have hx := isGap_of_opensLine (hopens x rfl)
      simp only [isGap, isBlank, Bool.or_eq_false_iff, decide_eq_false_iff_not] at hx
      rw [lines]
      · simp [hx, hp, indent, hn]
      · exact fun _ hc _ => ne_return_of_not_isBreak hx.2 hc

/-! ## Lines -/

/-- What breaks stand for that are kept in front of a line. -/
def Pending.kept (b : Pending) : List Char := b.first.toList ++ b.more

theorem Pending.kept_add {inside : Bool} (h : inside = true → b.kept = []) (c : Char) :
    (b.add inside c).kept = b.kept ++ [c] := by
  cases inside with
  | false => simp [add, kept]
  | true =>
      have hnone := h rfl
      rw [kept, List.append_eq_nil_iff] at hnone
      simp [add, kept, hnone]

/-- The lines of a text are read up to its last character, with what stands behind it
left. `fresh` says whether a line is to be started. -/
def Passes (ch : Chomping) (depth : Nat) (fresh : Bool) (cs : List Char) (p : Place)
    (b : Pending) : Prop :=
  ∃ (q : Place) (d : Pending), p.line ≤ q.line ∧ d.kept = [] ∧ ∀ rest,
    lines false ch depth (literalBody depth fresh cs ++ rest) p (!fresh) b =
      (lines false ch depth rest q true d).map fun r => (b.kept ++ cs ++ r.1, r.2)

theorem passes_nil (hb : b.kept = []) (p : Place) : Passes ch depth false [] p b :=
  ⟨p, b, Nat.le_refl _, hb, fun rest => by simp [literalBody, hb]⟩

theorem passes_break {fresh : Bool} (hc : isBreak c = true) (hprint : isPrintable c = true)
    (hb : fresh = false → b.kept = [])
    (h : Passes ch depth true cs (p.down [c]) (b.add (!fresh) c)) :
    Passes ch depth fresh (c :: cs) p b := by
  have hkept : (b.add (!fresh) c).kept = b.kept ++ [c] :=
    Pending.kept_add (by simpa using hb) c
  rcases h with ⟨q, d, hline, hd, hread⟩
  refine ⟨q, d, Nat.le_trans (Nat.le_succ _) hline, hd, fun rest => ?_⟩
  rw [literalBody, if_pos hc, List.cons_append, lines_break hc hprint]
  exact (hread rest).trans (by simp [hkept])

theorem literalBody_fresh (hc : isBreak c = false) (cs : List Char) :
    literalBody depth true (c :: cs) = indent depth ++ c :: literalBody depth false cs := by
  simp [literalBody, hc, indent]

theorem passes_start (hc : isBreak c = false) (hp : p.column = 0)
    (h : Passes ch depth false cs ((p.right (indent depth)).right [c]) ⟨none, [], isBlank c⟩) :
    Passes ch depth true (c :: cs) p b := by
  have hcolumn : (p.right (indent depth)).column = depth := by
    rw [column_right_indent, hp, Nat.zero_add]
  rcases h with ⟨q, d, hline, hd, hread⟩
  rw [Bool.not_false] at hread
  refine ⟨q, d, hline, hd, fun rest => ?_⟩
  rw [literalBody_fresh hc, List.append_assoc, List.cons_append, Bool.not_true,
    lines_indent (by simp [hp]), lines_start hc hcolumn, hread]
  simp [Pending.kept, Function.comp_def]

theorem passes_inside (hc : isBreak c = false) (hb : b.kept = [])
    (h : Passes ch depth false cs (p.right [c]) b) : Passes ch depth false (c :: cs) p b := by
  have hbody : literalBody depth false (c :: cs) = c :: literalBody depth false cs := by
    simp [literalBody, hc]
  rcases h with ⟨q, d, hline, hd, hread⟩
  rw [Bool.not_false] at hread
  refine ⟨q, d, hline, hd, fun rest => ?_⟩
  rw [hbody, List.cons_append, Bool.not_false, lines_inside hc, hread]
  simp [hb, Function.comp_def]

/-- The lines of a text that does not end with a break are read up to its last character. -/
theorem passes_of_last (ch : Chomping) (depth : Nat) (fresh : Bool)
    (hb : fresh = false → b.kept = []) (hp : fresh = true → p.column = 0)
    (hne : fresh = true → cs ≠ []) (hlast : ∀ c ∈ cs.getLast?, isBreak c = false)
    (hprint : ∀ c ∈ cs, isPrintable c = true) : Passes ch depth fresh cs p b := by
  induction cs generalizing p b fresh with
  | nil =>
      cases fresh with
      | true => exact absurd rfl (hne rfl)
      | false => exact passes_nil (hb rfl) p
  | cons c cs ih =>
      simp only [List.mem_cons, forall_eq_or_imp] at hprint
      have hlast' : ∀ x ∈ cs.getLast?, isBreak x = false := by
        intro x hx
        exact hlast x (by simp [List.getLast?_cons, Option.mem_def.1 hx])
      by_cases hc : isBreak c = true
      · have hcs : cs ≠ [] := by
          rintro rfl
          exact absurd hc (by simp [hlast c rfl])
        exact passes_break hc hprint.1 hb
          (ih true (by simp) (fun _ => rfl) (fun _ => hcs) hlast' hprint.2)
      · rw [Bool.not_eq_true] at hc
        cases fresh with
        | true =>
            exact passes_start hc (hp rfl)
              (ih false (fun _ => rfl) (by simp) (by simp) hlast' hprint.2)
        | false => exact passes_inside hc (hb rfl) (ih false hb (by simp) (by simp) hlast' hprint.2)

/-- The breaks of empty lines are kept together. -/
theorem lines_breaks (ch : Chomping) (depth : Nat) (hbreak : ∀ c ∈ cs, isBreak c = true)
    (hprint : ∀ c ∈ cs, isPrintable c = true) (hp : p.column = 0) (b : Pending) :
    ∃ q : Place, p.line ≤ q.line ∧ q.column = 0 ∧ ∀ rest,
      lines false ch depth (cs ++ rest) p false b =
        lines false ch depth rest q false { b with more := b.more ++ cs } := by
  induction cs generalizing p b with
  | nil => exact ⟨p, Nat.le_refl _, hp, fun rest => by simp⟩
  | cons c cs ih =>
      simp only [List.mem_cons, forall_eq_or_imp] at hbreak hprint
      rcases ih (p := p.down [c]) hbreak.2 hprint.2 rfl (b.add false c) with
        ⟨q, hline, hcolumn, hread⟩
      refine ⟨q, Nat.le_trans (Nat.le_succ _) hline, hcolumn, fun rest => ?_⟩
      rw [List.cons_append, lines_break hbreak.1 hprint.1, hread]
      simp [Pending.add]

/-! ## Headers -/

/-- What the header of a text says about the breaks at its end. -/
def chompingOf (cs : List Char) : Chomping :=
  match cs.reverse with
  | [] => .strip
  | [c] => if isBreak c then .keep else .strip
  | c :: d :: _ => if isBreak c then if isBreak d then .keep else .clip else .strip

/-- What the header of a text says about its indentation. -/
def depthOf (cs : List Char) : Option Nat :=
  if cs.head?.any fun c => isSpace c || isBreak c then some 2 else none

theorem header?_literalMarks (cs rest : List Char) :
    header? (literalMarks cs ++ '\n' :: rest) =
      some (⟨chompingOf cs, depthOf cs⟩, (literalMarks cs).length) := by
  unfold literalMarks chompingOf depthOf
  generalize cs.reverse = r
  generalize (cs.head?.any fun c => isSpace c || isBreak c) = hinted
  cases hinted <;> rcases r with _ | ⟨c, _ | ⟨d, ds⟩⟩
  any_goals rfl
  all_goals simp only
  all_goals split_ifs <;> rfl

theorem chompingOf_of_last {cs : List Char} (hlast : ∀ c ∈ cs.getLast?, isBreak c = false) :
    chompingOf cs = .strip := by
  rw [List.getLast?_eq_head?_reverse] at hlast
  unfold chompingOf
  split
  next => rfl
  next c h => simp [hlast c (by simp [h])]
  next c d _ h => simp [hlast c (by simp [h])]

/-- If a text is nothing but breaks all are kept. -/
theorem chompingOf_of_breaks {vs : List Char} (hne : vs ≠ []) (h : ∀ c ∈ vs, isBreak c = true) :
    chompingOf vs = .keep := by
  have hmem : ∀ c ∈ vs.reverse, isBreak c = true := fun c hc => h c (List.mem_reverse.1 hc)
  unfold chompingOf
  split
  next hnil => exact absurd (List.reverse_eq_nil_iff.1 hnil) hne
  next c hc => simp [hmem c (by simp [hc])]
  next c d _ hc => simp [hmem c (by simp [hc]), hmem d (by simp [hc])]

/-- One break behind a line is kept without a mark, and more breaks with one. -/
theorem tail_chompingOf {us vs : List Char} {blank : Bool} (hne : us ≠ [])
    (hlast : ∀ c ∈ us.getLast?, isBreak c = false) (h : ∀ x ∈ c :: vs, isBreak x = true) :
    Pending.tail (chompingOf (us ++ c :: vs)) ⟨some c, vs, blank⟩ = c :: vs := by
  rw [List.getLast?_eq_head?_reverse] at hlast
  have hreverse : (us ++ c :: vs).reverse = vs.reverse ++ c :: us.reverse := by simp
  have hmem : ∀ x ∈ vs.reverse, isBreak x = true :=
    fun x hx => h x (List.mem_cons_of_mem _ (List.mem_reverse.1 hx))
  have hc : isBreak c = true := h c List.mem_cons_self
  unfold chompingOf
  rw [hreverse]
  rcases hvs : vs.reverse with _ | ⟨x, _ | ⟨y, ys⟩⟩
  · obtain rfl := List.reverse_eq_nil_iff.1 hvs
    cases hus : us.reverse with
    | nil => exact absurd (List.reverse_eq_nil_iff.1 hus) hne
    | cons u us => simp [hc, hlast u (by simp [hus]), Pending.tail]
  · simp [hc, hmem x (by simp [hvs]), Pending.tail]
  · simp [hmem x (by simp [hvs]), hmem y (by simp [hvs]), Pending.tail]

/-! ## Blocks -/

/-- The last character of a text that is no break is the last one of its lines. -/
theorem exists_literalBody_concat (depth : Nat) (h : isBreak c = false) (fresh : Bool)
    (us : List Char) :
    ∃ front, literalBody depth fresh (us ++ [c]) = front ++ [c] := by
  induction us generalizing fresh with
  | nil => exact ⟨if fresh then indent depth else [], by simp [literalBody, h, indent]⟩
  | cons u us ih =>
      rw [List.cons_append, literalBody]
      split_ifs
      · rcases ih true with ⟨front, hfront⟩
        exact ⟨u :: front, by rw [hfront, List.cons_append]⟩
      · rcases ih false with ⟨front, hfront⟩
        exact ⟨List.replicate depth ' ' ++ u :: front, by simp [hfront]⟩
      · rcases ih false with ⟨front, hfront⟩
        exact ⟨u :: front, by simp [hfront]⟩

theorem literalBody_ne_nil (hne : cs ≠ []) : literalBody depth true cs ≠ [] := by
  cases cs with
  | nil => exact absurd rfl hne
  | cons c cs =>
      rw [literalBody]
      split_ifs <;> simp

theorem endLine_literal (hne : cs ≠ []) :
    endLine ('|' :: literalMarks cs ++ '\n' :: literalBody depth true cs) =
      '|' :: (literalMarks cs ++ '\n' :: endLine (literalBody depth true cs)) := by
  have hsplit : '|' :: literalMarks cs ++ '\n' :: literalBody depth true cs =
      ('|' :: literalMarks cs ++ ['\n']) ++ literalBody depth true cs := by simp
  rw [hsplit, endLine_append (literalBody_ne_nil hne)]
  simp

/-- The first line of a text that starts with no gap shows its indentation. -/
theorem exists_endLine_literalBody (depth : Nat) (h : isBreak c = false) (cs : List Char) :
    ∃ more, endLine (literalBody depth true (c :: cs)) = indent depth ++ c :: more := by
  rw [literalBody_fresh h, endLine_append (by simp), endLine]
  split_ifs
  · exact ⟨_, rfl⟩
  · exact ⟨_, rfl⟩

theorem literalBody_append_breaks {vs : List Char} (h : ∀ c ∈ vs, isBreak c = true)
    (fresh : Bool) (us : List Char) :
    literalBody depth fresh (us ++ vs) = literalBody depth fresh us ++ vs := by
  induction us generalizing fresh with
  | nil =>
      induction vs generalizing fresh with
      | nil => rfl
      | cons c vs ih =>
          simp only [List.mem_cons, forall_eq_or_imp] at h
          have hbody : literalBody depth fresh (c :: vs) = c :: literalBody depth true vs := by
            rw [literalBody, if_pos h.1]
          exact hbody.trans (congrArg (c :: ·) (ih h.2 true))
  | cons c us ih =>
      rw [List.cons_append, literalBody, literalBody]
      split_ifs <;> simp [ih]

/-- A text of breaks alone. -/
theorem lines_endLine_breaks (hn : n < depth) (hopens : ∀ x ∈ rest.head?, opensLine x = true)
    {vs : List Char} (hne : vs ≠ []) (hvs : ∀ c ∈ vs, isBreak c = true)
    (hprint : ∀ c ∈ vs, isPrintable c = true) (hp : p.column = 0) :
    ∃ q : Place, p.line ≤ q.line ∧ q.column = 0 ∧
      lines false (chompingOf vs) depth (endLine vs ++ (indent n ++ rest)) p false .empty =
        some (vs, ⟨rest, q.right (indent n)⟩) := by
  rcases lines_breaks (chompingOf vs) depth hvs hprint hp .empty with
    ⟨q, hline, hcolumn, hread⟩
  refine ⟨q, hline, hcolumn, ?_⟩
  rw [endLine_of_breaks hne hvs, hread, lines_stop hn hopens hcolumn, chompingOf_of_breaks hne hvs]
  simp [Pending.tail, Pending.empty]

/-- A text whose last break is followed by a character that is none. -/
theorem lines_endLine_last (hn : n < depth) (hopens : ∀ x ∈ rest.head?, opensLine x = true)
    (hne : cs ≠ []) (hlast : ∀ c ∈ cs.getLast?, isBreak c = false)
    (hprint : ∀ c ∈ cs, isPrintable c = true) (hp : p.column = 0) :
    ∃ q : Place, p.line ≤ q.line ∧ q.column = 0 ∧
      lines false (chompingOf cs) depth (endLine (literalBody depth true cs) ++ (indent n ++ rest))
        p false .empty = some (cs, ⟨rest, q.right (indent n)⟩) := by
  rcases passes_of_last (chompingOf cs) depth true (b := .empty) (by simp) (fun _ => hp)
    (fun _ => hne) hlast hprint with ⟨q, d, hline, hd, hread⟩
  refine ⟨q.down ['\n'], Nat.le_trans hline (Nat.le_succ _), rfl, ?_⟩
  have hend : endLine (literalBody depth true cs) = literalBody depth true cs ++ ['\n'] := by
    rcases cs.eq_nil_or_concat with h | ⟨front, c, rfl⟩
    · exact absurd h hne
    · have hc : isBreak c = false := hlast c (by simp)
      rcases exists_literalBody_concat depth hc true front with ⟨body, hbody⟩
      rw [List.concat_eq_append, hbody, endLine_concat hc]
  rw [hend, List.append_assoc, List.singleton_append]
  refine (hread _).trans ?_
  rw [lines_break rfl rfl, lines_stop hn hopens rfl, chompingOf_of_last hlast]
  simp [Pending.tail, Pending.kept, Pending.empty]

/-- A text that ends with breaks behind a line. -/
theorem lines_endLine_append (hn : n < depth) (hopens : ∀ x ∈ rest.head?, opensLine x = true)
    {vs : List Char} (hne : cs ≠ []) (hlast : ∀ c ∈ cs.getLast?, isBreak c = false)
    (hvs : ∀ x ∈ c :: vs, isBreak x = true) (hprint : ∀ x ∈ cs ++ c :: vs, isPrintable x = true)
    (hp : p.column = 0) :
    ∃ q : Place, p.line ≤ q.line ∧ q.column = 0 ∧
      lines false (chompingOf (cs ++ c :: vs)) depth
        (endLine (literalBody depth true cs ++ c :: vs) ++ (indent n ++ rest)) p false .empty =
        some (cs ++ c :: vs, ⟨rest, q.right (indent n)⟩) := by
  have hprint' : (∀ x ∈ cs, isPrintable x = true) ∧ isPrintable c = true ∧
      ∀ x ∈ vs, isPrintable x = true := by
    simpa [or_imp, forall_and] using hprint
  have hvs' : isBreak c = true ∧ ∀ x ∈ vs, isBreak x = true := by simpa using hvs
  rcases passes_of_last (chompingOf (cs ++ c :: vs)) depth true (b := .empty) (by simp)
    (fun _ => hp) (fun _ => hne) hlast hprint'.1 with
    ⟨q, d, hline, hd, hread⟩
  rcases lines_breaks (chompingOf (cs ++ c :: vs)) depth (p := q.down [c]) hvs'.2
    hprint'.2.2 rfl (d.add true c) with ⟨q', hline', hcolumn, hbreaks⟩
  refine ⟨q', Nat.le_trans hline (Nat.le_trans (Nat.le_succ _) hline'), hcolumn, ?_⟩
  have hmore : d.more = [] := (List.append_eq_nil_iff.1 hd).2
  rw [endLine_append (by simp), endLine_of_breaks (by simp) hvs, List.append_assoc]
  refine (hread _).trans ?_
  rw [List.cons_append, lines_break hvs'.1 hprint'.2.1, hbreaks, lines_stop hn hopens hcolumn]
  simp only [Pending.add, if_true, hmore, List.nil_append, tail_chompingOf hne hlast hvs]
  simp [Pending.kept, Pending.empty]

/-- The lines of a text and the end of the last one. -/
theorem lines_endLine (depth : Nat) (hn : n < depth) (hopens : ∀ x ∈ rest.head?, opensLine x = true)
    (hne : cs ≠ []) (hprint : ∀ c ∈ cs, isPrintable c = true) (hp : p.column = 0) :
    ∃ q : Place, p.line ≤ q.line ∧ q.column = 0 ∧
      lines false (chompingOf cs) depth (endLine (literalBody depth true cs) ++ (indent n ++ rest))
        p false .empty = some (cs, ⟨rest, q.right (indent n)⟩) := by
  have hsplit : cs.rdropWhile isBreak ++ cs.rtakeWhile isBreak = cs :=
    List.rdropWhile_append_rtakeWhile ..
  have hvs : ∀ c ∈ cs.rtakeWhile isBreak, isBreak c = true := fun c hc => List.mem_rtakeWhile_imp hc
  have hus : ∀ c ∈ (cs.rdropWhile isBreak).getLast?, isBreak c = false := by
    intro c hc
    by_cases hnil : cs.rdropWhile isBreak = []
    · simp [hnil] at hc
    · rw [List.getLast?_eq_getLast_of_ne_nil hnil, Option.mem_some_iff] at hc
      simpa [hc] using List.rdropWhile_last_not isBreak cs hnil
  generalize cs.rdropWhile isBreak = us at hsplit hus
  generalize cs.rtakeWhile isBreak = vs at hsplit hvs
  subst hsplit
  rw [literalBody_append_breaks hvs]
  cases us with
  | nil => exact lines_endLine_breaks hn hopens hne hvs hprint hp
  | cons u us =>
      cases vs with
      | nil =>
          rw [List.append_nil] at hprint ⊢
          rw [List.append_nil]
          exact lines_endLine_last hn hopens (by simp) hus hprint hp
      | cons c vs => exact lines_endLine_append hn hopens (by simp) hus hvs hprint hp

theorem blankLines_indent (n : Nat) (cs : List Char) (p : Place) (most : Nat) (bs : List Char) :
    blankLines (indent n ++ cs) p most bs = blankLines cs (p.right (indent n)) most bs :=
  eq_right_indent (f := fun cs p => blankLines cs p most bs)
    (fun cs p _ => by simp [blankLines, isBreak]) n cs p (Nat.le_refl _)

/-- A first line that does not start with a gap shows where the lines start. -/
theorem blankLines_of_not_gap (h : isGap c = false) (cs : List Char) (p : Place) (most : Nat)
    (bs : List Char) :
    blankLines (c :: cs) p most bs = some (max most p.column, bs, ⟨c :: cs, p⟩) := by
  simp only [isGap, isBlank, Bool.or_eq_false_iff, decide_eq_false_iff_not] at h
  rw [blankLines]
  · simp [h]
  · exact fun _ hc _ => ne_return_of_not_isBreak h.2 hc

theorem finishLine_newline (cs : List Char) (p : Place) :
    (⟨'\n' :: cs, p⟩ : Cursor).finishLine = some ⟨cs, p.down ['\n']⟩ := by
  rfl

/-- A literal block inside a block at column `d` is read, up to the first line that does
not belong to it. -/
theorem scan_literal {d : Nat} (hn : n ≤ d) (hopens : ∀ x ∈ rest.head?, opensLine x = true)
    (hne : cs ≠ []) (hprint : ∀ c ∈ cs, isPrintable c = true) (p : Place) :
    ∃ q : Place, p.line < q.line ∧ q.column = 0 ∧
      scan false (d + 1) ⟨literalMarks cs ++
        '\n' :: (endLine (literalBody (d + 2) true cs) ++ (indent n ++ rest)), p⟩ =
        some (cs, ⟨rest, q.right (indent n)⟩) := by
  rcases lines_endLine (d + 2) (n := n) (by omega) hopens hne hprint
    (p := (p.right (literalMarks cs)).down ['\n']) rfl with ⟨q, hline, hcolumn, hread⟩
  refine ⟨q, hline, hcolumn, ?_⟩
  have hskip : ∀ more, (⟨literalMarks cs ++ '\n' :: more, p⟩ : Cursor).skip
      (literalMarks cs).length = ⟨'\n' :: more, p.right (literalMarks cs)⟩ := by
    intro more
    simp [Cursor.skip]
  unfold scan
  simp only [header?_literalMarks, Option.bind_eq_bind, Option.bind_some, hskip,
    finishLine_newline]
  by_cases hgap : (cs.head?.any fun c => isSpace c || isBreak c) = true
  · simp only [depthOf, hgap, if_true]
    exact hread
  · -- The indentation is not written down, but seen in the first line.
    simp only [depthOf, hgap]
    rcases cs with _ | ⟨c, cs⟩
    · exact absurd rfl hne
    · have hc : isSpace c = false ∧ isBreak c = false := by simpa using hgap
      have hnot : isGap c = false := isGap_eq_false (hprint c List.mem_cons_self) hc.2
        (by simpa [isSpace] using hc.1)
      rcases exists_endLine_literalBody (d + 2) hc.2 cs with ⟨more, hmore⟩
      rw [hmore, List.append_assoc] at hread ⊢
      rw [lines_indent (by simp)] at hread
      have hmost : max (d + 2) (d + 1) = d + 2 := by omega
      have hblanks := blankLines_of_not_gap hnot (more ++ (indent n ++ rest))
        (((p.right (literalMarks (c :: cs))).down ['\n']).right (indent (d + 2))) 0 []
      rw [← List.cons_append] at hblanks
      simp only [blankLines_indent, hblanks]
      simpa [hmost, indent, Pending.empty] using hread

end OptionAtlas.Yaml.Block
