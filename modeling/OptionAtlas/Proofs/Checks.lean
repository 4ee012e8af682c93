import Mathlib.Data.List.Forall2
import Mathlib.Data.List.Nodup
import Mathlib.Data.Nat.Find

/-!
# Runs of checks and searches

Tables are read and registries are built by runs of checks that stop at the first
defect, and names are looked up by a search that stops at the first match. Such a
run succeeds exactly when every check does, and where at most one element matches,
what a search finds does not depend on the order. Some checks compare an element with
those in front of it; such a run is stopped by the first element that fails behind them.

## Main definitions

* `FirstAt` — the first place at which something is wrong.

## Main statements

* `mapM_eq_ok_iff`, `exists_mapM_eq_ok_iff` — a run as a list of successes.
* `mapM_eq_error_iff`, `mapM_eq_error_iff_firstAt` — a run that fails, by its first failure.
* `find?_eq_some_iff_of_unique`, `find?_eq_some_iff_of_nodup`, `findSome?_eq_of_iff` — a
  search with at most one answer.
* `findSome?_eq_some_iff_firstAt` — a search that stops at the first place.
* `place_eq_of_pairwise` — elements that cannot stand at two places.
* `filter_eq_singleton` — the elements under one of several distinct names.
* `exists_firstAt_cons_iff`, `exists_firstAt_iff` — the first place, found step by step,
  and that there is one.
-/

namespace OptionAtlas

variable {ε α β γ : Type}

/-! ## Runs of checks -/

theorem bind_eq_ok_iff {x : Except ε α} {f : α → Except ε β} {b : β} :
    (x >>= f) = .ok b ↔ ∃ a, x = .ok a ∧ f a = .ok b := by
  cases x <;> simp [bind, Except.bind]

theorem bind_eq_error_iff {x : Except ε α} {f : α → Except ε β} {e : ε} :
    (x >>= f) = .error e ↔ x = .error e ∨ ∃ a, x = .ok a ∧ f a = .error e := by
  cases x <;> simp [bind, Except.bind]

theorem map_eq_ok_iff {x : Except ε α} {f : α → β} {b : β} :
    x.map f = .ok b ↔ ∃ a, x = .ok a ∧ f a = b := by
  cases x <;> simp [Except.map]

theorem pure_eq_ok_iff {a b : α} : (pure a : Except ε α) = .ok b ↔ a = b := by
  simp [pure, Except.pure]

/-- A run yields `ys` when its checks, each made on its own, yield `ys` in order. -/
theorem mapM_eq_ok_iff {f : α → Except ε β} {xs : List α} {ys : List β} :
    xs.mapM f = .ok ys ↔ xs.map f = ys.map .ok := by
  induction xs generalizing ys with
  | nil => cases ys <;> simp [pure_eq_ok_iff]
  | cons x xs ih =>
      rw [List.mapM_cons, bind_eq_ok_iff]
      simp only [bind_eq_ok_iff, pure_eq_ok_iff, ih, List.map_cons]
      constructor
      · intro h
        rcases h with ⟨y, hy, rest, hrest, rfl⟩
        rw [hy, hrest, List.map_cons]
      · intro h
        cases ys with
        | nil => simp at h
        | cons y rest =>
            rw [List.map_cons, List.cons.injEq] at h
            exact ⟨y, h.1, rest, h.2, rfl⟩

/-- What is made of the results of a run can be made within its checks. -/
theorem map_mapM {f : α → Except ε β} {g : β → γ} {xs : List α} :
    List.map g <$> xs.mapM f = xs.mapM fun x => g <$> f x := by
  induction xs with
  | nil => rfl
  | cons x xs ih =>
      rw [List.mapM_cons, List.mapM_cons, ← ih]
      simp only [map_bind, map_pure, bind_map_left, List.map_cons]

/-- A run has a result when every check has one. -/
theorem exists_mapM_eq_ok_iff {f : α → Except ε β} {xs : List α} :
    (∃ ys, xs.mapM f = .ok ys) ↔ ∀ x ∈ xs, ∃ y, f x = .ok y := by
  simp only [mapM_eq_ok_iff]
  induction xs with
  | nil => exact ⟨fun _ _ hx => by simp at hx, fun _ => ⟨[], rfl⟩⟩
  | cons x xs ih =>
      constructor
      · rintro ⟨ys, h⟩ a ha
        have hmem : f a ∈ ys.map .ok := h ▸ List.mem_map_of_mem ha
        obtain ⟨y, _, hy⟩ := List.mem_map.1 hmem
        exact ⟨y, hy.symm⟩
      · intro h
        obtain ⟨y, hy⟩ := h x (by simp)
        obtain ⟨ys, hys⟩ := ih.2 fun a ha => h a (by simp [ha])
        exact ⟨y :: ys, by rw [List.map_cons, List.map_cons, hy, hys]⟩

/-- A run fails with the error of the first check that fails. -/
theorem mapM_eq_error_iff {f : α → Except ε β} {xs : List α} {e : ε} :
    xs.mapM f = .error e ↔
      ∃ before x after, xs = before ++ x :: after ∧ (∀ y ∈ before, ∃ b, f y = .ok b) ∧
        f x = .error e := by
  induction xs with
  | nil => simp [pure, Except.pure]
  | cons x xs ih =>
      simp only [List.mapM_cons, bind_eq_error_iff, ih]
      constructor
      · intro h
        rcases h with hx | ⟨b, hx, ⟨before, y, after, rfl, hok, hy⟩ | ⟨ys, _, hpure⟩⟩
        · exact ⟨[], x, xs, rfl, by simp, hx⟩
        · exact ⟨x :: before, y, after, rfl, List.forall_mem_cons.2 ⟨⟨b, hx⟩, hok⟩, hy⟩
        · cases hpure
      · intro h
        rcases h with ⟨before, y, after, heq, hok, hy⟩
        cases before with
        | nil =>
            obtain ⟨rfl, rfl⟩ := List.cons.inj heq
            exact .inl hy
        | cons z before =>
            obtain ⟨rfl, rfl⟩ := List.cons.inj heq
            obtain ⟨⟨b, hx⟩, hok⟩ := List.forall_mem_cons.1 hok
            exact .inr ⟨b, hx, .inl ⟨before, y, after, rfl, hok, hy⟩⟩

/-- A check that cannot fail has a result. -/
theorem exists_eq_ok_iff {x : Except ε α} : (∃ a, x = .ok a) ↔ ∀ e, x ≠ .error e := by
  cases x <;> simp

variable {f : α → Except ε β} {xs : List α} {ys : List β}

theorem map_eq_map_ok_iff_forall₂ :
    xs.map f = ys.map .ok ↔ List.Forall₂ (fun x y => f x = .ok y) xs ys := by
  rw [← List.forall₂_eq_eq_eq, List.forall₂_map_left_iff, List.forall₂_map_right_iff]

theorem mem_of_map_eq_map_ok (h : xs.map f = ys.map .ok) {y : β} :
    y ∈ ys ↔ ∃ x ∈ xs, f x = .ok y := by
  have hok : y ∈ ys ↔ Except.ok y ∈ ys.map (Except.ok (ε := ε)) := by simp
  rw [hok, ← h, List.mem_map]

/-- What is read off the subjects of the checks agrees with what is read off the results. -/
theorem map_eq_of_map_eq_map_ok (h : xs.map f = ys.map .ok) {g : α → γ} {k : β → γ}
    (hgk : ∀ x y, f x = .ok y → g x = k y) : xs.map g = ys.map k := by
  induction xs generalizing ys with
  | nil =>
      have hys : ys = [] := by simpa using h.symm
      rw [hys, List.map_nil, List.map_nil]
  | cons x xs ih =>
      cases ys with
      | nil => simp at h
      | cons y ys =>
          rw [List.map_cons, List.map_cons, List.cons.injEq] at h
          rw [List.map_cons, List.map_cons, hgk x y h.1, ih h.2]

theorem flatMap_eq_of_map_eq_map_ok (h : xs.map f = ys.map .ok) {g : α → List γ}
    {k : β → List γ} (hgk : ∀ x y, f x = .ok y → g x = k y) :
    xs.flatMap g = ys.flatMap k := by
  rw [List.flatMap_def, List.flatMap_def, map_eq_of_map_eq_map_ok h hgk]

/-! ## Searches with at most one answer -/

theorem find?_eq_some_iff_of_unique {p : α → Bool} {l : List α} {a : α}
    (unique : ∀ x ∈ l, ∀ y ∈ l, p x = true → p y = true → x = y) :
    l.find? p = some a ↔ a ∈ l ∧ p a = true := by
  constructor
  · intro h
    exact ⟨List.mem_of_find?_eq_some h, List.find?_some h⟩
  · intro h
    rcases h with ⟨ha, hp⟩
    cases h : l.find? p with
    | none => exact absurd hp (List.find?_eq_none.1 h a ha)
    | some b =>
        have hb := unique b (List.mem_of_find?_eq_some h) a ha (List.find?_some h) hp
        rw [hb]

/-- Under distinct names, a search for a name finds the one element that has it. -/
theorem find?_eq_some_iff_of_nodup [BEq β] [LawfulBEq β] {name : α → β} {l : List α}
    (distinct : (l.map name).Nodup) {n : β} {a : α} :
    l.find? (fun x => name x == n) = some a ↔ a ∈ l ∧ name a = n := by
  have hbeq : name a = n ↔ (name a == n) = true := beq_iff_eq.symm
  rw [hbeq]
  apply find?_eq_some_iff_of_unique
  intro x hx y hy hxn hyn
  exact List.inj_on_of_nodup_map distinct hx hy
    ((beq_iff_eq.1 hxn).trans (beq_iff_eq.1 hyn).symm)

/-- A search in several places for an answer that only `o` can be finds `o`. -/
theorem findSome?_eq_of_iff {f : α → Option β} {l : List α} {o : Option β}
    (h : ∀ b, o = some b ↔ ∃ x ∈ l, f x = some b) : l.findSome? f = o := by
  cases hfind : l.findSome? f with
  | some b => exact ((h b).2 (List.exists_of_findSome?_eq_some hfind)).symm
  | none =>
      rw [List.findSome?_eq_none_iff] at hfind
      cases o with
      | none => rfl
      | some b =>
          obtain ⟨x, hx, hb⟩ := (h b).1 rfl
          rw [hfind x hx] at hb
          cases hb

/-- Elements that are not related stand at one place of a list whose elements are. -/
theorem place_eq_of_pairwise {R : α → α → Prop} [Std.Symm R] {l : List α}
    (related : l.Pairwise R) {i j : Nat} {a b : α} (ha : l[i]? = some a) (hb : l[j]? = some b)
    (h : ¬ R a b) : i = j := by
  obtain ⟨hi, rfl⟩ := List.getElem?_eq_some_iff.1 ha
  obtain ⟨hj, rfl⟩ := List.getElem?_eq_some_iff.1 hb
  rw [List.pairwise_iff_getElem] at related
  obtain hlt | heq | hgt := Nat.lt_trichotomy i j
  · exact absurd (related i j hi hj hlt) h
  · exact heq
  · exact absurd (Std.Symm.symm _ _ (related j i hj hi hgt)) h

/-- Under distinct names, one element has the name of `a`. -/
theorem filter_eq_singleton [DecidableEq β] {name : α → β} {l : List α}
    (distinct : (l.map name).Nodup) {a : α} (ha : a ∈ l) :
    l.filter (fun x => name x = name a) = [a] := by
  induction l with
  | nil => simp at ha
  | cons x l ih =>
      rw [List.map_cons, List.nodup_cons] at distinct
      rcases List.mem_cons.1 ha with rfl | ha
      · have none_left : l.filter (fun x => name x = name a) = [] := by
          rw [List.filter_eq_nil_iff]
          intro b hb hname
          exact distinct.1 (List.mem_map.2 ⟨b, hb, of_decide_eq_true hname⟩)
        rw [List.filter_cons_of_pos (by simp), none_left]
      · have hne : name x ≠ name a := by
          intro h
          exact distinct.1 (h ▸ List.mem_map_of_mem ha)
        rw [List.filter_cons_of_neg (by simpa using hne), ih distinct.2 ha]

/-! ## Checks that look back -/

/-- Place `i` is the first of `xs` at which something is wrong, and what is wrong there
is `d`. It may depend on the elements in front whether something is wrong with one. -/
def FirstAt (wrong : List α → α → γ → Prop) (xs : List α) (i : Nat) (d : γ) : Prop :=
  ∃ x, xs[i]? = some x ∧ wrong (xs.take i) x d ∧
    ∀ j < i, ∀ y, xs[j]? = some y → ∀ d', ¬ wrong (xs.take j) y d'

section FirstAt

variable {wrong : List α → α → γ → Prop} {x : α} {xs : List α} {d : γ}

@[simp] theorem not_firstAt_nil {i : Nat} : ¬ FirstAt wrong [] i d := by
  simp [FirstAt]

/-- The first place is the first element, or else it is found behind it. -/
theorem exists_firstAt_cons_iff :
    (∃ i, FirstAt wrong (x :: xs) i d) ↔
      wrong [] x d ∨
        (∀ d', ¬ wrong [] x d') ∧ ∃ i, FirstAt (fun before => wrong (x :: before)) xs i d := by
  constructor
  · intro h
    rcases h with ⟨i, y, hy, hwrong, first⟩
    cases i with
    | zero =>
        obtain rfl : x = y := by simpa using hy
        exact .inl hwrong
    | succ i =>
        refine .inr ⟨first 0 (by omega) x rfl, i, y, hy, hwrong, ?_⟩
        intro j hj
        exact first (j + 1) (by omega)
  · intro h
    rcases h with hwrong | ⟨fine, i, y, hy, hwrong, first⟩
    · exact ⟨0, x, rfl, hwrong, by simp⟩
    · refine ⟨i + 1, y, hy, hwrong, ?_⟩
      intro j hj z hz
      cases j with
      | zero =>
          obtain rfl : x = z := by simpa using hz
          exact fine
      | succ j => exact first j (by omega) z hz

/-- A run fails with the error of the first check that fails, wherever it stands. -/
theorem mapM_eq_error_iff_firstAt {f : α → Except ε β} {xs : List α} {e : ε} :
    xs.mapM f = .error e ↔ ∃ i, FirstAt (fun _ x e => f x = .error e) xs i e := by
  have hpure : ∀ ys : List β, (pure ys : Except ε (List β)) ≠ .error e := nofun
  induction xs with
  | nil => simp [hpure]
  | cons x xs ih =>
      rw [exists_firstAt_cons_iff]
      simp only [List.mapM_cons, bind_eq_error_iff, hpure, and_false, exists_false, or_false, ih,
        exists_and_right, exists_eq_ok_iff, ne_eq]

/-- What a search finds is what it makes of the first element of which it makes something. -/
theorem findSome?_eq_some_iff_firstAt {f : α → Option γ} {xs : List α} {d : γ} :
    xs.findSome? f = some d ↔ ∃ i, FirstAt (fun _ x d => f x = some d) xs i d := by
  induction xs with
  | nil => simp
  | cons x xs ih =>
      rw [exists_firstAt_cons_iff, List.findSome?_cons]
      cases h : f x with
      | some d' => simp
      | none => simpa using ih

/-- Where something is wrong at all, there is a first place. -/
theorem exists_firstAt_iff :
    (∃ d i, FirstAt wrong xs i d) ↔ ∃ i x d, xs[i]? = some x ∧ wrong (xs.take i) x d := by
  classical
  constructor
  · intro h
    rcases h with ⟨d, i, x, hx, hwrong, _⟩
    exact ⟨i, x, d, hx, hwrong⟩
  · intro h
    obtain ⟨x, d, hx, hwrong⟩ := Nat.find_spec h
    refine ⟨d, Nat.find h, x, hx, hwrong, ?_⟩
    intro j hj y hy d' hwrong'
    exact Nat.find_min h hj ⟨y, d', hy, hwrong'⟩

/-- What stands behind the first place does not matter. -/
theorem FirstAt.append {i : Nat} (h : FirstAt wrong xs i d) (ys : List α) :
    FirstAt wrong (xs ++ ys) i d := by
  obtain ⟨x, hx, hwrong, first⟩ := h
  have hlt : i < xs.length := (List.getElem?_eq_some_iff.1 hx).1
  have htake : ∀ j ≤ i, (xs ++ ys).take j = xs.take j :=
    fun j hj => List.take_append_of_le_length (by omega)
  refine ⟨x, by rw [List.getElem?_append_left hlt, hx], by rwa [htake i le_rfl], ?_⟩
  intro j hj y hy
  rw [List.getElem?_append_left (by omega)] at hy
  rw [htake j (by omega)]
  exact first j hj y hy

end FirstAt

end OptionAtlas
