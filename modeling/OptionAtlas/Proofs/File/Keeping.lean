import Mathlib.Tactic.SplitIfs
import OptionAtlas.File.Memory

/-!
# Disks that keep what is written

A disk keeps a file if it can be written and gives back the bytes that were written to
it. A disk in memory keeps every file that it can write, apart from its two devices: a
path that leads to the place of a file leads there again after the file was written.

## Main definitions

* `Disk.Keeps` — a file can be written at a path and is read back.

## Main statements

* `Memory.keeps_of_target` — the files that a disk in memory keeps.
-/

namespace OptionAtlas

/-- In the state `d` of the disk, a file can be created at the path and filled with any
text, and what is read from it then are the bytes of this text. -/
def Disk.Keeps {σ : Type} [Disk (StateM σ)] (d : σ) (path : String) : Prop :=
  ∃ d₁, (Disk.create (m := StateM σ) path).run d = (.ok (), d₁) ∧
    ∀ text, ∃ d₂, (Disk.fill (m := StateM σ) path text).run d₁ = (.ok (), d₂) ∧
      (Disk.read (m := StateM σ) path).run d₂ = (.ok (some text.toUTF8), d₂)

namespace Memory

variable {d : Memory} {place p q : List String} {n : Node}

/-! ## Places -/

theorem node?_put_self (hplace : place ≠ []) : (d.put place n).node? place = some n := by
  simp [node?, put, hplace]

theorem lookup_filter_ne (h : p ≠ place) (nodes : List (List String × Node)) :
    (nodes.filter (·.1 ≠ place)).lookup p = nodes.lookup p := by
  induction nodes with
  | nil => rfl
  | cons node nodes ih =>
      rcases node with ⟨q, n⟩
      rw [List.filter_cons, List.lookup_cons]
      by_cases hq : q = place
      · subst hq
        have hpq : (p == q) = false := by simpa using h
        simp only [ne_eq, not_true_eq_false, decide_false, Bool.false_eq_true, if_false]
        rw [hpq]
        exact ih
      · simp only [ne_eq, hq, not_false_eq_true, decide_true, if_true, List.lookup_cons]
        split
        · rfl
        · exact ih

theorem node?_put_of_ne (h : p ≠ place) : (d.put place n).node? p = d.node? p := by
  have hne : (p == place) = false := by simpa using h
  unfold node? put
  simp only [List.lookup_cons, hne, lookup_filter_ne h]

/-! ## Ways -/

/-- Only folders are passed through. -/
theorem node?_of_step {part : String} (h : d.step p part = .ok q) : d.node? p = some .folder := by
  unfold step at h
  split at h
  next hfolder => exact hfolder
  next => cases h
  next => cases h

theorem step_put (hplace : d.node? place ≠ some .folder) {part : String}
    (h : d.step p part = .ok q) : (d.put place n).step p part = .ok q := by
  have hne : p ≠ place := by
    rintro rfl
    exact hplace (node?_of_step h)
  unfold step at h ⊢
  rw [node?_put_of_ne hne]
  exact h

/-- A way that leads past a file leads to the same place once the file is written. -/
theorem walk_put (hplace : d.node? place ≠ some .folder) {parts : List String}
    (h : d.walk p parts = .ok q) : (d.put place n).walk p parts = .ok q := by
  unfold walk at h ⊢
  induction parts generalizing p with
  | nil => exact h
  | cons part parts ih =>
      simp only [List.foldlM_cons, bind, Except.bind] at h ⊢
      cases hstep : d.step p part with
      | error e => rw [hstep] at h; cases h
      | ok p' =>
          rw [hstep] at h
          rw [step_put hplace hstep]
          exact ih h

/-! ## Files -/

variable {path : String}

/-- A path leads to the place of a file to be written: through folders up to the last
part, which is not empty, and from there to no folder. -/
structure Leads (d : Memory) (path : String) (place : List String) : Prop where
  checked : checked path = .ok ()
  way : ∃ before part folder, parts path = before ++ [part] ∧ part ≠ "" ∧
    d.walk (origin path) before = .ok folder ∧ d.step folder part = .ok place
  not_folder : d.node? place ≠ some .folder

theorem lastFirst_of_parts {before : List String} {part : String}
    (hparts : parts path = before ++ [part]) (hpart : part ≠ "") :
    lastFirst path = part :: before.reverse := by
  simp [lastFirst, hparts, hpart]

/-- Without an empty part at its end a path leads to its last part. -/
theorem parts_of_lastFirst {before : List String} {part : String}
    (hlast : lastFirst path = part :: before) (hslash : (parts path).getLast? ≠ some "") :
    parts path = before.reverse ++ [part] ∧ part ≠ "" := by
  rcases List.eq_nil_or_concat (parts path) with hnil | ⟨front, final, hfinal⟩
  · simp [lastFirst, hnil] at hlast
  · rw [List.concat_eq_append] at hfinal
    have hne : final ≠ "" := by simpa [hfinal] using hslash
    have heq := lastFirst_of_parts hfinal hne
    rw [hlast, List.cons.injEq] at heq
    rcases heq with ⟨rfl, rfl⟩
    exact ⟨by simpa using hfinal, hne⟩

theorem target_eq_ok_iff : d.target path = .ok place ↔ d.Leads path place := by
  constructor
  · intro h
    unfold target at h
    cases hchecked : Memory.checked path with
    | error e => rw [hchecked] at h; cases h
    | ok _ =>
        simp only [hchecked, bind, Except.bind] at h
        split at h
        next => cases h
        next part before hlast =>
          split at h
          next => cases h
          next folder hwalk =>
            split at h
            next => cases h
            next place' hstep =>
              split_ifs at h with hslash
              split at h
              next => cases h
              next hfolder =>
                obtain rfl := Except.ok.inj h
                have hparts := parts_of_lastFirst hlast hslash
                exact ⟨hchecked, ⟨_, part, folder, hparts.1, hparts.2, hwalk, hstep⟩, hfolder⟩
  · intro h
    rcases h with ⟨hchecked, ⟨before, part, folder, hparts, hpart, hwalk, hstep⟩, hfolder⟩
    have hslash : (parts path).getLast? ≠ some "" := by simpa [hparts] using hpart
    unfold target
    simp only [hchecked, lastFirst_of_parts hparts hpart, List.reverse_reverse, bind,
      Except.bind, hwalk, hstep, if_neg hslash]

namespace Leads

variable (h : d.Leads path place)

include h

theorem ne_nil : place ≠ [] := by
  rintro rfl
  exact h.not_folder rfl

theorem put (contents : ByteArray) : (d.put place (.file contents)).Leads path place := by
  rcases h.way with ⟨before, part, folder, hparts, hpart, hwalk, hstep⟩
  refine ⟨h.checked, ⟨before, part, folder, hparts, hpart, ?_, ?_⟩, ?_⟩
  · exact walk_put h.not_folder hwalk
  · exact step_put h.not_folder hstep
  · simp [node?_put_self h.ne_nil]

theorem locate : d.locate path = .ok place := by
  rcases h.way with ⟨before, part, folder, hparts, _, hwalk, hstep⟩
  unfold walk at hwalk
  unfold Memory.locate walk
  simp only [h.checked, hparts, bind, Except.bind, List.foldlM_append, hwalk,
    List.foldlM_cons, hstep, List.foldlM_nil, pure, Except.pure]

theorem write_of_not_device {contents : ByteArray} (hfull : d.node? place ≠ some .full)
    (hnull : d.node? place ≠ some .null) :
    d.write path contents = .ok (d.put place (.file contents)) := by
  unfold write
  simp only [target_eq_ok_iff.2 h, bind, Except.bind]

theorem write_put (old contents : ByteArray) :
    (d.put place (.file old)).write path contents =
      .ok ((d.put place (.file old)).put place (.file contents)) := by
  apply (h.put old).write_of_not_device
  · simp [node?_put_self h.ne_nil]
  · simp [node?_put_self h.ne_nil]

theorem read_put (contents : ByteArray) :
    (d.put place (.file contents)).read path = .ok (some contents) := by
  unfold read
  simp only [(h.put contents).locate, bind, Except.bind, node?_put_self h.ne_nil]

end Leads

/-- A disk in memory keeps a file that can be written, apart from its devices. -/
theorem keeps_of_target (h : d.target path = .ok place) (hfull : d.node? place ≠ some .full)
    (hnull : d.node? place ≠ some .null) : Disk.Keeps d path := by
  have hleads := target_eq_ok_iff.1 h
  refine ⟨d.put place (.file ByteArray.empty), ?_, fun text => ?_⟩
  · change Memory.change (·.write path ByteArray.empty) d = _
    simp only [Memory.change, hleads.write_of_not_device hfull hnull]
  · refine ⟨(d.put place (.file ByteArray.empty)).put place (.file text.toUTF8), ?_, ?_⟩
    · change Memory.change (·.write path text.toUTF8) _ = _
      simp only [Memory.change, hleads.write_put]
    · change (_, _) = _
      rw [(hleads.put _).read_put]

end Memory

end OptionAtlas
