import OptionAtlas.Proofs.Registry.Resolution
import OptionAtlas.Proofs.Text.Words
import OptionAtlas.Proofs.Token.Arguments

/-!
# What comes of a draft

A draft that is not spoiled holds what its calls are made from, call by call. The first
call that names a key that the catalog lacks spoils it for good: no call before it and no
call behind it changes what is reported.

## Main definitions

* `Call.Misses` — the call names a key that the catalog lacks.
* `Draft.Outcome` — what a finished draft says about its calls.

## Main statements

* `Draft.add_cases` — all that a call can do.
* `Draft.defect_addAll` — the defect after a run of calls.
* `Draft.outcome_finish` — what comes of a draft over a catalog and of one for a command.
-/

namespace OptionAtlas

variable {flags : Catalog} {call : Call} {calls : List Call} {d : Draft} {e : Defect}

/-! ## Calls that miss -/

/-- The call names a key that the catalog lacks, and `e` says so. A call that is disabled
or has no value names no key. -/
def Call.Misses (flags : Catalog) (call : Call) (e : Defect) : Prop :=
  ∃ key, .name key ∈ call.origins ∧ (∀ entry ∈ flags.entries, entry.key ≠ key) ∧
    e = .unknownKey key flags.name

/-- The defect of the key from which an argument is made. -/
def Origin.defect? (flags : Catalog) : Origin → Option Defect
  | .name key =>
    match flags.entry key with
    | .ok _ => none
    | .error e => some e
  | .text _ => none

/-- The defect of the key that a call names. -/
def Call.defect? (flags : Catalog) (call : Call) : Option Defect :=
  call.origins.findSome? (Origin.defect? flags)

theorem Origin.defect?_name_eq_some_iff {key : String} :
    (Origin.name key).defect? flags = some e ↔ flags.entry key = .error e := by
  rw [Origin.defect?]
  cases flags.entry key <;> simp

@[simp] theorem Origin.findSome?_defect?_texts (ss : List String) :
    (ss.map Origin.text).findSome? (Origin.defect? flags) = none := by
  simp [List.findSome?_eq_none_iff, Origin.defect?]

/-- A call appends texts, or it appends the name of a key and then texts. -/
theorem Draft.add_cases (call : Call) :
    (∃ ss, call.origins = ss.map .text ∧ ∀ d : Draft, d.add call = { d with args := d.args ++ ss }) ∨
      ∃ key ss, call.origins = .name key :: ss.map .text ∧
        ∀ d : Draft, d.add call = d.addFlag key ss := by
  cases call with
  | flag key => exact .inr ⟨key, [], rfl, fun _ => rfl⟩
  | flagIf key enabled =>
      cases enabled with
      | true => exact .inr ⟨key, [], rfl, fun _ => rfl⟩
      | false => exact .inl ⟨[], rfl, fun d => by simp [Draft.add]⟩
  | option key value => exact .inr ⟨key, [value], rfl, fun _ => rfl⟩
  | optionIfSome key value =>
      cases value with
      | some value => exact .inr ⟨key, [value], rfl, fun _ => rfl⟩
      | none => exact .inl ⟨[], rfl, fun d => by simp [Draft.add]⟩
  | positional arg => exact .inl ⟨[arg], rfl, fun _ => rfl⟩

/-- A call names one key at most. -/
theorem Call.defect?_eq_some_iff : call.defect? flags = some e ↔ call.Misses flags e := by
  rw [Call.defect?, Call.Misses]
  obtain ⟨ss, horigins, _⟩ | ⟨key, ss, horigins, _⟩ := Draft.add_cases call
  · simp [horigins]
  · have horigin : (Origin.name key).defect? flags = some e ↔
        (∀ entry ∈ flags.entries, entry.key ≠ key) ∧ e = .unknownKey key flags.name := by
      rw [Origin.defect?_name_eq_some_iff, Catalog.entry_eq_error_iff, and_comm]
    rw [horigins, List.findSome?_cons, Origin.findSome?_defect?_texts]
    cases h : (Origin.name key).defect? flags <;> simp_all

/-! ## Runs of calls -/

namespace Draft

@[simp] theorem flags_addFlag (d : Draft) (key : String) (more : List String) :
    (d.addFlag key more).flags = d.flags := by
  rw [addFlag]
  split
  next => rfl
  next => split <;> rfl

@[simp] theorem flags_add (d : Draft) (call : Call) : (d.add call).flags = d.flags := by
  obtain ⟨ss, _, hadd⟩ | ⟨key, ss, _, hadd⟩ := add_cases call
  · rw [hadd]
  · rw [hadd, flags_addFlag]

theorem defect_addFlag (d : Draft) (key : String) (more : List String) :
    (d.addFlag key more).defect = d.defect.or ((Origin.name key).defect? d.flags) := by
  rw [addFlag, Catalog.lookup, Origin.defect?]
  cases hdefect : d.defect with
  | some e => simpa using hdefect
  | none => cases d.flags.entry key <;> simp

/-- A call that misses spoils a draft that is not spoiled yet. -/
theorem defect_add (d : Draft) (call : Call) :
    (d.add call).defect = d.defect.or (call.defect? d.flags) := by
  rw [Call.defect?]
  obtain ⟨ss, horigins, hadd⟩ | ⟨key, ss, horigins, hadd⟩ := add_cases call
  · rw [hadd, horigins, Origin.findSome?_defect?_texts, Option.or_none]
  · rw [hadd, defect_addFlag, horigins, List.findSome?_cons, Origin.findSome?_defect?_texts]
    cases (Origin.name key).defect? d.flags <;> rfl

/-- The first call that misses spoils the draft. -/
theorem defect_addAll (d : Draft) (calls : List Call) :
    (d.addAll calls).defect = d.defect.or (calls.findSome? (Call.defect? d.flags)) := by
  induction calls generalizing d with
  | nil => simp [addAll]
  | cons call calls ih =>
      rw [addAll, List.foldl_cons, ← addAll, ih, defect_add, flags_add, List.findSome?_cons,
        Option.or_assoc]
      cases call.defect? d.flags <;> rfl

theorem finish_eq_error_iff : d.finish = .error e ↔ d.defect = some e := by
  rw [finish]
  cases d.defect <;> simp

theorem finish_eq_ok_iff {args : List String} :
    d.finish = .ok args ↔ d.defect = none ∧ d.args = args := by
  rw [finish]
  cases d.defect <;> simp

/-! ## Outcomes -/

/-- What is said by the result of a draft that starts with the texts `front`: it fails for
the first call that misses, and otherwise `front` is followed by what the calls are made
from. -/
structure Outcome (flags : Catalog) (front : List String) (calls : List Call)
    (result : Except Defect (List String)) : Prop where
  fails_iff : (∃ e, result = .error e) ↔ ∃ call ∈ calls, ∃ e, call.Misses flags e
  error_iff (e : Defect) :
    result = .error e ↔ ∃ i, FirstAt (fun _ call e => call.Misses flags e) calls i e
  ok_iff (args : List String) :
    result = .ok args ↔
      ∃ rest, args = front ++ rest ∧
        List.Forall₂ (Origin.Writes flags) (calls.flatMap Call.origins) rest

theorem rightUnique_writes (flags : Catalog) : Relator.RightUnique (Origin.Writes flags) := by
  intro o arg arg' h h'
  cases o with
  | name key =>
      obtain ⟨e, hentry, rfl⟩ := h
      obtain ⟨e', hentry', rfl⟩ := h'
      rw [hentry] at hentry'
      cases hentry'
      rfl
  | text s => exact Eq.trans h h'.symm

/-- Where every argument can be written, no call misses. -/
theorem findSome?_defect?_of_writes {rest : List String}
    (h : List.Forall₂ (Origin.Writes flags) (calls.flatMap Call.origins) rest) :
    calls.findSome? (Call.defect? flags) = none := by
  have clean : ∀ (o : Origin) (arg : String), o.Writes flags arg →
      o.defect? flags = none ∧ o.Writes flags arg := by
    intro o arg harg
    refine ⟨?_, harg⟩
    cases o with
    | name key =>
        obtain ⟨e, hentry, _⟩ := harg
        rw [Origin.defect?, hentry]
    | text s => rfl
  have all := ((List.forall₂_and_left _ _).1 (h.imp clean)).1
  simp only [List.findSome?_eq_none_iff, Call.defect?]
  exact fun call hcall o ho => all o (List.mem_flatMap.2 ⟨call, hcall, ho⟩)

/-- The arguments of a draft that is not spoiled can be written without those it starts
with. -/
theorem defect_addAll_eq_none_iff (front : List String) :
    (addAll ⟨flags, front, none⟩ calls).defect = none ↔
      ∃ rest, List.Forall₂ (Origin.Writes flags) (calls.flatMap Call.origins) rest := by
  rw [defect_addAll, Option.none_or]
  constructor
  · intro h
    have clean : ((ofCatalog flags).addAll calls).defect = none := by
      rw [defect_addAll]
      exact h
    exact ⟨_, ((Holds.ofCatalog flags).addAll calls).args_eq clean⟩
  · rintro ⟨rest, hrest⟩
    exact findSome?_defect?_of_writes hrest

theorem outcome_addAll (flags : Catalog) (front : List String) (calls : List Call) :
    Outcome flags front calls (addAll ⟨flags, front, none⟩ calls).finish where
  fails_iff := by
    simp only [finish_eq_error_iff, ← Option.isSome_iff_exists, defect_addAll, Option.none_or,
      List.findSome?_isSome_iff]
    simp only [Option.isSome_iff_exists, Call.defect?_eq_some_iff]
  error_iff e := by
    rw [finish_eq_error_iff, defect_addAll, Option.none_or, findSome?_eq_some_iff_firstAt]
    simp only [Call.defect?_eq_some_iff]
  ok_iff args := by
    have H : Holds flags (front.map .text) ⟨flags, front, none⟩ :=
      ⟨rfl, fun _ => Origin.forall₂_writes_text flags front⟩
    have same : ∀ rest, (addAll ⟨flags, front, none⟩ calls).defect = none →
        List.Forall₂ (Origin.Writes flags) (calls.flatMap Call.origins) rest →
          (addAll ⟨flags, front, none⟩ calls).args = front ++ rest := by
      intro rest hclean hrest
      exact (rightUnique_writes flags).forall₂ ((H.addAll calls).args_eq hclean)
        (List.rel_append (Origin.forall₂_writes_text flags front) hrest)
    rw [finish_eq_ok_iff]
    constructor
    · rintro ⟨hclean, rfl⟩
      obtain ⟨rest, hrest⟩ := (defect_addAll_eq_none_iff front).1 hclean
      exact ⟨rest, same rest hclean hrest, hrest⟩
    · rintro ⟨rest, rfl, hrest⟩
      have hclean := (defect_addAll_eq_none_iff front).2 ⟨rest, hrest⟩
      exact ⟨hclean, same rest hclean hrest⟩

/-- **A draft writes its calls, or reports the first key that is not there.**  For a command
the draft starts with the words of its name, and a key that is not there is reported with
the name of the command. -/
theorem outcome_finish (calls : List Call) :
    (∀ flags : Catalog, Outcome flags [] calls ((ofCatalog flags).addAll calls).finish) ∧
      ∀ r : Registry, ∀ q ∈ r.recipes, ∃ (flags : Catalog) (words : List String),
        r.command q.name = .ok flags ∧ flags.name = q.name ∧
          Text.FallsInto q.name.toList (words.map String.toList) ∧
          Outcome flags words calls (do ((← ofCommand r q.name).addAll calls).finish) := by
  refine ⟨fun flags => outcome_addAll flags [] calls, ?_⟩
  intro r q hq
  obtain ⟨flags, hflags, hassemble⟩ := Registry.exists_command hq
  have hname : flags.name = q.name := (Recipe.assemble_eq_ok_iff.1 hassemble).2.1
  have hdraft : (do ((← ofCommand r q.name).addAll calls).finish) =
      (addAll ⟨flags, Text.wordsOf q.name, none⟩ calls).finish := by
    rw [ofCommand, hflags]
    rfl
  refine ⟨flags, Text.wordsOf q.name, hflags, hname, Text.fallsInto_wordsOf _, ?_⟩
  rw [hdraft]
  exact outcome_addAll flags _ calls

/-- A disabled call may name any key; of the other calls the third is the first to miss. -/
def strayCalls : List Call :=
  [.flagIf "WIDTH" false, .option "FORMAT" "json", .flag "COLOR", .positional "a b",
    .option "WIDTH" "80"]

theorem outcome_finish_strayCalls :
    (do ((← ofCommand formatRegistry "project run").addAll strayCalls).finish) =
        .error (.unknownKey "COLOR" "project run") ∧
      (⟨"project run", ["base"], []⟩ : Recipe) ∈ formatRegistry.recipes ∧
      ∃ (flags : Catalog) (words : List String),
        formatRegistry.command "project run" = .ok flags ∧ flags.name = "project run" ∧
          Text.FallsInto "project run".toList (words.map String.toList) ∧
          Outcome flags words strayCalls
            (do ((← ofCommand formatRegistry "project run").addAll strayCalls).finish) := by
  have hrecipe : (⟨"project run", ["base"], []⟩ : Recipe) ∈ formatRegistry.recipes := by
    simp [formatRegistry]
  refine ⟨by decide +kernel, hrecipe, ?_⟩
  exact (outcome_finish strayCalls).2 formatRegistry _ hrecipe

end Draft

end OptionAtlas
