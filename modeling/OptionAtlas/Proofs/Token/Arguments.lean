import Mathlib.Data.List.Forall2
import OptionAtlas.Arguments
import OptionAtlas.Proofs.Token.Classification

/-!
# Reading drafted arguments back

A list of arguments is drafted from keys and texts and classified without a word about
its making. The classes say what the arguments were made from: the long name of a key is
read as the flag of this key, and a text that does not look like an option is read as an
argument. Only a text that is the separator could make a name behind it an argument.

## Main definitions

* `Origin`, `Call.origins` — what the arguments of a draft are made from.
* `Draft.Holds` — a draft that was made from these origins.
* `ReadsBack` — the classes say what the arguments were made from.

## Main statements

* `Draft.Holds.addAll` — the origins of a draft are those of its calls.
* `readsBack_finish` — what is drafted is read back.
-/

namespace OptionAtlas

/-- What an argument is made from: a key, or a text that is taken as it is. -/
inductive Origin where
  | name (key : String)
  | text (s : String)

/-- What the arguments that a call appends are made from. -/
def Call.origins : Call → List Origin
  | .flag key => [.name key]
  | .flagIf key enabled => if enabled then [.name key] else []
  | .option key value => [.name key, .text value]
  | .optionIfSome key (some value) => [.name key, .text value]
  | .optionIfSome _ none => []
  | .positional arg => [.text arg]

namespace Origin

/-- A key is written as the long name of its flag. -/
def Writes (flags : Catalog) : Origin → String → Prop
  | .name key, arg => ∃ e, flags.entry key = .ok e ∧ arg = e.flag.long
  | .text s, arg => arg = s

/-- What it means to read an origin back. Nothing is said about a text that looks like
an option, except that it comes through unchanged. -/
def Reads (flags : Catalog) : Origin → TokenReport → Prop
  | .name key, r =>
    ∃ e, flags.entry key = .ok e ∧ r = ⟨e.flag.long, .flag key e.group none⟩
  | .text s, r =>
    r.token = s ∧ (s = "-" ∨ s.toList.head? ≠ some '-' → r.kind = .positional)

theorem forall₂_writes_text (flags : Catalog) (ss : List String) :
    List.Forall₂ (Writes flags) (ss.map .text) ss := by
  rw [List.forall₂_map_left_iff, List.forall₂_same]
  exact fun _ _ => rfl

end Origin

/-- The reports of `args` say one by one what the arguments were made from, and none of
them is the separator. -/
def ReadsBack (flags : Catalog) (os : List Origin) (args : List String) : Prop :=
  List.Forall₂ (Origin.Reads flags) os (classify flags args) ∧
    ∀ r ∈ classify flags args, r.kind ≠ .terminator

variable {flags : Catalog} {os : List Origin} {d : Draft}

/-! ## Drafts -/

/-- The arguments of a draft that is not spoiled are those of its origins. -/
structure Draft.Holds (flags : Catalog) (os : List Origin) (d : Draft) : Prop where
  flags_eq : d.flags = flags
  args_eq : d.defect = none → List.Forall₂ (Origin.Writes flags) os d.args

namespace Draft.Holds

theorem append_text (H : d.Holds flags os) (arg : String) :
    Draft.Holds flags (os ++ [.text arg]) { d with args := d.args ++ [arg] } where
  flags_eq := H.flags_eq
  args_eq hclean := List.rel_append (H.args_eq hclean) (.cons rfl .nil)

theorem addFlag (H : d.Holds flags os) (key : String) (more : List String) :
    (d.addFlag key more).Holds flags (os ++ .name key :: more.map .text) := by
  rw [Draft.addFlag]
  split
  next e hdefect =>
    exact ⟨H.flags_eq, fun hclean => absurd (hdefect.symm.trans hclean) nofun⟩
  next hclean =>
    split
    next f hf =>
      rw [H.flags_eq, Catalog.lookup] at hf
      cases hentry : flags.entry key with
      | error e => rw [hentry] at hf; cases hf
      | ok e =>
          rw [hentry] at hf
          cases hf
          refine ⟨H.flags_eq, fun _ => List.rel_append (H.args_eq hclean) ?_⟩
          exact .cons ⟨e, hentry, rfl⟩ (Origin.forall₂_writes_text flags more)
    -- A key that the catalog lacks spoils the draft, and then nothing is promised.
    next e _ => exact ⟨H.flags_eq, nofun⟩

/-- One call appends the arguments of its origins. -/
theorem add (H : d.Holds flags os) (call : Call) :
    (d.add call).Holds flags (os ++ call.origins) := by
  cases call with
  | flag key => exact H.addFlag key []
  | flagIf key enabled =>
      cases enabled with
      | true => exact H.addFlag key []
      | false => simpa [Draft.add, Call.origins] using H
  | option key value => exact H.addFlag key [value]
  | optionIfSome key value =>
      cases value with
      | some value => exact H.addFlag key [value]
      | none => simpa [Draft.add, Call.origins] using H
  | positional arg => exact H.append_text arg

/-- Several calls append the arguments of their origins in order. -/
theorem addAll (H : d.Holds flags os) (calls : List Call) :
    (d.addAll calls).Holds flags (os ++ calls.flatMap Call.origins) := by
  induction calls generalizing d os with
  | nil => simpa [Draft.addAll] using H
  | cons call calls ih =>
      rw [Draft.addAll, List.foldl_cons, ← Draft.addAll, List.flatMap_cons, ← List.append_assoc]
      exact ih (H.add call)

theorem ofCatalog (flags : Catalog) : (Draft.ofCatalog flags).Holds flags [] where
  flags_eq := rfl
  args_eq _ := .nil

/-- The draft of a command starts with the words of its name. -/
theorem ofCommand {r : Registry} {command : String} (h : Draft.ofCommand r command = .ok d) :
    ∃ flags, r.command command = .ok flags ∧
      d.Holds flags ((Text.wordsOf command).map .text) := by
  rw [Draft.ofCommand, bind_eq_ok_iff] at h
  obtain ⟨flags, hflags, hd⟩ := h
  obtain rfl := pure_eq_ok_iff.1 hd
  exact ⟨flags, hflags, rfl, fun _ => Origin.forall₂_writes_text flags _⟩

end Draft.Holds

/-! ## Classes of drafted arguments -/

/-- What is written is read back, whatever stands around it. -/
theorem Origin.Writes.reads {o : Origin} {arg : String} (h : o.Writes flags arg) :
    o.Reads flags ⟨arg, classOf flags arg⟩ := by
  cases o with
  | name key =>
      obtain ⟨e, hentry, rfl⟩ := h
      obtain ⟨he, rfl⟩ := Catalog.entry_eq_ok_iff.1 hentry
      exact ⟨e, hentry, by rw [classOf_of_mem he (by simp)]⟩
  | text s =>
      cases h
      exact ⟨rfl, classOf_of_positional⟩

/-- No long name is the separator, so that only a text can be. -/
theorem Origin.Writes.ne_separator {o : Origin} {arg : String} (h : o.Writes flags arg)
    (ho : o ≠ .text "--") : arg ≠ "--" := by
  cases o with
  | name key =>
      obtain ⟨e, _, rfl⟩ := h
      obtain ⟨c, cs, hlong, _⟩ := e.flag.longName.exists_toList
      intro heq
      rw [heq] at hlong
      cases hlong
  | text s =>
      cases h
      exact fun heq => ho (by rw [heq])

theorem separator_notMem {args : List String} (h : List.Forall₂ (Origin.Writes flags) os args)
    (hos : .text "--" ∉ os) : "--" ∉ args := by
  induction h with
  | nil => simp
  | cons ho _ ih =>
      rw [List.mem_cons, not_or] at hos
      rw [List.mem_cons, not_or]
      exact ⟨(ho.ne_separator (Ne.symm hos.1)).symm, ih hos.2⟩

/-- A finished draft is read back. -/
theorem Draft.Holds.readsBack {args : List String} (H : d.Holds flags os)
    (hfinish : d.finish = .ok args) (hos : .text "--" ∉ os) : ReadsBack flags os args := by
  have hargs : d.defect = none ∧ d.args = args := by
    rw [Draft.finish] at hfinish
    split at hfinish
    next => cases hfinish
    next hclean => exact ⟨hclean, Except.ok.inj hfinish⟩
  obtain ⟨hclean, rfl⟩ := hargs
  have written := H.args_eq hclean
  rw [ReadsBack, classify_of_separator_notMem (separator_notMem written hos)]
  constructor
  · rw [List.forall₂_map_right_iff]
    exact written.imp fun _ _ => Origin.Writes.reads
  · intro r hr
    obtain ⟨arg, _, rfl⟩ := List.mem_map.1 hr
    exact classOf_ne_terminator

/-- **What is drafted is read back.**  When a draft over a catalog or for a command is
finished and no text in it is the separator, the classes of the arguments under the same
flags say what the arguments were made from. -/
theorem readsBack_finish (calls : List Call) (args : List String) :
    (∀ flags, ((Draft.ofCatalog flags).addAll calls).finish = .ok args →
      Origin.text "--" ∉ calls.flatMap Call.origins →
        ReadsBack flags (calls.flatMap Call.origins) args) ∧
    ∀ (r : Registry) (command : String),
      (do ((← Draft.ofCommand r command).addAll calls).finish) = .ok args →
      "--" ∉ Text.wordsOf command → Origin.text "--" ∉ calls.flatMap Call.origins →
        ∃ flags, r.command command = .ok flags ∧
          ReadsBack flags ((Text.wordsOf command).map .text ++ calls.flatMap Call.origins)
            args := by
  constructor
  · intro flags hfinish htexts
    exact ((Draft.Holds.ofCatalog flags).addAll calls).readsBack hfinish htexts
  · intro r command h hwords htexts
    rw [bind_eq_ok_iff] at h
    obtain ⟨d, hd, hfinish⟩ := h
    obtain ⟨flags, hflags, H⟩ := Draft.Holds.ofCommand hd
    refine ⟨flags, hflags, (H.addAll calls).readsBack hfinish ?_⟩
    simp only [List.mem_append, List.mem_map, Origin.text.injEq, exists_eq_right, not_or]
    exact ⟨hwords, htexts⟩

/-- A registry of one command, whose name is of two words. -/
def formatRegistry : Registry where
  catalogs := [formatFlags]
  recipes := [⟨"project run", ["base"], []⟩]
  commands := [⟨"project run", formatFlags.entries, formatFlags.apart⟩]
  assembled := by decide +kernel

/-- A flag whose value looks like a flag, and the name of standard input. -/
def formatCalls : List Call := [.option "FORMAT" "-f", .positional "-"]

theorem readsBack_finish_formatRegistry :
    ((Draft.ofCatalog formatFlags).addAll formatCalls).finish = .ok ["--format", "-f", "-"] ∧
      ReadsBack formatFlags [.name "FORMAT", .text "-f", .text "-"] ["--format", "-f", "-"] ∧
      (do ((← Draft.ofCommand formatRegistry "project run").addAll formatCalls).finish) =
        .ok ["project", "run", "--format", "-f", "-"] ∧
      ∃ flags, formatRegistry.command "project run" = .ok flags ∧
        ReadsBack flags
          [.text "project", .text "run", .name "FORMAT", .text "-f", .text "-"]
          ["project", "run", "--format", "-f", "-"] := by
  have hcatalog : ((Draft.ofCatalog formatFlags).addAll formatCalls).finish =
      .ok ["--format", "-f", "-"] := by
    decide +kernel
  have hcommand : (do ((← Draft.ofCommand formatRegistry "project run").addAll
      formatCalls).finish) = .ok ["project", "run", "--format", "-f", "-"] := by
    decide +kernel
  have hwords : Text.wordsOf "project run" = ["project", "run"] := by decide +kernel
  have htexts : Origin.text "--" ∉ formatCalls.flatMap Call.origins := by
    simp [formatCalls, Call.origins]
  have fromCommand := (readsBack_finish formatCalls _).2 formatRegistry "project run" hcommand
    (by rw [hwords]; decide) htexts
  rw [hwords] at fromCommand
  exact ⟨hcatalog, (readsBack_finish formatCalls _).1 formatFlags hcatalog htexts, hcommand,
    fromCommand⟩

end OptionAtlas
