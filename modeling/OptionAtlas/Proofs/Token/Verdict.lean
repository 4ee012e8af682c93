import OptionAtlas.Proofs.Registry.Resolution
import OptionAtlas.Proofs.Token.Arguments
import OptionAtlas.Proofs.Token.Report

/-!
# The verdict on a token list

The answer to a token list shows one report for each token, in every style and whether or
not it comes with a complaint. The complaint names those tokens in front of the separator
that look like options and are no flags of the command, as often as they occur.

## Main statements

* `unknownOptions_classify` — the tokens that are complained about.
* `answerResolve_by_tokens` — the whole answer.
-/

namespace OptionAtlas

/-! ## Unknown options -/

variable {flags : Catalog}

instance : DecidablePred (TokenClass.unknownOption.Fits flags) := fun token =>
  decidable_of_iff (classOf flags token = .unknownOption) classOf_eq_iff

theorem map_token_classify (flags : Catalog) (ts : List String) :
    (classify flags ts).map (·.token) = ts := by
  induction ts with
  | nil => rfl
  | cons t ts ih =>
      rw [classify]
      split
      next => simp [Function.comp_def]
      next => rw [List.map_cons, ih]

/-- Behind the separator no token is an unknown option. -/
theorem unknownOptions_classify (flags : Catalog) (ts : List String) :
    unknownOptions (classify flags ts) =
      (ts.takeWhile (· ≠ "--")).filter (TokenClass.unknownOption.Fits flags) := by
  induction ts with
  | nil => rfl
  | cons t ts ih =>
      rw [classify]
      by_cases ht : t = "--"
      · simp [ht, unknownOptions, List.filter_eq_nil_iff]
      · rw [if_neg ht, List.takeWhile_cons_of_pos (by simpa using ht), List.filter_cons, ← ih,
          unknownOptions, List.filter_cons]
        simp only [decide_eq_true_eq, ← classOf_eq_iff]
        split <;> rfl

/-! ## Answers -/

variable {command : String}

theorem unknownComplaint_eq_some_iff {ts : List String} {message : String} :
    unknownComplaint command ts = some message ↔
      ts ≠ [] ∧ message = toString ts.length ++ " unknown option(s) for '" ++ command ++ "': "
        ++ ", ".intercalate ts := by
  cases ts <;> simp [unknownComplaint, eq_comm]

theorem answerResolve_of_command {r : Registry} (h : r.command command = .ok flags)
    (style : Style) (tokens : List String) :
    answerResolve r command style tokens =
      ⟨showReports (classify flags tokens) style,
        unknownComplaint command
          ((tokens.takeWhile (· ≠ "--")).filter (TokenClass.unknownOption.Fits flags)), []⟩ := by
  rw [answerResolve, h, ← unknownOptions_classify]

/-- **The verdict matches the report.**  For a command that is there, each token is reported
in its place and the output shows these reports, in every style and whatever is complained
about; and the complaint counts and lists the tokens in front of the separator that look like
options and are no flags of the command, which are those reported as unknown options. For any
other command nothing is shown. -/
theorem answerResolve_by_tokens (r : Registry) (command : String) (style : Style)
    (tokens : List String) :
    (∀ q ∈ r.recipes, q.name = command → ∃ flags, r.command command = .ok flags ∧
      (classify flags tokens).map (·.token) = tokens ∧
      style.Shows (classify flags tokens) (answerResolve r command style tokens).output ∧
      ((classify flags tokens).filter (·.kind = .unknownOption)).map (·.token) =
        (tokens.takeWhile (· ≠ "--")).filter (TokenClass.unknownOption.Fits flags) ∧
      ((∃ message, (answerResolve r command style tokens).complaint = some message) ↔
        ∃ t ∈ tokens.takeWhile (· ≠ "--"), TokenClass.unknownOption.Fits flags t) ∧
      ∀ message, (answerResolve r command style tokens).complaint = some message ↔
        ∃ unknown, unknown ≠ [] ∧
          unknown = (tokens.takeWhile (· ≠ "--")).filter (TokenClass.unknownOption.Fits flags) ∧
          message = toString unknown.length ++ " unknown option(s) for '" ++ command ++ "': "
            ++ ", ".intercalate unknown) ∧
    ((∀ q ∈ r.recipes, q.name ≠ command) →
      answerResolve r command style tokens = ⟨"", some ("unknown command: " ++ command), []⟩) := by
  constructor
  · rintro q hq rfl
    obtain ⟨flags, hflags, _⟩ := Registry.exists_command hq
    refine ⟨flags, hflags, map_token_classify flags tokens, ?_,
      unknownOptions_classify flags tokens, ?_, ?_⟩
    · rw [answerResolve_of_command hflags]
      exact shows_showReports _ style
    · simp only [answerResolve_of_command hflags, unknownComplaint_eq_some_iff, ne_eq,
        exists_and_left, exists_eq, and_true, List.filter_eq_nil_iff, not_forall,
        decide_eq_true_eq, not_not, exists_prop]
    · intro message
      simp only [answerResolve_of_command hflags, unknownComplaint_eq_some_iff]
      constructor
      · rintro ⟨hne, hmessage⟩
        exact ⟨_, hne, rfl, hmessage⟩
      · rintro ⟨_, hne, rfl, hmessage⟩
        exact ⟨hne, hmessage⟩
  · intro habsent
    have herror : r.command command = .error (.unknownCommand command) :=
      Registry.command_eq_error_iff.2 ⟨rfl, habsent⟩
    rw [answerResolve, herror]
    rfl

/-- A cluster that occurs twice, a flag with a value, and an option behind the separator. -/
def clusterTokens : List String := ["-fx", "--format=a=b", "-fx", "--", "-x"]

theorem answerResolve_by_tokens_clusterTokens :
    (⟨"project run", ["base"], []⟩ : Recipe) ∈ formatRegistry.recipes ∧
      (∃ flags, formatRegistry.command "project run" = .ok flags ∧
        (classify flags clusterTokens).map (·.token) = clusterTokens ∧
        Style.yaml.Shows (classify flags clusterTokens)
          (answerResolve formatRegistry "project run" .yaml clusterTokens).output) ∧
      (answerResolve formatRegistry "project run" .yaml clusterTokens).complaint =
        some "2 unknown option(s) for 'project run': -fx, -fx" ∧
      (∀ q ∈ formatRegistry.recipes, q.name ≠ "run") ∧
      answerResolve formatRegistry "run" .yaml clusterTokens =
        ⟨"", some "unknown command: run", []⟩ := by
  have hrecipe : (⟨"project run", ["base"], []⟩ : Recipe) ∈ formatRegistry.recipes := by
    simp [formatRegistry]
  have habsent : ∀ q ∈ formatRegistry.recipes, q.name ≠ "run" := by
    simp [formatRegistry]
  obtain ⟨flags, hflags, htokens, hshown, _⟩ :=
    (answerResolve_by_tokens formatRegistry "project run" .yaml clusterTokens).1 _ hrecipe rfl
  refine ⟨hrecipe, ⟨flags, hflags, htokens, hshown⟩, by decide +kernel, habsent, ?_⟩
  exact (answerResolve_by_tokens formatRegistry "run" .yaml clusterTokens).2 habsent

end OptionAtlas
