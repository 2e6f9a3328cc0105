import VectorStyle.Proofs.CommandLine.Calls
import VectorStyle.Proofs.CommandLine.Tasks
import VectorStyle.Proofs.Length.Reading

/-!
# How a run ends

A run should end with a result, or with a refusal and without a result. What is wrong with the words
or the environment is found before anything is printed. What is left is a resolution that is
accepted, being a whole number from one on, and too large for the numbers that lengths are made of.
It is found at the first physical length, after the lines before that have been printed.

Main statement: `run_isAnswer_iff`, which runs end as they should and how the others end.
-/

set_option autoImplicit false

namespace VectorStyle.CommandLine

/-- A run that ends as it should: with 0 or 2, without a failure, and with no output but for 0. -/
structure Outcome.IsAnswer (o : Outcome) : Prop where
  exit_eq : o.exit = 0 ∨ o.exit = 2
  failure_eq : o.failure = none
  stdout_eq : o.exit ≠ 0 → o.stdout = ""

/-- The words make a call, which the environment configures and which is a task. -/
def Performs (words : List String) (env : Environment) (config : Config) (t : Task) : Prop :=
  ∃ c, readCall words = .ok c ∧ configure env c = .ok config ∧ readTask config c = .ok t

theorem isAnswer_stop (level : Option LogLevel) (s : Stop) : (s.outcome level).IsAnswer := by
  obtain ⟨hexit | ⟨hexit, hstdout⟩, hfailure⟩ := exit_of_stop level s
  · exact ⟨.inl hexit, hfailure, fun hne => absurd hexit hne⟩
  · exact ⟨.inr hexit, hfailure, fun _ => hstdout⟩

theorem Performs.run_eq {words : List String} {env : Environment} {config : Config} {t : Task}
    (h : Performs words env config t) : run words env = t.outcome config.level := by
  obtain ⟨c, hcall, hconfigure, htask⟩ := h
  simp only [run, hcall, hconfigure, ok_bind]
  show finish config c = _
  simp only [finish, htask]

/-- A run that does not come to a task ends early. -/
theorem exists_stop {words : List String} {env : Environment}
    (h : ∀ config t, ¬ Performs words env config t) :
    ∃ level stop, run words env = Stop.outcome level stop := by
  cases hcall : readCall words with
  | error stop =>
    refine ⟨none, stop, ?_⟩
    simp only [run, hcall]
    rfl
  | ok c =>
    cases hconfigure : configure env c with
    | error stop =>
      refine ⟨none, stop, ?_⟩
      simp only [run, hcall, hconfigure, ok_bind]
      rfl
    | ok config =>
      cases htask : readTask config c with
      | error stop =>
        refine ⟨some config.level, stop, ?_⟩
        simp only [run, hcall, hconfigure, ok_bind]
        show finish config c = _
        simp only [finish, htask]
      | ok t => exact absurd ⟨c, hcall, hconfigure, htask⟩ (h config t)

/-- Which runs end as they should: those that come to no task in which a physical length meets a
resolution that is too large. The others fail with 1 after the lines before that length. -/
theorem run_isAnswer_iff (words : List String) (env : Environment) :
    ((run words env).IsAnswer ↔ ∀ config t, Performs words env config t → ¬ t.Overflows) ∧
      ∀ config t, Performs words env config t → t.Overflows →
        ∃ before l after printed, t.lengths = before ++ l :: after ∧
          (∀ m ∈ before, m.isPhysical = false) ∧ l.isPhysical = true ∧
          List.Forall₂ (fun l line => t.line l = .ok line) before printed ∧
          run words env =
            ⟨1, String.join (t.heading ++ printed), "", some config.level,
              some .resolutionTooLarge⟩ := by
  have hfails : ∀ config t, Performs words env config t → t.Overflows →
      ∃ before l after printed, t.lengths = before ++ l :: after ∧
        (∀ m ∈ before, m.isPhysical = false) ∧ l.isPhysical = true ∧
        List.Forall₂ (fun l line => t.line l = .ok line) before printed ∧
        run words env =
          ⟨1, String.join (t.heading ++ printed), "", some config.level,
            some .resolutionTooLarge⟩ := by
    intro config t hperforms hoverflows
    rw [hperforms.run_eq]
    exact Task.exists_outcome_of_overflows hoverflows config.level
  refine ⟨⟨?_, ?_⟩, hfails⟩
  · intro hanswer config t hperforms hoverflows
    obtain ⟨before, l, after, printed, -, -, -, -, hrun⟩ := hfails config t hperforms hoverflows
    have hfailure := hanswer.failure_eq
    rw [hrun] at hfailure
    cases hfailure
  · intro h
    by_cases hperforms : ∃ config t, Performs words env config t
    · obtain ⟨config, t, hperforms⟩ := hperforms
      obtain ⟨printed, -, houtcome⟩ := Task.exists_outcome (h config t hperforms) config.level
      rw [hperforms.run_eq, houtcome]
      exact ⟨.inl rfl, rfl, fun hne => absurd rfl hne⟩
    · -- help, the version or a refusal
      obtain ⟨level, stop, hrun⟩ :=
        exists_stop fun config t hp => hperforms ⟨config, t, hp⟩
      rw [hrun]
      exact isAnswer_stop level stop

/-! ## A resolution that is too large -/

/-- The least resolution of 310 digits. -/
def tallResolution : String := toString (Nat.pow 10 309)

/-- A pixel is printed, and then an inch cannot be. -/
theorem run_tallResolution :
    run ["resolve", "1px", "1in", "--dpi", tallResolution] (fun _ => none) =
        ⟨1, "1px -> 1\n", "", some .warning, some .resolutionTooLarge⟩ ∧
      ¬ ∀ words env, (run words env).IsAnswer := by
  obtain ⟨n, hdpi, hpositive, hlarge⟩ : ∃ n : Nat,
      Text.Integer.read? tallResolution = some (n : Int) ∧
        1 ≤ (n : Int) ∧ Binary64.wholeOverflow ≤ n := by
    refine ⟨Nat.pow 10 309, ?_, by decide +kernel, by decide +kernel⟩
    apply Text.Integer.read?_pow_ten
    decide
  have hconfig : Config.ofEnvironment (fun _ => none) = .ok Config.default :=
    Config.ofEnvironment_of_blank _ (by decide) (by decide)
  have hwords : ResolveWords ["1px", "1in", "--dpi", tallResolution] (some (n : Int))
      ["1px", "1in"] :=
    .text (by decide) (.text (by decide) (.dpi .apart hdpi hpositive .nothing))
  have hone : 1 ≤ Nat.pow 2 53 := by decide
  have hpixel : Length.read "1px" = .ok (Length.ofRead (Binary64.ofInt 1) .pixel) :=
    Length.read_whole hone .pixel
  have hinch : Length.read "1in" = .ok (Length.ofRead (Binary64.ofInt 1) .inch) :=
    Length.read_whole hone .inch
  have hfirst : conversionLine n (Length.ofRead (Binary64.ofInt 1) .pixel) = .ok "1px -> 1\n" := by
    have htext : (Length.ofRead (Binary64.ofInt 1) .pixel).text = "1px" := by decide +kernel
    have huser : (Length.mk (Binary64.ofInt 1) .user).text = "1" := by decide +kernel
    have hconverted (x : Binary64) : (Length.ofRead x .pixel).toUserUnits n = .ok ⟨x, .user⟩ := rfl
    rw [conversionLine, hconverted, Except.map, htext, huser]
    decide
  have hsecond : conversionLine n (Length.ofRead (Binary64.ofInt 1) .inch) =
      .error .resolutionTooLarge := by
    rw [conversionLine, map_eq_error_iff, Length.toUserUnits_eq_error_iff,
      Binary64.ofInt?_eq_none_iff]
    exact ⟨rfl, hlarge⟩
  have hlines : (Task.convert n [Length.ofRead (Binary64.ofInt 1) .pixel,
      Length.ofRead (Binary64.ofInt 1) .inch]).lines =
      ["1px -> 1\n"].map .ok ++ [.error .resolutionTooLarge] := by
    rw [Task.lines, List.map_cons, List.map_singleton, hfirst, hsecond]
    rfl
  have hrun : run ["resolve", "1px", "1in", "--dpi", tallResolution] (fun _ => none) =
      ⟨1, "1px -> 1\n", "", some .warning, some .resolutionTooLarge⟩ := by
    have hconverts := run_resolveWords hconfig .nothing hwords (List.cons_ne_nil _ _)
      (.cons hpixel (.cons hinch .nil))
    rw [Option.getD_some, Task.outcome_of_lines_eq_append hlines] at hconverts
    exact hconverts
  refine ⟨hrun, ?_⟩
  intro h
  have hfailure := (h ["resolve", "1px", "1in", "--dpi", tallResolution] fun _ => none).failure_eq
  rw [hrun] at hfailure
  cases hfailure

end VectorStyle.CommandLine
