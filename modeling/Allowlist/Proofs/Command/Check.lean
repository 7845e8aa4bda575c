import Allowlist.Proofs.Command.Arguments
import Allowlist.Proofs.Command.CarryOut
import Allowlist.Proofs.Run.Verify

/-!
# Checking and generating agree

A run that checks succeeds exactly if the run that would generate has nothing to change. Both come
down to the same condition: the surface file compiles, the file at the destination has the bytes of
the policy, and standard output takes what is told of it.
-/
namespace Allowlist.Command

/-- Ends with a report, and with the exit code of success. -/
def Succeeds (result : World × Except Escape Report) : Prop :=
  ∃ report, result.2 = .ok report ∧ report.code = 0

/-- The same call with the option for checking in front. -/
def Call.checking (c : Call) : Call := { c with arguments := "--check" :: c.arguments }

namespace Plan

/-- The plan to check what another plan generates. -/
def checking (p : Plan) : Plan := { p with check := true }

theorem perform_checking (p : Plan) (fs : Files) : p.checking.perform fs =
    match Policy.enforce fs p.source p.destination p.variant with
    | .ok () => (fs, .upToDate)
    | .error f => (fs, .failed f) := rfl

theorem of_checked (a : Arguments) (s : Settings) (terminal : Bool) :
    Plan.of a.checked s terminal = (Plan.of a s terminal).checking := rfl

theorem grounded_perform (p : Plan) {fs : Files} (hg : fs.Grounded) :
    (p.perform fs).1.Grounded := by
  rw [perform]
  split
  · split
    · exact hg
    · exact hg
  · have h := Policy.grounded_generate hg p.source p.destination p.variant
    split
    · next he =>
      rw [he] at h
      exact h
    · next he =>
      rw [he] at h
      exact h

end Plan

variable {c : Call} {p : Plan} {w : World}

/-- A plan is carried out with success unless it ends in a failure or its success cannot be told. -/
theorem succeeds_carryOut_iff :
    Succeeds (carryOut c p w) ↔ p.Told c ∧ ∀ f, (p.perform w.files).2 ≠ .failed f := by
  rcases p.failed_or_not w.files with ⟨f, hf⟩ | hnot
  · refine iff_of_false ?_ fun h => h.2 f hf
    rintro ⟨report, hr, h0⟩
    rw [report_carryOut hr, Plan.report, hf] at h0
    exact p.code_conclude_failed f h0
  · rw [Succeeds, carryOut_eq, outcome_of_not_failed hnot, and_iff_left hnot,
      ← takes_conclude c p hnot]
    simp only [print_eq_ok_iff]
    constructor
    · rintro ⟨report, ⟨htakes, -⟩, -⟩
      exact htakes
    · intro htakes
      exact ⟨_, ⟨htakes, rfl⟩, p.code_conclude_of_not_failed hnot⟩

theorem succeeds_checking_iff : Succeeds (carryOut c p.checking w) ↔
    p.Told c ∧ ∃ q, Policy.ofFile w.files p.source p.variant = .ok q ∧
      w.files.read (Path.ofText p.destination) = .ok q.render := by
  rw [succeeds_carryOut_iff, Plan.perform_checking, ← Policy.enforce_eq_ok_iff]
  cases Policy.enforce w.files p.source p.destination p.variant <;> simp [Plan.Told, Plan.checking]

theorem succeeds_unchanged_iff (hg : w.files.Grounded) (hp : p.check = false) :
    (Succeeds (carryOut c p w) ∧ (carryOut c p w).1.files = w.files) ↔
      p.Told c ∧ ∃ q, Policy.ofFile w.files p.source p.variant = .ok q ∧
        w.files.read (Path.ofText p.destination) = .ok q.render := by
  simp only [← Policy.generate_eq_self_iff hg]
  rw [succeeds_carryOut_iff, files_carryOut, Plan.perform, hp]
  obtain ⟨files, r⟩ := Policy.generate w.files p.source p.destination p.variant
  cases r with
  | error f => simp
  | ok q => simp

/-- A run keeps the working directory a directory, so one run may follow another. -/
theorem grounded_run (c : Call) {w : World} (hg : w.files.Grounded) :
    (run c w).1.files.Grounded := by
  rw [run]
  split
  · exact hg
  · exact hg
  · split
    · split
      · exact hg
      · exact hg
    · rw [files_carryOut]
      exact Plan.grounded_perform _ hg

theorem run_of_settings {a : Arguments} {s : Settings} (ha : readArguments c.arguments = .ok a)
    (hs : Settings.load w.files a.config c.environment = .ok s) :
    run c w = carryOut c (Plan.of a s c.terminal) w := by
  rw [run, ha]
  simp only [hs]

theorem not_succeeds_of_settings {a : Arguments} {e : Settings.Error}
    (ha : readArguments c.arguments = .ok a)
    (hs : Settings.load w.files a.config c.environment = .error e) : ¬Succeeds (run c w) := by
  rw [run, ha]
  simp only [hs]
  split <;> simp [Succeeds]

/-- Checking succeeds exactly if generating succeeds and leaves all files as they are. -/
theorem succeeds_checking_iff_generating (hg : w.files.Grounded) {a : Arguments}
    (ha : readArguments c.arguments = .ok a) (hc : a.check = false) :
    Succeeds (run c.checking w) ↔ Succeeds (run c w) ∧ (run c w).1.files = w.files := by
  have hchecked : readArguments c.checking.arguments = .ok a.checked := by
    rw [Call.checking, readArguments_check, ha]
    rfl
  -- neither the settings file nor the environment depends on the option
  cases hs : Settings.load w.files a.config c.environment with
  | error e =>
    have hn : ¬Succeeds (run c w) := not_succeeds_of_settings ha hs
    have hn' : ¬Succeeds (run c.checking w) := not_succeeds_of_settings hchecked hs
    simp only [hn, hn', false_and]
  | ok s =>
    have hrun : run c.checking w = carryOut c.checking (Plan.of a s c.terminal).checking w :=
      run_of_settings hchecked hs
    rw [hrun, run_of_settings ha hs]
    exact succeeds_checking_iff.trans (succeeds_unchanged_iff hg hc).symm

/-- A call with the source and the destination, and nothing set in the environment. -/
def plainCall : Call where
  arguments := ["s", "p"]
  environment := []
  clock := ⟨⟨2024, 1, 1, 0, 0, 0, 0⟩, ⟨2024, 1, 1, 0, 0, 0, 0⟩⟩
  logger := "policygen.cli"
  terminal := false
  stdout := .unicode

def plainArguments : Arguments :=
  { Arguments.none with source := some "s", destination := some "p" }

/-- The policy file is up to date. -/
def currentWorld : World := ⟨Policy.oneModuleFiles, Log.State.start⟩

/-- There is no policy file. -/
def freshWorld : World :=
  ⟨⟨[], [(["s"], .file (Utf8.encode Policy.oneEntry.canonical))]⟩, Log.State.start⟩

/-- Checking and generating both find nothing to change, or neither does. -/
theorem run_plainCall :
    (readArguments plainCall.arguments = .ok plainArguments ∧ currentWorld.files.Grounded ∧
      freshWorld.files.Grounded) ∧
    (Succeeds (run plainCall.checking currentWorld) ∧ Succeeds (run plainCall currentWorld) ∧
      (run plainCall currentWorld).1.files = currentWorld.files) ∧
    ¬Succeeds (run plainCall.checking freshWorld) ∧ ¬(Succeeds (run plainCall freshWorld) ∧
      (run plainCall freshWorld).1.files = freshWorld.files) := by
  have hg : currentWorld.files.Grounded := by decide
  have hg' : freshWorld.files.Grounded := by decide
  have ha : readArguments plainCall.arguments = .ok plainArguments := by rfl
  have hchecked : readArguments plainCall.checking.arguments = .ok plainArguments.checked := by rfl
  have hs (fs : Files) : Settings.load fs none plainCall.environment = .ok .default := by rfl
  have hcompile : Policy.compile Policy.oneEntry "s" none = .ok Policy.oneModule := by rfl
  have hcheck : Succeeds (run plainCall.checking currentWorld) := by
    rw [run_of_settings hchecked (hs _), Plan.of_checked, succeeds_checking_iff]
    refine ⟨by rfl, Policy.oneModule, ?_, Policy.read_oneModuleFiles⟩
    exact Policy.ofFile_eq_ok_iff.mpr ⟨_, Policy.load_oneModuleFiles, hcompile⟩
  have hcheck' : ¬Succeeds (run plainCall.checking freshWorld) := by
    have hread : freshWorld.files.read (Path.ofText "p") = .error (.refused .notFound) := by rfl
    rw [run_of_settings hchecked (hs _), Plan.of_checked, succeeds_checking_iff]
    rintro ⟨-, q, -, hr⟩
    cases hread.symm.trans hr
  exact ⟨⟨ha, hg, hg'⟩, ⟨hcheck, (succeeds_checking_iff_generating hg ha rfl).mp hcheck⟩,
    hcheck', fun h => hcheck' ((succeeds_checking_iff_generating hg' ha rfl).mpr h)⟩

end Allowlist.Command
