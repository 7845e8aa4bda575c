import Allowlist.Proofs.Command.Console
import Allowlist.Proofs.Log.Session
import Allowlist.Proofs.Run.Verify

/-!
# Carrying out a plan

What a run leaves and what it reports as one equation. A plan leaves its files, its level and layout,
one more run id made, and the run id before as the current one. It reports how it ends behind what the
log tells of it, unless it ends in a failure that is not expected or standard output does not take its
success.
-/
namespace Allowlist.Command

/-- The run id that is made next. -/
def World.nextId (w : World) : Text := Log.runIdOf (w.log.made + 1)

namespace Plan

/-- The state in which the events of a run are logged. -/
def within (p : Plan) (w : World) : Log.State :=
  ⟨p.level, [p.layout], some w.nextId, w.log.made + 1⟩

/-- What a run has to report. -/
def report (p : Plan) (c : Call) (w : World) : Report :=
  { p.conclude (p.perform w.files).2 with
    err := logged c (p.within w) (p.events w.files) ++ (p.conclude (p.perform w.files).2).err }

def outcome (p : Plan) (c : Call) (w : World) : Except Escape Report :=
  match (p.perform w.files).2 with
  | .failed f => if f.isExpected then .ok (p.report c w) else .error (.failure f)
  | _ => c.print (p.report c w)

variable {p : Plan} {fs : Files}

theorem perform_eq_upToDate_iff : (p.perform fs).2 = .upToDate ↔ p.check = true ∧
    ∃ q, Policy.ofFile fs p.source p.variant = .ok q ∧
      fs.read (Path.ofText p.destination) = .ok q.render := by
  rw [perform, ← Policy.enforce_eq_ok_iff]
  cases p.check with
  | true => cases Policy.enforce fs p.source p.destination p.variant <;> simp
  | false =>
    obtain ⟨files, r⟩ := Policy.generate fs p.source p.destination p.variant
    cases r <;> simp

theorem perform_eq_wrote_iff {q : Policy} : (p.perform fs).2 = .wrote q ↔ p.check = false ∧
    ∃ fs', Policy.generate fs p.source p.destination p.variant = (fs', .ok q) := by
  rw [perform]
  cases p.check with
  | true => cases Policy.enforce fs p.source p.destination p.variant <;> simp
  | false =>
    obtain ⟨files, r⟩ := Policy.generate fs p.source p.destination p.variant
    cases r <;> simp

theorem failed_or_not (p : Plan) (fs : Files) :
    (∃ f, (p.perform fs).2 = .failed f) ∨ ∀ f, (p.perform fs).2 ≠ .failed f := by
  by_cases h : ∃ f, (p.perform fs).2 = .failed f
  · exact .inl h
  · exact .inr fun f hf => h ⟨f, hf⟩

theorem code_conclude_failed (p : Plan) (f : Failure) : (p.conclude (.failed f)).code ≠ 0 := by
  cases f <;> simp [conclude]

theorem code_conclude_of_not_failed (p : Plan) {ending : Ending} (h : ∀ f, ending ≠ .failed f) :
    (p.conclude ending).code = 0 := by
  cases ending with
  | failed f => exact absurd rfl (h f)
  | _ => rfl

end Plan

variable {c : Call} {p : Plan} {w : World}

/-- A plan that is carried out leaves the files that it is performed on, and the log of its run. -/
theorem carryOut_eq (c : Call) (p : Plan) (w : World) : carryOut c p w =
    (⟨(p.perform w.files).1, { p.within w with runId := w.log.runId }⟩, p.outcome c w) := by
  rw [carryOut, Log.set_eq, Plan.outcome, Plan.report]
  generalize p.events w.files = es
  generalize p.perform w.files = result
  obtain ⟨files, ending⟩ := result
  cases ending with
  | failed f => simp only; split <;> rfl
  | _ => rfl

theorem files_carryOut (c : Call) (p : Plan) (w : World) :
    (carryOut c p w).1.files = (p.perform w.files).1 := by
  rw [carryOut_eq]

theorem log_carryOut (c : Call) (p : Plan) (w : World) :
    (carryOut c p w).1.log = { p.within w with runId := w.log.runId } := by
  rw [carryOut_eq]

theorem outcome_of_failed {f : Failure} (h : (p.perform w.files).2 = .failed f) :
    p.outcome c w = if f.isExpected then .ok (p.report c w) else .error (.failure f) := by
  rw [Plan.outcome, h]

theorem outcome_of_not_failed (h : ∀ f, (p.perform w.files).2 ≠ .failed f) :
    p.outcome c w = c.print (p.report c w) := by
  rw [Plan.outcome]
  split
  · next f hf => exact absurd hf (h f)
  · rfl

/-- If there is a report, it is this one. -/
theorem eq_report_of_outcome {r : Report} (h : p.outcome c w = .ok r) : r = p.report c w := by
  rcases p.failed_or_not w.files with ⟨f, hf⟩ | hnot
  · rw [outcome_of_failed hf] at h
    split at h
    · exact (Except.ok.inj h).symm
    · cases h
  · rw [outcome_of_not_failed hnot] at h
    exact (print_eq_ok_iff.mp h).2.symm

theorem report_carryOut {r : Report} (h : (carryOut c p w).2 = .ok r) : r = p.report c w := by
  rw [carryOut_eq] at h
  exact eq_report_of_outcome h

end Allowlist.Command
