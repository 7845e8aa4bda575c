import Allowlist.Command.Arguments
import Allowlist.Proofs.Except

/-!
# The option for checking

Reading never asks whether a check was asked for, so asking for one first commutes with every step
of it. What the other arguments ask for stays as it is, and so do their errors.
-/
namespace Allowlist.Command

/-- The same with a check. -/
def Arguments.checked (a : Arguments) : Arguments := { a with check := true }

def Reading.checked (r : Reading) : Reading := { r with arguments := r.arguments.checked }

theorem takePositionals_checked (r : Reading) (ps : List Piece) :
    takePositionals r.checked ps = ((takePositionals r ps).1.checked, (takePositionals r ps).2) := by
  have hp : r.checked.pending = r.pending := rfl
  rw [takePositionals, takePositionals, hp]
  split
  · simp only [Reading.checked, Arguments.checked]
  · rfl

theorem assign_checked (r : Reading) (o : Opt) (value : Text) :
    assign r.checked o value = Reading.checked <$> assign r o value := by
  simp only [assign]
  cases accept o value with
  | error e => rfl
  | ok u =>
    by_cases h : o = .variant ∧ r.strict = true
    · have hc : o = .variant ∧ r.checked.strict = true := h
      simp only [bind, Except.bind, if_pos h, if_pos hc]
      rfl
    · have hc : ¬(o = .variant ∧ r.checked.strict = true) := h
      simp only [bind, Except.bind, if_neg h, if_neg hc]
      cases o <;> rfl

theorem apply_checked (r : Reading) (o : Opt) :
    apply r.checked o = Reading.checked <$> apply r o := by
  obtain ⟨a, pending, named, strict, unused⟩ := r
  cases o with
  | strict => cases named <;> rfl
  | _ => rfl

/-- A step of reading with a check asked for before. -/
def withCheck (s : Reading × List Piece) : Reading × List Piece := (s.1.checked, s.2)

theorem takeOption_checked (r : Reading) (o : Opt) (attached : Attached) (rest : List Piece) :
    takeOption r.checked o attached rest = withCheck <$> takeOption r o attached rest := by
  cases attached with
  | letters t => rfl
  | value t =>
    simp only [takeOption]
    split
    · rw [assign_checked]
      cases assign r o t <;> rfl
    · rfl
  | nothing =>
    simp only [takeOption]
    split
    · split
      · next t more =>
        rw [assign_checked]
        cases assign r o t <;> rfl
      · rfl
    · rw [apply_checked]
      cases apply r o <;> rfl

theorem readFrom_checked (fuel : Nat) (r : Reading) (ps : List Piece) :
    readFrom fuel r.checked ps = Reading.checked <$> readFrom fuel r ps := by
  induction fuel generalizing r ps with
  | zero => rfl
  | succ fuel ih =>
    rw [readFrom.eq_def, readFrom.eq_def fuel.succ r]
    simp only
    split
    · split
      · next o attached rest _ =>
        rw [takeOption_checked]
        cases takeOption r o attached rest with
        | error h => rfl
        | ok s => exact ih s.1 s.2
      · next t rest _ => exact ih { r with unused := r.unused ++ [t] } rest
      · rw [takePositionals_checked]
        generalize takePositionals r ps = s
        obtain ⟨r, rest⟩ := s
        exact ih { r with unused := r.unused ++
          (rest.takeWhile (fun p => !isOption p)).map Prod.fst } _
    · rw [takePositionals_checked]
      generalize takePositionals r ps = s
      obtain ⟨r, rest⟩ := s
      have hu : r.checked.unused = r.unused := rfl
      simp only [hu]
      split <;> rfl

theorem roleOf_check : roleOf "--check" = .ok (.option .check .nothing) := by rfl

/-- A check may be asked for before all else. -/
theorem readArguments_check (ts : List Text) :
    readArguments ("--check" :: ts) = Arguments.checked <$> readArguments ts := by
  have hs : ¬("--check" : Text) = separator := by decide
  simp only [readArguments, piecesOf, if_neg hs, roleOf_check, bind, Except.bind]
  cases piecesOf ts with
  | error e => rfl
  | ok ps =>
    have hr : readFrom (ts.length + 1 + 1) .start (("--check", .option .check .nothing) :: ps) =
        readFrom (ts.length + 1) Reading.start.checked ps := rfl
    simp only [List.length_cons, hr, readFrom_checked]
    cases readFrom (ts.length + 1) .start ps <;> rfl

end Allowlist.Command
