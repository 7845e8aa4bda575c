import Allowlist.Command.Run
import Allowlist.Proofs.Number.Digits

/-!
# What standard output takes

Every standard output takes ASCII. What a run tells of its success has a check mark and the name of the
destination besides, so it is these that decide.
-/
namespace Allowlist.Command

namespace Console

theorem takes_append (console : Console) (t u : Text) :
    console.takes (t ++ u) = (console.takes t && console.takes u) := List.all_append

/-- A text of ASCII characters is always written. -/
theorem takes_of_ascii (console : Console) {t : Text} (h : t.all (·.val < 0x80) = true) :
    console.takes t = true := by
  rw [List.all_eq_true] at h
  refine List.all_eq_true.mpr fun c hc => console.ascii c ?_
  simpa using h c hc

theorem takes_text (console : Console) (n : Nat) : console.takes (Digits.text n) = true := by
  refine console.takes_of_ascii (List.all_eq_true.mpr fun p hp => ?_)
  obtain ⟨c, hc, rfl⟩ := List.mem_map.mp hp
  have hdigit := Digits.isDecimal_of_mem_decimal hc
  simp only [Digits.isDecimal, Bool.and_eq_true, decide_eq_true_eq] at hdigit
  have hnine : c.toNat ≤ '9'.toNat := hdigit.2
  simp only [decide_eq_true_eq]
  exact Nat.lt_of_le_of_lt hnine (by decide)

end Console

variable {c : Call} {p : Plan}

/-- Standard output takes the mark of success and the name of the destination. -/
def Plan.Told (p : Plan) (c : Call) : Prop := c.stdout.takes ("✅ " ++ p.destination) = true

theorem takes_conclude (c : Call) (p : Plan) {ending : Ending} (h : ∀ f, ending ≠ .failed f) :
    c.stdout.takes (p.conclude ending).out = true ↔ p.Told c := by
  have hend : c.stdout.takes " is up to date.\n" = true := c.stdout.takes_of_ascii (by decide)
  have hwrote : c.stdout.takes "Wrote " = true := c.stdout.takes_of_ascii (by decide)
  have hopen : c.stdout.takes " (" = true := c.stdout.takes_of_ascii (by decide)
  have hclose : c.stdout.takes " modules)\n" = true := c.stdout.takes_of_ascii (by decide)
  cases ending with
  | failed f => exact absurd rfl (h f)
  | upToDate => simp only [Plan.conclude, Plan.Told, Console.takes_append, hend, Bool.and_true]
  | wrote q =>
    have hmark : ("✅ Wrote " : Text) = "✅ " ++ "Wrote " := by rfl
    simp only [Plan.conclude, Plan.Told, hmark, Console.takes_append, Console.takes_text, hwrote,
      hopen, hclose, Bool.and_true]

theorem print_eq_ok_iff {r s : Report} :
    c.print r = .ok s ↔ c.stdout.takes r.out = true ∧ r = s := by
  rw [Call.print]
  split
  · next h => simp [h]
  · next h => simp [h]

end Allowlist.Command
