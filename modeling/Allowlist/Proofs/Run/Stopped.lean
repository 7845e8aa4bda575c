import Allowlist.Proofs.Json.LongIntegers
import Allowlist.Proofs.Run.Verify

/-!
# What stops a check

If the surface compiles and the policy file can be read, whatever it holds is turned into a list of
violations, with one exception: the reader of JSON gives up at an integer that is too long, and no
check expects that. The file is then not reported as malformed, and all other violations are lost.
-/
namespace Allowlist.Policy

/-- Bytes that hold a text which the reader of JSON gives up at an integer. -/
def StoppedBy (committed : Utf8.Bytes) (n : Json.LongInteger) : Prop :=
  ∃ cs, Utf8.decode committed = .ok cs ∧ Json.read cs = .error (.longInteger n)

variable {committed : Utf8.Bytes} {n : Json.LongInteger}

theorem decode_eq_error_iff : decode committed = .error n ↔ StoppedBy committed n := by
  rw [decode, StoppedBy]
  cases Utf8.decode committed with
  | error f => simp
  | ok cs =>
    simp only [Except.ok.injEq, exists_eq_left']
    cases Json.read cs with
    | ok v => simp
    | error e => cases e <;> simp

theorem not_stoppedBy_nil (n : Json.LongInteger) : ¬StoppedBy [] n := by
  rw [← decode_eq_error_iff]
  rintro ⟨⟩

theorem checkBytes_eq_error_iff : checkBytes committed = .error n ↔ StoppedBy committed n := by
  rw [checkBytes]
  split
  · next he =>
    subst he
    simp [not_stoppedBy_nil]
  · rw [← decode_eq_error_iff]
    cases decode committed with
    | error m => simp
    | ok r =>
      cases r with
      | error v => simp
      | ok v => cases v <;> simp

/-- All digits of the integer stand in the file. -/
theorem StoppedBy.holdsLong (h : StoppedBy committed n) :
    ∃ cs, Utf8.decode committed = .ok cs ∧ Json.HoldsLong n cs := by
  obtain ⟨cs, hd, hr⟩ := h
  exact ⟨cs, hd, Json.holdsLong_of_read hr⟩

section

variable {surface : Json} {source destination : Text} {variant : Variant} {p : Policy} {fs : Files}
  {f : Failure}

theorem checkAll_eq_error_iff : checkAll committed surface source variant p = .error f ↔
    ∃ n, f = .longInteger n ∧ StoppedBy committed n := by
  simp only [← checkBytes_eq_error_iff]
  rw [checkAll]
  cases checkBytes committed with
  | error m =>
    simp only [Except.error.injEq, exists_eq_right']
    exact eq_comm
  | ok form => simp

theorem enforce_eq_error_iff : enforce fs source destination variant = .error f ↔
    verify fs source destination variant = .error f ∨
      ∃ vs, vs ≠ [] ∧ verify fs source destination variant = .ok vs ∧ f = .drift destination vs := by
  rw [enforce]
  split
  · next g hv => simp [hv]
  · next hv =>
    simp only [hv, reduceCtorEq, Except.ok.injEq, false_or, false_iff, not_exists, not_and]
    rintro vs hne rfl
    exact absurd rfl hne
  · next vs hne hv =>
    have hne : vs ≠ [] := hne
    simp only [hv, Except.error.injEq, reduceCtorEq, Except.ok.injEq, false_or]
    constructor
    · rintro rfl
      exact ⟨vs, hne, rfl, rfl⟩
    · rintro ⟨_, -, rfl, rfl⟩
      rfl

/-- Verification of a policy file that can be read lists violations, whatever is in the file, and
fails only where the reader gives up at an integer with too many digits. Enforcing fails there in
the same way, and otherwise exactly with all violations, if there are any. -/
theorem verify_fails_iff_stopped (hp : ofFile fs source variant = .ok p)
    (hc : fs.read (Path.ofText destination) = .ok committed) :
    (∀ f, verify fs source destination variant = .error f ↔
      ∃ n, f = .longInteger n ∧ StoppedBy committed n) ∧
    (∀ f, enforce fs source destination variant = .error f ↔
      (∃ n, f = .longInteger n ∧ StoppedBy committed n) ∨
      ∃ vs, vs ≠ [] ∧ verify fs source destination variant = .ok vs ∧ f = .drift destination vs) ∧
    ∀ n, StoppedBy committed n →
      ∃ cs, Utf8.decode committed = .ok cs ∧ Json.HoldsLong n cs := by
  obtain ⟨surface, hs, hg⟩ := ofFile_eq_ok_iff.mp hp
  have hv (f : Failure) : verify fs source destination variant = .error f ↔
      ∃ n, f = .longInteger n ∧ StoppedBy committed n := by
    rw [verify_of_read hs hg hc]
    exact checkAll_eq_error_iff
  refine ⟨hv, fun f => ?_, fun n h => h.holdsLong⟩
  rw [enforce_eq_error_iff, hv]

end

/-- An integer with one digit more than is read. -/
def ones : List Char := '1' :: List.replicate Json.maxIntegerDigits '1'

theorem stoppedBy_ones : StoppedBy (Utf8.encode ones) ⟨Json.maxIntegerDigits + 1⟩ := by
  have hd : ∀ d ∈ ones, Digits.isDecimal d = true := by
    intro d hd
    rcases List.mem_cons.mp hd with rfl | hd
    · decide
    · obtain ⟨-, rfl⟩ := List.mem_replicate.mp hd
      decide
  have hl : ones.length = Json.maxIntegerDigits + 1 := by
    rw [ones, List.length_cons, List.length_replicate]
  have hr : Json.read ones = .error (.longInteger ⟨ones.length⟩) :=
    Json.read_digits (by decide) hd (by rw [← ones, hl]; exact Nat.lt_succ_self _)
  rw [hl] at hr
  exact ⟨ones, Utf8.decode_encode ones, hr⟩

/-- Beside the surface there are two files that hold no policy: a long integer, and a byte that no
text has. -/
def brokenFiles : Files where
  workingDirectory := []
  nodes := [(["s"], .file (Utf8.encode oneEntry.canonical)), (["p"], .file (Utf8.encode ones)),
    (["q"], .file [0xFF])]

theorem load_brokenFiles : Surface.load brokenFiles "s" = .ok oneEntry :=
  Surface.load_canonical (by decide) (by rfl)

theorem ofFile_brokenFiles : ofFile brokenFiles "s" .permissive = .ok oneModule :=
  ofFile_eq_ok_iff.mpr ⟨_, load_brokenFiles, by rfl⟩

theorem read_brokenFiles : brokenFiles.read (Path.ofText "p") = .ok (Utf8.encode ones) := by rfl

theorem verify_brokenFiles :
    (ofFile brokenFiles "s" .permissive = .ok oneModule ∧
      brokenFiles.read (Path.ofText "p") = .ok (Utf8.encode ones) ∧
      verify brokenFiles "s" "p" .permissive = .error (.longInteger ⟨Json.maxIntegerDigits + 1⟩) ∧
      enforce brokenFiles "s" "p" .permissive =
        .error (.longInteger ⟨Json.maxIntegerDigits + 1⟩)) ∧
    brokenFiles.read (Path.ofText "q") = .ok [0xFF] ∧
      verify brokenFiles "s" "q" .permissive = .ok [.notUtf8 ⟨0, 1, 0xFF, .invalidStart⟩,
        .outdated [0xFF] oneModule.render] := by
  have hq : brokenFiles.read (Path.ofText "q") = .ok [0xFF] := by rfl
  obtain ⟨hverify, henforce, -⟩ := verify_fails_iff_stopped ofFile_brokenFiles read_brokenFiles
  refine ⟨⟨ofFile_brokenFiles, read_brokenFiles, (hverify _).mpr ⟨_, rfl, stoppedBy_ones⟩,
    (henforce _).mpr (.inl ⟨_, rfl, stoppedBy_ones⟩)⟩, hq, ?_⟩
  rw [verify_of_read load_brokenFiles (by rfl) hq]
  rfl

end Allowlist.Policy
