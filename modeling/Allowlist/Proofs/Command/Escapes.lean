import Allowlist.Proofs.Command.Accounted
import Allowlist.Proofs.Run.Idempotent
import Allowlist.Proofs.Settings.Load

/-!
# What a run does not report

A run turns each failure that it expects into an exit code. The others end it without a report: a
path that no file can have, settings whose bytes are no text or whose scalars promise a value that
does not exist, an integer in the surface or in the policy that is too long, a destination with a name
that is too long to be asked for, and a success that standard output does not take. The last one comes
when all else is done, so the policy is stored by then.
-/
namespace Allowlist.Command

/-- Why carrying out a plan ends without a report. The destination is not looked at before the
surface is compiled. -/
inductive Plan.Escapes (p : Plan) (fs : Files) : Failure → Prop
  | surface {f : Failure} (h : Surface.Escapes fs p.source f) : Escapes p fs f
  | directory {q : Policy} {f : Path.Fault} (hc : p.check = false)
      (hq : Policy.ofFile fs p.source p.variant = .ok q)
      (h : (Path.ofText p.destination).parent.fault? = some f) : Escapes p fs (.badPath f)
  | destination {q : Policy} {f : Path.Fault} (hc : p.check = false)
      (hq : Policy.ofFile fs p.source p.variant = .ok q)
      (hd : (fs.makeDirectories (Path.ofText p.destination).parent).2 = .ok ())
      (h : (Path.ofText p.destination).fault? = some f) : Escapes p fs (.badPath f)
  | tooLong {q : Policy} (hc : p.check = true)
      (hq : Policy.ofFile fs p.source p.variant = .ok q)
      (h : fs.lookup (Path.ofText p.destination) = .error (.refused .nameTooLong)) :
      Escapes p fs (.destinationTooLong (Path.ofText p.destination))
  | policy {q : Policy} {committed : Utf8.Bytes} {n : Json.LongInteger} (hc : p.check = true)
      (hq : Policy.ofFile fs p.source p.variant = .ok q)
      (hr : fs.read (Path.ofText p.destination) = .ok committed)
      (h : Policy.StoppedBy committed n) : Escapes p fs (.longInteger n)

/-- What a plan has brought about and cannot tell: standard output does not take the mark of success or
the name of the destination. -/
inductive Plan.Untold (c : Call) (p : Plan) (fs : Files) : Text → Prop
  | upToDate {q : Policy} (hc : p.check = true)
      (hq : Policy.ofFile fs p.source p.variant = .ok q)
      (hr : fs.read (Path.ofText p.destination) = .ok q.render) (ht : ¬p.Told c) :
      Untold c p fs (p.conclude .upToDate).out
  | wrote {q : Policy} {fs' : Files} (hc : p.check = false)
      (hq : Policy.generate fs p.source p.destination p.variant = (fs', .ok q)) (ht : ¬p.Told c) :
      Untold c p fs (p.conclude (.wrote q)).out

/-- Why a run ends without a report. -/
inductive Escapes (c : Call) (a : Arguments) (fs : Files) : Escape → Prop
  | settings {e : Settings.Error} (h : Settings.Escapes fs a.config c.environment e) :
      Escapes c a fs (.settings e)
  | failure {s : Settings} {f : Failure} (hs : Settings.load fs a.config c.environment = .ok s)
      (h : (Plan.of a s c.terminal).Escapes fs f) : Escapes c a fs (.failure f)
  | output {s : Settings} {t : Text} (hs : Settings.load fs a.config c.environment = .ok s)
      (h : (Plan.of a s c.terminal).Untold c fs t) : Escapes c a fs (.output t)

namespace Plan

variable {p : Plan} {fs : Files} {f : Failure}

end Plan

variable {c : Call} {a : Arguments} {p : Plan} {w : World}

/-- What cannot be told has been brought about all the same. -/
theorem read_of_untold {t : Text} (h : p.Untold c w.files t) :
    ∃ q, Policy.ofFile w.files p.source p.variant = .ok q ∧
      (carryOut c p w).1.files.read (Path.ofText p.destination) = .ok q.render := by
  rw [files_carryOut, Plan.perform]
  cases h with
  | @upToDate q hc hq hr ht =>
    rw [if_pos hc, Policy.enforce_eq_ok_iff.mpr ⟨q, hq, hr⟩]
    exact ⟨q, hq, hr⟩
  | @wrote q fs' hc hq ht =>
    rw [hc, if_neg (by simp), hq]
    exact ⟨q, (Policy.generate_eq_ok_iff.mp hq).1, Policy.read_of_generate hq⟩

end Allowlist.Command
