import Allowlist.Command.Arguments
import Allowlist.Command.Console
import Allowlist.Command.Help
import Allowlist.Log.State
import Allowlist.Run.Event
import Allowlist.Settings.Load

/-!
# Running the command line

A run reads its arguments and its settings, sets up logging, and then generates the policy file or
verifies it. While it does so it has a run id of its own; afterwards the one before is current again.
What went wrong is told to the log first and then to the user. The exit code is 0 for success, 1 for
a surface that is rejected or a policy that has drifted, and 2 for all other failures. Standard error
takes every text; a success that standard output does not take ends the run when all else is done.
-/
namespace Allowlist.Command

/-- What a run is given. -/
structure Call where
  arguments : List Text
  environment : Settings.Environment
  clock : Log.Clock
  /-- The logger of the command line. -/
  logger : Text
  /-- Whether standard error is read by a person. -/
  terminal : Bool
  stdout : Console

/-- What a run changes. -/
structure World where
  files : Files
  log : Log.State

structure Report where
  code : Nat
  out : Text
  err : Text
  deriving DecidableEq

/-- A failure that the command line does not expect, and that ends it without a report. -/
inductive Escape where
  | settings (e : Settings.Error)
  | failure (f : Failure)
  | output (t : Text)

/-- What to do, from arguments and settings together. -/
structure Plan where
  source : Text
  destination : Text
  variant : Variant
  check : Bool
  level : Log.Level
  layout : Log.Layout

/-- The layout of records: left to choose, it is the one for people on a terminal only. -/
def layoutOf (f : LogFormat) (terminal : Bool) : Log.Layout :=
  match f with
  | .human => .human
  | .json => .json
  | .auto => if terminal then .human else .json

/-- An argument that is given counts before the setting, an empty path included. -/
def Plan.of (a : Arguments) (s : Settings) (terminal : Bool) : Plan where
  source := a.source.getD s.source
  destination := a.destination.getD s.destination
  variant := a.variant.getD s.variant
  check := a.check
  level := (a.logLevel.getD s.logLevel).level
  layout := layoutOf (a.logFormat.getD s.logFormat) terminal

/-- How a run ends. -/
inductive Ending where
  | upToDate
  | wrote (p : Policy)
  | failed (f : Failure)

namespace Plan

def perform (p : Plan) (fs : Files) : Files × Ending :=
  if p.check then
    match Policy.enforce fs p.source p.destination p.variant with
    | .ok () => (fs, .upToDate)
    | .error f => (fs, .failed f)
  else
    match Policy.generate fs p.source p.destination p.variant with
    | (fs, .ok policy) => (fs, .wrote policy)
    | (fs, .error f) => (fs, .failed f)

/-- The events of the stages. -/
def stages (p : Plan) (fs : Files) : List Event :=
  if p.check then Event.ofVerify fs p.source p.destination p.variant
  else Event.ofGenerate fs p.source p.destination p.variant

/-- The event that tells how the run ends. A policy that is up to date has none. -/
def closing (p : Plan) : Ending → List Event
  | .upToDate => []
  | .wrote policy =>
    [.policyCompiled p.variant.name p.source (Path.ofText p.destination) policy.modules.length]
  | .failed (.drift _ _) => [.driftDetected p.destination]
  | .failed (.rejected r) => [.surfaceRejected p.source r.kind]
  | .failed _ => [.filesFailed p.source p.destination]

/-- All events of a run in their order. -/
def events (p : Plan) (fs : Files) : List Event := p.stages fs ++ p.closing (p.perform fs).2

/-- The command that brings the policy file up to date. -/
def rerun (p : Plan) : Text :=
  "policygen " ++ p.source ++ " " ++ p.destination ++
    (if p.variant.isStrict then (" --strict" : Text) else [])

/-- Exit code, standard output and standard error of an ending, without the log. -/
def conclude (p : Plan) : Ending → Report
  | .upToDate => ⟨0, "✅ " ++ p.destination ++ " is up to date.\n", []⟩
  | .wrote policy =>
    ⟨0, "✅ Wrote " ++ p.destination ++ " (" ++ Digits.text policy.modules.length ++
      " modules)\n", []⟩
  | .failed f =>
    match f with
    | .drift _ _ => ⟨1, [], "❌ " ++ f.message ++ "\n   Run: " ++ p.rerun ++ "\n"⟩
    | .rejected r => ⟨1, [], "❌ " ++ r.kind ++ ": " ++ r.message ++ "\n"⟩
    | _ => ⟨2, [], "❌ " ++ f.message ++ "\n"⟩

end Plan

/-- What events write to the log. -/
def logged (c : Call) (s : Log.State) (es : List Event) : Text :=
  es.flatMap fun e => match s.log c.clock (e.record c.logger) with
    | .ok output => output.text
    | .error _ => []

/-- A report, if standard output takes its part of it. -/
def Call.print (c : Call) (r : Report) : Except Escape Report :=
  if c.stdout.takes r.out then .ok r else .error (.output r.out)

/-- Carries out a plan under a new run id. -/
def carryOut (c : Call) (p : Plan) (w : World) : World × Except Escape Report :=
  let (context, log) := Log.Context.new (w.log.set p.level p.layout) none
  let (context, inside) := context.enter log
  let (files, ending) := p.perform w.files
  let err := logged c inside (p.events w.files)
  let after : World := ⟨files, (context.exit inside).2⟩
  let r := p.conclude ending
  match ending with
  | .failed f =>
    if f.isExpected then (after, .ok { r with err := err ++ r.err })
    else (after, .error (.failure f))
  | _ => (after, c.print { r with err := err ++ r.err })

/-- A run of the command line. Help is ASCII, which standard output takes. -/
def run (c : Call) (w : World) : World × Except Escape Report :=
  match readArguments c.arguments with
  | .error .help => (w, .ok ⟨0, help, []⟩)
  | .error (.error e) => (w, .ok ⟨2, [], usageText e⟩)
  | .ok a =>
    match Settings.load w.files a.config c.environment with
    | .error e =>
      if e.isExpected then (w, .ok ⟨2, [], "❌ " ++ e.message ++ "\n"⟩)
      else (w, .error (.settings e))
    | .ok s => carryOut c (Plan.of a s c.terminal) w

end Allowlist.Command
