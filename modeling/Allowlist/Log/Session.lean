import Allowlist.Assoc
import Allowlist.Log.State

/-!
# Sessions

What a program does to logging, step after step: it sets level and layout, logs records, and makes,
enters and leaves run contexts. It holds its contexts in slots; one that is made in a slot takes the
place of the one before.
-/
namespace Allowlist.Log

inductive Step where
  | configure (level : Text) (layout : Layout)
  | log (clock : Clock) (r : Record)
  | make (slot : Text) (id : Option Text)
  | enter (slot : Text)
  | exit (slot : Text)

structure Session where
  state : State
  contexts : Assoc Text Context

namespace Session

def start : Session := ⟨State.start, []⟩

/-- Lets an operation act on the context of a slot, if there is one. -/
def act (σ : Session) (slot : Text) (op : Context → State → Context × State) : Session :=
  match σ.contexts.get? slot with
  | none => σ
  | some c =>
    let (c, s) := op c σ.state
    ⟨s, σ.contexts.put slot c⟩

theorem act_of_none {σ : Session} {slot : Text} (h : σ.contexts.get? slot = none)
    (op : Context → State → Context × State) : σ.act slot op = σ := by
  rw [act, h]

theorem act_of_some {σ : Session} {slot : Text} {c : Context} (h : σ.contexts.get? slot = some c)
    (op : Context → State → Context × State) :
    σ.act slot op = ⟨(op c σ.state).2, σ.contexts.put slot (op c σ.state).1⟩ := by
  rw [act, h]

/-- What is left of a step, and what it writes or why it fails. -/
def step (σ : Session) : Step → Session × Except Refusal Output
  | .configure level layout =>
    match σ.state.configure level layout with
    | (s, .ok ()) => ({ σ with state := s }, .ok [])
    | (s, .error e) => ({ σ with state := s }, .error (.unknownLevel e))
  | .log clock r => (σ, σ.state.log clock r)
  | .make slot id =>
    let (c, s) := Context.new σ.state id
    (⟨s, σ.contexts.put slot c⟩, .ok [])
  | .enter slot => (σ.act slot Context.enter, .ok [])
  | .exit slot => (σ.act slot Context.exit, .ok [])

/-- What is left of steps one after the other, whether they fail or not. -/
def run (σ : Session) (steps : List Step) : Session := steps.foldl (fun σ st => (σ.step st).1) σ

end Session

end Allowlist.Log
