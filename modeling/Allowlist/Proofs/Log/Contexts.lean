import Allowlist.Proofs.Log.Token
import Mathlib.Data.List.Induction

/-!
# Run contexts restore what they replaced

Contexts are entered and left in any order. What a context replaced is put back once, and leaving a
context that is not entered does nothing. If the contexts that are open are left in the opposite order,
and none is entered a second time while it is open, then the current run id is at any time that of the
innermost one, and in the end what it was before.
-/
namespace Allowlist.Log

namespace Session

/-- No context is entered. -/
def Fresh (σ : Session) : Prop :=
  ∀ slot c, σ.contexts.get? slot = some c → c.replaced = none

def moved (σ : Session) (moves : List Move) : Session := σ.run (moves.map Move.step)

/-- The id of the first of the contexts, or the current run id if there is none. -/
def innermost (σ : Session) (opened : List Text) : Option Text :=
  (opened.findSome? fun slot => (σ.contexts.get? slot).map Context.id).or σ.state.runId

end Session

/-- The last move of the context enters it. -/
def Entered (moves : List Move) (slot : Text) : Prop :=
  (moves.filter (·.slot = slot)).getLast? = some (.enter slot)

/-- What a move makes of the contexts that are open, the one that was entered last first. A context
that is open must not be entered, and only the one that was entered last may be left. -/
def Move.opens (opened : List Text) : Move → Option (List Text)
  | .enter slot => if slot ∈ opened then none else some (slot :: opened)
  | .exit slot =>
    match opened with
    | [] => none
    | top :: outer => if slot = top then some outer else none

/-- The contexts that moves leave open, if they are nested so far. -/
def openAfter (moves : List Move) : Option (List Text) := moves.foldlM Move.opens []

def WellNested (moves : List Move) : Prop := openAfter moves = some []

/-- Each open context has replaced the id of those around it, and is open once only. -/
def Restores (σ τ : Session) : List Text → Prop
  | [] => True
  | slot :: outer =>
    slot ∉ outer ∧ (∀ c, τ.contexts.get? slot = some c → c.replaced = some (σ.innermost outer)) ∧
      Restores σ τ outer

/-- How contexts that were opened one within the other leave a session. -/
structure Nested (σ : Session) (opened : List Text) (τ : Session) : Prop where
  ids : ∀ slot, (τ.contexts.get? slot).map Context.id = (σ.contexts.get? slot).map Context.id
  current : τ.state.runId = σ.innermost opened
  restores : Restores σ τ opened

section

variable {σ τ : Session} {moves : List Move} {opened opened' : List Text} {slot : Text}

theorem moved_cons (σ : Session) (m : Move) (moves : List Move) :
    σ.moved (m :: moves) = (σ.act m.slot m.op).moved moves := by
  rw [Session.moved, List.map_cons, Session.run, List.foldl_cons, Move.step_eq]
  rfl

theorem moved_append (σ : Session) (moves moves' : List Move) :
    σ.moved (moves ++ moves') = (σ.moved moves).moved moves' := by
  rw [Session.moved, List.map_append, Session.run, List.foldl_append]
  rfl

theorem moved_concat (σ : Session) (moves : List Move) (m : Move) :
    σ.moved (moves ++ [m]) = (σ.moved moves).act m.slot m.op := by
  rw [moved_append, moved_cons]
  rfl

theorem get?_act (σ : Session) (slot : Text) (op : Context → State → Context × State)
    (other : Text) : (σ.act slot op).contexts.get? other =
      if other = slot then (σ.contexts.get? slot).map fun c => (op c σ.state).1
      else σ.contexts.get? other := by
  cases hc : σ.contexts.get? slot with
  | none =>
    rw [Session.act_of_none hc]
    split
    · next he => rw [he, hc, Option.map_none]
    · rfl
  | some c => rw [Session.act_of_some hc, Assoc.get?_put, Option.map_some]

theorem id_op (m : Move) (c : Context) (s : State) : (m.op c s).1.id = c.id := by
  cases m with
  | enter slot => rfl
  | exit slot =>
    show (c.exit s).1.id = c.id
    rw [Context.exit]
    split <;> rfl

theorem replaced_op (m : Move) (c : Context) (s : State) :
    (m.op c s).1.replaced.isSome = true ↔ m = .enter m.slot := by
  cases m with
  | enter slot => simp [Move.op, Move.slot, Context.enter]
  | exit slot =>
    have hnone : (c.exit s).1.replaced = none := by
      rw [Context.exit]
      cases hr : c.replaced with
      | none => exact hr
      | some old => rfl
    simp [Move.op, Move.slot, hnone]

theorem entered_concat (moves : List Move) (m : Move) (slot : Text) :
    Entered (moves ++ [m]) slot ↔
      if m.slot = slot then m = .enter slot else Entered moves slot := by
  rw [Entered, List.filter_append]
  by_cases h : m.slot = slot
  · simp [h]
  · simp [h, Entered]

/-- A context holds a run id to put back exactly while it is entered. -/
theorem replaced_moved (hf : σ.Fresh) (moves : List Move) (slot : Text) (c : Context)
    (hc : (σ.moved moves).contexts.get? slot = some c) :
    c.replaced.isSome = true ↔ Entered moves slot := by
  induction moves using List.reverseRecOn generalizing c with
  | nil => simp [hf slot c hc, Entered]
  | append_singleton moves m ih =>
    rw [moved_concat, get?_act] at hc
    rw [entered_concat]
    split at hc
    · next he =>
      obtain ⟨b, -, rfl⟩ := Option.map_eq_some_iff.mp hc
      rw [if_pos he.symm, he]
      exact replaced_op m b _
    · next hne =>
      rw [if_neg (Ne.symm hne)]
      exact ih c hc

/-- Leaving a context that is not entered changes no run id. -/
theorem runId_exit (hf : σ.Fresh) (h : ¬ Entered moves slot) :
    (σ.moved (moves ++ [.exit slot])).state.runId = (σ.moved moves).state.runId := by
  rw [moved_concat]
  show ((σ.moved moves).act slot Context.exit).state.runId = _
  cases hc : (σ.moved moves).contexts.get? slot with
  | none => rw [Session.act_of_none hc]
  | some c =>
    have hnone : c.replaced = none := by
      have hi := mt (replaced_moved hf moves slot c hc).mp h
      simpa using hi
    rw [Session.act_of_some hc, Context.exit, hnone]

theorem innermost_cons (σ : Session) (slot : Text) (outer : List Text) :
    σ.innermost (slot :: outer) =
      ((σ.contexts.get? slot).map Context.id).or (σ.innermost outer) := by
  rw [Session.innermost, List.findSome?_cons]
  cases σ.contexts.get? slot with
  | none => rfl
  | some c => rfl

/-- Only the open contexts matter. -/
theorem Restores.congr {τ' : Session} (h : Restores σ τ opened)
    (hs : ∀ slot ∈ opened, τ'.contexts.get? slot = τ.contexts.get? slot) :
    Restores σ τ' opened := by
  induction opened with
  | nil => trivial
  | cons slot outer ih =>
    obtain ⟨hslot, houter⟩ := List.forall_mem_cons.mp hs
    obtain ⟨hnew, hreplaced, hrest⟩ := h
    refine ⟨hnew, fun c hc => hreplaced c ?_, ih hrest houter⟩
    rw [← hslot, hc]

theorem Restores.act (h : Restores σ τ opened) (hslot : slot ∉ opened)
    (op : Context → State → Context × State) : Restores σ (τ.act slot op) opened := by
  refine h.congr fun other ho => ?_
  have hne : other ≠ slot := fun he => hslot (he ▸ ho)
  rw [get?_act, if_neg hne]

theorem ids_act (τ : Session) (m : Move) (slot : Text) :
    ((τ.act m.slot m.op).contexts.get? slot).map Context.id =
      (τ.contexts.get? slot).map Context.id := by
  rw [get?_act]
  split
  · next he =>
    rw [he, Option.map_map]
    exact congrArg (Option.map · _) (funext fun c => id_op m c τ.state)
  · rfl

theorem Nested.enter (h : Nested σ opened τ) (hslot : slot ∉ opened) :
    Nested σ (slot :: opened) (τ.act slot Context.enter) := by
  refine ⟨fun other => (ids_act τ (.enter slot) other).trans (h.ids other), ?_, hslot, ?_,
    h.restores.act hslot _⟩
  · rw [innermost_cons, ← h.ids slot, ← h.current]
    cases hc : τ.contexts.get? slot with
    | none => rw [Session.act_of_none hc]; rfl
    | some c => rw [Session.act_of_some hc]; rfl
  · intro c hc
    rw [get?_act, if_pos rfl] at hc
    obtain ⟨b, -, rfl⟩ := Option.map_eq_some_iff.mp hc
    exact congrArg some h.current

theorem Nested.exit (h : Nested σ (slot :: opened) τ) :
    Nested σ opened (τ.act slot Context.exit) := by
  obtain ⟨hslot, hreplaced, hrest⟩ := h.restores
  refine ⟨fun other => (ids_act τ (.exit slot) other).trans (h.ids other), ?_, hrest.act hslot _⟩
  cases hc : τ.contexts.get? slot with
  | none =>
    rw [Session.act_of_none hc, h.current, innermost_cons, ← h.ids slot, hc]
    rfl
  | some c => rw [Session.act_of_some hc, Context.exit, hreplaced c hc]

theorem Nested.move (h : Nested σ opened τ) {m : Move} (hm : m.opens opened = some opened') :
    Nested σ opened' (τ.act m.slot m.op) := by
  cases m with
  | enter slot =>
    rw [Move.opens] at hm
    split at hm
    · cases hm
    · next hslot =>
      obtain rfl := Option.some.inj hm
      exact h.enter hslot
  | exit slot =>
    cases opened with
    | nil => cases hm
    | cons top outer =>
      simp only [Move.opens] at hm
      split at hm
      · next he =>
        obtain rfl := Option.some.inj hm
        subst he
        exact h.exit
      · cases hm

theorem Nested.moved (h : Nested σ opened τ) (hm : moves.foldlM Move.opens opened = some opened') :
    Nested σ opened' (τ.moved moves) := by
  induction moves generalizing τ opened with
  | nil =>
    obtain rfl := Option.some.inj hm
    exact h
  | cons m rest ih =>
    rw [List.foldlM_cons] at hm
    obtain ⟨between, hfirst, hrest⟩ := Option.bind_eq_some_iff.mp hm
    rw [moved_cons]
    exact ih (h.move hfirst) hrest

/-- The current run id is that of the context that was opened last and is still open. -/
theorem runId_moved (σ : Session) (h : openAfter moves = some opened) :
    (σ.moved moves).state.runId = σ.innermost opened := by
  have hstart : Nested σ [] σ := ⟨fun _ => rfl, rfl, trivial⟩
  exact (hstart.moved h).current

/-- What is nested is nested up to any place within it. -/
theorem openAfter_of_prefix {pre : List Move} (h : openAfter moves = some opened)
    (hp : pre <+: moves) : ∃ between, openAfter pre = some between := by
  obtain ⟨rest, rfl⟩ := hp
  rw [openAfter, List.foldlM_append] at h
  obtain ⟨between, hpre, -⟩ := Option.bind_eq_some_iff.mp h
  exact ⟨between, hpre⟩

end

/-- Of contexts none of which is entered at first, none ever uses a token twice, and leaving one that
is not entered leaves the run id as it is. If moves are well nested, the run id in the end is the one
before, and at every place within them that of the innermost context that is open there. -/
theorem contexts_restore {σ : Session} (h : σ.Fresh) (moves : List Move) :
    (∃ τ, (Scope.ofSession σ).run moves = .ok τ ∧ τ.Agrees (σ.moved moves)) ∧
    (∀ slot, ¬ Entered moves slot →
      (σ.moved (moves ++ [.exit slot])).state.runId = (σ.moved moves).state.runId) ∧
    (WellNested moves →
      (σ.moved moves).state.runId = σ.state.runId ∧
      ∀ pre, pre <+: moves → ∃ opened, openAfter pre = some opened ∧
        (σ.moved pre).state.runId = σ.innermost opened) := by
  refine ⟨(Scope.sound_ofSession σ).run (Scope.agrees_ofSession h) moves,
    fun slot hslot => runId_exit h hslot, fun hnested => ⟨runId_moved σ hnested, ?_⟩⟩
  intro pre hpre
  obtain ⟨opened, hopened⟩ := openAfter_of_prefix hnested hpre
  exact ⟨opened, hopened, runId_moved σ hopened⟩

/-- Two contexts, and a run id from outside. -/
def twoContexts : Session :=
  ⟨{ State.start with runId := some "outer" }, [("a", ⟨"run-a", none⟩), ("b", ⟨"run-b", none⟩)]⟩

/-- One within the other, one after the other, and a second time. -/
def thereAndBack : List Move :=
  [.enter "a", .enter "b", .exit "b", .exit "a", .enter "b", .exit "b"]

theorem contexts_restore_twoContexts :
    twoContexts.Fresh ∧ WellNested thereAndBack ∧
    (twoContexts.moved thereAndBack).state.runId = some "outer" ∧
    (twoContexts.moved (thereAndBack.take 2)).state.runId = some "run-b" ∧
    ¬ Entered thereAndBack "a" ∧
    (twoContexts.moved (thereAndBack ++ [.exit "a"])).state.runId = some "outer" ∧
    ∃ τ, (Scope.ofSession twoContexts).run thereAndBack = .ok τ := by
  have hf : twoContexts.Fresh := by
    intro slot c hc
    have hm := Assoc.mem_of_get? hc
    simp only [twoContexts, List.mem_cons, Prod.mk.injEq, List.not_mem_nil, or_false] at hm
    rcases hm with ⟨-, rfl⟩ | ⟨-, rfl⟩ <;> rfl
  have hn : WellNested thereAndBack := by rfl
  have ha : ¬ Entered thereAndBack "a" := by
    rw [Entered]
    decide
  obtain ⟨⟨τ, hτ, -⟩, hstray, hnested⟩ := contexts_restore hf thereAndBack
  obtain ⟨hback, hwithin⟩ := hnested hn
  obtain ⟨opened, hopened, hid⟩ := hwithin (thereAndBack.take 2) (List.take_prefix 2 _)
  obtain rfl : (["b", "a"] : List Text) = opened := Option.some.inj hopened
  exact ⟨hf, hn, hback, hid, ha, (hstray "a" ha).trans hback, τ, hτ⟩

-- Entered a second time while it is open, a context puts back its own id.
example : (twoContexts.moved [.enter "a", .enter "a", .exit "a"]).state.runId = some "run-a" := by
  rfl

end Allowlist.Log
