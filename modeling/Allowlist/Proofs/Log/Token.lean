import Allowlist.Log.Session
import Allowlist.Proofs.Assoc

/-!
# Tokens of run contexts

The run id is held by a variable. Setting it gives a token, which remembers the value that was
replaced and can be used once to put it back; a second use is refused. A context holds the token of
its last entry until it is left. No context ever uses a token twice, whatever the order in which
contexts are entered and left, and of its token only the value that it remembers shows: a session
keeps nothing else of it.
-/
namespace Allowlist.Log

/-- A context is entered, or it is left. -/
inductive Move where
  | enter (slot : Text)
  | exit (slot : Text)
  deriving DecidableEq

namespace Move

def slot : Move → Text
  | .enter slot => slot
  | .exit slot => slot

def step : Move → Step
  | .enter slot => .enter slot
  | .exit slot => .exit slot

/-- What a move does to its context and the current run id. -/
def op : Move → Context → State → Context × State
  | .enter _ => Context.enter
  | .exit _ => Context.exit

theorem step_eq (σ : Session) (m : Move) : σ.step m.step = (σ.act m.slot m.op, .ok []) := by
  cases m <;> rfl

end Move

structure Token where
  serial : Nat
  old : Option Text

/-- The variable of the run id, how many tokens it has given out, and which of them were used. -/
structure Variable where
  value : Option Text
  issued : Nat
  used : List Nat

namespace Variable

def set (x : Variable) (id : Text) : Token × Variable :=
  (⟨x.issued, x.value⟩, { x with value := some id, issued := x.issued + 1 })

/-- Puts back what a token remembers. A token that was used is refused. -/
def reset (x : Variable) (t : Token) : Except Token Variable :=
  if t.serial ∈ x.used then .error t
  else .ok { x with value := t.old, used := t.serial :: x.used }

end Variable

/-- A context with the token that it holds while it is entered. -/
structure Holder where
  id : Text
  token : Option Token

namespace Holder

def enter (h : Holder) (x : Variable) : Holder × Variable :=
  let (t, x) := x.set h.id
  ({ h with token := some t }, x)

def exit (h : Holder) (x : Variable) : Except Token (Holder × Variable) :=
  match h.token with
  | none => .ok (h, x)
  | some t =>
    match x.reset t with
    | .error t => .error t
    | .ok x => .ok ({ h with token := none }, x)

/-- What a session keeps of a context and its token. -/
def context (h : Holder) : Context := ⟨h.id, h.token.map Token.old⟩

end Holder

/-- The variable, and the contexts in their slots. -/
structure Scope where
  var : Variable
  holders : Assoc Text Holder

namespace Scope

def move (τ : Scope) (m : Move) : Except Token Scope :=
  match τ.holders.get? m.slot with
  | none => .ok τ
  | some h =>
    match m with
    | .enter slot =>
      let (h, x) := h.enter τ.var
      .ok ⟨x, τ.holders.put slot h⟩
    | .exit slot =>
      match h.exit τ.var with
      | .error t => .error t
      | .ok (h, x) => .ok ⟨x, τ.holders.put slot h⟩

/-- Moves one after the other, up to the first that is refused. -/
def run (τ : Scope) (moves : List Move) : Except Token Scope := moves.foldlM move τ

/-- The contexts of a session none of which is entered. -/
def ofSession (σ : Session) : Scope :=
  ⟨⟨σ.state.runId, 0, []⟩, σ.contexts.map fun p => (p.1, ⟨p.2.id, none⟩)⟩

def token? (τ : Scope) (slot : Text) : Option Token := (τ.holders.get? slot).bind Holder.token

/-- Each token that is held was given out and not used, and is held by one context only. -/
structure Sound (τ : Scope) : Prop where
  held : ∀ slot t, τ.token? slot = some t → t.serial < τ.var.issued ∧ t.serial ∉ τ.var.used
  once : ∀ slot other t u, τ.token? slot = some t → τ.token? other = some u →
    t.serial = u.serial → slot = other
  used : ∀ n ∈ τ.var.used, n < τ.var.issued

/-- The session has the same current run id and the same contexts. -/
structure Agrees (τ : Scope) (σ : Session) : Prop where
  value : τ.var.value = σ.state.runId
  contexts : ∀ slot, (τ.holders.get? slot).map Holder.context = σ.contexts.get? slot

variable {τ : Scope} {σ : Session}

theorem token?_put (x : Variable) (slot : Text) (h : Holder) (other : Text) :
    token? ⟨x, τ.holders.put slot h⟩ other = if other = slot then h.token else τ.token? other := by
  rw [token?, Assoc.get?_put]
  split <;> rfl

theorem Agrees.put (ha : Agrees τ σ) (slot : Text) {h : Holder} {x : Variable} {c : Context}
    {s : State} (hc : h.context = c) (hx : x.value = s.runId) :
    Agrees ⟨x, τ.holders.put slot h⟩ ⟨s, σ.contexts.put slot c⟩ := by
  refine ⟨hx, fun other => ?_⟩
  rw [Assoc.get?_put, Assoc.get?_put, ← ha.contexts other, ← hc]
  split <;> rfl

/-- Entering gives out a new token, in the place of the one that the context may hold. -/
theorem Sound.enter (hs : Sound τ) (slot : Text) (h : Holder) :
    Sound ⟨(h.enter τ.var).2, τ.holders.put slot (h.enter τ.var).1⟩ := by
  have hlt : ∀ other t, τ.token? other = some t → t.serial < τ.var.issued :=
    fun other t ht => (hs.held other t ht).1
  refine ⟨?_, ?_, fun n hn => Nat.lt_succ_of_lt (hs.used n hn)⟩
  · intro other t ht
    rw [token?_put] at ht
    split at ht
    · obtain rfl := Option.some.inj ht
      exact ⟨Nat.lt_succ_self _, fun hu => Nat.lt_irrefl _ (hs.used _ hu)⟩
    · obtain ⟨hissued, hunused⟩ := hs.held other t ht
      exact ⟨Nat.lt_succ_of_lt hissued, hunused⟩
  · intro a b t u ht hu he
    rw [token?_put] at ht hu
    split at ht <;> split at hu
    · next ha hb => rw [ha, hb]
    · obtain rfl := Option.some.inj ht
      exact absurd he.symm (Nat.ne_of_lt (hlt b u hu))
    · obtain rfl := Option.some.inj hu
      exact absurd he (Nat.ne_of_lt (hlt a t ht))
    · exact hs.once a b t u ht hu he

/-- Leaving uses the token that the context holds, and no other context holds it. -/
theorem Sound.exit (hs : Sound τ) {slot : Text} {h : Holder} {t : Token}
    (hh : τ.holders.get? slot = some h) (ht : h.token = some t) :
    Sound ⟨{ τ.var with value := t.old, used := t.serial :: τ.var.used },
      τ.holders.put slot { h with token := none }⟩ := by
  have htoken : τ.token? slot = some t := by rw [token?, hh, Option.bind_some, ht]
  refine ⟨?_, ?_, ?_⟩
  · intro other u hu
    rw [token?_put] at hu
    split at hu
    · cases hu
    · next hne =>
      obtain ⟨hissued, hunused⟩ := hs.held other u hu
      refine ⟨hissued, fun hm => ?_⟩
      rcases List.mem_cons.mp hm with he | hm
      · exact hne (hs.once other slot u t hu htoken he)
      · exact hunused hm
  · intro a b u v hu hv he
    rw [token?_put] at hu hv
    split at hu
    · cases hu
    · split at hv
      · cases hv
      · exact hs.once a b u v hu hv he
  · intro n hn
    rcases List.mem_cons.mp hn with rfl | hn
    · exact (hs.held slot t htoken).1
    · exact hs.used n hn

/-- The token of a context that is left was not used before, so it is not refused. -/
theorem Sound.reset (hs : Sound τ) {slot : Text} {h : Holder} {t : Token}
    (hh : τ.holders.get? slot = some h) (ht : h.token = some t) :
    h.exit τ.var = .ok ({ h with token := none },
      { τ.var with value := t.old, used := t.serial :: τ.var.used }) := by
  have htoken : τ.token? slot = some t := by rw [token?, hh, Option.bind_some, ht]
  have hunused : t.serial ∉ τ.var.used := (hs.held slot t htoken).2
  rw [Holder.exit, ht]
  simp only [Variable.reset, if_neg hunused]

theorem Agrees.get? (ha : Agrees τ σ) {slot : Text} {h : Holder}
    (hh : τ.holders.get? slot = some h) : σ.contexts.get? slot = some h.context := by
  rw [← ha.contexts slot, hh, Option.map_some]

theorem Sound.move_enter (hs : Sound τ) (ha : Agrees τ σ) {slot : Text} {h : Holder}
    (hh : τ.holders.get? slot = some h) :
    ∃ τ', τ.move (.enter slot) = .ok τ' ∧ Sound τ' ∧ Agrees τ' (σ.act slot Context.enter) := by
  refine ⟨⟨(h.enter τ.var).2, τ.holders.put slot (h.enter τ.var).1⟩, ?_, hs.enter slot h, ?_⟩
  · simp only [Scope.move, Move.slot, hh]
  · rw [Session.act_of_some (ha.get? hh)]
    refine ha.put slot ?_ rfl
    rw [Context.enter, ← ha.value]
    rfl

theorem Sound.move_exit (hs : Sound τ) (ha : Agrees τ σ) {slot : Text} {h : Holder}
    (hh : τ.holders.get? slot = some h) :
    ∃ τ', τ.move (.exit slot) = .ok τ' ∧ Sound τ' ∧ Agrees τ' (σ.act slot Context.exit) := by
  rw [Session.act_of_some (ha.get? hh)]
  cases ht : h.token with
  | none =>
    have hexit : h.exit τ.var = .ok (h, τ.var) := by rw [Holder.exit, ht]
    have hput : τ.holders.put slot h = τ.holders := Assoc.put_of_get? hh
    have hleft : h.context.exit σ.state = (h.context, σ.state) := by
      rw [Context.exit, Holder.context, ht]
      rfl
    have ha' := ha.put slot (h := h) (x := τ.var) rfl ha.value
    rw [hput] at ha'
    refine ⟨τ, by simp only [Scope.move, Move.slot, hh, hexit, hput], hs, ?_⟩
    rw [hleft]
    exact ha'
  | some t =>
    have hleft : h.context.exit σ.state =
        (Holder.context { h with token := none }, { σ.state with runId := t.old }) := by
      rw [Context.exit, Holder.context, ht]
      rfl
    refine ⟨_, by simp only [Scope.move, Move.slot, hh, hs.reset hh ht], hs.exit hh ht, ?_⟩
    rw [hleft]
    exact ha.put slot rfl rfl

/-- No move is refused, and each does to the session what it does to the contexts. -/
theorem Sound.move (hs : Sound τ) (ha : Agrees τ σ) (m : Move) :
    ∃ τ', τ.move m = .ok τ' ∧ Sound τ' ∧ Agrees τ' (σ.act m.slot m.op) := by
  cases hh : τ.holders.get? m.slot with
  | none =>
    have hc : σ.contexts.get? m.slot = none := by rw [← ha.contexts m.slot, hh, Option.map_none]
    rw [Session.act_of_none hc]
    exact ⟨τ, by simp only [Scope.move, hh], hs, ha⟩
  | some h =>
    cases m with
    | enter slot => exact hs.move_enter ha hh
    | exit slot => exact hs.move_exit ha hh

/-- A run of moves is never refused. -/
theorem Sound.run (hs : Sound τ) (ha : Agrees τ σ) (moves : List Move) :
    ∃ τ', τ.run moves = .ok τ' ∧ Agrees τ' (σ.run (moves.map Move.step)) := by
  induction moves generalizing τ σ with
  | nil => exact ⟨τ, rfl, ha⟩
  | cons m rest ih =>
    obtain ⟨τ₁, hmove, hs₁, ha₁⟩ := hs.move ha m
    obtain ⟨τ₂, hrun, ha₂⟩ := ih hs₁ ha₁
    refine ⟨τ₂, ?_, ?_⟩
    · rw [Scope.run, List.foldlM_cons, hmove]
      exact hrun
    · rw [List.map_cons, Session.run, List.foldl_cons, Move.step_eq]
      exact ha₂

theorem sound_ofSession (σ : Session) : Sound (ofSession σ) := by
  have hnone : ∀ slot, (ofSession σ).token? slot = none := by
    intro slot
    rw [token?, ofSession, Assoc.get?_map (fun c : Context => (⟨c.id, none⟩ : Holder))]
    cases σ.contexts.get? slot <;> rfl
  exact ⟨by simp [hnone], by simp [hnone], by simp [ofSession]⟩

theorem agrees_ofSession (hf : ∀ slot c, σ.contexts.get? slot = some c → c.replaced = none) :
    Agrees (ofSession σ) σ := by
  refine ⟨rfl, fun slot => ?_⟩
  rw [ofSession, Assoc.get?_map (fun c : Context => (⟨c.id, none⟩ : Holder)), Option.map_map]
  cases hc : σ.contexts.get? slot with
  | none => rfl
  | some c =>
    have hcontext : c = ⟨c.id, none⟩ := by rw [← hf slot c hc]
    exact congrArg some hcontext.symm

end Scope

end Allowlist.Log
