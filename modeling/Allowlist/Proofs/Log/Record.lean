import Allowlist.Log.State
import Allowlist.Proofs.Assoc
import Allowlist.Proofs.Json.Writable

/-!
# What a line shows

The line of a record shows its message, and the current run id if there is one: as a field of a JSON
object, or shortened in front of the message. Further fields take the place of neither, unless they
have their names. A record has its line if its level and all values that are shown can be written, and
if no further field keeps it from being asked for its message.
-/
namespace Allowlist.Log

/-- The mark of a run id in a line for people. -/
def mark (runId : Option Text) : Text :=
  match runId with
  | some id => "[" ++ Record.shortId id ++ "] "
  | none => []

/-- A line in a layout shows a record with a run id, or without one. -/
def Shows (layout : Layout) (clock : Clock) (runId : Option Text) (r : Record) (line : Text) : Prop :=
  match layout with
  | .json => ∃ fields : Fields Json, line = .ofChars (Json.obj fields).line ∧
      fields.get? "message" = some (.str r.message) ∧ fields.get? "run_id" = runId.map .str
  | .human => ∃ more : Text, line = Text.ofChars clock.civil.plain ++ " [" ++ Level.name r.level ++
      "] " ++ r.logger ++ ": " ++ mark runId ++ r.message ++ more

theorem not_mem_attributes {key : Text} (h : key ∉ forbidden) : key ∉ attributes :=
  fun ha => h (.tail _ (.tail _ ha))

/-- A record has a line in every layout. -/
structure Record.Renderable (r : Record) : Prop where
  level : Json.isShort r.level = true
  message : question ∉ r.extras.keys
  extras : ∀ p ∈ r.shown, p.2.isWritable = true

namespace Record

variable {r : Record} {runId : Option Text}

theorem shownId_eq_self (h : runId ≠ some []) : shownId runId = runId := by
  cases runId with
  | none => rfl
  | some id =>
    have hid : id ≠ [] := fun he => h (by rw [he])
    simp [shownId, hid]

/-- A key without a further field keeps its value. -/
theorem get?_toJson_fields (clock : Clock) {key : Text} (h : key ∉ r.extras.keys) :
    (r.shown.foldl (fun fs p => Assoc.put fs p.1 p.2) (r.base clock runId)).get? key =
      (r.base clock runId).get? key := by
  have hkey : ∀ p ∈ r.shown, p.1 ≠ key := by
    intro p hp he
    have hm : p ∈ r.extras := (List.mem_filter.mp hp).1
    exact h (he ▸ Assoc.mem_keys_of_mem hm)
  exact Assoc.get?_foldl_put hkey _

theorem get?_base_message (clock : Clock) : (r.base clock runId).get? "message" =
    some (.str r.message) := by
  rfl

theorem get?_base_runId (clock : Clock) : (r.base clock runId).get? "run_id" =
    (shownId runId).map .str := by
  rw [base]
  cases shownId runId with
  | none => cases r.exception <;> rfl
  | some id => cases r.exception <;> rfl

/-- An attribute is shown as it is if no further field has its name. -/
theorem attributeValue_eq {name : Text} (h : name ∉ r.extras.keys) (own : Text) :
    r.attributeValue name own = .str own := by
  rw [attributeValue, Assoc.get?_eq_none_iff.mpr h]
  rfl

theorem shownLevel_eq (h : ∀ key ∈ r.extras.keys, key ∉ attributes) :
    r.shownLevel = .str (Level.name r.level) :=
  attributeValue_eq (fun hk => h _ hk (by decide)) _

theorem shownLogger_eq (h : ∀ key ∈ r.extras.keys, key ∉ attributes) :
    r.shownLogger = .str r.logger :=
  attributeValue_eq (fun hk => h _ hk (by decide)) _

/-- The line of a record shows it, if its further fields have names of their own. -/
theorem shows_line (layout : Layout) (clock : Clock) (hid : runId ≠ some [])
    (hf : ∀ key ∈ r.extras.keys, key ∉ forbidden ∧ key ≠ "run_id") :
    Shows layout clock runId r (r.line layout clock runId) := by
  cases layout with
  | json =>
    have hmessage : ("message" : Text) ∉ r.extras.keys := fun hk => (hf _ hk).1 (by decide)
    refine ⟨_, rfl, ?_, ?_⟩
    · rw [get?_toJson_fields clock hmessage]
      exact get?_base_message clock
    · rw [get?_toJson_fields clock (fun hk => (hf _ hk).2 rfl), get?_base_runId,
        shownId_eq_self hid]
  | human =>
    have hattributes : ∀ key ∈ r.extras.keys, key ∉ attributes :=
      fun key hk => not_mem_attributes (hf key hk).1
    refine ⟨r.shown.flatMap pair, ?_⟩
    simp only [line, human, shownLevel_eq hattributes, shownLogger_eq hattributes, Json.display,
      shownId_eq_self hid]
    rfl

/-- What a record shows by itself are texts, so only its further fields count. -/
theorem isWritable_of_shown (layout : Layout) (clock : Clock)
    (hf : ∀ key ∈ r.extras.keys, key ∉ attributes) (h : ∀ p ∈ r.shown, p.2.isWritable = true) :
    r.isWritable layout clock runId = true := by
  cases layout with
  | json =>
    have hbase : ∀ p ∈ r.base clock runId, p.2.isWritable = true := by
      rw [base, shownLevel_eq hf, shownLogger_eq hf]
      cases shownId runId <;> cases r.exception <;> simp
    exact Json.isWritable_obj_iff.mpr (Assoc.forall_mem_foldl_put h hbase)
  | human =>
    have hall : r.shown.all (·.2.isWritable) = true := List.all_eq_true.mpr h
    rw [isWritable, shownLevel_eq hf, shownLogger_eq hf, hall]
    rfl

/-- With distinct names none of the further fields takes the place of another. -/
theorem isWritable_of_mem_shown {layout : Layout} {clock : Clock} (hn : r.extras.keys.Nodup)
    (h : r.isWritable layout clock runId = true) : ∀ p ∈ r.shown, p.2.isWritable = true := by
  intro p hp
  cases layout with
  | json =>
    have hkeys : (Assoc.keys r.shown).Nodup := hn.sublist (List.filter_sublist.map Prod.fst)
    have hget := Assoc.get?_foldl_put_of_nodup (m := r.base clock runId) hkeys p.1
    rw [Assoc.get?_of_mem hkeys hp] at hget
    exact Json.isWritable_obj_iff.mp h _ (Assoc.mem_of_get? hget)
  | human =>
    rw [isWritable, Bool.and_assoc, Bool.and_eq_true] at h
    exact List.all_eq_true.mp h.1 p hp

/-- Whether the values or the message come first makes no difference to a record with a message. -/
theorem write_ok (r : Record) (layout : Layout) (clock : Clock) :
    r.write (.ok r.message) layout clock runId =
      if r.isWritable layout clock runId then .ok (r.line layout clock runId)
      else .error .longInteger := by
  cases layout <;> rfl

theorem write_error_ne_ok (f : Fault) (layout : Layout) (clock : Clock) (t : Text) :
    r.write (.error f) layout clock runId ≠ .ok t := by
  cases layout with
  | json => exact nofun
  | human =>
    rw [write]
    split <;> exact nofun

/-- When a record is rendered, and as what. -/
theorem render_eq_ok_iff {layout : Layout} {clock : Clock} {t : Text} :
    r.render layout clock runId = .ok t ↔ Json.isShort r.level = true ∧
      question ∉ r.extras.keys ∧ r.isWritable layout clock runId = true ∧
        r.line layout clock runId = t := by
  rw [render, asked]
  by_cases hlevel : Json.isShort r.level = true
  · rw [if_pos hlevel, and_iff_right hlevel, ← Assoc.get?_eq_none_iff]
    cases hm : r.extras.get? question with
    | some v => simp [write_error_ne_ok]
    | none =>
      rw [write_ok]
      by_cases hw : r.isWritable layout clock runId = true <;> simp [hw]
  · simp [hlevel]

theorem render_eq_longInteger {layout : Layout} {clock : Clock} (hlevel : Json.isShort r.level = true)
    (hm : question ∉ r.extras.keys) (hw : ¬r.isWritable layout clock runId = true) :
    r.render layout clock runId = .error .longInteger := by
  rw [render, if_pos hlevel, asked, Assoc.get?_eq_none_iff.mpr hm, write_ok, if_neg hw]

theorem Renderable.render_eq (h : r.Renderable) (layout : Layout) (clock : Clock)
    (hf : ∀ key ∈ r.extras.keys, key ∉ attributes) :
    r.render layout clock runId = .ok (r.line layout clock runId) :=
  render_eq_ok_iff.mpr
    ⟨h.level, h.message, isWritable_of_shown layout clock hf h.extras, rfl⟩

theorem renderable_of_render {layout : Layout} {clock : Clock} {t : Text}
    (hn : r.extras.keys.Nodup) (h : r.render layout clock runId = .ok t) : r.Renderable := by
  obtain ⟨hlevel, hmessage, hwritable, -⟩ := render_eq_ok_iff.mp h
  exact ⟨hlevel, hmessage, isWritable_of_mem_shown hn hwritable⟩

end Record

end Allowlist.Log
