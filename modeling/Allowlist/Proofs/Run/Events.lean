import Allowlist.Proofs.Log.Session
import Allowlist.Run.Event

/-!
# Levels and fields of events

All that the stages tell is for debugging. No event has a further field that stands for an attribute
of its record or for the run id, and the further fields are texts and numbers of members. So each event
is logged as a line that shows it.
-/
namespace Allowlist.Event

variable {e : Event} {surface : Json} {fs : Files} {source destination : Text} {variant : Variant}

theorem level_cases (e : Event) :
    e.level = Log.Level.error ∨ e.level = Log.Level.info ∨ e.level = Log.Level.debug := by
  cases e <;> simp [level]

theorem level_pos (e : Event) : 0 < e.level := by
  rcases level_cases e with h | h | h <;> rw [h] <;> decide

theorem keys_extras (e : Event) :
    ∀ key ∈ e.extras.keys, key ∉ Log.forbidden ∧ key ≠ "run_id" := by
  cases e <;> simp only [extras, Assoc.keys_cons, Assoc.keys_nil] <;> decide

theorem isWritable_number (n : Nat) : (number n).isWritable = true := by
  have hlt : (if n ≤ maxSize then n else maxSize) < Nat.pow 10 19 := by
    split
    · next h => exact Nat.lt_of_le_of_lt h (by decide)
    · decide
  have hlength := (Digits.length_decimal_le_iff _ (by decide)).mpr hlt
  exact decide_eq_true (Nat.le_trans hlength (by decide))

theorem isWritable_extras (e : Event) : ∀ p ∈ e.extras, p.2.isWritable = true := by
  cases e <;> simp [extras, isWritable_number]

/-- Whatever an event tells, there is a line for it. -/
theorem renderable_record (e : Event) (command : Text) : (e.record command).Renderable where
  level := by
    have hlevel : (e.record command).level = e.level := rfl
    rw [hlevel]
    rcases level_cases e with h | h | h <;> rw [h] <;> decide
  message := by
    cases e <;> simp only [record, extras, Assoc.keys_cons, Assoc.keys_nil] <;> decide
  extras := fun p hp => e.isWritable_extras p (List.mem_filter.mp hp).1

theorem level_of_mem_ofSurface (h : e ∈ ofSurface surface) : e.level = Log.Level.debug := by
  rw [ofSurface] at h
  split at h
  · cases h
  · next s hs =>
    rcases List.mem_cons.mp h with rfl | h
    · rfl
    · split at h
      · cases h
      · obtain rfl := List.mem_singleton.mp h
        rfl

theorem level_of_mem_ofCompile {required : Option (List Text)}
    (h : e ∈ ofCompile surface required) : e.level = Log.Level.debug := by
  rcases List.mem_append.mp h with h | h
  · exact level_of_mem_ofSurface h
  · unfold ofCover at h
    split at h
    · split at h
      · obtain rfl := List.mem_singleton.mp h
        rfl
      · cases h
    · cases h

theorem level_of_mem_ofGenerate (h : e ∈ ofGenerate fs source destination variant) :
    e.level = Log.Level.debug := by
  rw [ofGenerate] at h
  split at h
  · cases h
  · rcases List.mem_append.mp h with h | h
    · exact level_of_mem_ofCompile h
    · split at h
      · obtain rfl := List.mem_singleton.mp h
        rfl
      · cases h

theorem level_of_mem_ofCheck {committed : Utf8.Bytes} {path : Path}
    {found : Except Failure (List Violation)}
    (h : e ∈ ofCheck committed surface path variant found) : e.level = Log.Level.debug := by
  unfold ofCheck at h
  split at h
  · cases h
  · rcases List.mem_append.mp h with h | h
    · split at h
      · exact level_of_mem_ofSurface h
      · cases h
    · obtain rfl := List.mem_singleton.mp h
      rfl

theorem level_of_mem_ofVerify (h : e ∈ ofVerify fs source destination variant) :
    e.level = Log.Level.debug := by
  rw [ofVerify] at h
  split at h
  · cases h
  · rcases List.mem_append.mp h with h | h
    · exact level_of_mem_ofCompile h
    · split at h
      · exact level_of_mem_ofCheck h
      · cases h

end Allowlist.Event
