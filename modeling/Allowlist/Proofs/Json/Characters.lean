import Allowlist.Json.Canonical
import Allowlist.Proofs.Json.Nested
import Allowlist.Proofs.Number.Digits
import Allowlist.Proofs.Text.Joined

/-!
# The characters of a rendering

A rendering has the characters of its style, of its integers and the brackets, and no others. In
canonical JSON none of them is below the blank; all escapes are visible ASCII.
-/
namespace Allowlist.Json

def FloatFreeRoot : Json → Prop
  | .float _ => False
  | _ => True

/-- There is no floating-point number at any depth. -/
abbrev FloatFree (v : Json) : Prop := v.All FloatFreeRoot

/-- All that a style writes is within a class of characters. -/
structure Style.Within (s : Style) (P : Char → Prop) : Prop where
  null : ∀ c ∈ s.null, P c
  yes : ∀ c ∈ s.yes, P c
  no : ∀ c ∈ s.no, P c
  quote : ∀ t, ∀ c ∈ s.quote t, P c
  comma : ∀ c ∈ s.comma, P c
  colon : ∀ c ∈ s.colon, P c
  brackets : ∀ c ∈ ['[', ']', '\x7b', '\x7d'], P c
  integer : ∀ n, ∀ c ∈ Digits.integer n, P c

section Within

variable {s : Style} {P : Char → Prop} (hs : s.Within P)
include hs

theorem renderItems_within {items : List Json} (h : ∀ v ∈ items, ∀ c ∈ v.render s, P c) :
    ∀ c ∈ renderItems s items, P c := by
  induction items with
  | nil => simp [renderItems]
  | cons v rest ih =>
    have hv := h v (by simp)
    have hrest := ih fun w hw => h w (by simp [hw])
    cases rest with
    | nil =>
      rw [renderItems]
      exact hv
    | cons w rest =>
      rw [renderItems, List.forall_mem_append, List.forall_mem_append]
      exact ⟨hv, hs.comma, hrest⟩

theorem renderFields_within {fields : List (Text × Json)}
    (h : ∀ f ∈ fields, ∀ c ∈ f.2.render s, P c) : ∀ c ∈ renderFields s fields, P c := by
  induction fields with
  | nil => simp [renderFields]
  | cons f rest ih =>
    obtain ⟨k, v⟩ := f
    have hv : ∀ c ∈ v.render s, P c := h (k, v) (by simp)
    have hrest := ih fun g hg => h g (by simp [hg])
    cases rest with
    | nil =>
      rw [renderFields, List.forall_mem_append, List.forall_mem_append]
      exact ⟨hs.quote k, hs.colon, hv⟩
    | cons g rest =>
      rw [renderFields]
      simp only [List.forall_mem_append]
      exact ⟨hs.quote k, hs.colon, hv, hs.comma, hrest⟩

/-- All characters of a rendering are in the class of its style. -/
theorem render_within {v : Json} (h : v.FloatFree) : ∀ c ∈ v.render s, P c := by
  induction v using Json.induction with
  | null => rw [render]; exact hs.null
  | bool b =>
    cases b
    · rw [render]; exact hs.no
    · rw [render]; exact hs.yes
  | int n => rw [render]; exact hs.integer n
  | float x => exact False.elim h
  | str t => rw [render]; exact hs.quote t
  | arr items ih =>
    have hi := (all_arr.mp h).2
    rw [render, List.forall_mem_cons, List.forall_mem_append]
    exact ⟨hs.brackets _ (by simp), renderItems_within hs fun v hv => ih v hv (hi v hv),
      fun c hc => hs.brackets c (by simp_all)⟩
  | obj fields ih =>
    have hi := (all_obj.mp h).2
    rw [render, List.forall_mem_cons, List.forall_mem_append]
    exact ⟨hs.brackets _ (by simp), renderFields_within hs fun f hf => ih f hf (hi f hf),
      fun c hc => hs.brackets c (by simp_all)⟩

end Within

/-- A character of ASCII from the blank to the tilde. -/
def Visible (c : Char) : Prop := 0x20 ≤ c.toNat ∧ c.toNat ≤ 0x7E

instance Visible.decidable : DecidablePred Visible :=
  fun c => inferInstanceAs (Decidable (0x20 ≤ c.toNat ∧ c.toNat ≤ 0x7E))

theorem blank_le_of_visible {cs : List Char} (h : ∀ c ∈ cs, Visible c) :
    ∀ c ∈ cs, 0x20 ≤ c.toNat :=
  fun c hc => (h c hc).1

theorem visible_digit_all : ∀ n < 16, Visible (Digits.digit n) := by decide

/-- The form in which closed lists are decided: one test after the other. -/
theorem visible_of_all {cs : List Char} (h : cs.all (fun c => Visible c) = true) :
    ∀ c ∈ cs, Visible c := by
  simpa using h

theorem visible_of_isDecimal {c : Char} (h : Digits.isDecimal c = true) : Visible c := by
  simp only [Digits.isDecimal, Bool.and_eq_true, decide_eq_true_eq] at h
  exact ⟨Nat.le_trans (show 0x20 ≤ 0x30 by decide) h.1,
    Nat.le_trans h.2 (show 0x39 ≤ 0x7E by decide)⟩

theorem visible_integer (n : Int) : ∀ c ∈ Digits.integer n, Visible c := by
  cases n with
  | ofNat n => exact fun c hc => visible_of_isDecimal (Digits.isDecimal_of_mem_decimal (n := n) hc)
  | negSucc n =>
    rw [Digits.integer, List.forall_mem_cons]
    exact ⟨by decide, fun c hc =>
      visible_of_isDecimal (Digits.isDecimal_of_mem_decimal (n := n + 1) hc)⟩

theorem visible_hexEscape (n : Nat) : ∀ c ∈ hexEscape n, Visible c := by
  have hd (k : Nat) : Visible (Digits.digit (k % 16)) :=
    visible_digit_all _ (Nat.mod_lt _ (by omega))
  simp only [hexEscape, Digits.fixed_four, List.forall_mem_cons, hd, true_and]
  exact ⟨by decide, by decide, by simp⟩

theorem visible_shortEscape {n : Nat} {e : List Char} (h : shortEscape? n = some e) :
    ∀ c ∈ e, Visible c := by
  unfold shortEscape? at h
  split at h
  case h_8 => cases h
  all_goals
    obtain rfl := Option.some.inj h
    exact visible_of_all (by decide)

theorem blank_le_canonicalEscape (p : CodePoint) : ∀ c ∈ canonicalEscape p, 0x20 ≤ c.toNat := by
  unfold canonicalEscape
  split
  · next e h => exact blank_le_of_visible (visible_shortEscape h)
  · next c _ _ =>
    split
    · exact blank_le_of_visible (visible_hexEscape _)
    · next h => exact List.forall_mem_singleton.mpr (Nat.not_lt.mp h)
  · exact blank_le_of_visible (visible_hexEscape _)

theorem canonicalStyle_within : canonicalStyle.Within (0x20 ≤ ·.toNat) where
  null := blank_le_of_visible (visible_of_all (by decide))
  yes := blank_le_of_visible (visible_of_all (by decide))
  no := blank_le_of_visible (visible_of_all (by decide))
  quote t := by
    simp only [canonicalStyle, quoteWith, List.forall_mem_cons, List.forall_mem_append,
      List.mem_flatMap]
    refine ⟨by decide, ?_, by decide, by simp⟩
    rintro c ⟨p, _, hc⟩
    exact blank_le_canonicalEscape p c hc
  comma := blank_le_of_visible (visible_of_all (by decide))
  colon := blank_le_of_visible (visible_of_all (by decide))
  brackets := blank_le_of_visible (visible_of_all (by decide))
  integer n := blank_le_of_visible (visible_integer n)

/-- Canonical JSON has no control characters, so it is a single line. -/
theorem blank_le_of_mem_canonical {v : Json} (h : v.FloatFree) :
    ∀ c ∈ v.canonical, 0x20 ≤ c.toNat :=
  render_within canonicalStyle_within h

end Allowlist.Json
