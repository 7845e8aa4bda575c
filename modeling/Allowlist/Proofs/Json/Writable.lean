import Allowlist.Json.Writable
import Allowlist.Proofs.Number.Digits

/-!
# What can be written

A value can be written exactly if each integer in it is below a power of ten.
-/
namespace Allowlist.Json

theorem isShort_iff (n : Int) : isShort n = true ↔ n.natAbs < Nat.pow 10 maxIntegerDigits := by
  rw [isShort, decide_eq_true_eq]
  exact Digits.length_decimal_le_iff _ (by decide)

/-- The least integer of too many digits. -/
def leastLong : Int := Nat.pow 10 maxIntegerDigits

theorem isShort_leastLong : isShort leastLong = false := by
  refine Bool.eq_false_iff.mpr fun h => ?_
  rw [isShort_iff, leastLong, Int.natAbs_natCast] at h
  exact Nat.lt_irrefl _ h

theorem ten_le_leastLong : 10 ≤ leastLong := Int.ofNat_le.mpr (Digits.ten_le_pow (by decide))

theorem areItemsWritable_iff {items : List Json} :
    areItemsWritable items = true ↔ ∀ v ∈ items, v.isWritable = true := by
  induction items with
  | nil => simp [areItemsWritable]
  | cons v rest ih => simp [areItemsWritable, ih]

theorem areFieldsWritable_iff {fields : List (Text × Json)} :
    areFieldsWritable fields = true ↔ ∀ f ∈ fields, f.2.isWritable = true := by
  induction fields with
  | nil => simp [areFieldsWritable]
  | cons f rest ih => simp [areFieldsWritable, ih]

theorem isWritable_arr_iff {items : List Json} :
    (Json.arr items).isWritable = true ↔ ∀ v ∈ items, v.isWritable = true := by
  rw [isWritable, areItemsWritable_iff]

theorem isWritable_obj_iff {fields : List (Text × Json)} :
    (Json.obj fields).isWritable = true ↔ ∀ f ∈ fields, f.2.isWritable = true := by
  rw [isWritable, areFieldsWritable_iff]

@[simp] theorem isWritable_str (t : Text) : (Json.str t).isWritable = true := rfl

end Allowlist.Json
