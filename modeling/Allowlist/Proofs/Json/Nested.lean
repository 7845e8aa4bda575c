import Allowlist.Json.Basic

/-!
# Induction over JSON values

A value is its root and what is nested in it. `Json.induction` proves a property of all values from
items and fields to arrays and objects; `All p` says of one value that the property `p` holds at
its root and everywhere below.
-/
namespace Allowlist.Json

variable {p : Json → Prop}

@[elab_as_elim]
theorem induction {motive : Json → Prop} (null : motive .null) (bool : ∀ b, motive (.bool b))
    (int : ∀ n, motive (.int n)) (float : ∀ x, motive (.float x)) (str : ∀ t, motive (.str t))
    (arr : ∀ items, (∀ v ∈ items, motive v) → motive (.arr items))
    (obj : ∀ fields, (∀ f ∈ fields, motive f.2) → motive (.obj fields)) (v : Json) : motive v :=
  @Json.rec motive (fun items => ∀ v ∈ items, motive v)
    (fun fields => ∀ f ∈ fields, motive f.2) (fun f => motive f.2)
    null bool int float str arr obj
    (by simp) (fun _ _ hv hrest => List.forall_mem_cons.mpr ⟨hv, hrest⟩)
    (by simp) (fun _ _ hf hrest => List.forall_mem_cons.mpr ⟨hf, hrest⟩)
    (fun _ _ hv => hv) v

mutual

/-- Holds at the root and at everything nested in it. -/
def All (p : Json → Prop) : Json → Prop
  | .arr items => p (.arr items) ∧ AllItems p items
  | .obj fields => p (.obj fields) ∧ AllFields p fields
  | v => p v

def AllItems (p : Json → Prop) : List Json → Prop
  | [] => True
  | v :: rest => All p v ∧ AllItems p rest

def AllFields (p : Json → Prop) : List (Text × Json) → Prop
  | [] => True
  | (_, v) :: rest => All p v ∧ AllFields p rest

end

theorem allItems_iff {items : List Json} : AllItems p items ↔ ∀ v ∈ items, v.All p := by
  induction items with
  | nil => simp [AllItems]
  | cons v rest ih => simp [AllItems, ih]

theorem allFields_iff {fields : List (Text × Json)} :
    AllFields p fields ↔ ∀ f ∈ fields, f.2.All p := by
  induction fields with
  | nil => simp [AllFields]
  | cons f rest ih => simp [AllFields, ih]

theorem all_arr {items : List Json} :
    (Json.arr items).All p ↔ p (.arr items) ∧ ∀ v ∈ items, v.All p := by
  rw [All, allItems_iff]

theorem all_obj {fields : List (Text × Json)} :
    (Json.obj fields).All p ↔ p (.obj fields) ∧ ∀ f ∈ fields, f.2.All p := by
  rw [All, allFields_iff]

theorem All.root {v : Json} (h : v.All p) : p v := by
  cases v with
  | arr items => exact (all_arr.mp h).1
  | obj fields => exact (all_obj.mp h).1
  | _ => exact h

theorem All.mono {q : Json → Prop} (hpq : ∀ v, p v → q v) {v : Json} (h : v.All p) : v.All q := by
  induction v using Json.induction with
  | arr items ih =>
    obtain ⟨hr, hs⟩ := all_arr.mp h
    exact all_arr.mpr ⟨hpq _ hr, fun w hw => ih w hw (hs w hw)⟩
  | obj fields ih =>
    obtain ⟨hr, hs⟩ := all_obj.mp h
    exact all_obj.mpr ⟨hpq _ hr, fun f hf => ih f hf (hs f hf)⟩
  | _ => exact hpq _ h

mutual

instance All.decidable [DecidablePred p] : (v : Json) → Decidable (v.All p)
  | .null => inferInstanceAs (Decidable (p _))
  | .bool _ => inferInstanceAs (Decidable (p _))
  | .int _ => inferInstanceAs (Decidable (p _))
  | .float _ => inferInstanceAs (Decidable (p _))
  | .str _ => inferInstanceAs (Decidable (p _))
  | .arr items =>
    have := AllItems.decidable items
    inferInstanceAs (Decidable (p (.arr items) ∧ AllItems p items))
  | .obj fields =>
    have := AllFields.decidable fields
    inferInstanceAs (Decidable (p (.obj fields) ∧ AllFields p fields))

instance AllItems.decidable [DecidablePred p] : (items : List Json) → Decidable (AllItems p items)
  | [] => isTrue trivial
  | v :: rest =>
    have := All.decidable v
    have := AllItems.decidable rest
    inferInstanceAs (Decidable (All p v ∧ AllItems p rest))

instance AllFields.decidable [DecidablePred p] :
    (fields : List (Text × Json)) → Decidable (AllFields p fields)
  | [] => isTrue trivial
  | (_, v) :: rest =>
    have := All.decidable v
    have := AllFields.decidable rest
    inferInstanceAs (Decidable (All p v ∧ AllFields p rest))

end

end Allowlist.Json
