/-!
# Ordered maps

A map is the list of its entries in the order in which the keys were first put. A key that is put
again keeps its place and takes the new value.
-/
namespace Allowlist

abbrev Assoc (κ α : Type) := List (κ × α)

namespace Assoc

variable {κ α : Type} [DecidableEq κ]

def get? (m : Assoc κ α) (key : κ) : Option α := m.lookup key

def keys (m : Assoc κ α) : List κ := m.map Prod.fst

def put (m : Assoc κ α) (key : κ) (value : α) : Assoc κ α :=
  match m with
  | [] => [(key, value)]
  | (k, v) :: rest => if k = key then (k, value) :: rest else (k, v) :: put rest key value

/-- Puts the pairs one after the other. -/
def ofPairs (ps : List (κ × α)) : Assoc κ α := ps.foldl (fun m p => put m p.1 p.2) []

@[simp] theorem get?_nil (key : κ) : get? ([] : Assoc κ α) key = none := rfl

theorem get?_cons (k : κ) (v : α) (m : Assoc κ α) (key : κ) :
    get? ((k, v) :: m) key = if key = k then some v else get? m key := by
  have hl : get? ((k, v) :: m) key = match key == k with
      | true => some v
      | false => get? m key := rfl
  rw [hl]
  by_cases h : key = k
  · simp [h]
  · simp [h, beq_false_of_ne h]

theorem get?_put (m : Assoc κ α) (key : κ) (value : α) (k : κ) :
    get? (put m key value) k = if k = key then some value else get? m k := by
  induction m with
  | nil => simp [put, get?_cons]
  | cons p rest ih =>
    obtain ⟨k', v'⟩ := p
    by_cases h : k' = key <;> by_cases h' : k = k' <;> simp_all [put, get?_cons]

/-- Putting what is there already changes nothing. -/
theorem put_of_get? {m : Assoc κ α} {key : κ} {value : α} (h : get? m key = some value) :
    put m key value = m := by
  induction m with
  | nil => simp at h
  | cons p rest ih =>
    obtain ⟨k', v'⟩ := p
    by_cases hk : k' = key
    · simp_all [put, get?_cons]
    · simp [put, hk, ih (by simpa [get?_cons, Ne.symm hk] using h)]

end Assoc

end Allowlist
