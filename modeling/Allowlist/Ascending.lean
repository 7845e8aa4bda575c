import Allowlist.Text.Basic

/-!
# Strictly ascending lists

A set of texts is written as the strictly ascending list of its members. `sortUnique` gives that
list, `isAscending` recognises it.
-/
namespace Allowlist.Ascending

variable {α : Type} [LT α] [DecidableEq α] [DecidableLT α]

def insert (x : α) : List α → List α
  | [] => [x]
  | y :: ys =>
    if x < y then x :: y :: ys
    else if x = y then y :: ys
    else y :: insert x ys

def sortUnique (xs : List α) : List α := xs.foldr insert []

@[simp] theorem sortUnique_nil : sortUnique ([] : List α) = [] := rfl

@[simp] theorem sortUnique_cons (x : α) (xs : List α) :
    sortUnique (x :: xs) = insert x (sortUnique xs) := rfl

theorem mem_insert {a x : α} {xs : List α} : a ∈ insert x xs ↔ a = x ∨ a ∈ xs := by
  induction xs with
  | nil => simp [insert]
  | cons y ys ih => simp only [insert]; split <;> grind

theorem mem_sortUnique {a : α} {xs : List α} : a ∈ sortUnique xs ↔ a ∈ xs := by
  induction xs with
  | nil => simp
  | cons x xs ih => simp [mem_insert, ih]

/-- Each element is below its right neighbour. -/
def isAscending : List α → Bool
  | [] => true
  | [_] => true
  | x :: y :: rest => decide (x < y) && isAscending (y :: rest)

end Allowlist.Ascending
