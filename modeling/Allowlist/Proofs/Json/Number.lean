import Allowlist.Json.Reader
import Allowlist.Json.Render
import Allowlist.Proofs.Number.Digits

/-!
# Integers read back

The digits of an integer are the longest match of the number grammar if what follows cannot carry
the number on.
-/
namespace Allowlist.Json

open Digits (isDecimal decimal)

/-- The characters that may follow a value: a comma, a closing bracket or a blank. None of them is
part of a number. -/
def endings : List Char := [',', ']', '\x7d', ' ', '\t', '\n', '\r']

/-- A value may end before `rest`. -/
def Ends (rest : List Char) : Prop := ∀ c ∈ rest.head?, c ∈ endings

theorem Ends.head {c : Char} {rest : List Char} (h : Ends (c :: rest)) :
    c = ',' ∨ c = ']' ∨ c = '\x7d' ∨ c = ' ' ∨ c = '\t' ∨ c = '\n' ∨ c = '\r' := by
  simpa [endings] using h c rfl

theorem ends_comma (rest : List Char) : Ends (',' :: rest) := by simp [Ends, endings]

theorem ends_bracket (rest : List Char) : Ends (']' :: rest) := by simp [Ends, endings]

theorem ends_brace (rest : List Char) : Ends ('\x7d' :: rest) := by simp [Ends, endings]

theorem ends_of_blanks {bs : List Char} (h : ∀ c ∈ bs, isBlank c = true) : Ends bs := by
  intro c hc
  have hb : isBlank c = true := h c (List.mem_of_mem_head? hc)
  simp only [isBlank, Bool.or_eq_true, decide_eq_true_eq] at hb
  rcases hb with ((rfl | rfl) | rfl) | rfl <;> decide

theorem digitsOf_append {ds rest : List Char} (hd : ∀ c ∈ ds, isDecimal c = true)
    (hr : Ends rest) : digitsOf (ds ++ rest) = (ds, rest) := by
  have hn : rest.takeWhile isDecimal = [] ∧ rest.dropWhile isDecimal = rest := by
    cases rest with
    | nil => simp
    | cons c rest =>
      have hc : isDecimal c = false := by
        rcases hr.head with rfl | rfl | rfl | rfl | rfl | rfl | rfl <;> decide
      simp [hc]
  rw [digitsOf, List.takeWhile_append_of_pos hd, List.dropWhile_append_of_pos hd, hn.1, hn.2,
    List.append_nil]

theorem takeFraction_of_ends {rest : List Char} (h : Ends rest) :
    takeFraction rest = (none, rest) := by
  cases rest with
  | nil => rfl
  | cons c rest => rcases h.head with rfl | rfl | rfl | rfl | rfl | rfl | rfl <;> rfl

theorem takeExponent_of_ends {rest : List Char} (h : Ends rest) :
    takeExponent rest = (none, rest) := by
  cases rest with
  | nil => rfl
  | cons c rest => rcases h.head with rfl | rfl | rfl | rfl | rfl | rfl | rfl <;> rfl

theorem takeWhole?_digits {c : Char} {ds rest : List Char} (hc : c ≠ '0')
    (hd : ∀ d ∈ c :: ds, isDecimal d = true) (hr : Ends rest) :
    takeWhole? (c :: ds ++ rest) = some (c :: ds, rest) := by
  have hs : digitsOf (c :: ds ++ rest) = (c :: ds, rest) := digitsOf_append hd hr
  rw [takeWhole?.eq_def]
  split
  · next h => exact absurd (List.cons.inj h).1 hc
  · rw [hs]
    simp

theorem takeWhole?_decimal (n : Nat) {rest : List Char} (hr : Ends rest) :
    takeWhole? (decimal n ++ rest) = some (decimal n, rest) := by
  rcases Nat.eq_zero_or_pos n with rfl | hn
  · rfl
  · obtain ⟨d, ds, he, hd⟩ := Digits.decimal_eq_cons hn
    have hall : ∀ c ∈ d :: ds, isDecimal c = true :=
      fun c hc => Digits.isDecimal_of_mem_decimal (n := n) (he ▸ hc)
    rw [he]
    exact takeWhole?_digits hd hall hr

/-- The parts of an integer as it is written. -/
def integerParts (negative : Bool) (n : Nat) : NumberParts := ⟨negative, decimal n, none, none⟩

theorem takeSign_digit {c : Char} (h : isDecimal c = true) (rest : List Char) :
    takeSign (c :: rest) = (false, c :: rest) := by
  rw [takeSign.eq_def]
  split
  · next he =>
    obtain ⟨rfl, -⟩ := List.cons.inj he
    cases h
  · rfl

theorem takeSign_decimal (n : Nat) (rest : List Char) :
    takeSign (decimal n ++ rest) = (false, decimal n ++ rest) := by
  obtain ⟨d, ds, he⟩ := List.exists_cons_of_ne_nil (Digits.decimal_ne_nil n)
  have hd : isDecimal d = true := Digits.isDecimal_of_mem_decimal (n := n) (by simp [he])
  rw [he]
  exact takeSign_digit hd (ds ++ rest)

theorem takeNumber?_decimal (n : Nat) {rest : List Char} (hr : Ends rest) :
    takeNumber? (decimal n ++ rest) = some (integerParts false n, rest) := by
  simp only [takeNumber?, takeSign_decimal, takeWhole?_decimal n hr, Option.bind_eq_bind,
    Option.bind_some, takeFraction_of_ends hr, takeExponent_of_ends hr, integerParts]

theorem takeNumber?_neg (n : Nat) {rest : List Char} (hr : Ends rest) :
    takeNumber? ('-' :: (decimal n ++ rest)) = some (integerParts true n, rest) := by
  simp only [takeNumber?, takeSign, takeWhole?_decimal n hr, Option.bind_eq_bind,
    Option.bind_some, takeFraction_of_ends hr, takeExponent_of_ends hr, integerParts]

theorem value_integerParts (negative : Bool) {n : Nat} (h : (decimal n).length ≤ maxIntegerDigits) :
    (integerParts negative n).value = .ok (.int (if negative then -n else n)) := by
  simp only [integerParts, NumberParts.value, Option.isNone_none, Bool.and_self, ↓reduceIte,
    Nat.not_lt.mpr h, Digits.value_decimal]

/-- An integer that is not too long is read back. -/
theorem readNumber_integer {n : Int} (h : (decimal n.natAbs).length ≤ maxIntegerDigits)
    {rest : List Char} (hr : Ends rest) :
    readNumber (Digits.integer n ++ rest) = .ok (.int n, rest) := by
  cases n with
  | ofNat n =>
    have hv := value_integerParts false (n := n) h
    simp only [Digits.integer, readNumber, takeNumber?_decimal n hr, hv]
    rfl
  | negSucc n =>
    have hv := value_integerParts true (n := n + 1) h
    simp only [Digits.integer, readNumber, List.cons_append, takeNumber?_neg (n + 1) hr, hv]
    rfl

end Allowlist.Json
