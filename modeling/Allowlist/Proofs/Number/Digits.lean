import Allowlist.Number.Digits

/-!
# Digits read back

The digits of a number denote that number, in the shortest form and in a fixed width. A shortest
form begins with a zero only if it is the zero.
-/
namespace Allowlist.Digits

theorem value?_digit_all : ∀ base ∈ [10, 16], ∀ n < base, value? base (digit n) = some n := by
  decide

theorem isDecimal_digit_all : ∀ n < 10, isDecimal (digit n) = true := by decide

theorem digit_ne_zero_all : ∀ n < 10, n ≠ 0 → digit n ≠ '0' := by decide

/-- One more digit in the number that was read so far. -/
abbrev shift (base : Nat) (n : Nat) (c : Char) : Nat := base * n + (value? base c).getD 0

theorem foldl_ofNatFuel {base : Nat} (hb : base ∈ [10, 16]) (fuel n : Nat) (rest : List Char)
    (h : n < fuel) : (ofNatFuel base fuel n rest).foldl (shift base) 0 =
      rest.foldl (shift base) n := by
  have hp : 2 ≤ base := by simp at hb; omega
  induction fuel generalizing n rest with
  | zero => omega
  | succ fuel ih =>
    rw [ofNatFuel]
    split
    · next hn => simp [shift, value?_digit_all base hb n hn]
    · next hn =>
      have hd : n / base < fuel := by
        have := Nat.div_lt_self (n := n) (k := base) (by omega) hp
        omega
      have hm := value?_digit_all base hb (n % base) (Nat.mod_lt _ (by omega))
      rw [ih _ _ hd, List.foldl_cons, shift, hm, Option.getD_some, Nat.div_add_mod]

/-- The digits of a number denote it. -/
theorem value_ofNat {base : Nat} (hb : base ∈ [10, 16]) (n : Nat) : value base (ofNat base n) = n :=
  foldl_ofNatFuel hb (n + 1) n [] (by omega)

theorem value_decimal (n : Nat) : value 10 (decimal n) = n := value_ofNat (by simp) n

theorem isDecimal_ofNatFuel (fuel n : Nat) {rest : List Char} (h : ∀ c ∈ rest, isDecimal c = true) :
    ∀ c ∈ ofNatFuel 10 fuel n rest, isDecimal c = true := by
  induction fuel generalizing n rest with
  | zero => exact h
  | succ fuel ih =>
    rw [ofNatFuel]
    split
    · next hn =>
      intro c hc
      rcases List.mem_cons.mp hc with rfl | hc
      · exact isDecimal_digit_all n hn
      · exact h c hc
    · refine ih _ ?_
      intro c hc
      rcases List.mem_cons.mp hc with rfl | hc
      · exact isDecimal_digit_all _ (Nat.mod_lt _ (by omega))
      · exact h c hc

theorem isDecimal_of_mem_decimal {n : Nat} {c : Char} (h : c ∈ decimal n) : isDecimal c = true :=
  isDecimal_ofNatFuel _ _ (by simp) c h

/-- The first digit of a positive number is not zero, so no two forms denote one number. -/
theorem ofNatFuel_eq_cons (fuel n : Nat) (rest : List Char) (h : n < fuel) (hn : 0 < n) :
    ∃ d ds, ofNatFuel 10 fuel n rest = d :: ds ∧ d ≠ '0' := by
  induction fuel generalizing n rest with
  | zero => omega
  | succ fuel ih =>
    rw [ofNatFuel]
    split
    · next hlt => exact ⟨digit n, rest, rfl, digit_ne_zero_all n hlt (by omega)⟩
    · exact ih _ _ (by omega) (by omega)

theorem decimal_zero : decimal 0 = ['0'] := rfl

theorem decimal_eq_cons {n : Nat} (h : 0 < n) : ∃ d ds, decimal n = d :: ds ∧ d ≠ '0' :=
  ofNatFuel_eq_cons (n + 1) n [] (by omega) h

theorem decimal_ne_nil (n : Nat) : decimal n ≠ [] := by
  rcases Nat.eq_zero_or_pos n with rfl | h
  · simp [decimal_zero]
  · obtain ⟨d, ds, he, -⟩ := decimal_eq_cons h
    simp [he]

theorem ten_le_pow {k : Nat} (hk : 0 < k) : 10 ≤ Nat.pow 10 k := by
  cases k with
  | zero => omega
  | succ k => exact Nat.le_mul_of_pos_left 10 (Nat.pow_pos (by omega))

/-- A positive number has at most so many digits if it is below that power of ten. -/
theorem length_ofNatFuel_le_iff (fuel n k : Nat) (rest : List Char) (h : n < fuel) (hn : 0 < n) :
    (ofNatFuel 10 fuel n rest).length ≤ k + rest.length ↔ n < Nat.pow 10 k := by
  induction fuel generalizing n k rest with
  | zero => omega
  | succ fuel ih =>
    rw [ofNatFuel]
    by_cases hlt : n < 10
    · rw [if_pos hlt, List.length_cons]
      cases k with
      | zero => exact iff_of_false (by omega) (by simpa using Nat.ne_of_gt hn)
      | succ k =>
        have hpow : 10 ≤ Nat.pow 10 (k + 1) := ten_le_pow (by omega)
        exact iff_of_true (by omega) (Nat.lt_of_lt_of_le hlt hpow)
    · have hdigit : n / 10 < fuel ∧ 0 < n / 10 := by omega
      rw [if_neg hlt]
      cases k with
      | zero =>
        -- one digit is too many already, so the last one need not be counted
        have hlast := (ih (n / 10) 0 (digit (n % 10) :: rest) hdigit.1 hdigit.2).mp
        rw [List.length_cons] at hlast
        refine iff_of_false (fun hle => ?_) (by simpa using Nat.ne_of_gt hn)
        have hone : n / 10 < 1 := hlast (by omega)
        omega
      | succ k =>
        have hrest := ih (n / 10) k (digit (n % 10) :: rest) hdigit.1 hdigit.2
        rw [List.length_cons, Nat.div_lt_iff_lt_mul (by omega)] at hrest
        rw [show k + 1 + rest.length = k + (rest.length + 1) by omega, hrest]
        rfl

theorem length_decimal_le_iff (n : Nat) {k : Nat} (hk : 0 < k) :
    (decimal n).length ≤ k ↔ n < Nat.pow 10 k := by
  rcases Nat.eq_zero_or_pos n with rfl | hn
  · exact iff_of_true hk (Nat.pow_pos (by omega))
  · exact length_ofNatFuel_le_iff (n + 1) n k [] (by omega) hn

theorem isHex_digit_all : ∀ n < 16, isHex (digit n) = true := by decide

/-- The four digits of a fixed width are read back. -/
theorem fixed_four (n : Nat) :
    fixed 16 4 n = [digit (n / 16 / 16 / 16 % 16), digit (n / 16 / 16 % 16), digit (n / 16 % 16),
      digit (n % 16)] := by
  simp [fixed]

theorem value_fixed_four {n : Nat} (h : n < 0x10000) : value 16 (fixed 16 4 n) = n := by
  have hv (k : Nat) : value? 16 (digit (k % 16)) = some (k % 16) :=
    value?_digit_all 16 (by simp) _ (Nat.mod_lt _ (by omega))
  simp only [fixed_four, value, List.foldl_cons, List.foldl_nil, hv, Option.getD_some]
  omega

theorem digit_inj {base m n : Nat} (hb : base ∈ [10, 16]) (hm : m < base) (hn : n < base)
    (h : digit m = digit n) : m = n := by
  have hv : some m = some n := by
    rw [← value?_digit_all base hb m hm, ← value?_digit_all base hb n hn, h]
  exact Option.some.inj hv

/-- Digits of a fixed width tell numbers apart up to the digits that are dropped. -/
theorem mod_eq_of_fixed_eq (width : Nat) {m n : Nat} (h : fixed 16 width m = fixed 16 width n) :
    m % Nat.pow 16 width = n % Nat.pow 16 width := by
  induction width generalizing m n with
  | zero => exact (Nat.mod_one m).trans (Nat.mod_one n).symm
  | succ width ih =>
    obtain ⟨hhigh, hlow⟩ := List.append_inj' h rfl
    have hdigit : m % 16 = n % 16 := digit_inj (by simp) (Nat.mod_lt _ (by omega))
      (Nat.mod_lt _ (by omega)) (List.singleton_inj.mp hlow)
    have hpow : Nat.pow 16 (width + 1) = 16 * Nat.pow 16 width := Nat.mul_comm _ _
    rw [hpow, Nat.mod_mul, Nat.mod_mul, hdigit, ih hhigh]

theorem isHex_fixed (width n : Nat) : (fixed 16 width n).all isHex = true := by
  induction width generalizing n with
  | zero => rfl
  | succ width ih =>
    simp [fixed, ih, isHex_digit_all _ (Nat.mod_lt n (show 0 < 16 by omega))]

end Allowlist.Digits
