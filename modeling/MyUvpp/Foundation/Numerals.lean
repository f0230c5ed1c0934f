import Mathlib.Tactic.IntervalCases

/-! # Numerals, digit by digit

`Nat.toDigits` appends the last digit of a number to the digits of the rest. A reader that takes the digits
one after the other is followed along this recursion. -/

namespace MyUvpp

/-- **Induction over the digits of a numeral.** What holds of one digit, and of a numeral with another digit
behind it when it holds of the numeral, holds of every numeral. -/
theorem toDigits_induction {b : ℕ} (hb : 1 < b) {P : ℕ → List Char → Prop}
    (first : ∀ d < b, P d [Nat.digitChar d])
    (next : ∀ n d, 0 < n → d < b → P n (Nat.toDigits b n) →
      P (b * n + d) (Nat.toDigits b n ++ [Nat.digitChar d])) (n : ℕ) : P n (Nat.toDigits b n) := by
  induction n using Nat.strong_induction_on with
  | _ n ih =>
    rw [Nat.toDigits_eq_if hb]
    split_ifs with hlt
    · exact first n hlt
    · have hpos : 0 < n / b := Nat.div_pos (not_lt.mp hlt) (by omega)
      have hdigits := next (n / b) (n % b) hpos (Nat.mod_lt n (by omega))
        (ih (n / b) (Nat.div_lt_self (by omega) hb))
      rwa [Nat.div_add_mod] at hdigits

/-- The digits of a numeral are those of its base. -/
theorem forall_mem_toDigits {b : ℕ} (hb : 1 < b) {Q : Char → Prop} (h : ∀ d < b, Q (Nat.digitChar d))
    (n : ℕ) : ∀ c ∈ Nat.toDigits b n, Q c := by
  refine toDigits_induction hb (P := fun _ ds => ∀ c ∈ ds, Q c) ?_ ?_ n
  · intro d hd c hc
    rw [List.mem_singleton.mp hc]
    exact h d hd
  · intro n d _ hd ih c hc
    rcases List.mem_append.mp hc with hc | hc
    · exact ih c hc
    · rw [List.mem_singleton.mp hc]
      exact h d hd

/-- Appending a digit of `k` bits is a shift. -/
theorem shiftLeft_or_eq_mul_add {k d : ℕ} (n : ℕ) (hd : d < 2 ^ k) : n <<< k ||| d = 2 ^ k * n + d := by
  rw [Nat.shiftLeft_eq, mul_comm, Nat.two_pow_add_eq_or_of_lt hd]

end MyUvpp
