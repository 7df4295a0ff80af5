/-
# Decimal numerals

A numeral is a list of decimal digits, most significant first.  `digits` is the
numeral without leading zeros that a printer emits, `value` what a reader that
multiplies by ten and adds obtains, starting from an accumulator.
-/
import Mathlib.Data.Nat.Digits.Lemmas

namespace Decimal

/-- The numeral of `n` without leading zeros. -/
def digits (n : ℕ) : List ℕ := if n = 0 then [0] else (Nat.digits 10 n).reverse

/-- Reading a numeral, digit by digit, into an accumulator. -/
def value (acc : ℕ) (ds : List ℕ) : ℕ := ds.foldl (fun a d => a * 10 + d) acc

@[simp] theorem value_nil (acc : ℕ) : value acc [] = acc := rfl

@[simp] theorem value_cons (acc d : ℕ) (ds : List ℕ) :
    value acc (d :: ds) = value (acc * 10 + d) ds := rfl

/-- Every number has a digit. -/
theorem digits_ne_nil (n : ℕ) : digits n ≠ [] := by
  unfold digits
  split_ifs with h
  · simp
  · rw [ne_eq, List.reverse_eq_nil_iff]
    exact Nat.digits_ne_nil_iff_ne_zero.mpr h

/-- Its digits are below ten. -/
theorem lt_ten_of_mem_digits {n d : ℕ} (h : d ∈ digits n) : d < 10 := by
  unfold digits at h
  split_ifs at h with hn
  · rw [List.mem_singleton] at h
    omega
  · exact Nat.digits_lt_base (by omega) (List.mem_reverse.mp h)

/-- A printed numeral has no leading zero, unless it is the digit zero. -/
theorem digits_no_leading_zero (n : ℕ) (h : (digits n).head? = some 0) : (digits n).length = 1 := by
  unfold digits at h ⊢
  split_ifs at h ⊢ with hn
  · rfl
  · have hne : Nat.digits 10 n ≠ [] := Nat.digits_ne_nil_iff_ne_zero.mpr hn
    rw [List.head?_reverse, List.getLast?_eq_some_getLast hne] at h
    exact absurd (Option.some.inj h) (Nat.getLast_digit_ne_zero 10 hn)

/-- A printed numeral reads back as the number printed. -/
theorem value_digits (n : ℕ) : value 0 (digits n) = n := by
  unfold digits
  split_ifs with h
  · rw [h]
    rfl
  · rw [value, List.foldl_reverse]
    have hfold := Nat.ofDigits_eq_foldr (10 : ℕ) (Nat.digits 10 n)
    rw [Nat.ofDigits_digits] at hfold
    calc (Nat.digits 10 n).foldr (fun d a => a * 10 + d) 0
        = (Nat.digits 10 n).foldr (fun d a => d + 10 * a) 0 := by
          congr 1
          funext d a
          ring
      _ = n := hfold.symm

/-- Leading zeros do not count. -/
theorem value_zeros_append (k : ℕ) (ds : List ℕ) :
    value 0 (List.replicate k 0 ++ ds) = value 0 ds := by
  induction k with
  | zero => rfl
  | succ k ih => exact ih

/-- The accumulator never decreases. -/
theorem le_value (acc : ℕ) (ds : List ℕ) : acc ≤ value acc ds := by
  induction ds generalizing acc with
  | nil => exact le_rfl
  | cons d ds ih =>
    have hrest := ih (acc * 10 + d)
    rw [value_cons]
    omega

end Decimal
