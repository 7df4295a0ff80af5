/-
# Binary floating-point formats

A format has a precision and a least exponent.  Its numbers are the multiples `m * 2 ^ e`
of the powers of two from the least exponent on, with fewer than `precision` bits in `m`;
the largest exponent is left out, so that this is about numbers that do not overflow.
`round` takes a rational number to the nearest number of the format, to the even one of
two.  A number is its own rounding exactly if the format has it (`round_eq_self_iff`).
-/
import Mathlib.Algebra.Order.Floor.Ring
import Mathlib.Data.Int.Log
import Mathlib.Data.Rat.Floor
import Mathlib.Tactic.Linarith

/-- A binary floating-point format. -/
structure FloatFormat where
  precision : ℕ
  minExponent : ℤ
  deriving DecidableEq, Repr

namespace FloatFormat

/-- The double precision of IEEE 754. -/
def binary64 : FloatFormat := ⟨53, -1074⟩

/-- The integer next to `x`, the even one of two. -/
def nearestEven (x : ℚ) : ℤ :=
  if x - ⌊x⌋ < 1 / 2 then ⌊x⌋
  else if 1 / 2 < x - ⌊x⌋ then ⌊x⌋ + 1
  else ⌊x⌋ + ⌊x⌋ % 2

/-- An integer is its own nearest integer. -/
theorem nearestEven_intCast (m : ℤ) : nearestEven m = m := by
  rw [nearestEven, Int.floor_intCast, sub_self, if_pos (by norm_num)]

variable (F : FloatFormat)

/-- The numbers of the format. -/
def Representable (q : ℚ) : Prop :=
  ∃ m e : ℤ, |m| < 2 ^ F.precision ∧ F.minExponent ≤ e ∧ q = m * 2 ^ e

/-- The exponent of the last place of a number of the size of `q`. -/
def exponent (q : ℚ) : ℤ := max (Int.log 2 |q| + 1 - F.precision) F.minExponent

/-- Rounding to the nearest number of the format. -/
def round (q : ℚ) : ℚ := nearestEven (q / 2 ^ F.exponent q) * 2 ^ F.exponent q

variable {F}

theorem two_zpow_pos (e : ℤ) : (0 : ℚ) < 2 ^ e := zpow_pos (by norm_num) e

/-- In units of its last place a number has no more bits than the precision. -/
theorem abs_div_lt (q : ℚ) : |q / 2 ^ F.exponent q| < 2 ^ F.precision := by
  have hpos := two_zpow_pos (F.exponent q)
  have hle : Int.log 2 |q| + 1 ≤ F.precision + F.exponent q := by
    have hmax : Int.log 2 |q| + 1 - F.precision ≤ F.exponent q := le_max_left _ _
    omega
  rw [abs_div, abs_of_pos hpos, div_lt_iff₀ hpos]
  calc |q| < (2 : ℚ) ^ (Int.log 2 |q| + 1) := by
        exact_mod_cast Int.lt_zpow_succ_log_self (b := 2) (by omega) |q|
    _ ≤ 2 ^ ((F.precision : ℤ) + F.exponent q) := zpow_le_zpow_right₀ (by norm_num) hle
    _ = 2 ^ F.precision * 2 ^ F.exponent q := by
        rw [zpow_add₀ (by norm_num), zpow_natCast]

/-- The last place of a number of the format is not above that of any of its
representations. -/
theorem exponent_le {m e : ℤ} (hm : |m| < 2 ^ F.precision) (he : F.minExponent ≤ e)
    (hne : m ≠ 0) : F.exponent (m * 2 ^ e) ≤ e := by
  refine max_le ?_ he
  have hpos : (0 : ℚ) < |(m : ℚ) * 2 ^ e| := by
    rw [abs_pos]
    exact mul_ne_zero (Int.cast_ne_zero.mpr hne) (two_zpow_pos e).ne'
  have hlt : |(m : ℚ) * 2 ^ e| < ((2 : ℕ) : ℚ) ^ ((F.precision : ℤ) + e) := by
    rw [Nat.cast_ofNat, zpow_add₀ (by norm_num), zpow_natCast, abs_mul,
      abs_of_pos (two_zpow_pos e)]
    apply mul_lt_mul_of_pos_right _ (two_zpow_pos e)
    exact_mod_cast hm
  have hlog := (Int.lt_zpow_iff_log_lt (by omega) hpos).mp hlt
  omega

/-- **Exact rounding.** -/
theorem round_eq_self_iff (q : ℚ) : F.round q = q ↔ F.Representable q := by
  have hne := (two_zpow_pos (F.exponent q)).ne'
  constructor
  · intro hround
    have hquot : (nearestEven (q / 2 ^ F.exponent q) : ℚ) = q / 2 ^ F.exponent q :=
      (eq_div_iff hne).mpr hround
    refine ⟨nearestEven (q / 2 ^ F.exponent q), F.exponent q, ?_, le_max_right _ _,
      hround.symm⟩
    have hlt := abs_div_lt (F := F) q
    rw [← hquot] at hlt
    exact_mod_cast hlt
  · rintro ⟨m, e, hm, he, rfl⟩
    by_cases hzero : m = 0
    · rw [hzero, Int.cast_zero, zero_mul, round, zero_div]
      have hcast := nearestEven_intCast 0
      rw [Int.cast_zero] at hcast
      rw [hcast, Int.cast_zero, zero_mul]
    · -- in units of the last place the number is an integer
      obtain ⟨d, hd⟩ := Int.le.dest (exponent_le hm he hzero)
      have hquot : (m : ℚ) * 2 ^ e / 2 ^ F.exponent (m * 2 ^ e) = ((m * 2 ^ d : ℤ) : ℚ) := by
        rw [div_eq_iff hne, Int.cast_mul, Int.cast_pow, mul_assoc]
        congr 1
        rw [Int.cast_ofNat, ← zpow_natCast, ← zpow_add₀ (by norm_num), add_comm, hd]
      rw [round, hquot, nearestEven_intCast, ← hquot, div_mul_cancel₀ _ hne]

example : binary64.round 9007199254740993 = 9007199254740992 := by decide +kernel

/-- The integers that fit the precision are numbers of the format. -/
theorem representable_intCast {n : ℤ} (hn : |n| < 2 ^ F.precision) (hF : F.minExponent ≤ 0) :
    F.Representable n :=
  ⟨n, 0, hn, hF, by rw [zpow_zero, mul_one]⟩

end FloatFormat
