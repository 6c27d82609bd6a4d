import Mathlib.Data.Int.Log
import Mathlib.Data.Rat.Floor
import Mathlib.Tactic.FieldSimp
import Mathlib.Tactic.Linarith
import Mathlib.Tactic.Positivity
import Mathlib.Tactic.Ring

/-!
# Shared — rounding to binary64

The double nearest to a rational number that is not negative, ties to even: 52 bits behind the
first one, and exponents from -1022.  A double is a number that is its own nearest.  What is too
large is left to the reader of the result: `limit` is where the infinities begin.

* `rounded`: the nearest double is a whole number of units, half a unit away at most.
* `le_three_mul`: two numbers with one nearest double are within a factor of three.
* `exists_decimal`: every double is a decimal.
-/

namespace Binary64

/-- To the nearest integer, ties to even. -/
def roundHalfEven (x : ℚ) : ℤ :=
  if x - ⌊x⌋ < 1 / 2 then ⌊x⌋
  else if 1 / 2 < x - ⌊x⌋ then ⌊x⌋ + 1
  else if ⌊x⌋ % 2 = 0 then ⌊x⌋ else ⌊x⌋ + 1

/-- The exponent of the last bit. -/
def exponent (x : ℚ) : ℤ := max (Int.log 2 x) (-1022) - 52

/-- The last bit. -/
def unit (x : ℚ) : ℚ := 2 ^ exponent x

def nearest (x : ℚ) : ℚ := roundHalfEven (x / unit x) * unit x

/-- The doubles end here. -/
def limit : ℚ := 2 ^ 1024

/-- A double that is not negative. -/
structure IsDouble (x : ℚ) : Prop where
  nearest_eq : nearest x = x
  lt_limit : x < limit

theorem unit_pos (x : ℚ) : 0 < unit x := zpow_pos two_pos _

theorem abs_roundHalfEven_sub (x : ℚ) : |(roundHalfEven x : ℚ) - x| ≤ 1 / 2 := by
  have hle := Int.floor_le x
  have hlt := Int.lt_floor_add_one x
  unfold roundHalfEven
  rw [abs_le]
  split
  next h => constructor <;> linarith
  split
  next h => push_cast; constructor <;> linarith
  split
  next => constructor <;> linarith
  next => push_cast; constructor <;> linarith

@[simp] theorem roundHalfEven_zero : roundHalfEven 0 = 0 := by simp [roundHalfEven]

@[simp] theorem nearest_zero : nearest 0 = 0 := by simp [nearest]

theorem isDouble_zero : IsDouble 0 := ⟨nearest_zero, by unfold limit; positivity⟩

/-- **A rounded number** is a whole number of units, and half a unit away at most. -/
theorem rounded (x : ℚ) : ∃ n : ℤ, nearest x = n * unit x ∧ |nearest x - x| ≤ unit x / 2 := by
  refine ⟨roundHalfEven (x / unit x), rfl, ?_⟩
  have hpos := unit_pos x
  have hdiff : nearest x - x = (roundHalfEven (x / unit x) - x / unit x) * unit x := by
    unfold nearest
    field_simp
  rw [hdiff, abs_mul, abs_of_pos hpos]
  calc |(roundHalfEven (x / unit x) : ℚ) - x / unit x| * unit x
      ≤ 1 / 2 * unit x := mul_le_mul_of_nonneg_right (abs_roundHalfEven_sub _) hpos.le
    _ = unit x / 2 := by ring

/-- A double is at least one unit. -/
theorem unit_le_nearest {x : ℚ} (hpos : 0 < nearest x) : unit x ≤ nearest x := by
  obtain ⟨n, hn, -⟩ := rounded x
  have hunit := unit_pos x
  rw [hn] at hpos ⊢
  have hone : (1 : ℚ) ≤ n := by
    have hn : (0 : ℚ) < n := (mul_pos_iff_of_pos_right hunit).mp hpos
    exact_mod_cast hn
  exact le_mul_of_one_le_left hunit.le hone

/-- **Numbers with one nearest double** are within a factor of three. -/
theorem le_three_mul {a b : ℚ} (h : nearest a = nearest b) (hpos : 0 < nearest a) : b ≤ 3 * a := by
  obtain ⟨-, -, ha⟩ := rounded a
  obtain ⟨-, -, hb⟩ := rounded b
  have hunita := unit_le_nearest hpos
  have hunitb := unit_le_nearest (h ▸ hpos)
  rw [abs_le] at ha hb
  linarith

/-- **Every double is a decimal.** -/
theorem exists_decimal {x : ℚ} (hx : nearest x = x) (hpos : 0 < x) :
    ∃ (s : ℕ) (e : ℤ), 0 < s ∧ x = s * 10 ^ e := by
  obtain ⟨n, hn, -⟩ := rounded x
  rw [hx, unit] at hn
  have hunit := unit_pos x
  have hnpos : 0 < n := by
    have hn : (0 : ℚ) < n := (mul_pos_iff_of_pos_right hunit).mp (hn ▸ hpos)
    exact_mod_cast hn
  obtain ⟨m, rfl⟩ := Int.eq_ofNat_of_zero_le hnpos.le
  have hm : 0 < m := by exact_mod_cast hnpos
  rcases Int.le_total 0 (exponent x) with hexp | hexp
  · obtain ⟨k, hk⟩ := Int.eq_ofNat_of_zero_le hexp
    refine ⟨m * 2 ^ k, 0, by positivity, ?_⟩
    rw [hn, hk]
    push_cast
    simp
  · obtain ⟨k, hk⟩ := Int.eq_ofNat_of_zero_le (Int.neg_nonneg_of_nonpos hexp)
    have hexp : exponent x = -(k : ℤ) := by omega
    refine ⟨m * 5 ^ k, -k, by positivity, ?_⟩
    rw [hn, hexp, zpow_neg, zpow_neg, zpow_natCast, zpow_natCast]
    have h10 : (10 : ℚ) ^ k = 5 ^ k * 2 ^ k := by rw [← mul_pow]; norm_num
    push_cast
    rw [h10]
    field_simp

end Binary64
