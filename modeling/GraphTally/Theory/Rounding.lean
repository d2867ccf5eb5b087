import Mathlib.Algebra.Order.Floor.Semiring
import Mathlib.Data.Int.Log
import Mathlib.Data.Rat.Floor
import Mathlib.Tactic.FieldSimp
import Mathlib.Tactic.Linarith
import Mathlib.Tactic.Positivity
import Mathlib.Tactic.Ring

/-!
# Rounding

What a program over floating-point numbers relies on when it compares: rounding keeps the order
and leaves a rounded number alone.  Exact arithmetic and rounding to nearest, ties to even, are
two instances.
-/

namespace GraphTally.Theory

/-- Rounding of nonnegative numbers. -/
structure Rounding where
  round : ℚ → ℚ
  round_nonneg : ∀ {x}, 0 ≤ x → 0 ≤ round x
  round_mono : ∀ {x y}, 0 ≤ x → x ≤ y → round x ≤ round y
  round_round : ∀ {x}, 0 ≤ x → round (round x) = round x

namespace Rounding

def exact : Rounding := ⟨fun x ↦ x, fun h ↦ h, fun _ h ↦ h, fun _ ↦ rfl⟩

/-- A product with a factor of at most one rounds to at most the other factor. -/
theorem round_mul_le (rounding : Rounding) {x f : ℚ} (hx : 0 ≤ x) (hf : 0 ≤ f) (hone : f ≤ 1) :
    rounding.round (rounding.round x * f) ≤ rounding.round x := by
  have hnonneg := rounding.round_nonneg hx
  calc rounding.round (rounding.round x * f)
      ≤ rounding.round (rounding.round x) :=
        rounding.round_mono (mul_nonneg hnonneg hf) (mul_le_of_le_one_right hnonneg hone)
    _ = rounding.round x := rounding.round_round hx

/-! ## Half to even -/

/-- The nearest integer, the even one of two. -/
def halfEven (x : ℚ) : ℤ :=
  if x - ⌊x⌋ < 1 / 2 then ⌊x⌋
  else if 1 / 2 < x - ⌊x⌋ then ⌊x⌋ + 1
  else if ⌊x⌋ % 2 = 0 then ⌊x⌋ else ⌊x⌋ + 1

theorem halfEven_intCast (n : ℤ) : halfEven n = n := by
  simp [halfEven]

theorem floor_le_halfEven (x : ℚ) : ⌊x⌋ ≤ halfEven x := by
  unfold halfEven
  split_ifs <;> omega

theorem halfEven_le_floor_add_one (x : ℚ) : halfEven x ≤ ⌊x⌋ + 1 := by
  unfold halfEven
  split_ifs <;> omega

theorem abs_halfEven_sub_le (x : ℚ) : |(halfEven x : ℚ) - x| ≤ 1 / 2 := by
  have hlower := Int.floor_le x
  have hupper := Int.lt_floor_add_one x
  rw [abs_le]
  unfold halfEven
  split_ifs <;> push_cast <;> constructor <;> linarith

theorem halfEven_mono {x y : ℚ} (h : x ≤ y) : halfEven x ≤ halfEven y := by
  rcases (Int.floor_mono h).eq_or_lt with hfloor | hfloor
  · -- over the same integer only the distance to it counts
    unfold halfEven
    rw [hfloor]
    have hdistance : x - ⌊y⌋ ≤ y - ⌊y⌋ := by linarith
    split_ifs <;> first | omega | linarith
  · have hx := halfEven_le_floor_add_one x
    have hy := floor_le_halfEven y
    omega

/-! ## Nearest, to a number of binary digits -/

/-- The weight of the last of `digits` binary digits of `x`. -/
def unitInLastPlace (digits : ℕ) (x : ℚ) : ℚ := (2 : ℚ) ^ (Int.log 2 x - digits + 1)

def nearestEven (digits : ℕ) (x : ℚ) : ℚ :=
  halfEven (x / unitInLastPlace digits x) * unitInLastPlace digits x

section Nearest

variable {digits : ℕ} {x y : ℚ}

theorem unitInLastPlace_pos (digits : ℕ) (x : ℚ) : 0 < unitInLastPlace digits x := by
  exact zpow_pos (by norm_num) _

/-- A multiple of the last place is a power of two times an integer, so it rounds to itself. -/
theorem nearestEven_of_multiple {n : ℤ} (h : x = n * unitInLastPlace digits x) :
    nearestEven digits x = x := by
  have hne := (unitInLastPlace_pos digits x).ne'
  have hquotient : x / unitInLastPlace digits x = n := by
    rw [div_eq_iff hne]
    exact h
  rw [nearestEven, hquotient, halfEven_intCast]
  exact h.symm

theorem two_zpow_eq_multiple (hdigits : 0 < digits) (e : ℤ) :
    (2 : ℚ) ^ e = ((2 ^ (digits - 1) : ℕ) : ℤ) * (2 : ℚ) ^ (e - digits + 1) := by
  have hexponent : e = ((digits - 1 : ℕ) : ℤ) + (e - digits + 1) := by omega
  conv_lhs => rw [hexponent, zpow_add₀ (by norm_num), zpow_natCast]
  push_cast
  rfl

theorem nearestEven_two_zpow (hdigits : 0 < digits) (e : ℤ) :
    nearestEven digits ((2 : ℚ) ^ e) = (2 : ℚ) ^ e := by
  refine nearestEven_of_multiple (n := ((2 ^ (digits - 1) : ℕ) : ℤ)) ?_
  have hlog : Int.log 2 ((2 : ℚ) ^ e) = e := by
    exact_mod_cast Int.log_zpow (R := ℚ) (by norm_num : 1 < 2) e
  rw [unitInLastPlace, hlog]
  exact two_zpow_eq_multiple hdigits e

/-- Rounding stays between the powers of two around a positive number. -/
theorem nearestEven_bounds (hdigits : 0 < digits) (hx : 0 < x) :
    (2 : ℚ) ^ Int.log 2 x ≤ nearestEven digits x ∧
      nearestEven digits x ≤ (2 : ℚ) ^ (Int.log 2 x + 1) := by
  have hpos := unitInLastPlace_pos digits x
  have hlower : (2 : ℚ) ^ Int.log 2 x ≤ x := by
    exact_mod_cast Int.zpow_log_le_self (by norm_num) hx
  have hupper : x < (2 : ℚ) ^ (Int.log 2 x + 1) := by
    exact_mod_cast Int.lt_zpow_succ_log_self (by norm_num) x
  have hbase : (2 : ℚ) ^ Int.log 2 x =
      ((2 ^ (digits - 1) : ℕ) : ℤ) * unitInLastPlace digits x :=
    two_zpow_eq_multiple hdigits _
  have hdouble : (2 : ℚ) ^ (Int.log 2 x + 1) =
      ((2 * 2 ^ (digits - 1) : ℕ) : ℤ) * unitInLastPlace digits x := by
    rw [zpow_add_one₀ (by norm_num), hbase]
    push_cast
    ring
  unfold nearestEven
  constructor
  · rw [hbase] at hlower ⊢
    have hquotient := halfEven_mono ((le_div_iff₀ hpos).mpr hlower)
    rw [halfEven_intCast] at hquotient
    exact mul_le_mul_of_nonneg_right (by exact_mod_cast hquotient) hpos.le
  · rw [hdouble] at hupper ⊢
    have hquotient := halfEven_mono ((div_le_iff₀ hpos).mpr hupper.le)
    rw [halfEven_intCast] at hquotient
    exact mul_le_mul_of_nonneg_right (by exact_mod_cast hquotient) hpos.le

/-- The error is at most half a unit in the last place. -/
theorem abs_nearestEven_sub_le (hx : 0 < x) :
    |nearestEven digits x - x| ≤ x / 2 ^ digits := by
  have hpos := unitInLastPlace_pos digits x
  have hlog : (2 : ℚ) ^ Int.log 2 x ≤ x := by
    exact_mod_cast Int.zpow_log_le_self (by norm_num) hx
  have hunit : unitInLastPlace digits x = (2 : ℚ) ^ Int.log 2 x * (2 / 2 ^ digits) := by
    rw [unitInLastPlace, zpow_add₀ (by norm_num), zpow_sub₀ (by norm_num), zpow_natCast, zpow_one]
    ring
  have herror := abs_halfEven_sub_le (x / unitInLastPlace digits x)
  calc |nearestEven digits x - x|
      = |(halfEven (x / unitInLastPlace digits x) : ℚ) - x / unitInLastPlace digits x| *
          unitInLastPlace digits x := by
        rw [← abs_of_pos hpos, ← abs_mul, abs_of_pos hpos, sub_mul,
          div_mul_cancel₀ _ hpos.ne']
        rfl
    _ ≤ 1 / 2 * unitInLastPlace digits x := mul_le_mul_of_nonneg_right herror hpos.le
    _ = (2 : ℚ) ^ Int.log 2 x / 2 ^ digits := by
        rw [hunit]
        ring
    _ ≤ x / 2 ^ digits := div_le_div_of_nonneg_right hlog (by positivity)

theorem nearestEven_zero (digits : ℕ) : nearestEven digits 0 = 0 := by
  simp [nearestEven, halfEven]

theorem nearestEven_nonneg (hdigits : 0 < digits) (hx : 0 ≤ x) : 0 ≤ nearestEven digits x := by
  rcases hx.eq_or_lt with rfl | hpos
  · rw [nearestEven_zero]
  · exact (zpow_nonneg (by norm_num) _).trans (nearestEven_bounds hdigits hpos).1

-- Rounding is monotone within a binade, and the binades meet at powers of two.
theorem nearestEven_mono (hdigits : 0 < digits) (hx : 0 ≤ x) (hxy : x ≤ y) :
    nearestEven digits x ≤ nearestEven digits y := by
  rcases hx.eq_or_lt with rfl | hpos
  · rw [nearestEven_zero]
    exact nearestEven_nonneg hdigits hxy
  · have hlog : Int.log 2 x ≤ Int.log 2 y := Int.log_mono_right hpos hxy
    rcases hlog.eq_or_lt with hsame | hlt
    · -- one last place for both
      have hunit : unitInLastPlace digits x = unitInLastPlace digits y := by
        rw [unitInLastPlace, hsame, unitInLastPlace]
      have hunitPos := unitInLastPlace_pos digits y
      have hquotient := halfEven_mono (div_le_div_of_nonneg_right hxy hunitPos.le)
      rw [nearestEven, nearestEven, hunit]
      exact mul_le_mul_of_nonneg_right (by exact_mod_cast hquotient) hunitPos.le
    · -- a power of two lies between the results
      calc nearestEven digits x
          ≤ (2 : ℚ) ^ (Int.log 2 x + 1) := (nearestEven_bounds hdigits hpos).2
        _ ≤ (2 : ℚ) ^ Int.log 2 y := zpow_le_zpow_right₀ (by norm_num) (by omega)
        _ ≤ nearestEven digits y := (nearestEven_bounds hdigits (hpos.trans_le hxy)).1

-- What was rounded is a multiple of its unit already.
theorem nearestEven_nearestEven (hdigits : 0 < digits) (hx : 0 ≤ x) :
    nearestEven digits (nearestEven digits x) = nearestEven digits x := by
  rcases hx.eq_or_lt with rfl | hpos
  · rw [nearestEven_zero, nearestEven_zero]
  · obtain ⟨hlower, hupper⟩ := nearestEven_bounds hdigits hpos
    rcases hupper.eq_or_lt with hcarry | hlt
    · -- a carry ends on the next power of two
      rw [hcarry]
      exact nearestEven_two_zpow hdigits _
    · -- the result has the exponent of the argument
      have hrounded : 0 < nearestEven digits x := (zpow_pos (by norm_num) _).trans_le hlower
      have hlog : Int.log 2 (nearestEven digits x) = Int.log 2 x := by
        apply le_antisymm
        · have hbelow := (Int.lt_zpow_iff_log_lt (b := 2) (by norm_num) hrounded).mp
            (by exact_mod_cast hlt)
          omega
        · exact (Int.zpow_le_iff_le_log (b := 2) (by norm_num) hrounded).mp
            (by exact_mod_cast hlower)
      have hunit : unitInLastPlace digits (nearestEven digits x) = unitInLastPlace digits x := by
        rw [unitInLastPlace, hlog, unitInLastPlace]
      refine nearestEven_of_multiple (n := halfEven (x / unitInLastPlace digits x)) ?_
      rw [hunit]
      rfl

end Nearest

/-- Binary rounding with an unbounded exponent; a 64-bit float has 53 digits. -/
def binary (digits : ℕ) (hdigits : 0 < digits) : Rounding where
  round := nearestEven digits
  round_nonneg := nearestEven_nonneg hdigits
  round_mono := nearestEven_mono hdigits
  round_round := nearestEven_nearestEven hdigits

end Rounding

end GraphTally.Theory
