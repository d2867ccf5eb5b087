import GraphTally.Theory.Rounding

/-!
# Doubles

A 64-bit float by its value.  The range of the exponent is left open, so that no product of finite
numbers overflows or underflows.
-/

namespace GraphTally.Theory

/-- One zero stands for both, which no comparison tells apart. -/
inductive Double where
  | nan
  | infinite (negative : Bool)
  | finite (value : ℚ)
  deriving DecidableEq

namespace Double

def rounding : Rounding := .binary 53 (by decide)

/-- The rounding of a negative number mirrors that of its opposite. -/
def nearest (x : ℚ) : ℚ := if 0 ≤ x then rounding.round x else -rounding.round (-x)

def isFinite : Double → Bool
  | finite _ => true
  | _ => false

/-- Zero where there is no number. -/
def value : Double → ℚ
  | finite x => x
  | _ => 0

/-- Nothing compares with a number that is none. -/
def le : Double → Double → Bool
  | nan, _ => false
  | _, nan => false
  | infinite true, _ => true
  | _, infinite false => true
  | infinite false, _ => false
  | _, infinite true => false
  | finite a, finite b => a ≤ b

def lt (a b : Double) : Bool := le a b && !le b a

def mul : Double → Double → Double
  | nan, _ => nan
  | _, nan => nan
  | infinite s, infinite t => infinite (s != t)
  | infinite s, finite b => if b = 0 then nan else infinite (s != decide (b < 0))
  | finite a, infinite t => if a = 0 then nan else infinite (decide (a < 0) != t)
  | finite a, finite b => finite (nearest (a * b))

/-- To the nearest integer, a half away from zero. -/
def round : Double → Double
  | finite x => finite (if 0 ≤ x then ⌊x + 1 / 2⌋ else -⌊-x + 1 / 2⌋)
  | x => x

/-- The saturating cast to an unsigned integer. -/
def toWord (w : Nat) : Double → BitVec w
  | nan => 0
  | infinite negative => if negative then 0 else BitVec.allOnes w
  | finite x => BitVec.ofNat w (min ⌊x⌋.toNat (2 ^ w - 1))

/-! ## Finite numbers -/

@[simp] theorem le_finite {a b : ℚ} : le (finite a) (finite b) = true ↔ a ≤ b := decide_eq_true_iff

@[simp] theorem lt_finite {a b : ℚ} : lt (finite a) (finite b) = true ↔ a < b := by
  rw [lt, Bool.and_eq_true, le_finite, Bool.not_eq_true', ← Bool.not_eq_true, le_finite, not_le]
  exact ⟨fun h ↦ h.2, fun h ↦ ⟨h.le, h⟩⟩

-- Between two finite numbers there are only finite ones.
theorem exists_of_between {a b : ℚ} {x : Double} (ha : le (finite a) x = true)
    (hb : le x (finite b) = true) : ∃ value, x = finite value ∧ a ≤ value ∧ value ≤ b := by
  cases x with
  | nan => cases ha
  | infinite negative => cases negative <;> contradiction
  | finite value => exact ⟨value, rfl, le_finite.mp ha, le_finite.mp hb⟩

theorem abs_nearest_sub_le {x : ℚ} (hx : 0 ≤ x) : |nearest x - x| ≤ x / 2 ^ 53 := by
  rw [nearest, if_pos hx]
  rcases hx.eq_or_lt with rfl | hpos
  · show |Rounding.nearestEven 53 0 - 0| ≤ _
    rw [Rounding.nearestEven_zero]
    norm_num
  · exact Rounding.abs_nearestEven_sub_le hpos

/-- Rounding a product and then to an integer moves it by hardly more than a half. -/
theorem toWord_round_mul {w : Nat} {a b : ℚ} (hnonneg : 0 ≤ a * b) (hfits : a * b + 1 < 2 ^ w)
    (hsmall : a * b ≤ 2 ^ 52) :
    |((toWord w (round (mul (finite a) (finite b)))).toNat : ℚ) - a * b| ≤
      1 / 2 + a * b / 2 ^ 53 := by
  have herror := abs_le.mp (abs_nearest_sub_le hnonneg)
  have hrounded : 0 ≤ nearest (a * b) := by
    rw [nearest, if_pos hnonneg]
    exact rounding.round_nonneg hnonneg
  have hround : round (mul (finite a) (finite b)) =
      finite ((⌊nearest (a * b) + 1 / 2⌋ : ℤ) : ℚ) := by
    show finite (if 0 ≤ nearest (a * b) then _ else _) = _
    rw [if_pos hrounded]
  have hlower := Int.floor_le (nearest (a * b) + 1 / 2)
  have hupper := Int.lt_floor_add_one (nearest (a * b) + 1 / 2)
  have hfloor : 0 ≤ ⌊nearest (a * b) + 1 / 2⌋ := Int.floor_nonneg.mpr (by linarith)
  have hroom : a * b / 2 ^ 53 ≤ 1 / 2 := by
    rw [div_le_iff₀ (by norm_num)]
    linarith
  generalize ⌊nearest (a * b) + 1 / 2⌋ = n at hround hlower hupper hfloor
  obtain ⟨m, rfl⟩ := Int.eq_ofNat_of_zero_le hfloor
  have hbelow : m < 2 ^ w := by
    have hcast : (m : ℚ) < 2 ^ w := by
      push_cast at hlower
      linarith
    exact_mod_cast hcast
  have hword : (toWord w (finite (((m : ℕ) : ℤ) : ℚ))).toNat = m := by
    rw [toWord, Int.floor_intCast, Int.toNat_natCast, Nat.min_eq_left (by omega),
      BitVec.toNat_ofNat, Nat.mod_eq_of_lt hbelow]
  rw [hround, hword, abs_le]
  push_cast at hlower hupper
  constructor <;> linarith

end Double

end GraphTally.Theory
