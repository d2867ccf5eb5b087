import GraphTally.Theory.Fallible
import GraphTally.Theory.Loop
import GraphTally.Theory.MachineWord
import GraphTally.Theory.Rounding

/-!
# The target balance

`next_balance`: the escrow a receiver with a given debt should have.
-/

open GraphTally.Theory

namespace GraphTally.EscrowManager

def grt : U128 := 1_000_000_000_000_000_000
def minDeposit : U128 := 2 * grt
def maxAdjustment : U128 := 10_000 * grt

/-- `round as u128 * GRT`. -/
def roundTokens (profile : Profile) (round : U32) : Outcome Empty U128 :=
  plainMul profile (round.setWidth 128) grt

/-- `n as f64`. -/
def asF64 (rounding : Rounding) (n : U128) : ℚ := rounding.round n.toNat

/-- The plain addition is made even where doubling wins the `min`. -/
def stepRound (profile : Profile) (nextRound : U32) : Outcome Empty U32 :=
  (plainAdd profile nextRound ((maxAdjustment / grt).setWidth 32)).map fun sum ↦
    wordMin (saturatingMul nextRound 2) sum

section NextBalance

variable (rounding : Rounding) (profile : Profile) (debt : U128) (fillFactor : ℚ)

/-- The condition of the loop. -/
def debtReaches (tokens : U128) : Bool :=
  rounding.round (asF64 rounding tokens * fillFactor) ≤ asF64 rounding debt

/-- The loop's condition, and its body when the condition holds. -/
def nextBalanceTurn (nextRound : U32) : Outcome Empty (Option U32) := do
  let tokens ← roundTokens profile nextRound
  if debtReaches rounding debt fillFactor tokens then
    return some (← stepRound profile nextRound)
  else return none

def nextBalance (fuel : Nat) : Option (Outcome Empty U128) :=
  (whileLoop (nextBalanceTurn rounding profile debt fillFactor) fuel
    ((minDeposit / grt).setWidth 32)).map fun nextRound ↦ nextRound.bind (roundTokens profile)

end NextBalance

/-! ## What a target is -/

theorem grt_toNat : grt.toNat = 10 ^ 18 := by decide

/-- Thirty-two bits of GRT fit. -/
theorem roundTokens_eq (profile : Profile) (round : U32) :
    ∃ tokens, roundTokens profile round = .ok tokens ∧
      tokens.toNat = round.toNat * 10 ^ 18 := by
  have hround := round.isLt
  have hwide : (round.setWidth 128).toNat = round.toNat := by
    rw [BitVec.toNat_setWidth, Nat.mod_eq_of_lt (by omega)]
  have hfits : (round.setWidth 128).toNat * grt.toNat < 2 ^ 128 := by
    rw [hwide, grt_toNat]
    omega
  refine ⟨round.setWidth 128 * grt, plainMul_of_fits profile hfits, ?_⟩
  rw [toNat_mul_of_fits hfits, hwide, grt_toNat]

/-- Whole GRT, few enough, and out of the debt's reach. -/
structure IsTarget (rounding : Rounding) (debt : U128) (fillFactor : ℚ) (target : U128) :
    Prop where
  whole : ∃ rounds < 2 ^ 32, target.toNat = rounds * 10 ^ 18
  outOfReach : debtReaches rounding debt fillFactor target = false

section Target

variable {rounding : Rounding} {profile : Profile} {debt : U128} {fillFactor : ℚ}

-- A turn ends the loop exactly when the round covers the debt.
theorem nextBalanceTurn_exits {round : U32}
    (h : nextBalanceTurn rounding profile debt fillFactor round = .ok none) :
    ∃ tokens, roundTokens profile round = .ok tokens ∧
      debtReaches rounding debt fillFactor tokens = false := by
  obtain ⟨tokens, htokens, hcondition⟩ := except_bind_eq_ok.mp h
  refine ⟨tokens, htokens, ?_⟩
  by_contra hreaches
  rw [Bool.not_eq_false] at hreaches
  rw [if_pos hreaches] at hcondition
  obtain ⟨next, -, hnext⟩ := except_bind_eq_ok.mp hcondition
  cases hnext

-- The loop ends at a `u32` number of GRT that the debt does not reach.
theorem nextBalance_isTarget {fuel : Nat} {target : U128}
    (h : nextBalance rounding profile debt fillFactor fuel = some (.ok target)) :
    IsTarget rounding debt fillFactor target := by
  obtain ⟨outcome, hloop, hbind⟩ := Option.map_eq_some_iff.mp h
  obtain ⟨round, rfl, htarget⟩ := except_bind_eq_ok.mp hbind
  obtain ⟨-, hexit⟩ := whileLoop_exits (fun _ _ (_ : True) _ ↦ trivial) trivial hloop
  obtain ⟨tokens, htokens, hreaches⟩ := nextBalanceTurn_exits hexit
  obtain rfl : tokens = target := Except.ok.inj (htokens.symm.trans htarget)
  obtain ⟨tokens', htokens', hvalue⟩ := roundTokens_eq profile round
  obtain rfl : tokens = tokens' := Except.ok.inj (htokens.symm.trans htokens')
  exact ⟨⟨round.toNat, round.isLt, hvalue⟩, hreaches⟩

namespace IsTarget

variable {target : U128}

/-- Rounding cannot hide a debt of the whole target. -/
theorem debt_lt (h : IsTarget rounding debt fillFactor target) (hpos : 0 < fillFactor)
    (hone : fillFactor ≤ 1) : debt.toNat < target.toNat := by
  by_contra hle
  have horder : asF64 rounding target ≤ asF64 rounding debt :=
    rounding.round_mono (Nat.cast_nonneg _) (by exact_mod_cast not_lt.mp hle)
  have hshrinks : rounding.round (asF64 rounding target * fillFactor) ≤ asF64 rounding target :=
    rounding.round_mul_le (Nat.cast_nonneg _) hpos.le hone
  have hreaches : debtReaches rounding debt fillFactor target = true :=
    decide_eq_true (hshrinks.trans horder)
  rw [h.outOfReach] at hreaches
  cases hreaches

theorem lt_two_pow (h : IsTarget rounding debt fillFactor target) : target.toNat < 2 ^ 92 := by
  obtain ⟨rounds, hrounds, hvalue⟩ := h.whole
  omega

theorem div_mul_bps (h : IsTarget rounding debt fillFactor target) :
    target.toNat / 10000 * 10000 = target.toNat := by
  obtain ⟨rounds, -, hvalue⟩ := h.whole
  omega

end IsTarget

end Target

end GraphTally.EscrowManager
