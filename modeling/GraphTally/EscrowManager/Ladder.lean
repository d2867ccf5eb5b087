import GraphTally.EscrowManager.Balance
import Mathlib.Order.Bounds.Basic

/-!
# The ladder of targets

The rounds `next_balance` goes through, in exact arithmetic: which of them it returns, and how far
they stay within a `u32`.
-/

open GraphTally.Theory

namespace GraphTally.EscrowManager

/-- The debt a receiver's target is for: what its receipts say, or the configured minimum. -/
def receiverDebt (profile : Profile) (owed : U128) (configured : U64) : Outcome Empty U128 := do
  let minimum ← plainMul profile (configured.setWidth 128) grt
  return wordMax owed minimum

theorem receiverDebt_eq (owed : U128) (configured : U64) :
    ∃ debt, (∀ profile, receiverDebt profile owed configured = .ok debt) ∧
      debt.toNat = max owed.toNat (configured.toNat * 10 ^ 18) := by
  have hconfigured := configured.isLt
  have hwide : (configured.setWidth 128).toNat = configured.toNat := by
    rw [BitVec.toNat_setWidth, Nat.mod_eq_of_lt (by omega)]
  have hfits : (configured.setWidth 128).toNat * grt.toNat < 2 ^ 128 := by
    rw [hwide, grt_toNat]
    omega
  refine ⟨wordMax owed (configured.setWidth 128 * grt), ?_, ?_⟩
  · intro profile
    apply except_bind_eq_ok.mpr
    exact ⟨_, plainMul_of_fits profile hfits, rfl⟩
  · rw [toNat_wordMax, toNat_mul_of_fits hfits, hwide, grt_toNat]

/-! ## The rungs -/

/-- 2, 4, 8, ..., 16384, and from there on in steps of 10,000. -/
def ladder (k : Nat) : Nat :=
  if k ≤ 13 then 2 ^ (k + 1) else 16384 + 10000 * (k - 13)

example : (List.range 16).map ladder =
    [2, 4, 8, 16, 32, 64, 128, 256, 512, 1024, 2048, 4096, 8192, 16384, 26384, 36384] := by decide

theorem ladder_succ (k : Nat) : ladder (k + 1) = min (2 * ladder k) (ladder k + 10000) := by
  unfold ladder
  by_cases hsmall : k ≤ 12
  · -- doubling wins while a rung is at most 8192
    have hpow : 2 ^ (k + 1) ≤ 2 ^ 13 := Nat.pow_le_pow_right (by omega) (by omega)
    rw [if_pos (by omega), if_pos (by omega), pow_succ]
    omega
  · rcases Nat.lt_or_eq_of_le (show 13 ≤ k by omega) with hlarge | rfl
    · rw [if_neg (by omega), if_neg (by omega)]
      omega
    · decide

theorem ladder_strictMono : StrictMono ladder := by
  apply strictMono_nat_of_lt_succ
  intro k
  have hpos : 0 < ladder k := by
    unfold ladder
    split
    · exact Nat.two_pow_pos _
    · omega
  rw [ladder_succ]
  omega

/-- The last rung that a `u32` holds. -/
def lastRung : Nat := 4294966384

theorem ladder_fits_iff {k : Nat} : ladder k < 2 ^ 32 ↔ ladder k ≤ lastRung := by
  constructor
  · intro h
    have hlast : ladder 429508 = lastRung := by decide
    have hnext : ladder 429509 = 4294976384 := by decide
    have hle : k ≤ 429508 := by
      by_contra hlater
      have hmono := ladder_strictMono.monotone (show 429509 ≤ k by omega)
      omega
    rw [← hlast]
    exact ladder_strictMono.monotone hle
  · intro h
    unfold lastRung at h
    omega

/-! ## The loop climbs it -/

def rung (k : Nat) : U32 := BitVec.ofNat 32 (ladder k)

theorem rung_toNat {k : Nat} (h : ladder k < 2 ^ 32) : (rung k).toNat = ladder k := by
  rw [rung, BitVec.toNat_ofNat, Nat.mod_eq_of_lt h]

theorem firstRung_eq : (minDeposit / grt).setWidth 32 = rung 0 := by decide

theorem ten_thousand_toNat : ((maxAdjustment / grt).setWidth 32).toNat = 10000 := by decide

-- What one step computes, and that it is trapped when the addition does not fit.
theorem stepRound_of_fits (profile : Profile) {round : U32} (h : round.toNat + 10000 < 2 ^ 32) :
    ∃ next, stepRound profile round = .ok next ∧
      next.toNat = min (2 * round.toNat) (round.toNat + 10000) := by
  have hfits : round.toNat + ((maxAdjustment / grt).setWidth 32).toNat < 2 ^ 32 := by
    rwa [ten_thousand_toNat]
  refine ⟨wordMin (saturatingMul round 2) (round + (maxAdjustment / grt).setWidth 32), ?_, ?_⟩
  · rw [stepRound, plainAdd_of_fits profile hfits]
    rfl
  · rw [toNat_wordMin, toNat_saturatingMul, toNat_add_of_fits hfits, ten_thousand_toNat]
    change min (min (round.toNat * 2) (2 ^ 32 - 1)) (round.toNat + 10000) = _
    omega

theorem stepRound_debug {round next : U32} (h : stepRound .debug round = .ok next) :
    round.toNat + 10000 < 2 ^ 32 ∧ next.toNat = min (2 * round.toNat) (round.toNat + 10000) := by
  by_cases hfits : round.toNat + 10000 < 2 ^ 32
  · rcases stepRound_of_fits .debug hfits with ⟨next', hnext, hvalue⟩
    obtain rfl : next' = next := Except.ok.inj (hnext.symm.trans h)
    exact ⟨hfits, hvalue⟩
  · have hoverflow : 2 ^ 32 ≤ round.toNat + ((maxAdjustment / grt).setWidth 32).toNat := by
      rw [ten_thousand_toNat]
      omega
    rw [stepRound, plainAdd_debug_of_overflow hoverflow] at h
    cases h

theorem stepRound_rung (profile : Profile) {k : Nat} (h : ladder (k + 1) < 2 ^ 32) :
    stepRound profile (rung k) = .ok (rung (k + 1)) := by
  have hsucc := ladder_succ k
  have hrung : (rung k).toNat = ladder k := rung_toNat (by omega)
  have hfits : (rung k).toNat + 10000 < 2 ^ 32 := by omega
  rcases stepRound_of_fits profile hfits with ⟨next, hnext, hvalue⟩
  have hsame : next = rung (k + 1) := by
    apply BitVec.eq_of_toNat_eq
    rw [hvalue, hrung, rung_toNat h, hsucc]
  rw [hnext, hsame]

section Climb

variable {profile : Profile} {debt target : U128} {fillFactor : ℚ}

theorem debtReaches_exact {tokens : U128} :
    debtReaches .exact debt fillFactor tokens = true ↔
      (tokens.toNat : ℚ) * fillFactor ≤ debt.toNat := by
  exact decide_eq_true_iff

-- One turn at a rung: on to the next while the debt reaches it, out when it does not.
theorem nextBalanceTurn_rung_of_le {k : Nat} (hfits : ladder (k + 1) < 2 ^ 32)
    (h : ((ladder k * 10 ^ 18 : ℕ) : ℚ) * fillFactor ≤ debt.toNat) :
    nextBalanceTurn .exact profile debt fillFactor (rung k) = .ok (some (rung (k + 1))) := by
  have hlt : ladder k < ladder (k + 1) := ladder_strictMono (Nat.lt_succ_self k)
  rcases roundTokens_eq profile (rung k) with ⟨tokens, htokens, hvalue⟩
  rw [rung_toNat (by omega)] at hvalue
  have hreaches : debtReaches .exact debt fillFactor tokens = true := by
    rw [debtReaches_exact, hvalue]
    exact h
  apply except_bind_eq_ok.mpr
  refine ⟨tokens, htokens, ?_⟩
  rw [if_pos hreaches, stepRound_rung profile hfits]
  rfl

theorem nextBalanceTurn_rung_of_lt {k : Nat} (hfits : ladder k < 2 ^ 32)
    (h : (debt.toNat : ℚ) < ((ladder k * 10 ^ 18 : ℕ) : ℚ) * fillFactor) :
    nextBalanceTurn .exact profile debt fillFactor (rung k) = .ok none := by
  rcases roundTokens_eq profile (rung k) with ⟨tokens, htokens, hvalue⟩
  rw [rung_toNat hfits] at hvalue
  have hreaches : ¬debtReaches .exact debt fillFactor tokens = true := by
    rw [debtReaches_exact, hvalue]
    exact not_le.mpr h
  apply except_bind_eq_ok.mpr
  refine ⟨tokens, htokens, ?_⟩
  rw [if_neg hreaches]
  rfl

-- A turn that goes on has found the debt reaching its round, and made the step.
theorem nextBalanceTurn_continues {round next : U32}
    (h : nextBalanceTurn .exact profile debt fillFactor round = .ok (some next)) :
    ((round.toNat * 10 ^ 18 : ℕ) : ℚ) * fillFactor ≤ debt.toNat ∧
      stepRound profile round = .ok next := by
  rcases roundTokens_eq profile round with ⟨tokens, htokens, hvalue⟩
  rcases except_bind_eq_ok.mp h with ⟨tokens', htokens', hcondition⟩
  obtain rfl : tokens = tokens' := Except.ok.inj (htokens.symm.trans htokens')
  split at hcondition
  · rename_i hreaches
    rcases except_bind_eq_ok.mp hcondition with ⟨stepped, hstep, hnext⟩
    obtain rfl : stepped = next := Option.some_inj.mp (Except.ok.inj hnext)
    rw [debtReaches_exact, hvalue] at hreaches
    exact ⟨hreaches, hstep⟩
  · cases hcondition

/-- With enough fuel the function returns `target`, whether overflows are trapped or not. -/
def Returns (debt : U128) (fillFactor : ℚ) (target : U128) : Prop :=
  ∃ fuel, ∀ profile, nextBalance .exact profile debt fillFactor fuel = some (.ok target)

/-- Some rung that a `u32` holds is out of the debt's reach. -/
def StaysWithin (debt : U128) (fillFactor : ℚ) : Prop :=
  ∃ k, ladder k < 2 ^ 32 ∧ (debt.toNat : ℚ) < ((ladder k * 10 ^ 18 : ℕ) : ℚ) * fillFactor

/-- The rungs out of the debt's reach, in wei. -/
def covering (debt : U128) (fillFactor : ℚ) : Set Nat :=
  {tokens | (∃ k, tokens = ladder k * 10 ^ 18) ∧ (debt.toNat : ℚ) < tokens * fillFactor}

-- The first such rung: the debt reaches every one before it.
theorem StaysWithin.first (h : StaysWithin debt fillFactor) :
    ∃ last, ladder last < 2 ^ 32 ∧
      (debt.toNat : ℚ) < ((ladder last * 10 ^ 18 : ℕ) : ℚ) * fillFactor ∧
      ∀ k < last, ((ladder k * 10 ^ 18 : ℕ) : ℚ) * fillFactor ≤ debt.toNat := by
  classical
  rcases Nat.find_spec h with ⟨hfits, hcovers⟩
  refine ⟨Nat.find h, hfits, hcovers, ?_⟩
  intro k hk
  by_contra hreach
  have hlt : ladder k < ladder (Nat.find h) := ladder_strictMono hk
  exact Nat.find_min h hk ⟨by omega, not_le.mp hreach⟩

/-- The loop ends as soon as a rung within a `u32` is out of reach. -/
theorem returns_of_staysWithin (h : StaysWithin debt fillFactor) :
    ∃ target, Returns debt fillFactor target := by
  rcases h.first with ⟨last, hfits, hcovers, hreached⟩
  have hclimbs : ∀ profile, ∀ k < last,
      nextBalanceTurn .exact profile debt fillFactor (rung k) = .ok (some (rung (k + 1))) := by
    intro profile k hk
    have hnext : ladder (k + 1) ≤ ladder last := ladder_strictMono.monotone hk
    exact nextBalanceTurn_rung_of_le (by omega) (hreached k hk)
  rcases roundTokens_eq .debug (rung last) with ⟨target, -, hvalue⟩
  refine ⟨target, last + 1, ?_⟩
  intro profile
  rcases roundTokens_eq profile (rung last) with ⟨tokens, htokens, hvalue'⟩
  have hsame : tokens = target := BitVec.eq_of_toNat_eq (hvalue'.trans hvalue.symm)
  have hloop : whileLoop (nextBalanceTurn .exact profile debt fillFactor) (last + 1) (rung 0) =
      some (.ok (rung last)) := by
    rw [whileLoop_advance (hclimbs profile), whileLoop, nextBalanceTurn_rung_of_lt hfits hcovers]
  have hbind : (Except.ok (rung last) : Outcome Empty U32).bind (roundTokens profile) =
      .ok target := except_bind_eq_ok.mpr ⟨rung last, rfl, by rw [htokens, hsame]⟩
  rw [nextBalance, firstRung_eq, hloop, Option.map_some, hbind]

/-- The round is a rung, and the debt reaches every rung before it. -/
def ReachedBefore (debt : U128) (fillFactor : ℚ) (round : U32) : Prop :=
  ∃ k, round.toNat = ladder k ∧
    ∀ j < k, ((ladder j * 10 ^ 18 : ℕ) : ℚ) * fillFactor ≤ debt.toNat

theorem ReachedBefore.first : ReachedBefore debt fillFactor ((minDeposit / grt).setWidth 32) :=
  ⟨0, by decide, by simp⟩

theorem ReachedBefore.next {round next : U32} (h : ReachedBefore debt fillFactor round)
    (hnext : nextBalanceTurn .exact .debug debt fillFactor round = .ok (some next)) :
    ReachedBefore debt fillFactor next := by
  rcases h with ⟨k, hrung, hreached⟩
  rcases nextBalanceTurn_continues hnext with ⟨hreach, hstep⟩
  have hround := (stepRound_debug hstep).2
  refine ⟨k + 1, ?_, ?_⟩
  · rw [hround, hrung, ladder_succ]
  · intro j hj
    rcases Nat.lt_succ_iff_lt_or_eq.mp hj with hlt | rfl
    · exact hreached j hlt
    · rwa [hrung] at hreach

/-- Whatever a run with the overflow checks on returns is the least rung out of reach. -/
theorem nextBalance_isLeast {fuel : Nat}
    (h : nextBalance .exact .debug debt fillFactor fuel = some (.ok target)) :
    IsLeast (covering debt fillFactor) target.toNat := by
  rcases Option.map_eq_some_iff.mp h with ⟨outcome, hloop, hbind⟩
  rcases except_bind_eq_ok.mp hbind with ⟨round, rfl, htarget⟩
  rcases whileLoop_exits (fun _ _ h hnext ↦ ReachedBefore.next h hnext) ReachedBefore.first hloop
    with ⟨⟨k, hrung, hreached⟩, hexit⟩
  rcases nextBalanceTurn_exits hexit with ⟨tokens, htokens, hout⟩
  obtain rfl : tokens = target := Except.ok.inj (htokens.symm.trans htarget)
  rcases roundTokens_eq .debug round with ⟨tokens', htokens', hvalue⟩
  obtain rfl : tokens = tokens' := Except.ok.inj (htokens.symm.trans htokens')
  rw [hrung] at hvalue
  rw [← Bool.not_eq_true, debtReaches_exact, not_le] at hout
  refine ⟨⟨⟨k, hvalue⟩, hout⟩, ?_⟩
  -- anything covering is a rung at or past this one
  intro other hother
  rcases hother with ⟨⟨m, rfl⟩, hcovers⟩
  have hkm : k ≤ m := by
    by_contra hearlier
    exact absurd (hreached m (by omega)) (not_le.mpr hcovers)
  rw [hvalue]
  exact Nat.mul_le_mul_right _ (ladder_strictMono.monotone hkm)

theorem Returns.isLeast (h : Returns debt fillFactor target) :
    IsLeast (covering debt fillFactor) target.toNat := by
  rcases h with ⟨fuel, hreturns⟩
  exact nextBalance_isLeast (hreturns .debug)

/-- The function returns exactly when its steps stay within a `u32`. -/
theorem returns_iff : (∃ target, Returns debt fillFactor target) ↔
    StaysWithin debt fillFactor := by
  constructor
  · intro h
    rcases h with ⟨target, hreturns⟩
    rcases hreturns.isLeast.1 with ⟨⟨k, hrung⟩, hcovers⟩
    rcases hreturns with ⟨fuel, hreturns⟩
    rcases (nextBalance_isTarget (hreturns .debug)).whole with ⟨rounds, hrounds, hvalue⟩
    rw [hrung] at hcovers
    exact ⟨k, by omega, hcovers⟩
  · exact returns_of_staysWithin

theorem staysWithin_iff : StaysWithin debt fillFactor ↔
    (debt.toNat : ℚ) < ((lastRung * 10 ^ 18 : ℕ) : ℚ) * fillFactor := by
  constructor
  · intro h
    rcases h with ⟨k, hfits, hcovers⟩
    have hdebt : (0 : ℚ) ≤ debt.toNat := Nat.cast_nonneg _
    have hle : ((ladder k * 10 ^ 18 : ℕ) : ℚ) ≤ ((lastRung * 10 ^ 18 : ℕ) : ℚ) := by
      exact_mod_cast Nat.mul_le_mul_right _ (ladder_fits_iff.mp hfits)
    have hpos : 0 ≤ fillFactor := by
      by_contra hneg
      have hrung : (0 : ℚ) ≤ ((ladder k * 10 ^ 18 : ℕ) : ℚ) := Nat.cast_nonneg _
      have hproduct := mul_nonpos_of_nonneg_of_nonpos hrung (not_le.mp hneg).le
      linarith
    exact hcovers.trans_le (mul_le_mul_of_nonneg_right hle hpos)
  · intro h
    exact ⟨429508, by decide, h⟩

/-- The returned target, times the fill factor, exceeds the debt. -/
def Covers (debt : U128) (fillFactor : ℚ) : Prop :=
  ∃ target, Returns debt fillFactor target ∧ (debt.toNat : ℚ) < target.toNat * fillFactor

theorem covers_iff : Covers debt fillFactor ↔
    (debt.toNat : ℚ) < ((lastRung * 10 ^ 18 : ℕ) : ℚ) * fillFactor := by
  rw [← staysWithin_iff, ← returns_iff]
  constructor
  · intro h
    rcases h with ⟨target, hreturns, -⟩
    exact ⟨target, hreturns⟩
  · intro h
    rcases h with ⟨target, hreturns⟩
    exact ⟨target, hreturns, hreturns.isLeast.1.2⟩

-- A smaller debt and a larger fill factor leave more rungs out of reach.
theorem covering_subset {debt' : U128} {fillFactor' : ℚ} (hdebt : debt'.toNat ≤ debt.toNat)
    (hfill : fillFactor ≤ fillFactor') :
    covering debt fillFactor ⊆ covering debt' fillFactor' := by
  intro tokens htokens
  rcases htokens with ⟨hrung, hcovers⟩
  refine ⟨hrung, ?_⟩
  calc (debt'.toNat : ℚ) ≤ debt.toNat := by exact_mod_cast hdebt
    _ < tokens * fillFactor := hcovers
    _ ≤ tokens * fillFactor' := mul_le_mul_of_nonneg_left hfill (Nat.cast_nonneg _)

theorem Returns.mono {debt' target' : U128} {fillFactor' : ℚ}
    (h : Returns debt fillFactor target) (h' : Returns debt' fillFactor' target')
    (hdebt : debt'.toNat ≤ debt.toNat) (hfill : fillFactor ≤ fillFactor') :
    target'.toNat ≤ target.toNat :=
  h'.isLeast.2 (covering_subset hdebt hfill h.isLeast.1)

/-- The rung before a target beyond the first one was within reach. -/
theorem Returns.previous (h : Returns debt fillFactor target) (hfirst : 2 * 10 ^ 18 < target.toNat)
    (hpos : 0 < fillFactor) :
    ∃ k, target.toNat = ladder (k + 1) * 10 ^ 18 ∧
      ((ladder k * 10 ^ 18 : ℕ) : ℚ) ≤ debt.toNat / fillFactor := by
  rcases h.isLeast with ⟨⟨⟨k, hrung⟩, -⟩, hleast⟩
  cases k with
  | zero =>
    have hzero : ladder 0 = 2 := by decide
    rw [hzero] at hrung
    omega
  | succ k =>
    refine ⟨k, hrung, ?_⟩
    rw [le_div_iff₀ hpos]
    by_contra hcovers
    have hle : target.toNat ≤ ladder k * 10 ^ 18 := hleast ⟨⟨k, rfl⟩, not_le.mp hcovers⟩
    have hlt : ladder k < ladder (k + 1) := ladder_strictMono (Nat.lt_succ_self k)
    omega

/-- Within a `u32` the result is the least rung that covers the debt; so it grows with the debt,
shrinks with the fill factor, exceeds the debt, and overshoots it by no more than one step. -/
theorem nextBalance_ladder (hpos : 0 < fillFactor) (hone : fillFactor ≤ 1)
    (h : StaysWithin debt fillFactor) :
    ∃ target, Returns debt fillFactor target ∧
      IsLeast (covering debt fillFactor) target.toNat ∧
      debt.toNat < target.toNat ∧
      (2 * 10 ^ 18 < target.toNat → (target.toNat : ℚ) ≤ 2 * debt.toNat / fillFactor ∧
        (target.toNat : ℚ) ≤ debt.toNat / fillFactor + 10000 * 10 ^ 18) ∧
      (∀ less target', less.toNat ≤ debt.toNat → Returns less fillFactor target' →
        target'.toNat ≤ target.toNat) ∧
      (∀ larger target', fillFactor ≤ larger → Returns debt larger target' →
        target'.toNat ≤ target.toNat) := by
  rcases returns_of_staysWithin h with ⟨target, hreturns⟩
  refine ⟨target, hreturns, hreturns.isLeast, ?_, ?_, ?_, ?_⟩
  · rcases hreturns with ⟨fuel, hfuel⟩
    exact (nextBalance_isTarget (hfuel .debug)).debt_lt hpos hone
  · intro hfirst
    rcases hreturns.previous hfirst hpos with ⟨k, hrung, hreached⟩
    have hsucc := ladder_succ k
    have hdouble : target.toNat ≤ 2 * (ladder k * 10 ^ 18) := by omega
    have hlinear : target.toNat ≤ ladder k * 10 ^ 18 + 10000 * 10 ^ 18 := by omega
    constructor
    · calc (target.toNat : ℚ) ≤ 2 * ((ladder k * 10 ^ 18 : ℕ) : ℚ) := by exact_mod_cast hdouble
        _ ≤ 2 * (debt.toNat / fillFactor) := mul_le_mul_of_nonneg_left hreached (by norm_num)
        _ = 2 * debt.toNat / fillFactor := (mul_div_assoc _ _ _).symm
    · calc (target.toNat : ℚ) ≤ ((ladder k * 10 ^ 18 : ℕ) : ℚ) + 10000 * 10 ^ 18 := by
            exact_mod_cast hlinear
        _ ≤ debt.toNat / fillFactor + 10000 * 10 ^ 18 := by linarith
  · intro less target' hless hreturns'
    exact hreturns.mono hreturns' hless le_rfl
  · intro larger target' hlarger hreturns'
    exact hreturns.mono hreturns' le_rfl hlarger

end Climb

/-- Over the debts `main` asks for, the function ends without an overflow, at a target that covers
the debt, exactly when the last rung covers it.  The comparison is taken in exact arithmetic: in
`f64` a debt just below the share of the last rung can still round up to it, and the loop then
reaches the addition that overflows. -/
theorem nextBalance_covers_iff (owed : U128) (configured : U64) (fillFactor : ℚ) :
    ∃ debt, (∀ profile, receiverDebt profile owed configured = .ok debt) ∧
      debt.toNat = max owed.toNat (configured.toNat * 10 ^ 18) ∧
      (Covers debt fillFactor ↔
        (debt.toNat : ℚ) < ((lastRung * 10 ^ 18 : ℕ) : ℚ) * fillFactor) := by
  rcases receiverDebt_eq owed configured with ⟨debt, hdebt, hvalue⟩
  exact ⟨debt, hdebt, hvalue, covers_iff⟩

/-- A configured debt of ten billion GRT ends in a panic or in a wrapped round. -/
theorem nextBalance_uncovered :
    (∃ debt, (∀ profile, receiverDebt profile 0 10_000_000_000 = .ok debt) ∧
        ¬Covers debt (4 / 5)) ∧
      stepRound .debug (BitVec.ofNat 32 lastRung) = .error .panic ∧
      stepRound .release (BitVec.ofNat 32 lastRung) = .ok 9088 := by
  refine ⟨?_, by decide, by decide⟩
  rcases receiverDebt_eq 0 10_000_000_000 with ⟨debt, hdebt, hvalue⟩
  refine ⟨debt, hdebt, ?_⟩
  have hdebt : debt.toNat = 10 ^ 10 * 10 ^ 18 := hvalue.trans (by decide)
  rw [covers_iff, hdebt, lastRung]
  norm_num

-- A debt of 2 GRT calls for 4 GRT.
theorem nextBalance_ladder_known :
    ∃ target, Returns minDeposit (4 / 5) target ∧
      IsLeast (covering minDeposit (4 / 5)) target.toNat ∧
      minDeposit.toNat < target.toNat ∧
      (2 * 10 ^ 18 < target.toNat → (target.toNat : ℚ) ≤ 2 * minDeposit.toNat / (4 / 5) ∧
        (target.toNat : ℚ) ≤ minDeposit.toNat / (4 / 5) + 10000 * 10 ^ 18) ∧
      (∀ less target', less.toNat ≤ minDeposit.toNat → Returns less (4 / 5) target' →
        target'.toNat ≤ target.toNat) ∧
      (∀ larger target', 4 / 5 ≤ larger → Returns minDeposit larger target' →
        target'.toNat ≤ target.toNat) :=
  nextBalance_ladder (by norm_num) (by norm_num)
    ⟨1, by decide, by rw [show minDeposit.toNat = 2 * 10 ^ 18 by decide]; norm_num [ladder]⟩

end GraphTally.EscrowManager
