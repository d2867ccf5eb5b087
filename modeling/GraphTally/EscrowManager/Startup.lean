import GraphTally.EscrowManager.Funding
import GraphTally.KnownSignatures
import GraphTally.Theory.Double

/-!
# Startup

Which configurations `main` accepts, and what its cycles do under them.
-/

open GraphTally.Theory

namespace GraphTally.EscrowManager

/-! ## The configuration -/

/-- The fields that are checked, and those the start and the cycles use. -/
structure Config where
  authorizeSigners : Bool
  dryRun : Bool
  debts : OrderedMap Address U64
  grtAllowance : U64
  secretKey : B256
  signers : List B256
  balanceFillFactor : Double
  withdrawEnabled : Bool
  withdrawMargin : Double
  minWithdrawGrt : U64

namespace Config

def defaultBalanceFillFactor : Double := .finite (Double.nearest (8 / 10))
def defaultWithdrawMargin : Double := .finite (1 / 4)
def defaultMinWithdrawGrt : U64 := 500

end Config

/-- Why `main` gives up before its loop. -/
inductive StartError where
  | balanceFillFactor (got : Double)
  | withdrawMarginNegative (got : Double)
  | withdrawMarginLarge (got : Double)
  | secretKey (e : String)
  | loadSignerKey (e : String)
  | fetchAuthorizedSigners (e : String)
  | getAllowance (e : String)
  | approve (e : String)
  deriving DecidableEq

/-- The outermost message; the source of an error follows it where it has one. -/
def StartError.text (display : Double → String) : StartError → String
  | balanceFillFactor got => "balance_fill_factor must be in the range (0, 1], got " ++ display got
  | withdrawMarginNegative got => "withdraw_margin must be non-negative, got " ++ display got
  | withdrawMarginLarge got =>
    "withdraw_margin must be at most 1.0 (a fraction, not a percentage), got " ++ display got
  | secretKey e => e
  | loadSignerKey _ => "load signer key"
  | fetchAuthorizedSigners _ => "fetch authorized signers"
  | getAllowance _ => "get allowance"
  | approve _ => "approve"

namespace Config

def fillFactorAccepted (config : Config) : Bool :=
  Double.lt (.finite 0) config.balanceFillFactor && Double.le config.balanceFillFactor (.finite 1)

/-- The margin in basis points. -/
def withdrawMarginBps (config : Config) : U128 :=
  ((config.withdrawMargin.mul (.finite 10000)).round).toWord 128

/-- The checks of `main`, and what its cycles plan with. -/
def check (profile : Profile) (config : Config) : Outcome StartError Settings :=
  if ¬config.fillFactorAccepted then
    .error (.error (.balanceFillFactor config.balanceFillFactor))
  else if ¬(config.withdrawMargin.isFinite && Double.le (.finite 0) config.withdrawMargin) then
    .error (.error (.withdrawMarginNegative config.withdrawMargin))
  else if ¬Double.le config.withdrawMargin (.finite 1) then
    .error (.error (.withdrawMarginLarge config.withdrawMargin))
  else do
    let minWithdraw ← plainMul profile (config.minWithdrawGrt.setWidth 128) grt
    return {
      debts := config.debts
      balanceFillFactor := config.balanceFillFactor.value
      withdrawEnabled := config.withdrawEnabled
      withdrawMarginBps := config.withdrawMarginBps
      minWithdraw }

/-- Both numbers are in their ranges. -/
structure Accepted (config : Config) (fillFactor margin : ℚ) : Prop where
  fillFactor_eq : config.balanceFillFactor = .finite fillFactor
  fillFactor_pos : 0 < fillFactor
  fillFactor_le_one : fillFactor ≤ 1
  margin_eq : config.withdrawMargin = .finite margin
  margin_nonneg : 0 ≤ margin
  margin_le_one : margin ≤ 1

section Check

variable {config : Config} {profile : Profile} {settings : Settings} {fillFactor margin : ℚ}

theorem accepted_of_check (h : config.check profile = .ok settings) :
    ∃ fillFactor margin, config.Accepted fillFactor margin := by
  unfold check at h
  split_ifs at h with hfill hnegative hlarge
  · rw [fillFactorAccepted, Bool.and_eq_true] at hfill
    obtain ⟨hpos, hone⟩ := hfill
    rw [Bool.and_eq_true] at hnegative
    obtain ⟨fillFactor, hfillEq, -, -⟩ :=
      Double.exists_of_between (Bool.and_eq_true_iff.mp hpos).1 hone
    obtain ⟨margin, hmarginEq, hnonneg, hle⟩ :=
      Double.exists_of_between hnegative.2 hlarge
    rw [hfillEq, Double.lt_finite] at hpos
    rw [hfillEq, Double.le_finite] at hone
    exact ⟨fillFactor, margin, hfillEq, hpos, hone, hmarginEq, hnonneg, hle⟩

/-- The minimum cannot overflow. -/
theorem Accepted.check (h : config.Accepted fillFactor margin) (profile : Profile) :
    ∃ settings, config.check profile = .ok settings ∧ settings.debts = config.debts ∧
      settings.balanceFillFactor = fillFactor ∧
      settings.withdrawEnabled = config.withdrawEnabled ∧
      settings.withdrawMarginBps = config.withdrawMarginBps ∧
      settings.minWithdraw.toNat = config.minWithdrawGrt.toNat * 10 ^ 18 := by
  have hgrt := config.minWithdrawGrt.isLt
  have hwide : (config.minWithdrawGrt.setWidth 128).toNat = config.minWithdrawGrt.toNat := by
    rw [BitVec.toNat_setWidth, Nat.mod_eq_of_lt (by omega)]
  have hfits : (config.minWithdrawGrt.setWidth 128).toNat * grt.toNat < 2 ^ 128 := by
    rw [hwide, grt_toNat]
    omega
  refine ⟨⟨config.debts, fillFactor, config.withdrawEnabled, config.withdrawMarginBps,
    config.minWithdrawGrt.setWidth 128 * grt⟩, ?_, rfl, rfl, rfl, rfl, ?_⟩
  · have hfill : config.fillFactorAccepted = true := by
      rw [fillFactorAccepted, h.fillFactor_eq, Bool.and_eq_true, Double.lt_finite,
        Double.le_finite]
      exact ⟨h.fillFactor_pos, h.fillFactor_le_one⟩
    have hnegative : (config.withdrawMargin.isFinite &&
        Double.le (.finite 0) config.withdrawMargin) = true := by
      rw [h.margin_eq, Bool.and_eq_true, Double.le_finite]
      exact ⟨rfl, h.margin_nonneg⟩
    have hlarge : Double.le config.withdrawMargin (.finite 1) = true := by
      rw [h.margin_eq, Double.le_finite]
      exact h.margin_le_one
    unfold Config.check
    rw [if_neg (not_not.mpr hfill), if_neg (not_not.mpr hnegative), if_neg (not_not.mpr hlarge),
      plainMul_of_fits profile hfits, h.fillFactor_eq]
    rfl
  · show (config.minWithdrawGrt.setWidth 128 * grt).toNat = _
    rw [toNat_mul_of_fits hfits, hwide, grt_toNat]

theorem check_eq_ok : (∃ settings, config.check profile = .ok settings) ↔
    ∃ fillFactor margin, config.Accepted fillFactor margin := by
  constructor
  · rintro ⟨settings, h⟩
    exact accepted_of_check h
  · rintro ⟨fillFactor, margin, h⟩
    obtain ⟨settings, hsettings, -⟩ := h.check profile
    exact ⟨settings, hsettings⟩

/-- The basis points are those of the margin, to the nearest one. -/
theorem Accepted.withdrawMarginBps (h : config.Accepted fillFactor margin) :
    |(config.withdrawMarginBps.toNat : ℚ) - margin * 10000| ≤ 51 / 100 := by
  have hnonneg := h.margin_nonneg
  have hone := h.margin_le_one
  have hbound : margin * 10000 / 2 ^ 53 ≤ 1 / 100 := by
    rw [div_le_iff₀ (by norm_num)]
    linarith
  unfold Config.withdrawMarginBps
  rw [h.margin_eq]
  exact (Double.toWord_round_mul (by positivity) (by linarith) (by linarith)).trans (by linarith)

theorem Accepted.withdrawMarginBps_le (h : config.Accepted fillFactor margin) :
    config.withdrawMarginBps.toNat ≤ 10000 := by
  have hclose := abs_le.mp h.withdrawMarginBps
  have hone := h.margin_le_one
  have hlt : (config.withdrawMarginBps.toNat : ℚ) < (10001 : ℕ) := by
    push_cast
    linarith
  exact Nat.lt_succ_iff.mp (by exact_mod_cast hlt)

-- A margin with four decimals is meant exactly, however its last digits were rounded.
theorem Accepted.withdrawMarginBps_eq (h : config.Accepted fillFactor margin) {k : ℕ}
    (hclose : |margin * 10000 - k| ≤ 2 / 5) : config.withdrawMarginBps.toNat = k := by
  have hbps := abs_le.mp h.withdrawMarginBps
  have hk := abs_le.mp hclose
  have hlower : (config.withdrawMarginBps.toNat : ℚ) < k + 1 := by linarith
  have hupper : (k : ℚ) < config.withdrawMarginBps.toNat + 1 := by linarith
  have hle : config.withdrawMarginBps.toNat < k + 1 := by exact_mod_cast hlower
  have hge : k < config.withdrawMarginBps.toNat + 1 := by exact_mod_cast hupper
  omega

/-- The defaults pass the checks, whatever the rest is: a margin of 2,500 basis points, and nothing
below 500 GRT is thawed. -/
theorem check_default (config : Config) (profile : Profile)
    (hfill : config.balanceFillFactor = defaultBalanceFillFactor)
    (hmargin : config.withdrawMargin = defaultWithdrawMargin)
    (hmin : config.minWithdrawGrt = defaultMinWithdrawGrt) :
    config.check profile = .ok ⟨config.debts, Double.nearest (8 / 10), config.withdrawEnabled,
      2_500, 500 * grt⟩ := by
  have hclose := abs_le.mp (Double.abs_nearest_sub_le (x := 8 / 10) (by norm_num))
  have haccepted : config.Accepted (Double.nearest (8 / 10)) (1 / 4) := by
    refine ⟨hfill, ?_, ?_, hmargin, by norm_num, by norm_num⟩ <;> linarith
  obtain ⟨⟨debts, fillFactor, enabled, bps, minWithdraw⟩, hcheck, rfl, rfl, rfl, hbps, hminimum⟩ :=
    haccepted.check profile
  have htwoThousand : bps.toNat = 2500 := by
    rw [show bps = _ from hbps]
    exact haccepted.withdrawMarginBps_eq (by norm_num)
  obtain rfl : bps = 2_500 := BitVec.eq_of_toNat_eq htwoThousand
  rw [hmin] at hminimum
  obtain rfl : minWithdraw = 500 * grt := BitVec.eq_of_toNat_eq hminimum
  exact hcheck

end Check

end Config

/-! ## Cycles under an accepted configuration -/

/-- What a thaw leaves, in whole basis points of a target that is whole GRT. -/
theorem IsTarget.floorOf_eq {rounding : Rounding} {debt : U128} {fillFactor : ℚ} {target : U128}
    (h : IsTarget rounding debt fillFactor target) (marginBps : U128) :
    10000 * floorOf target marginBps = (10000 + marginBps.toNat) * target.toNat := by
  obtain ⟨rounds, -, hwhole⟩ := h.whole
  have hdiv : target.toNat / 10000 = rounds * 10 ^ 14 := by omega
  rw [floorOf, hdiv, hwhole]
  ring

/-- A thaw of a cycle, against the configuration it was planned with. -/
structure Reclaimed (config : Config) (profile : Profile) (rounding : Rounding)
    (settings : Settings) (snapshot : Snapshot) (receiver : Address) (tokens : U128) : Prop where
  enabled : config.withdrawEnabled = true
  worth : config.minWithdrawGrt.toNat * 10 ^ 18 ≤ tokens.toNat
  covered : tokens.toNat ≤ (snapshot.account receiver).balance.toNat
  leaves : ∃ debt target fuel, snapshot.debtFor profile settings receiver = .ok debt ∧
    nextBalance rounding profile debt settings.balanceFillFactor fuel = some (.ok target) ∧
    debt.toNat < target.toNat ∧
    10000 * ((snapshot.account receiver).balance.toNat - tokens.toNat) =
      (10000 + settings.withdrawMarginBps.toNat) * target.toNat

/-- A configuration is accepted exactly when its two fractions are in range.  The margin is then
planned with to the nearest basis point of the product in floating point, which may be a hundredth
of one away from the exact one, and a thaw leaves exactly the target and the margin. -/
theorem Config.accepted_reclaims (config : Config) (profile : Profile) :
    ((∃ settings, config.check profile = .ok settings) ↔
        ∃ fillFactor margin, config.Accepted fillFactor margin) ∧
      ∀ settings fillFactor margin, config.check profile = .ok settings →
        config.Accepted fillFactor margin →
          |(settings.withdrawMarginBps.toNat : ℚ) - margin * 10000| ≤ 51 / 100 ∧
          (∀ k : ℕ, |margin * 10000 - k| ≤ 2 / 5 → settings.withdrawMarginBps.toNat = k) ∧
          ∀ rounding snapshot fuel plan,
            (Snapshot.planCycle snapshot rounding profile settings fuel).run = some (.ok plan) →
              ∀ receiver tokens, (receiver, tokens) ∈ plan.thaws →
                Reclaimed config profile rounding settings snapshot receiver tokens := by
  refine ⟨Config.check_eq_ok, ?_⟩
  intro settings fillFactor margin hcheck haccepted
  obtain ⟨settings', hsettings', -, hfill, henabled, hbps, hmin⟩ := haccepted.check profile
  obtain rfl : settings' = settings := Except.ok.inj (hsettings'.symm.trans hcheck)
  refine ⟨?_, ?_, ?_⟩
  · rw [hbps]
    exact haccepted.withdrawMarginBps
  · intro k hclose
    rw [hbps]
    exact haccepted.withdrawMarginBps_eq hclose
  · intro rounding snapshot fuel plan hplan receiver tokens hmem
    have hmargin : settings'.withdrawMarginBps.toNat ≤ 10000 := by
      rw [hbps]
      exact haccepted.withdrawMarginBps_le
    obtain ⟨decisions, hplans⟩ := Snapshot.planCycle_eq_ok.mp hplan
    obtain ⟨indexerRavs, hravs, -, hdecides⟩ := hplans.decided
    rw [hplans.batches] at hmem
    obtain ⟨decision, hdecision, rfl, haction⟩ := mem_thaws.mp hmem
    obtain ⟨debt, hdebt, hnext, -⟩ := hdecides decision hdecision
    obtain ⟨-, -, -, hchosen⟩ := (hdecides decision hdecision).chosen hmargin
    rw [haction] at hchosen
    have htarget := nextBalance_isTarget hnext
    have hlt := htarget.debt_lt (hfill ▸ haccepted.fillFactor_pos)
      (hfill ▸ haccepted.fillFactor_le_one)
    cases hchosen with
    | @thaw policy _ hpolicy hidle hnet hpos hworth hamount =>
      obtain ⟨hwithdraw, -, rfl⟩ := Snapshot.reclaim_eq_some hravs hpolicy
      have htokens : tokens.toNat = (snapshot.account decision.receiver).balance.toNat -
          floorOf decision.target settings'.withdrawMarginBps := hamount
      refine ⟨henabled ▸ hwithdraw, hmin ▸ hworth, by omega, debt, decision.target, fuel,
        except_bind_eq_ok.mpr ⟨indexerRavs, hravs, hdebt⟩, hnext, hlt, ?_⟩
      have hleft : (snapshot.account decision.receiver).balance.toNat - tokens.toNat =
          floorOf decision.target settings'.withdrawMarginBps := by omega
      rw [hleft, htarget.floorOf_eq]

/-! ## A margin of a quarter -/

def quarterConfig : Config where
  authorizeSigners := true
  dryRun := false
  debts := .empty
  grtAllowance := 1_000_000
  secretKey := Known.bigEndian 32 Known.Key.one.scalar.toNat
  signers := [Known.bigEndian 32 Known.Key.two.scalar.toNat]
  balanceFillFactor := .finite (3 / 4)
  withdrawEnabled := true
  withdrawMargin := Config.defaultWithdrawMargin
  minWithdrawGrt := 5

theorem quarterConfig_accepted : quarterConfig.Accepted (3 / 4) (1 / 4) :=
  ⟨rfl, by norm_num, by norm_num, rfl, by norm_num, by norm_num⟩

theorem quarterConfig_check (profile : Profile) :
    quarterConfig.check profile = .ok ⟨.empty, 3 / 4, true, 2_500, 5 * grt⟩ := by
  obtain ⟨⟨debts, fillFactor, enabled, bps, minWithdraw⟩, hcheck, rfl, rfl, rfl, hbps, hmin⟩ :=
    quarterConfig_accepted.check profile
  have htwoThousand : bps.toNat = 2500 := by
    rw [show bps = _ from hbps]
    exact quarterConfig_accepted.withdrawMarginBps_eq (by norm_num)
  obtain rfl : bps = 2_500 := BitVec.eq_of_toNat_eq htwoThousand
  obtain rfl : minWithdraw = 5 * grt := BitVec.eq_of_toNat_eq hmin
  exact hcheck

theorem Config.accepted_reclaims_quarter :
    Reclaimed quarterConfig .debug .exact ⟨.empty, 3 / 4, true, 2_500, 5 * grt⟩ threeReceivers
      (.repeatByte 20 0x22) (BitVec.ofNat 128 (175 * 10 ^ 17)) :=
  ((Config.accepted_reclaims quarterConfig .debug).2 _ (3 / 4) (1 / 4)
    (quarterConfig_check .debug) quarterConfig_accepted).2.2 .exact threeReceivers 10 threeBatches
      (by decide +kernel) (.repeatByte 20 0x22) _ (by decide)

end GraphTally.EscrowManager
