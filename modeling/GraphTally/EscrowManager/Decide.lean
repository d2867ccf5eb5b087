import GraphTally.EscrowManager.Balance
import GraphTally.EscrowManager.Contract

/-!
# The decision

`decide`: the one action a receiver gets in a cycle.
-/

open GraphTally.Theory

namespace GraphTally.EscrowManager

structure EscrowAccount where
  balance : U128
  thawing : U128
  thawEndTimestamp : U64
  deriving DecidableEq, Repr

/-- `chainNow` is missing when the latest block's timestamp could not be read. -/
structure Reclaim where
  chainNow : Option U64
  marginBps : U128
  minWithdraw : U128

inductive Action where
  | nothing
  | withdraw
  | deposit (amount : U128)
  | thaw (tokens : U128)
  deriving DecidableEq, Repr

def matured (account : EscrowAccount) (reclaim : Option Reclaim) : Bool :=
  account.thawEndTimestamp ≠ 0 && 0 < account.thawing.toNat &&
    (reclaim.bind (·.chainNow)).any fun now ↦ account.thawEndTimestamp.toNat < now.toNat

/-- Only the floor is computed with operators that could overflow. -/
def floorTokens (profile : Profile) (target marginBps : U128) : Outcome Empty U128 := do
  let headroom ← plainMul profile (target / 10_000) marginBps
  plainAdd profile target headroom

/-- What lies above the floor, when it is worth reclaiming. -/
def reclaimExcess (account : EscrowAccount) (reclaim : Reclaim) (floor : U128) : Action :=
  let excess := saturatingSub account.balance floor
  if 0 < excess.toNat ∧ reclaim.minWithdraw.toNat ≤ excess.toNat then .thaw excess else .nothing

/-- The tail of `decide`, for an account that is funded. -/
def decideThaw (profile : Profile) (account : EscrowAccount) (target : U128) (reclaim : Reclaim) :
    Outcome Empty Action :=
  if 0 < account.thawing.toNat then .ok .nothing
  else (floorTokens profile target reclaim.marginBps).map (reclaimExcess account reclaim)

def decide (profile : Profile) (account : EscrowAccount) (target : U128)
    (reclaim : Option Reclaim) : Outcome Empty Action :=
  if matured account reclaim then .ok .withdraw
  else
    let effectiveBalance := saturatingSub account.balance account.thawing
    let deposit := saturatingSub target effectiveBalance
    if 0 < deposit.toNat then .ok (.deposit deposit)
    else
      match reclaim with
      | none => .ok .nothing
      | some reclaim => decideThaw profile account target reclaim

/-! ## The branches -/

/-- `target * (1 + margin)`, in whole basis points of the target. -/
def floorOf (target marginBps : U128) : Nat := target.toNat + target.toNat / 10000 * marginBps.toNat

theorem le_floorOf (target marginBps : U128) : target.toNat ≤ floorOf target marginBps :=
  Nat.le_add_right _ _

def EscrowAccount.net (account : EscrowAccount) : Nat :=
  account.balance.toNat - account.thawing.toNat

/-- Why each action is taken. -/
inductive Chosen (account : EscrowAccount) (target : U128) (reclaim : Option Reclaim) :
    Action → Prop
  | withdraw {policy : Reclaim} {now : U64} :
      reclaim = some policy → policy.chainNow = some now → account.thawing.toNat ≠ 0 →
      account.thawEndTimestamp.toNat ≠ 0 → account.thawEndTimestamp.toNat < now.toNat →
      Chosen account target reclaim .withdraw
  | deposit {amount : U128} :
      account.net < target.toNat → amount.toNat = target.toNat - account.net →
      Chosen account target reclaim (.deposit amount)
  | thaw {policy : Reclaim} {tokens : U128} :
      reclaim = some policy → account.thawing.toNat = 0 → target.toNat ≤ account.net →
      0 < tokens.toNat → policy.minWithdraw.toNat ≤ tokens.toNat →
      tokens.toNat = account.balance.toNat - floorOf target policy.marginBps →
      Chosen account target reclaim (.thaw tokens)
  | nothing : target.toNat ≤ account.net → Chosen account target reclaim .nothing

section Decide

variable {account : EscrowAccount} {target : U128} {reclaim : Option Reclaim}

-- A thaw has matured when the chain time is strictly past its end.
theorem matured_eq_true : matured account reclaim = true ↔
    account.thawEndTimestamp.toNat ≠ 0 ∧ account.thawing.toNat ≠ 0 ∧
      ∃ policy now, reclaim = some policy ∧ policy.chainNow = some now ∧
        account.thawEndTimestamp.toNat < now.toNat := by
  have hend : account.thawEndTimestamp ≠ 0 ↔ account.thawEndTimestamp.toNat ≠ 0 := by
    rw [Ne, ← BitVec.toNat_inj]
    rfl
  simp only [matured, Bool.and_eq_true, decide_eq_true_eq, hend, and_assoc, Nat.pos_iff_ne_zero,
    Option.any_eq_true, Option.bind_eq_some_iff]
  constructor
  · rintro ⟨hend, hthawing, now, ⟨policy, hpolicy, hnow⟩, hlt⟩
    exact ⟨hend, hthawing, policy, now, hpolicy, hnow, hlt⟩
  · rintro ⟨hend, hthawing, policy, now, hpolicy, hnow, hlt⟩
    exact ⟨hend, hthawing, now, ⟨policy, hpolicy, hnow⟩, hlt⟩

/-- A floor that fits is computed exactly, in every profile. -/
theorem floorTokens_eq {marginBps : U128} (hfits : floorOf target marginBps < 2 ^ 128) :
    ∃ floor, (∀ profile, floorTokens profile target marginBps = .ok floor) ∧
      floor.toNat = floorOf target marginBps := by
  have hdiv : (target / 10_000).toNat = target.toNat / 10000 := by
    rw [BitVec.toNat_udiv]
    rfl
  have hmul : (target / 10_000).toNat * marginBps.toNat < 2 ^ 128 := by
    rw [hdiv]
    unfold floorOf at hfits
    omega
  have hheadroom : (target / 10_000 * marginBps).toNat =
      target.toNat / 10000 * marginBps.toNat := by
    rw [toNat_mul_of_fits hmul, hdiv]
  have hadd : target.toNat + (target / 10_000 * marginBps).toNat < 2 ^ 128 := by
    rw [hheadroom]
    exact hfits
  refine ⟨target + target / 10_000 * marginBps, fun profile ↦ ?_, ?_⟩
  · unfold floorTokens
    rw [plainMul_of_fits profile hmul]
    exact plainAdd_of_fits profile hadd
  · rw [toNat_add_of_fits hadd, hheadroom]
    rfl

theorem deposit_toNat (account : EscrowAccount) (target : U128) :
    (saturatingSub target (saturatingSub account.balance account.thawing)).toNat =
      target.toNat - account.net := by
  rw [toNat_saturatingSub, toNat_saturatingSub, EscrowAccount.net]

-- Whatever is thawing already is left alone; only an idle account is thawed.
theorem decideThaw_chosen {policy : Reclaim}
    (hfits : floorOf target policy.marginBps < 2 ^ 128) (hcovered : target.toNat ≤ account.net) :
    ∃ action, (∀ profile, decideThaw profile account target policy = .ok action) ∧
      Chosen account target (some policy) action := by
  by_cases hthawing : 0 < account.thawing.toNat
  · exact ⟨.nothing, fun profile ↦ if_pos hthawing, .nothing hcovered⟩
  · obtain ⟨floor, hfloor, hvalue⟩ := floorTokens_eq hfits
    have hexcess : (saturatingSub account.balance floor).toNat =
        account.balance.toNat - floorOf target policy.marginBps := by
      rw [toNat_saturatingSub, hvalue]
    refine ⟨reclaimExcess account policy floor, fun profile ↦ ?_, ?_⟩
    · unfold decideThaw
      rw [if_neg hthawing, hfloor]
      rfl
    · unfold reclaimExcess
      dsimp only
      split
      · rename_i hworth
        exact .thaw rfl (by omega) hcovered hworth.1 hworth.2 hexcess
      · exact .nothing hcovered

/-- With a floor that fits, every profile decides the same, by one of the branches. -/
theorem decide_chosen (account : EscrowAccount)
    (hfits : ∀ policy ∈ reclaim, floorOf target policy.marginBps < 2 ^ 128) :
    ∃ action, (∀ profile, decide profile account target reclaim = .ok action) ∧
      Chosen account target reclaim action := by
  by_cases hmatured : matured account reclaim = true
  · obtain ⟨hend, hthawing, policy, now, hpolicy, hnow, hlt⟩ := matured_eq_true.mp hmatured
    refine ⟨.withdraw, fun profile ↦ ?_, .withdraw hpolicy hnow hthawing hend hlt⟩
    unfold decide
    rw [if_pos hmatured]
  · have hdeposit := deposit_toNat account target
    by_cases hshort : account.net < target.toNat
    · refine ⟨.deposit _, fun profile ↦ ?_, .deposit hshort hdeposit⟩
      unfold decide
      dsimp only
      rw [if_neg hmatured, if_pos (by omega)]
    · -- not short, so the saturated deposit is zero and only a thaw is left to plan
      have hcovered : target.toNat ≤ account.net := not_lt.mp hshort
      cases reclaim with
      | none =>
        refine ⟨.nothing, fun profile ↦ ?_, .nothing hcovered⟩
        unfold decide
        dsimp only
        rw [if_neg hmatured, if_neg (by omega)]
      | some policy =>
        obtain ⟨action, hthaw, hchosen⟩ := decideThaw_chosen (hfits policy rfl) hcovered
        refine ⟨action, fun profile ↦ ?_, hchosen⟩
        unfold decide
        dsimp only
        rw [if_neg hmatured, if_neg (by omega), hthaw]

end Decide

/-! ## What an action does -/

structure EscrowAccount.WellFormed (account : EscrowAccount) : Prop where
  thawing_le : account.thawing.toNat ≤ account.balance.toNat
  thawEnd_ne_zero_iff : account.thawEndTimestamp.toNat ≠ 0 ↔ account.thawing.toNat ≠ 0

/-- The contract's side of an account. -/
def EscrowAccount.escrow (account : EscrowAccount) (h : account.WellFormed) : Escrow :=
  ⟨account.balance.toNat, account.thawing.toNat, account.thawEndTimestamp.toNat, h.thawing_le,
    h.thawEnd_ne_zero_iff⟩

/-- What the contract and the policy ask of an action. -/
def Action.Executable (account : EscrowAccount) (reclaim : Option Reclaim) : Action → Prop
  | .nothing => True
  | .withdraw => account.thawing.toNat ≠ 0 ∧ account.thawEndTimestamp.toNat ≠ 0 ∧
      ∃ policy ∈ reclaim, ∃ now ∈ policy.chainNow, account.thawEndTimestamp.toNat < now.toNat
  | .deposit amount => 0 < amount.toNat
  | .thaw tokens => 0 < tokens.toNat ∧ tokens.toNat ≤ account.balance.toNat ∧
      account.thawing.toNat = 0 ∧ ∃ policy ∈ reclaim, policy.minWithdraw.toNat ≤ tokens.toNat

/-- The calls an action makes. -/
def Action.perform (escrow : Escrow) (block : Block) : Action → Option Escrow
  | .nothing => some escrow
  | .withdraw => escrow.withdraw block
  | .deposit amount => escrow.deposit amount.toNat
  | .thaw tokens => escrow.thaw block tokens.toNat

/-- What an action does to the net balance. -/
def Action.Settles (target : U128) (reclaim : Option Reclaim) (before after : Escrow) :
    Action → Prop
  | .nothing => after = before ∧ target.toNat ≤ after.net
  | .withdraw => after.net = before.net
  | .deposit _ => after.net = target.toNat
  | .thaw _ => ∃ policy ∈ reclaim,
      after.net * 10000 = target.toNat * (10000 + policy.marginBps.toNat)

/-- What becomes of the escrow, branch by branch. -/
inductive Effect (target : U128) (reclaim : Option Reclaim) (before : Escrow) :
    Action → Escrow → Prop
  | nothing : target.toNat ≤ before.net → Effect target reclaim before .nothing before
  | withdraw {after : Escrow} : before.thawing ≠ 0 → after.thawing = 0 →
      after.net = before.net → Effect target reclaim before .withdraw after
  | deposit {amount : U128} {after : Escrow} : before.net < target.toNat →
      after.thawing = before.thawing → after.net = target.toNat →
      Effect target reclaim before (.deposit amount) after
  | thaw {policy : Reclaim} {tokens : U128} {after : Escrow} : reclaim = some policy →
      before.thawing = 0 → floorOf target policy.marginBps < before.net → after.thawing ≠ 0 →
      after.net = floorOf target policy.marginBps →
      Effect target reclaim before (.thaw tokens) after

section Perform

variable {account : EscrowAccount} {target : U128} {reclaim : Option Reclaim} {action : Action}

-- Each branch was entered under the conditions its calls need.
theorem Chosen.executable (h : Chosen account target reclaim action) :
    action.Executable account reclaim := by
  cases h with
  | @withdraw policy now hreclaim hnow hthawing hend hlt =>
    exact ⟨hthawing, hend, policy, hreclaim, now, hnow, hlt⟩
  | @deposit amount hshort hamount =>
    show 0 < amount.toNat
    omega
  | @thaw policy tokens hreclaim hidle hcovered hpos hmin htokens =>
    exact ⟨hpos, by omega, hidle, policy, hreclaim, hmin⟩
  | nothing hcovered => trivial

/-- In a block that is not behind the chain time of the decision, the calls go through. -/
theorem Chosen.performs (h : Chosen account target reclaim action) (hform : account.WellFormed)
    (block : Block)
    (hblock : ∀ policy ∈ reclaim, ∀ now ∈ policy.chainNow, now.toNat ≤ block.timestamp) :
    ∃ after, action.perform (account.escrow hform) block = some after ∧
      Effect target reclaim (account.escrow hform) action after := by
  have hnet : (account.escrow hform).net = account.net := rfl
  cases h with
  | @withdraw policy now hreclaim hnow hthawing hend hlt =>
    have hbehind := hblock policy hreclaim now hnow
    obtain ⟨after, hafter, hafterNet, hidle⟩ := (account.escrow hform).withdraw_of_matured block
      hend (lt_of_lt_of_le hlt hbehind)
    exact ⟨after, hafter, .withdraw hthawing hidle hafterNet⟩
  | @deposit amount hshort hamount =>
    obtain ⟨after, hafter, hafterNet, hsame⟩ := (account.escrow hform).deposit_of_pos
      (show 0 < amount.toNat by omega)
    exact ⟨after, hafter, .deposit (by omega) hsame (by omega)⟩
  | @thaw policy tokens hreclaim hidle hcovered hpos hmin htokens =>
    have hwhole : (account.escrow hform).net = account.balance.toNat :=
      Escrow.net_of_idle hidle
    obtain ⟨after, hafter, hafterNet, hthawing⟩ := (account.escrow hform).thaw_of_le block hpos
      (show tokens.toNat ≤ account.balance.toNat by omega)
    change after.net = account.balance.toNat - tokens.toNat at hafterNet
    exact ⟨after, hafter, .thaw hreclaim hidle (by omega) (by omega) (by omega)⟩
  | nothing hcovered => exact ⟨_, rfl, .nothing hcovered⟩

-- The floor is exact because targets are whole GRT, hence whole basis points.
theorem Effect.settles {before after : Escrow} (h : Effect target reclaim before action after)
    (hwhole : target.toNat / 10000 * 10000 = target.toNat) :
    action.Settles target reclaim before after := by
  cases h with
  | nothing hcovered => exact ⟨rfl, hcovered⟩
  | withdraw _ _ hnet => exact hnet
  | deposit _ _ hnet => exact hnet
  | @thaw policy tokens after hreclaim _ _ _ hnet =>
    refine ⟨policy, hreclaim, ?_⟩
    -- the target is a whole number of basis points, so nothing is lost to the division
    calc after.net * 10000
        = target.toNat * 10000 + target.toNat / 10000 * 10000 * policy.marginBps.toNat := by
          rw [hnet, floorOf]
          ring
      _ = target.toNat * (10000 + policy.marginBps.toNat) := by
          rw [hwhole]
          ring

/-- Only a withdrawal can leave an account below its target. -/
theorem Action.Settles.covers {before after : Escrow}
    (h : action.Settles target reclaim before after) (haction : action ≠ .withdraw) :
    target.toNat ≤ after.net := by
  cases action with
  | nothing => exact h.2
  | withdraw => exact absurd rfl haction
  | deposit amount => exact h.ge
  | thaw tokens =>
    obtain ⟨policy, -, hnet⟩ := h
    have hgrown : target.toNat * 10000 ≤ target.toNat * (10000 + policy.marginBps.toNat) :=
      Nat.mul_le_mul_left _ (Nat.le_add_right _ _)
    omega

end Perform

theorem IsTarget.floorOf_lt {rounding : Rounding} {debt target marginBps : U128} {fillFactor : ℚ}
    (h : IsTarget rounding debt fillFactor target) (hmargin : marginBps.toNat ≤ 10000) :
    floorOf target marginBps < 2 ^ 128 := by
  have htarget := h.lt_two_pow
  have hdivided := h.div_mul_bps
  have hheadroom : target.toNat / 10000 * marginBps.toNat ≤ target.toNat / 10000 * 10000 :=
    Nat.mul_le_mul_left _ hmargin
  unfold floorOf
  omega

/-- Every action `decide` plans can be carried out, and leaves the receiver funded. -/
theorem decide_executable (rounding : Rounding) (profile : Profile) (debt target : U128)
    (fillFactor : ℚ) (hpos : 0 < fillFactor) (hone : fillFactor ≤ 1) (fuel : Nat)
    (htarget : nextBalance rounding profile debt fillFactor fuel = some (.ok target))
    (account : EscrowAccount) (hform : account.WellFormed) (reclaim : Option Reclaim)
    (hmargin : ∀ policy ∈ reclaim, policy.marginBps.toNat ≤ 10000) :
    ∃ action, (∀ profile, decide profile account target reclaim = .ok action) ∧
      action.Executable account reclaim ∧
      ∀ block : Block,
        (∀ policy ∈ reclaim, ∀ now ∈ policy.chainNow, now.toNat ≤ block.timestamp) →
          ∃ after, action.perform (account.escrow hform) block = some after ∧
            action.Settles target reclaim (account.escrow hform) after ∧
            (action ≠ .withdraw → debt.toNat < after.net) := by
  have htarget := nextBalance_isTarget htarget
  obtain ⟨action, hdecide, hchosen⟩ := decide_chosen account
    fun policy hpolicy ↦ htarget.floorOf_lt (hmargin policy hpolicy)
  refine ⟨action, hdecide, hchosen.executable, fun block hblock ↦ ?_⟩
  obtain ⟨after, hafter, heffect⟩ := hchosen.performs hform block hblock
  have hsettles := heffect.settles htarget.div_mul_bps
  refine ⟨after, hafter, hsettles, fun haction ↦ ?_⟩
  exact lt_of_lt_of_le (htarget.debt_lt hpos hone) (hsettles.covers haction)

/-- An idle account well above the smallest target is thawed down to a quarter over it. -/
theorem decide_executable_idle :
    ∃ action, (∀ profile, decide profile ⟨20 * grt, 0, 0⟩ minDeposit
        (some ⟨some 1_000, 2_500, 5 * grt⟩) = .ok action) ∧
      action.Executable ⟨20 * grt, 0, 0⟩ (some ⟨some 1_000, 2_500, 5 * grt⟩) ∧
      ∀ block : Block, 1_000 ≤ block.timestamp →
        ∃ after, action.perform ⟨20 * 10 ^ 18, 0, 0, by simp, by simp⟩ block = some after ∧
          action.Settles minDeposit (some ⟨some 1_000, 2_500, 5 * grt⟩)
            ⟨20 * 10 ^ 18, 0, 0, by simp, by simp⟩ after ∧
          (action ≠ .withdraw → 0 < after.net) := by
  have hform : EscrowAccount.WellFormed ⟨20 * grt, 0, 0⟩ := ⟨by decide, by decide⟩
  obtain ⟨action, hdecide, hexecutable, hperform⟩ :=
    decide_executable (.binary 53 (by decide)) .debug 0 minDeposit (3 / 5) (by norm_num)
      (by norm_num) 1 (by decide +kernel) ⟨20 * grt, 0, 0⟩ hform
      (some ⟨some 1_000, 2_500, 5 * grt⟩)
      (by rintro policy hpolicy; obtain rfl := Option.some_inj.mp hpolicy; decide)
  refine ⟨action, hdecide, hexecutable, fun block hblock ↦ hperform block ?_⟩
  intro policy hpolicy now hnow
  obtain rfl := Option.some_inj.mp hpolicy
  obtain rfl := Option.some_inj.mp hnow
  exact hblock

end GraphTally.EscrowManager
