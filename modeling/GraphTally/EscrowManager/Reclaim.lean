import GraphTally.EscrowManager.Decide
import GraphTally.Theory.Machine

/-!
# Reclaiming over many cycles

The planner and the contract in a loop, for one receiver with a fixed target and no collections.
-/

open GraphTally.Theory

namespace GraphTally.EscrowManager

/-! ## Cycles -/

/-- A cycle reads the chain time and then its calls land in a block that is not behind it. -/
structure Cycle extends Block where
  chainNow : U64
  notAhead : chainNow.toNat ≤ timestamp

/-- What the subgraph reports, when the numbers fit its types. -/
def Escrow.read (escrow : Escrow) : Option EscrowAccount :=
  if escrow.balance < 2 ^ 128 ∧ escrow.thawing < 2 ^ 128 ∧ escrow.thawEnd < 2 ^ 64 then
    some ⟨.ofNat 128 escrow.balance, .ofNat 128 escrow.thawing, .ofNat 64 escrow.thawEnd⟩
  else none

section Cycle

variable (profile : Profile) (target marginBps minWithdraw : U128)

/-- A cycle whose accounts cannot be read is skipped, and a call that reverts changes nothing. -/
def cycle (escrow : Escrow) (c : Cycle) : Outcome Empty Action × Escrow :=
  match escrow.read with
  | none => (.ok .nothing, escrow)
  | some account =>
    match decide profile account target (some ⟨some c.chainNow, marginBps, minWithdraw⟩) with
    | .error e => (.error e, escrow)
    | .ok action => (.ok action, (action.perform escrow c.toBlock).getD escrow)

end Cycle

/-! ## What a cycle does -/

-- Reading an escrow into the words of an account loses nothing when it succeeds.
theorem Escrow.read_eq_some {escrow : Escrow} {account : EscrowAccount}
    (h : escrow.read = some account) : ∃ hform : account.WellFormed,
      account.escrow hform = escrow := by
  unfold Escrow.read at h
  by_cases hfits : escrow.balance < 2 ^ 128 ∧ escrow.thawing < 2 ^ 128 ∧ escrow.thawEnd < 2 ^ 64
  · rw [if_pos hfits] at h
    obtain rfl := Option.some_inj.mp h
    obtain ⟨balance, thawing, thawEnd, hle, hend⟩ := escrow
    obtain ⟨hbalance, hthawing, hthawEnd⟩ := hfits
    have hbalance' : (BitVec.ofNat 128 balance).toNat = balance := by
      rw [BitVec.toNat_ofNat, Nat.mod_eq_of_lt hbalance]
    have hthawing' : (BitVec.ofNat 128 thawing).toNat = thawing := by
      rw [BitVec.toNat_ofNat, Nat.mod_eq_of_lt hthawing]
    have hend' : (BitVec.ofNat 64 thawEnd).toNat = thawEnd := by
      rw [BitVec.toNat_ofNat, Nat.mod_eq_of_lt hthawEnd]
    refine ⟨⟨?_, ?_⟩, ?_⟩
    · simpa only [hbalance', hthawing'] using hle
    · simpa only [hthawing', hend'] using hend
    · simp only [EscrowAccount.escrow, hbalance', hthawing', hend']
  · rw [if_neg hfits] at h
    cases h

section Settling

variable {profile : Profile} {target marginBps minWithdraw : U128}

/-- A cycle is skipped, or carries out its decision. -/
theorem cycle_cases (hfits : floorOf target marginBps < 2 ^ 128) (escrow : Escrow) (c : Cycle) :
    cycle profile target marginBps minWithdraw escrow c = (.ok .nothing, escrow) ∨
      ∃ action after,
        cycle profile target marginBps minWithdraw escrow c = (.ok action, after) ∧
          Effect target (some ⟨some c.chainNow, marginBps, minWithdraw⟩) escrow action after := by
  unfold cycle
  split
  · exact .inl rfl
  · rename_i account hread
    obtain ⟨hform, rfl⟩ := Escrow.read_eq_some hread
    have hpolicy : ∀ policy ∈ some (Reclaim.mk (some c.chainNow) marginBps minWithdraw),
        floorOf target policy.marginBps < 2 ^ 128 := by
      intro policy hpolicy
      obtain rfl := Option.some_inj.mp hpolicy
      exact hfits
    have hblock : ∀ policy ∈ some (Reclaim.mk (some c.chainNow) marginBps minWithdraw),
        ∀ now ∈ policy.chainNow, now.toNat ≤ c.timestamp := by
      intro policy hpolicy now hnow
      obtain rfl := Option.some_inj.mp hpolicy
      obtain rfl := Option.some_inj.mp hnow
      exact c.notAhead
    obtain ⟨action, hdecide, hchosen⟩ := decide_chosen account hpolicy
    obtain ⟨after, hafter, heffect⟩ := hchosen.performs hform c.toBlock hblock
    refine .inr ⟨action, after, ?_, heffect⟩
    rw [hdecide]
    dsimp only
    rw [hafter, Option.getD_some]

/-! ## The potential -/

/-- How many actions an escrow can still get: one for what is thawing, one for a shortfall, two
for an excess. -/
def potential (target marginBps : U128) (escrow : Escrow) : Nat :=
  (if escrow.thawing ≠ 0 then 1 else 0) + (if escrow.net < target.toNat then 1 else 0) +
    (if floorOf target marginBps < escrow.net then 2 else 0)

theorem potential_le_three (target marginBps : U128) (escrow : Escrow) :
    potential target marginBps escrow ≤ 3 := by
  have hfloor := le_floorOf target marginBps
  unfold potential
  split_ifs <;> omega

def isAction (outcome : Outcome Empty Action) : Bool := outcome ≠ .ok .nothing

/-- Every action takes one from the potential. -/
theorem cycle_potential (hfits : floorOf target marginBps < 2 ^ 128) (escrow : Escrow) (c : Cycle) :
    potential target marginBps (cycle profile target marginBps minWithdraw escrow c).2 +
        (isAction (cycle profile target marginBps minWithdraw escrow c).1).toNat ≤
      potential target marginBps escrow := by
  have hfloor := le_floorOf target marginBps
  rcases cycle_cases hfits escrow c with hskip | ⟨action, after, hcycle, heffect⟩
  · rw [hskip]
    exact Nat.le_refl _
  · rw [hcycle]
    have hone : (isAction (.ok action)).toNat ≤ 1 := Bool.toNat_le _
    unfold potential
    dsimp only
    cases heffect with
    | nothing hcovered => exact Nat.le_refl _
    | withdraw hthawing hidle hnet => split_ifs <;> omega
    | deposit hshort hthawing hnet => split_ifs <;> omega
    | @thaw policy _ _ hpolicy hidle hexcess hthawing hnet =>
      -- two for the excess turn into one for what is thawing
      obtain rfl := Option.some_inj.mp hpolicy
      dsimp only at hexcess hnet
      split_ifs <;> omega

/-! ## Deposits, thaws and rest -/

/-- Below the floor nothing is thawed, and no action goes above it. -/
theorem cycle_of_net_le_floor (hfits : floorOf target marginBps < 2 ^ 128) (escrow : Escrow)
    (c : Cycle) (h : escrow.net ≤ floorOf target marginBps) :
    (∀ tokens, (cycle profile target marginBps minWithdraw escrow c).1 ≠ .ok (.thaw tokens)) ∧
      (cycle profile target marginBps minWithdraw escrow c).2.net ≤ floorOf target marginBps := by
  have hfloor := le_floorOf target marginBps
  rcases cycle_cases hfits escrow c with hskip | ⟨action, after, hcycle, heffect⟩
  · rw [hskip]
    exact ⟨by simp, h⟩
  · rw [hcycle]
    cases heffect with
    | nothing hcovered => exact ⟨by simp, h⟩
    | withdraw hthawing hidle hnet => exact ⟨by simp, hnet.trans_le h⟩
    | deposit hshort hthawing hnet => exact ⟨by simp, hnet.trans_le hfloor⟩
    | thaw hpolicy hidle hexcess hthawing hnet =>
      obtain rfl := Option.some_inj.mp hpolicy
      exact absurd h (not_le.mpr hexcess)

/-- At the target nothing is deposited, and no action goes below it. -/
theorem cycle_of_target_le_net (hfits : floorOf target marginBps < 2 ^ 128) (escrow : Escrow)
    (c : Cycle) (h : target.toNat ≤ escrow.net) :
    (∀ amount, (cycle profile target marginBps minWithdraw escrow c).1 ≠ .ok (.deposit amount)) ∧
      target.toNat ≤ (cycle profile target marginBps minWithdraw escrow c).2.net := by
  rcases cycle_cases hfits escrow c with hskip | ⟨action, after, hcycle, heffect⟩
  · rw [hskip]
    exact ⟨by simp, h⟩
  · rw [hcycle]
    cases heffect with
    | nothing hcovered => exact ⟨by simp, h⟩
    | withdraw hthawing hidle hnet => exact ⟨by simp, h.trans_eq hnet.symm⟩
    | deposit hshort hthawing hnet => exact absurd h (not_le.mpr hshort)
    | thaw hpolicy hidle hexcess hthawing hnet =>
      exact ⟨by simp, (le_floorOf target _).trans_eq hnet.symm⟩

/-- With nothing thawing the chain time plays no part. -/
theorem decide_of_idle {account : EscrowAccount} (h : account.thawing.toNat = 0)
    (now now' : Option U64) : decide profile account target (some ⟨now, marginBps, minWithdraw⟩) =
      decide profile account target (some ⟨now', marginBps, minWithdraw⟩) := by
  have hmatured : ∀ reclaim, ¬matured account reclaim = true :=
    fun reclaim hmatured ↦ (matured_eq_true.mp hmatured).2.1 h
  unfold decide
  rw [if_neg (hmatured _), if_neg (hmatured _)]
  rfl

-- The decision depends on the chain time only through a thaw that may have matured.
theorem cycle_of_idle {escrow : Escrow} (h : escrow.thawing = 0) (c c' : Cycle)
    (hnothing : (cycle profile target marginBps minWithdraw escrow c).1 = .ok .nothing) :
    cycle profile target marginBps minWithdraw escrow c' = (.ok .nothing, escrow) := by
  unfold cycle at hnothing ⊢
  cases hread : escrow.read with
  | none => rfl
  | some account =>
    obtain ⟨hform, rfl⟩ := Escrow.read_eq_some hread
    rw [hread] at hnothing
    dsimp only at hnothing ⊢
    rw [decide_of_idle h (some c'.chainNow) (some c.chainNow)]
    cases hdecide : decide profile account target (some ⟨some c.chainNow, marginBps, minWithdraw⟩)
      with
    | error e =>
      rw [hdecide] at hnothing
      cases hnothing
    | ok action =>
      rw [hdecide] at hnothing
      obtain rfl : action = .nothing := Except.ok.inj hnothing
      rfl

end Settling

/-- Over any number of cycles an escrow gets at most three actions, never both a deposit and a
thaw, and none any more once it got none with nothing thawing. -/
theorem reclaim_settles (rounding : Rounding) (profile : Profile) (debt target : U128)
    (fillFactor : ℚ) (fuel : Nat)
    (htarget : nextBalance rounding profile debt fillFactor fuel = some (.ok target))
    (marginBps minWithdraw : U128) (hmargin : marginBps.toNat ≤ 10000) (escrow : Escrow)
    (cycles : List Cycle) :
    let step := cycle profile target marginBps minWithdraw
    (outputs step escrow cycles).countP isAction ≤ 3 ∧
      ¬((∃ amount, .ok (.deposit amount) ∈ outputs step escrow cycles) ∧
        ∃ tokens, .ok (.thaw tokens) ∈ outputs step escrow cycles) ∧
      ∀ before c after, cycles = before ++ c :: after →
        (final step escrow before).thawing = 0 →
        (step (final step escrow before) c).1 = .ok .nothing →
          ∀ outcome ∈ outputs step (final step escrow before) (c :: after),
            outcome = .ok .nothing := by
  intro step
  have hfits : floorOf target marginBps < 2 ^ 128 :=
    (nextBalance_isTarget htarget).floorOf_lt hmargin
  refine ⟨?few, ?never, ?rest⟩
  case few =>
    exact (countP_outputs_le (cycle_potential hfits) escrow cycles).trans
      (potential_le_three target marginBps escrow)
  case never =>
    rintro ⟨⟨amount, hdeposit⟩, tokens, hthaw⟩
    by_cases hcovered : target.toNat ≤ escrow.net
    · have hnone : ∀ outcome ∈ outputs step escrow cycles, ∀ amount,
          outcome ≠ .ok (.deposit amount) :=
        forall_outputs (fun e c (h : target.toNat ≤ e.net) ↦ cycle_of_target_le_net hfits e c h)
          hcovered cycles
      exact hnone _ hdeposit amount rfl
    · have hbelow : escrow.net ≤ floorOf target marginBps :=
        (not_le.mp hcovered).le.trans (le_floorOf target marginBps)
      have hnone : ∀ outcome ∈ outputs step escrow cycles, ∀ tokens,
          outcome ≠ .ok (.thaw tokens) :=
        forall_outputs
          (fun e c (h : e.net ≤ floorOf target marginBps) ↦ cycle_of_net_le_floor hfits e c h)
          hbelow cycles
      exact hnone _ hthaw tokens rfl
  case rest =>
    intro before c after _ hidle hnothing
    generalize final step escrow before = rested at hidle hnothing ⊢
    -- a cycle that does nothing leaves the very same escrow to the next one
    have hstep : ∀ e c', rested = e → (step e c').1 = .ok .nothing ∧ rested = (step e c').2 := by
      rintro e c' rfl
      have hcycle := cycle_of_idle hidle c c' hnothing
      exact ⟨congrArg Prod.fst hcycle, (congrArg Prod.snd hcycle).symm⟩
    exact forall_outputs hstep rfl (c :: after)

/-! ## A run with three actions -/

/-- Five of twenty GRT have been thawing since before the run. -/
def thawingEscrow : Escrow := ⟨20 * 10 ^ 18, 5 * 10 ^ 18, 500, by decide, by decide⟩

def laterCycles : List Cycle := [
  ⟨⟨1_000, 2_000, by decide⟩, 1_000, by decide⟩,
  ⟨⟨1_000, 2_000, by decide⟩, 1_000, by decide⟩,
  ⟨⟨1_500, 2_500, by decide⟩, 1_500, by decide⟩,
  ⟨⟨2_500, 3_500, by decide⟩, 2_400, by decide⟩,
  ⟨⟨2_600, 3_600, by decide⟩, 2_600, by decide⟩]

theorem reclaim_settles_later :
    (outputs (cycle .debug minDeposit 2_500 grt) thawingEscrow laterCycles).countP isAction = 3 ∧
      ¬((∃ amount, .ok (.deposit amount) ∈
          outputs (cycle .debug minDeposit 2_500 grt) thawingEscrow laterCycles) ∧
        ∃ tokens, .ok (.thaw tokens) ∈
          outputs (cycle .debug minDeposit 2_500 grt) thawingEscrow laterCycles) := by
  have hsettles := reclaim_settles (.binary 53 (by decide)) .debug 0 minDeposit (3 / 5) 1
    (by decide +kernel) 2_500 grt (by decide) thawingEscrow laterCycles
  exact ⟨by decide +kernel, hsettles.2.1⟩

end GraphTally.EscrowManager
