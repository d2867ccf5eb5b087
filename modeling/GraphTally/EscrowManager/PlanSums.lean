import GraphTally.EscrowManager.Plan
import Mathlib.Algebra.BigOperators.Group.Finset.Basic
import Mathlib.Algebra.Order.BigOperators.Group.Finset

/-!
# The sums of a cycle

What has to fit for a cycle to be planned without an overflow.
-/

open GraphTally.Theory

namespace GraphTally.EscrowManager

/-! ## Targets in both builds -/

section NextBalance

variable {rounding : Rounding} {debt target : U128} {fillFactor : ℚ} {fuel : Nat}

theorem stepRound_of_debug {round next : U32} (h : stepRound .debug round = .ok next)
    (profile : Profile) : stepRound profile round = .ok next := by
  rcases stepRound_of_fits profile (stepRound_debug h).1 with ⟨other, hother, hvalue⟩
  have hsame : other = next := BitVec.eq_of_toNat_eq (hvalue.trans (stepRound_debug h).2.symm)
  rw [hother, hsame]

theorem roundTokens_of_debug {round : U32} {tokens : U128}
    (h : roundTokens .debug round = .ok tokens) (profile : Profile) :
    roundTokens profile round = .ok tokens := by
  rcases roundTokens_eq .debug round with ⟨first, hfirst, hvalue⟩
  rcases roundTokens_eq profile round with ⟨second, hsecond, hvalue'⟩
  obtain rfl : first = tokens := Except.ok.inj (hfirst.symm.trans h)
  rw [hsecond, BitVec.eq_of_toNat_eq (hvalue'.trans hvalue.symm)]

theorem nextBalanceTurn_of_debug {round : U32} {next : Option U32}
    (h : nextBalanceTurn rounding .debug debt fillFactor round = .ok next) (profile : Profile) :
    nextBalanceTurn rounding profile debt fillFactor round = .ok next := by
  rcases except_bind_eq_ok.mp h with ⟨tokens, htokens, hcondition⟩
  apply except_bind_eq_ok.mpr
  refine ⟨tokens, roundTokens_of_debug htokens profile, ?_⟩
  split at hcondition
  · rename_i hreaches
    rcases except_bind_eq_ok.mp hcondition with ⟨stepped, hstep, hnext⟩
    rw [if_pos hreaches]
    exact except_bind_eq_ok.mpr ⟨stepped, stepRound_of_debug hstep profile, hnext⟩
  · rename_i hreaches
    rw [if_neg hreaches]
    exact hcondition

/-- A target found with the overflow checks on is found without them. -/
theorem nextBalance_of_debug
    (h : nextBalance rounding .debug debt fillFactor fuel = some (.ok target))
    (profile : Profile) :
    nextBalance rounding profile debt fillFactor fuel = some (.ok target) := by
  rcases Option.map_eq_some_iff.mp h with ⟨outcome, hloop, hbind⟩
  rcases except_bind_eq_ok.mp hbind with ⟨round, rfl, htarget⟩
  have hloop' := whileLoop_of_agrees
    (fun s next hturn ↦ nextBalanceTurn_of_debug hturn profile) hloop
  exact Option.map_eq_some_iff.mpr ⟨.ok round, hloop',
    except_bind_eq_ok.mpr ⟨round, rfl, roundTokens_of_debug htarget profile⟩⟩

theorem nextBalance_of_le {profile : Profile} {fuel' : Nat} (hle : fuel ≤ fuel')
    (h : nextBalance rounding profile debt fillFactor fuel = some (.ok target)) :
    nextBalance rounding profile debt fillFactor fuel' = some (.ok target) := by
  rcases Option.map_eq_some_iff.mp h with ⟨outcome, hloop, hbind⟩
  exact Option.map_eq_some_iff.mpr ⟨outcome, whileLoop_of_le hle hloop, hbind⟩

end NextBalance

/-! ## What an indexer's RAVs come to -/

/-- The values of its active allocations. -/
def ravSum (ravs : RavMap) (allocations : List Allocation) (indexer : Address) : Nat :=
  ((allocations.filter (·.indexer = indexer)).map fun allocation ↦
    ((ravs.lookup allocation.id).getD 0).toNat).sum

/-- What a table of sums holds for an indexer. -/
def tokensFor (table : OrderedMap Address U128) (indexer : Address) : Nat :=
  ((table.lookup indexer).getD 0).toNat

theorem ravSum_cons (ravs : RavMap) (allocation : Allocation) (allocations : List Allocation)
    (indexer : Address) : ravSum ravs (allocation :: allocations) indexer =
      (if allocation.indexer = indexer then ((ravs.lookup allocation.id).getD 0).toNat else 0) +
        ravSum ravs allocations indexer := by
  unfold ravSum
  by_cases hsame : allocation.indexer = indexer
  · rw [List.filter_cons_of_pos (by simpa using hsame), if_pos hsame, List.map_cons,
      List.sum_cons]
  · rw [List.filter_cons_of_neg (by simpa using hsame), if_neg hsame, Nat.zero_add]

namespace Snapshot

/-- What a receiver is owed on the books of the two consumers. -/
def owedTo (snapshot : Snapshot) (receiver : Address) : Nat :=
  max (tokensFor snapshot.receipts receiver) (ravSum snapshot.ravs snapshot.allocations receiver)

section Ravs

variable {snapshot : Snapshot} {table : OrderedMap Address U128} {allocation : Allocation}

theorem tokensFor_insert (indexer other : Address) (tokens : U128) :
    tokensFor (table.insert indexer tokens) other =
      if indexer = other then tokens.toNat else tokensFor table other := by
  unfold tokensFor
  by_cases hsame : indexer = other
  · rw [if_pos hsame, hsame, OrderedMap.lookup_insert]
    rfl
  · rw [if_neg hsame, OrderedMap.lookup_insert_ne (Ne.symm hsame)]

-- The value of one allocation is added to what its indexer has.
theorem addRav_of_fits {snapshot : Snapshot} {table : OrderedMap Address U128}
    {allocation : Allocation} (h : tokensFor table allocation.indexer +
      ((snapshot.ravs.lookup allocation.id).getD 0).toNat < 2 ^ 128) :
    ∃ table', (∀ profile, snapshot.addRav profile table allocation = .ok table') ∧
      ∀ indexer, tokensFor table' indexer = tokensFor table indexer +
        if allocation.indexer = indexer then
          ((snapshot.ravs.lookup allocation.id).getD 0).toNat else 0 := by
  unfold addRav
  cases hlookup : snapshot.ravs.lookup allocation.id with
  | none => exact ⟨table, fun _ ↦ rfl, fun indexer ↦ by simp⟩
  | some value =>
    rw [hlookup] at h
    change ((table.lookup allocation.indexer).getD 0).toNat + value.toNat < 2 ^ 128 at h
    refine ⟨table.insert allocation.indexer
      ((table.lookup allocation.indexer).getD 0 + value), ?_, ?_⟩
    · intro profile
      exact except_bind_eq_ok.mpr ⟨_, plainAdd_of_fits profile h, rfl⟩
    · intro indexer
      rw [tokensFor_insert, toNat_add_of_fits h]
      by_cases hsame : allocation.indexer = indexer
      · rw [if_pos hsame, if_pos hsame, ← hsame]
        rfl
      · rw [if_neg hsame, if_neg hsame, Nat.add_zero]

theorem addRav_fits {table' : OrderedMap Address U128}
    (h : snapshot.addRav .debug table allocation = .ok table') :
    tokensFor table allocation.indexer +
      ((snapshot.ravs.lookup allocation.id).getD 0).toNat < 2 ^ 128 := by
  unfold addRav at h
  cases hlookup : snapshot.ravs.lookup allocation.id with
  | none => exact ((table.lookup allocation.indexer).getD 0).isLt
  | some value =>
    rw [hlookup] at h
    obtain ⟨sum, hsum, -⟩ := except_bind_eq_ok.mp h
    exact plainAdd_debug_eq_ok hsum

/-- Over all allocations: the sums are exact where they fit, and trapped where they do not. -/
theorem addRavs_of_fits (snapshot : Snapshot) (table : OrderedMap Address U128)
    (allocations : List Allocation)
    (h : ∀ indexer, tokensFor table indexer + ravSum snapshot.ravs allocations indexer < 2 ^ 128) :
    ∃ table', (∀ profile, allocations.foldlM (snapshot.addRav profile) table = .ok table') ∧
      ∀ indexer, tokensFor table' indexer =
        tokensFor table indexer + ravSum snapshot.ravs allocations indexer := by
  induction allocations generalizing table with
  | nil => exact ⟨table, fun _ ↦ rfl, fun _ ↦ rfl⟩
  | cons allocation allocations ih =>
    simp only [ravSum_cons] at h ⊢
    have hhere := h allocation.indexer
    rw [if_pos rfl] at hhere
    have hfits : tokensFor table allocation.indexer +
        ((snapshot.ravs.lookup allocation.id).getD 0).toNat < 2 ^ 128 := by omega
    obtain ⟨next, hnext, hvalue⟩ := addRav_of_fits hfits
    obtain ⟨table', htable, hvalue'⟩ := ih next fun indexer ↦ by
      rw [hvalue, Nat.add_assoc]
      exact h indexer
    refine ⟨table', ?_, ?_⟩
    · intro profile
      rw [List.foldlM_cons, hnext profile]
      exact htable profile
    · intro indexer
      rw [hvalue', hvalue, Nat.add_assoc]

theorem addRavs_fits (allocations : List Allocation) {table' : OrderedMap Address U128}
    (h : allocations.foldlM (snapshot.addRav .debug) table = .ok table') (indexer : Address) :
    tokensFor table indexer + ravSum snapshot.ravs allocations indexer < 2 ^ 128 := by
  induction allocations generalizing table with
  | nil => exact ((table.lookup indexer).getD 0).isLt
  | cons allocation allocations ih =>
    rw [List.foldlM_cons] at h
    obtain ⟨next, hnext, hrest⟩ := except_bind_eq_ok.mp h
    obtain ⟨same, hsame, hvalue⟩ := addRav_of_fits (addRav_fits hnext)
    obtain rfl : same = next := Except.ok.inj ((hsame .debug).symm.trans hnext)
    have htail := ih hrest
    rw [hvalue, Nat.add_assoc] at htail
    rwa [ravSum_cons]

end Ravs

/-! ## The sums of the batches -/

section Batches

variable {snapshot : Snapshot} {decisions : List Decision}

-- A deposit fills up to the target, so the deposits stay below the targets.
theorem sum_adjustments_le {decisions : List Decision}
    (h : ∀ decision ∈ decisions, ∀ amount, decision.action = .deposit amount →
      amount.toNat ≤ decision.target.toNat) (totalTarget : U128) :
    (((CyclePlan.of totalTarget decisions).adjustments.map Prod.snd).map BitVec.toNat).sum ≤
      ((decisions.map (·.target)).map BitVec.toNat).sum := by
  show (((decisions.filterMap (·.adjustment)).map Prod.snd).map BitVec.toNat).sum ≤ _
  induction decisions with
  | nil => exact Nat.le_refl _
  | cons decision decisions ih =>
    obtain ⟨hhere, hrest⟩ := List.forall_mem_cons.mp h
    have htail := ih hrest
    obtain ⟨receiver, target, action⟩ := decision
    simp only [List.map_cons, List.sum_cons]
    cases action with
    | deposit amount =>
      have hle : amount.toNat ≤ target.toNat := hhere amount rfl
      simp only [List.filterMap_cons, Decision.adjustment, List.map_cons, List.sum_cons]
      simp only [Decision.adjustment] at htail
      omega
    | nothing => exact htail.trans (Nat.le_add_left _ _)
    | withdraw => exact htail.trans (Nat.le_add_left _ _)
    | thaw amount => exact htail.trans (Nat.le_add_left _ _)

theorem account_of_mem {receiver : Address} {account : EscrowAccount}
    (h : ⟨receiver, account⟩ ∈ snapshot.escrowAccounts.entries) :
    snapshot.account receiver = account := by
  rw [Snapshot.account, HashTable.mem_entries.mp h]
  rfl

/-- What is taken from distinct accounts is at most what all of them hold. -/
theorem sum_le_balances {batch : List (Address × U128)} (hnodup : (batch.map Prod.fst).Nodup)
    (h : ∀ receiver amount, (receiver, amount) ∈ batch → 0 < amount.toNat ∧
      amount.toNat ≤ (snapshot.account receiver).balance.toNat) :
    ((batch.map Prod.snd).map BitVec.toNat).sum ≤
      ((snapshot.accountWords (·.balance)).map BitVec.toNat).sum := by
  have hkeys : batch.map Prod.fst ⊆ snapshot.escrowAccounts.keys := by
    intro receiver hreceiver
    obtain ⟨⟨receiver, amount⟩, hmem, rfl⟩ := List.mem_map.mp hreceiver
    obtain ⟨hpos, hle⟩ := h receiver amount hmem
    by_contra habsent
    have hnone : snapshot.escrowAccounts.lookup receiver = none :=
      AList.lookup_eq_none.mpr habsent
    rw [account, hnone] at hle
    change amount.toNat ≤ 0 at hle
    omega
  obtain ⟨keys, hperm, hsublist⟩ := List.subperm_of_subset hnodup hkeys
  calc ((batch.map Prod.snd).map BitVec.toNat).sum
      = (batch.map fun entry ↦ entry.2.toNat).sum := by
        rw [List.map_map]
        rfl
    _ ≤ (batch.map fun entry ↦ (snapshot.account entry.1).balance.toNat).sum :=
        List.sum_le_sum fun entry hentry ↦ (h entry.1 entry.2 hentry).2
    _ = ((batch.map Prod.fst).map fun receiver ↦
          (snapshot.account receiver).balance.toNat).sum := by
        rw [List.map_map]
        rfl
    _ = (keys.map fun receiver ↦ (snapshot.account receiver).balance.toNat).sum :=
        (hperm.map _).sum_eq.symm
    _ ≤ (snapshot.escrowAccounts.keys.map fun receiver ↦
          (snapshot.account receiver).balance.toNat).sum :=
        (hsublist.map _).sum_le_sum fun _ _ ↦ Nat.zero_le _
    _ = ((snapshot.accountWords (·.balance)).map BitVec.toNat).sum := by
        rw [AList.keys, List.keys, List.map_map, accountWords, List.map_map]
        congr 1
        apply List.map_congr_left
        intro entry hentry
        show (snapshot.account entry.1).balance.toNat = entry.2.balance.toNat
        rw [account_of_mem hentry]

end Batches

/-! ## When a cycle is planned without an overflow -/

/-- The exact debt of a receiver, with the configured minimum. -/
def debtOf (snapshot : Snapshot) (settings : Settings) (receiver : Address) : Nat :=
  max (snapshot.owedTo receiver) (((settings.debts.lookup receiver).getD 0).toNat * 10 ^ 18)

/-- The exact sums fit, and each debt has a target. -/
structure Fits (snapshot : Snapshot) (rounding : Rounding) (settings : Settings) : Prop where
  balances : ((snapshot.accountWords (·.balance)).map BitVec.toNat).sum < 2 ^ 128
  thawings : ((snapshot.accountWords (·.thawing)).map BitVec.toNat).sum < 2 ^ 128
  ravs : ∀ indexer, ravSum snapshot.ravs snapshot.allocations indexer < 2 ^ 128
  debts : ((snapshot.receivers.entries.map Prod.fst).map snapshot.owedTo).sum < 2 ^ 128
  targets : ∃ targets, List.Forall₂ (fun receiver target ↦ ∃ fuel, nextBalance rounding .debug
      (.ofNat 128 (snapshot.debtOf settings receiver)) settings.balanceFillFactor fuel =
        some (.ok target)) (snapshot.receivers.entries.map Prod.fst) targets ∧
    (targets.map BitVec.toNat).sum < 2 ^ 128

section Completes

variable {snapshot : Snapshot} {rounding : Rounding} {settings : Settings}

-- The debts of the loop are the exact ones, once the RAVs fit.
theorem owed_of_fits {indexerRavs : OrderedMap Address U128}
    (hravs : ∀ indexer, tokensFor indexerRavs indexer =
      ravSum snapshot.ravs snapshot.allocations indexer) {receiver : Address}
    (h : receiver ∈ snapshot.receivers.entries.map Prod.fst) :
    tokensFor (snapshot.debts indexerRavs) receiver = snapshot.owedTo receiver := by
  unfold tokensFor
  rw [lookup_debts (mem_receivers.mp h), Option.getD_some, toNat_wordMax]
  show max _ (tokensFor indexerRavs receiver) = _
  rw [hravs]
  rfl

theorem sum_debts {indexerRavs : OrderedMap Address U128}
    (hravs : ∀ indexer, tokensFor indexerRavs indexer =
      ravSum snapshot.ravs snapshot.allocations indexer) :
    ((snapshot.debts indexerRavs).values.map BitVec.toNat).sum =
      ((snapshot.receivers.entries.map Prod.fst).map snapshot.owedTo).sum := by
  rw [OrderedMap.values, debts, OrderedMap.mapVal, List.map_map, List.map_map, List.map_map]
  congr 1
  apply List.map_congr_left
  intro entry hentry
  show (wordMax _ _).toNat = snapshot.owedTo entry.1
  rw [toNat_wordMax]
  show max _ (tokensFor indexerRavs entry.1) = _
  rw [hravs]
  rfl

/-- The debt the loop looks a target up for. -/
theorem receiverDebt_debtOf {indexerRavs : OrderedMap Address U128}
    (hravs : ∀ indexer, tokensFor indexerRavs indexer =
      ravSum snapshot.ravs snapshot.allocations indexer) {receiver : Address}
    (h : receiver ∈ snapshot.receivers.entries.map Prod.fst) (profile : Profile) :
    receiverDebt profile (((snapshot.debts indexerRavs).lookup receiver).getD 0)
        ((settings.debts.lookup receiver).getD 0) =
      .ok (.ofNat 128 (snapshot.debtOf settings receiver)) := by
  obtain ⟨debt, hdebt, hvalue⟩ := receiverDebt_eq
    (((snapshot.debts indexerRavs).lookup receiver).getD 0)
    ((settings.debts.lookup receiver).getD 0)
  have howed := owed_of_fits hravs h
  unfold tokensFor at howed
  rw [howed] at hvalue
  rw [hdebt profile]
  congr 1
  apply BitVec.eq_of_toNat_eq
  have hword := debt.isLt
  rw [BitVec.toNat_ofNat, Nat.mod_eq_of_lt (by unfold debtOf; omega), hvalue]
  rfl

-- Whatever the sums are, a plan that was made with the overflow checks on made them exactly.
theorem fits_of_planCycle {fuel : Nat} {plan : CyclePlan}
    (h : (snapshot.planCycle rounding .debug settings fuel).run = some (.ok plan)) :
    snapshot.Fits rounding settings := by
  obtain ⟨decisions, hplans⟩ := planCycle_eq_ok.mp h
  obtain ⟨indexerRavs, hravs, ⟨owed, howed⟩, hdecides⟩ := hplans.decided
  have hfits : ∀ indexer, ravSum snapshot.ravs snapshot.allocations indexer < 2 ^ 128 := by
    intro indexer
    have hsum := addRavs_fits snapshot.allocations hravs indexer
    omega
  have hexact : ∀ indexer, tokensFor indexerRavs indexer =
      ravSum snapshot.ravs snapshot.allocations indexer := by
    obtain ⟨table, htable, hvalue⟩ := addRavs_of_fits snapshot .empty
      snapshot.allocations fun indexer ↦ by simpa [tokensFor] using hfits indexer
    obtain rfl : table = indexerRavs := Except.ok.inj ((htable .debug).symm.trans hravs)
    intro indexer
    simpa [tokensFor] using hvalue indexer
  obtain ⟨balances, hbalances⟩ := hplans.balances
  obtain ⟨thawings, hthawings⟩ := hplans.thawings
  refine ⟨plainSum_debug_eq_ok hbalances, plainSum_debug_eq_ok hthawings, hfits, ?_,
    decisions.map (·.target), ?_, plainSum_debug_eq_ok hplans.target⟩
  · rw [← sum_debts hexact]
    exact plainSum_debug_eq_ok howed
  · rw [← hplans.receivers, List.forall₂_map_left_iff, List.forall₂_map_right_iff,
      List.forall₂_same]
    intro decision hdecision
    obtain ⟨debt, hdebt, htarget, -⟩ := hdecides decision hdecision
    have hmem : decision.receiver ∈ snapshot.receivers.entries.map Prod.fst := by
      rw [← hplans.receivers]
      exact List.mem_map_of_mem hdecision
    rw [receiverDebt_debtOf hexact hmem] at hdebt
    obtain rfl := Except.ok.inj hdebt
    exact ⟨fuel, htarget⟩

-- Decisions for all receivers at once, with fuel for the longest search.
theorem exists_decisions (hmargin : settings.withdrawMarginBps.toNat ≤ 10000)
    {indexerRavs : OrderedMap Address U128}
    (hravs : ∀ indexer, tokensFor indexerRavs indexer =
      ravSum snapshot.ravs snapshot.allocations indexer) {receivers : List Address}
    {targets : List U128}
    (hmem : ∀ receiver ∈ receivers, receiver ∈ snapshot.receivers.entries.map Prod.fst)
    (htargets : List.Forall₂ (fun receiver target ↦ ∃ fuel, nextBalance rounding .debug
      (.ofNat 128 (snapshot.debtOf settings receiver)) settings.balanceFillFactor fuel =
        some (.ok target)) receivers targets) :
    ∃ (decisions : List Decision) (fuel : Nat), decisions.map (·.receiver) = receivers ∧
      decisions.map (·.target) = targets ∧
      ∀ fuel', fuel ≤ fuel' → ∀ profile, ∀ decision ∈ decisions, snapshot.Decides rounding profile
        settings fuel' (snapshot.debts indexerRavs) decision := by
  induction htargets with
  | nil => exact ⟨[], 0, rfl, rfl, by simp⟩
  | @cons receiver target receivers targets htarget _ ih =>
    obtain ⟨hhere, hothers⟩ := List.forall_mem_cons.mp hmem
    obtain ⟨fuel, htarget⟩ := htarget
    obtain ⟨decisions, fuel', hreceivers, htargets, hdecides⟩ := ih hothers
    have hfloor : ∀ policy ∈ snapshot.reclaim settings (snapshot.debts indexerRavs),
        floorOf target policy.marginBps < 2 ^ 128 :=
      fun policy hpolicy ↦ floorOf_lt_of_reclaim hmargin (nextBalance_isTarget htarget) hpolicy
    obtain ⟨action, haction, -⟩ := decide_chosen (snapshot.account receiver) hfloor
    refine ⟨⟨receiver, target, action⟩ :: decisions, max fuel fuel', ?_, ?_, ?_⟩
    · rw [List.map_cons, hreceivers]
    · rw [List.map_cons, htargets]
    · intro most hmost profile
      have hlonger := nextBalance_of_le (show fuel ≤ most by omega)
        (nextBalance_of_debug htarget profile)
      have hdecision : snapshot.Decides rounding profile settings most
          (snapshot.debts indexerRavs) ⟨receiver, target, action⟩ :=
        ⟨_, receiverDebt_debtOf hravs hhere profile, hlonger, haction profile⟩
      intro decision hmem
      rcases List.mem_cons.mp hmem with rfl | hmem
      · exact hdecision
      · exact hdecides most (by omega) profile decision hmem

/-- A plan's thaws come out of distinct accounts, its deposits are part of its targets: that the
other sums fit is enough. -/
theorem exists_plan (hmargin : settings.withdrawMarginBps.toNat ≤ 10000)
    (h : snapshot.Fits rounding settings) :
    ∃ fuel plan, ∀ profile,
      (snapshot.planCycle rounding profile settings fuel).run = some (.ok plan) := by
  obtain ⟨indexerRavs, hravs, hvalue⟩ := addRavs_of_fits snapshot .empty
    snapshot.allocations fun indexer ↦ by simpa [tokensFor] using h.ravs indexer
  have hexact : ∀ indexer, tokensFor indexerRavs indexer =
      ravSum snapshot.ravs snapshot.allocations indexer := by
    intro indexer
    simpa [tokensFor] using hvalue indexer
  obtain ⟨targets, htargets, hsum⟩ := h.targets
  obtain ⟨decisions, fuel, hreceivers, rfl, hdecides⟩ :=
    exists_decisions hmargin hexact (fun _ hmem ↦ hmem) htargets
  obtain ⟨balances, hbalances, -⟩ := plainSum_of_fits (ε := Empty) h.balances
  obtain ⟨thawings, hthawings, -⟩ := plainSum_of_fits (ε := Empty) h.thawings
  have hdebts := h.debts
  rw [← sum_debts hexact] at hdebts
  obtain ⟨owed, howed, -⟩ := plainSum_of_fits (ε := Empty) hdebts
  obtain ⟨totalTarget, htotal, -⟩ := plainSum_of_fits (ε := Empty) hsum
  have hchosen : ∀ decision ∈ decisions, Chosen (snapshot.account decision.receiver)
      decision.target (snapshot.reclaim settings (snapshot.debts indexerRavs)) decision.action := by
    intro decision hdecision
    obtain ⟨debt, -, -, hchosen⟩ :=
      (hdecides fuel (Nat.le_refl _) .debug decision hdecision).chosen hmargin
    exact hchosen
  have hdeposits : ∀ decision ∈ decisions, ∀ amount, decision.action = .deposit amount →
      amount.toNat ≤ decision.target.toNat := by
    intro decision hdecision amount haction
    have hdeposit := hchosen decision hdecision
    rw [haction] at hdeposit
    cases hdeposit with
    | deposit hshort hamount => omega
  have hadjustments := sum_adjustments_le hdeposits totalTarget
  obtain ⟨adjustments, hadjustments, -⟩ := plainSum_of_fits (ε := Empty)
    (Nat.lt_of_le_of_lt hadjustments hsum)
  have hnodup : (decisions.map (·.receiver)).Nodup := by
    rw [hreceivers]
    exact snapshot.receivers.keys_nodup
  have hserved : (CyclePlan.of totalTarget decisions).served.Nodup := by
    rw [(served_perm totalTarget decisions).nodup_iff]
    exact hnodup.sublist (List.filter_sublist.map _)
  have htaken : ∀ receiver amount, (receiver, amount) ∈ (CyclePlan.of totalTarget decisions).thaws →
      0 < amount.toNat ∧ amount.toNat ≤ (snapshot.account receiver).balance.toNat := by
    intro receiver amount hmem
    obtain ⟨decision, hdecision, rfl, haction⟩ := mem_thaws.mp hmem
    have hthaw := hchosen decision hdecision
    rw [haction] at hthaw
    cases hthaw with
    | thaw _ _ _ hpos _ hamount => omega
  have hthaws := sum_le_balances (List.nodup_append.mp (List.nodup_append.mp hserved).1).1 htaken
  obtain ⟨thaws, hthaws, -⟩ := plainSum_of_fits (ε := Empty)
    (Nat.lt_of_le_of_lt hthaws h.balances)
  refine ⟨fuel, .of totalTarget decisions, fun profile ↦ planCycle_eq_ok.mpr ⟨decisions, ?_⟩⟩
  exact ⟨⟨balances, hbalances profile⟩, ⟨thawings, hthawings profile⟩,
    ⟨indexerRavs, hravs profile, ⟨owed, howed profile⟩, hdecides fuel (Nat.le_refl _) profile⟩,
    hreceivers, htotal profile, rfl, ⟨adjustments, hadjustments profile⟩,
    ⟨thaws, hthaws profile⟩⟩

end Completes

/-- A cycle is planned without an overflow exactly when these sums fit, and then alike in a debug
and in a release build; the batches add no condition of their own. -/
theorem planCycle_completes_iff (rounding : Rounding) (snapshot : Snapshot) (settings : Settings)
    (hmargin : settings.withdrawMarginBps.toNat ≤ 10000) :
    ((∃ fuel plan, (snapshot.planCycle rounding .debug settings fuel).run = some (.ok plan)) ↔
        snapshot.Fits rounding settings) ∧
      (snapshot.Fits rounding settings → ∃ fuel plan, ∀ profile,
        (snapshot.planCycle rounding profile settings fuel).run = some (.ok plan)) := by
  refine ⟨⟨?_, ?_⟩, exists_plan hmargin⟩
  · intro h
    obtain ⟨fuel, plan, hplan⟩ := h
    exact fits_of_planCycle hplan
  · intro h
    obtain ⟨fuel, plan, hplan⟩ := exists_plan hmargin h
    exact ⟨fuel, plan, hplan .debug⟩

/-- The three receivers' sums are far from overflowing. -/
theorem planCycle_completes_iff_three :
    ((∃ fuel plan,
        (threeReceivers.planCycle .exact .debug quarterMargin fuel).run = some (.ok plan)) ↔
      threeReceivers.Fits .exact quarterMargin) ∧ threeReceivers.Fits .exact quarterMargin := by
  have hcompletes := planCycle_completes_iff .exact threeReceivers quarterMargin (by decide)
  exact ⟨hcompletes.1, hcompletes.1.mp ⟨10, threeBatches, by decide +kernel⟩⟩

end Snapshot

end GraphTally.EscrowManager
