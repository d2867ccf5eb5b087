import GraphTally.EscrowManager.Plan
import GraphTally.Theory.Batch

/-!
# The ledger

The payer's escrow for all receivers, what receivers collect from it, and the batches of a cycle
on it.
-/

open GraphTally.Theory
open GraphTally.Theory.Filling

namespace GraphTally.EscrowManager

/-- An account on the contract. -/
structure Holding where
  balance : Nat
  thawing : Nat
  thawEnd : Nat
  deriving DecidableEq

namespace Holding

variable (holding : Holding)

def net : Nat := holding.balance - holding.thawing

def deposit (tokens : Nat) : Option Holding :=
  if 0 < tokens then some { holding with balance := holding.balance + tokens } else none

def thaw (block : Block) (tokens : Nat) : Option Holding :=
  if 0 < tokens ∧ tokens ≤ holding.balance then some ⟨holding.balance, tokens, block.thawEnd⟩
  else none

def withdraw (block : Block) : Option Holding :=
  if holding.thawEnd ≠ 0 ∧ holding.thawEnd < block.timestamp then some ⟨holding.net, 0, 0⟩
  else none

/-- What is assumed of a collection by the receiver: it takes tokens out of the account, shrinks a
thaw that is pending by no more than it takes, and cancels it together with the last of it. -/
structure Collects (before after : Holding) : Prop where
  balance_le : after.balance ≤ before.balance
  thawing_le : after.thawing ≤ before.thawing
  shrinks_le : before.thawing - after.thawing ≤ before.balance - after.balance
  drained : after.balance = 0 → after.thawing = 0
  cancelled : after.thawing = 0 → after.thawEnd = 0
  running : after.thawing ≠ 0 → after.thawEnd = before.thawEnd

section Calls

variable {holding after : Holding} {block : Block} {tokens : Nat}

theorem deposit_eq_some : holding.deposit tokens = some after ↔
    0 < tokens ∧ after = ⟨holding.balance + tokens, holding.thawing, holding.thawEnd⟩ := by
  unfold deposit
  split
  · rename_i hpos
    rw [Option.some_inj]
    exact ⟨fun h ↦ ⟨hpos, h.symm⟩, fun h ↦ h.2.symm⟩
  · rename_i hzero
    exact iff_of_false (by simp) fun h ↦ hzero h.1

theorem thaw_eq_some : holding.thaw block tokens = some after ↔
    (0 < tokens ∧ tokens ≤ holding.balance) ∧ after = ⟨holding.balance, tokens, block.thawEnd⟩ := by
  unfold thaw
  split
  · rename_i hfits
    rw [Option.some_inj]
    exact ⟨fun h ↦ ⟨hfits, h.symm⟩, fun h ↦ h.2.symm⟩
  · rename_i hover
    exact iff_of_false (by simp) fun h ↦ hover h.1

theorem withdraw_eq_some : holding.withdraw block = some after ↔
    (holding.thawEnd ≠ 0 ∧ holding.thawEnd < block.timestamp) ∧ after = ⟨holding.net, 0, 0⟩ := by
  unfold withdraw
  split
  · rename_i hmatured
    rw [Option.some_inj]
    exact ⟨fun h ↦ ⟨hmatured, h.symm⟩, fun h ↦ h.2.symm⟩
  · rename_i hrunning
    exact iff_of_false (by simp) fun h ↦ hrunning h.1

end Calls

end Holding

abbrev Ledger := Address → Holding

def EscrowAccount.holding (account : EscrowAccount) : Holding :=
  ⟨account.balance.toNat, account.thawing.toNat, account.thawEndTimestamp.toNat⟩

def Escrow.holding (escrow : Escrow) : Holding := ⟨escrow.balance, escrow.thawing, escrow.thawEnd⟩

/-! ## As long as nothing is collected -/

section Escrow

variable (escrow : Escrow) (block : Block) (tokens : Nat)

theorem holding_deposit :
    (escrow.deposit tokens).map Escrow.holding = escrow.holding.deposit tokens := by
  unfold Escrow.deposit Holding.deposit
  split <;> rfl

theorem holding_thaw :
    (escrow.thaw block tokens).map Escrow.holding = escrow.holding.thaw block tokens := by
  unfold Escrow.thaw Holding.thaw
  split
  · rename_i h
    exact (if_pos h).symm
  · rename_i h
    exact (if_neg h).symm

theorem holding_withdraw :
    (escrow.withdraw block).map Escrow.holding = escrow.holding.withdraw block := by
  unfold Escrow.withdraw Holding.withdraw
  split
  · rename_i h
    exact (if_pos h).symm
  · rename_i h
    exact (if_neg h).symm

end Escrow

/-! ## The transactions of a cycle -/

def thawCalls (block : Block) (thaws : List (Address × U128)) : List (KeyCall Address Holding) :=
  thaws.map fun entry ↦ (entry.1, fun holding ↦ holding.thaw block entry.2.toNat)

def depositCalls (deposits : List (Address × U128)) : List (KeyCall Address Holding) :=
  deposits.map fun entry ↦ (entry.1, fun holding ↦ holding.deposit entry.2.toNat)

def withdrawCalls (block : Block) (receivers : List Address) : List (KeyCall Address Holding) :=
  receivers.map fun receiver ↦ (receiver, fun holding ↦ holding.withdraw block)

theorem thawCalls_keys (block : Block) (thaws : List (Address × U128)) :
    (thawCalls block thaws).map Prod.fst = thaws.map Prod.fst := by
  rw [thawCalls, List.map_map]
  rfl

theorem depositCalls_keys (deposits : List (Address × U128)) :
    (depositCalls deposits).map Prod.fst = deposits.map Prod.fst := by
  rw [depositCalls, List.map_map]
  rfl

theorem withdrawCalls_keys (block : Block) (receivers : List Address) :
    (withdrawCalls block receivers).map Prod.fst = receivers := by
  rw [withdrawCalls, List.map_map]
  exact List.map_id receivers

/-- The amounts of a batch lie between what was planned and the grant. -/
theorem depositBatch_mem (plan : Plan) {profile : Profile} {fuel : Nat}
    {deposits : List (Address × U128)}
    (h : depositBatch profile plan.adjustments fuel = some (.ok deposits)) :
    (deposits.map Prod.fst).Perm (plan.adjustments.map Prod.fst) ∧
      ∀ receiver amount desired, (receiver, amount) ∈ deposits →
        (receiver, desired) ∈ plan.adjustments →
        min desired.toNat minDeposit.toNat ≤ amount.toNat ∧
          amount.toNat ≤ max desired.toNat minDeposit.toNat := by
  unfold depositBatch at h
  split at h
  · cases h
  · rename_i total htotal
    split at h
    · obtain rfl := Except.ok.inj (Option.some_inj.mp h)
      refine ⟨List.Perm.refl _, fun receiver amount desired hamount hdesired ↦ ?_⟩
      have hsame := List.inj_on_of_nodup_map plan.nodup hamount hdesired rfl
      obtain rfl : amount = desired := congrArg Prod.snd hsame
      omega
    · rename_i hover
      -- a sum that wrapped is less than the exact one
      have hsum := plainSum_eq_ok htotal
      rw [List.map_map] at hsum
      change total.toNat = totalOf plan.adjustments % 2 ^ 128 at hsum
      have hmax : maxAdjustment.toNat < totalOf plan.adjustments := by
        have hle := Nat.mod_le (totalOf plan.adjustments) (2 ^ 128)
        omega
      obtain ⟨round, served, hstops⟩ := Plan.exists_stopsAt hmax
      obtain rfl := Plan.reduceAdjustments_eq hstops h
      refine ⟨sharesAt_keys_perm, fun receiver amount desired hamount hdesired ↦ ?_⟩
      have hgrant : ∀ round, minDeposit.toNat ≤
          level minDeposit.toNat adjustmentStep.toNat round desired.toNat :=
        fun _ ↦ start_le_level
      have hfull : ∀ round, level minDeposit.toNat adjustmentStep.toNat round desired.toNat ≤
          max minDeposit.toNat desired.toNat := fun _ ↦ level_le
      rcases sharesAt_level hamount hdesired with hlevel | hlevel
      · have hlow := hgrant round
        have hhigh := hfull round
        omega
      · have hlow := hgrant (round + 1)
        have hhigh := hfull (round + 1)
        omega

/-- The accounts a cycle has read are those of the ledger. -/
def Snapshot.Shows (snapshot : Snapshot) (ledger : Ledger) : Prop :=
  ∀ receiver, (snapshot.account receiver).holding = ledger receiver

/-- The plan of a cycle, and the deposits that it sends of it. -/
structure Planned (rounding : Rounding) (profile : Profile) (settings : Settings)
    (snapshot : Snapshot) (plan : CyclePlan) (deposits : List (Address × U128)) : Prop where
  plans : ∃ fuel, (snapshot.planCycle rounding profile settings fuel).run = some (.ok plan)
  deposits : ∃ fuel, depositBatch profile plan.adjustments fuel = some (.ok deposits)
  length_lt : plan.adjustments.length < 2 ^ 64

/-- The three transactions of a cycle. -/
def transactions (plan : CyclePlan) (deposits : List (Address × U128)) (thawBlock withdrawBlock :
    Block) : List (List (KeyCall Address Holding)) :=
  [thawCalls thawBlock plan.thaws, depositCalls deposits,
    withdrawCalls withdrawBlock plan.withdrawals]

/-- What the calls of a cycle were decided on. -/
structure Grounded (settings : Settings) (snapshot : Snapshot) (plan : CyclePlan)
    (deposits : List (Address × U128)) : Prop where
  apart : ∀ thawBlock withdrawBlock, Apart (transactions plan deposits thawBlock withdrawBlock)
  thaws : ∀ receiver amount, (receiver, amount) ∈ plan.thaws →
    (snapshot.account receiver).thawing.toNat = 0 ∧ 0 < amount.toNat ∧
      amount.toNat ≤ (snapshot.account receiver).balance.toNat
  withdrawals : ∀ receiver ∈ plan.withdrawals,
    (snapshot.account receiver).thawing.toNat ≠ 0 ∧
      (snapshot.account receiver).thawEndTimestamp.toNat ≠ 0 ∧ ∃ now ∈ snapshot.chainNow,
        (snapshot.account receiver).thawEndTimestamp.toNat < now.toNat
  deposits : ∀ receiver amount, (receiver, amount) ∈ deposits → 0 < amount.toNat ∧
    ∃ desired, (receiver, desired) ∈ plan.adjustments ∧
      amount.toNat ≤ max desired.toNat minDeposit.toNat

section Planned

variable {rounding : Rounding} {profile : Profile} {settings : Settings} {snapshot : Snapshot}
  {plan : CyclePlan} {deposits : List (Address × U128)}

theorem Planned.adjustments_nodup
    (h : Planned rounding profile settings snapshot plan deposits) :
    (plan.adjustments.map Prod.fst).Nodup := by
  obtain ⟨fuel, hplan⟩ := h.plans
  obtain ⟨decisions, hplans⟩ := Snapshot.planCycle_eq_ok.mp hplan
  exact (List.nodup_append.mp (List.nodup_append.mp hplans.served_nodup).1).2.1

theorem Planned.deposits_mem (h : Planned rounding profile settings snapshot plan deposits) :
    (deposits.map Prod.fst).Perm (plan.adjustments.map Prod.fst) ∧
      ∀ receiver amount desired, (receiver, amount) ∈ deposits →
        (receiver, desired) ∈ plan.adjustments →
        min desired.toNat minDeposit.toNat ≤ amount.toNat ∧
          amount.toNat ≤ max desired.toNat minDeposit.toNat := by
  obtain ⟨fuel, hdeposits⟩ := h.deposits
  exact depositBatch_mem ⟨plan.adjustments, h.adjustments_nodup, h.length_lt⟩ hdeposits

/-- Within the limit of a cycle the planned deposits are made as they are. -/
theorem Planned.deposits_eq (h : Planned rounding profile settings snapshot plan deposits)
    (hlimit : totalOf plan.adjustments ≤ maxAdjustment.toNat) : deposits = plan.adjustments := by
  obtain ⟨fuel, hdeposits⟩ := h.deposits
  have hword := maxAdjustment.isLt
  have hfits : ((plan.adjustments.map Prod.snd).map BitVec.toNat).sum < 2 ^ 128 := by
    rw [List.map_map]
    exact Nat.lt_of_le_of_lt hlimit hword
  obtain ⟨total, htotal, hvalue⟩ := plainSum_of_fits (ε := Empty) hfits
  rw [List.map_map] at hvalue
  change total.toNat = totalOf plan.adjustments at hvalue
  rw [depositBatch, htotal profile] at hdeposits
  change (if total.toNat ≤ maxAdjustment.toNat then _ else _) = _ at hdeposits
  rw [if_pos (by omega)] at hdeposits
  exact (Except.ok.inj (Option.some_inj.mp hdeposits)).symm

theorem Planned.grounded (h : Planned rounding profile settings snapshot plan deposits)
    (hmargin : settings.withdrawMarginBps.toNat ≤ 10000) :
    Grounded settings snapshot plan deposits := by
  obtain ⟨hkeys, hamounts⟩ := h.deposits_mem
  obtain ⟨fuel, hplan⟩ := h.plans
  obtain ⟨decisions, hplans⟩ := Snapshot.planCycle_eq_ok.mp hplan
  obtain ⟨indexerRavs, hravs, -, hdecides⟩ := hplans.decided
  have hbatches := hplans.batches
  refine ⟨?apart, ?thaws, ?withdrawals, ?deposits⟩
  case apart =>
    intro thawBlock withdrawBlock
    have hserved := hplans.served_nodup
    unfold CyclePlan.served at hserved
    unfold Apart transactions
    rw [List.flatten_cons, List.flatten_cons, List.flatten_cons, List.flatten_nil,
      List.append_nil, List.map_append, List.map_append, thawCalls_keys, depositCalls_keys,
      withdrawCalls_keys, ← List.append_assoc]
    exact ((((List.Perm.refl _).append hkeys).append_right _).nodup_iff).mpr hserved
  case thaws =>
    intro receiver amount hmem
    rw [hbatches] at hmem
    obtain ⟨decision, hdecision, rfl, haction⟩ := mem_thaws.mp hmem
    obtain ⟨debt, -, -, hchosen⟩ := (hdecides decision hdecision).chosen hmargin
    rw [haction] at hchosen
    cases hchosen with
    | thaw _ hidle _ hpos _ hamount => exact ⟨hidle, hpos, by omega⟩
  case withdrawals =>
    intro receiver hmem
    rw [hbatches] at hmem
    obtain ⟨decision, hdecision, rfl, haction⟩ := mem_withdrawals.mp hmem
    obtain ⟨debt, -, -, hchosen⟩ := (hdecides decision hdecision).chosen hmargin
    rw [haction] at hchosen
    cases hchosen with
    | @withdraw policy now hpolicy hnow hthawing hend hlt =>
      obtain ⟨-, -, rfl⟩ := Snapshot.reclaim_eq_some hravs hpolicy
      exact ⟨hthawing, hend, now, hnow, hlt⟩
  case deposits =>
    intro receiver amount hmem
    have hplanned := hkeys.subset (List.mem_map_of_mem hmem)
    obtain ⟨⟨receiver', desired⟩, hdesired, hsame⟩ := List.mem_map.mp hplanned
    obtain rfl : receiver' = receiver := hsame
    obtain ⟨hlow, hhigh⟩ := hamounts _ amount desired hmem hdesired
    have hgrant : 0 < minDeposit.toNat := by decide
    -- only shortfalls are deposits
    have hpos : 0 < desired.toNat := by
      rw [hbatches] at hdesired
      obtain ⟨decision, hdecision, -, haction⟩ := mem_adjustments.mp hdesired
      obtain ⟨debt, -, -, hchosen⟩ := (hdecides decision hdecision).chosen hmargin
      rw [haction] at hchosen
      cases hchosen with
      | deposit hshort hamount => omega
    exact ⟨by omega, desired, hdesired, hhigh⟩

-- On the accounts the cycle has read every call goes through.
theorem Grounded.calls_isSome {ledger : Ledger} {thawBlock withdrawBlock : Block}
    (h : Grounded settings snapshot plan deposits) (hshows : snapshot.Shows ledger)
    (hnow : ∀ now ∈ snapshot.chainNow, now.toNat ≤ withdrawBlock.timestamp)
    {calls : List (KeyCall Address Holding)}
    (hcalls : calls ∈ transactions plan deposits thawBlock withdrawBlock)
    {call : KeyCall Address Holding} (hcall : call ∈ calls) : (call.2 (ledger call.1)).isSome := by
  simp only [transactions, List.mem_cons, List.not_mem_nil, or_false] at hcalls
  rcases hcalls with rfl | rfl | rfl
  · obtain ⟨⟨receiver, amount⟩, hentry, rfl⟩ := List.mem_map.mp hcall
    obtain ⟨-, hpos, hle⟩ := h.thaws receiver amount hentry
    show ((ledger receiver).thaw thawBlock amount.toNat).isSome
    rw [← hshows receiver, Holding.thaw, if_pos ⟨hpos, hle⟩]
    rfl
  · obtain ⟨⟨receiver, amount⟩, hentry, rfl⟩ := List.mem_map.mp hcall
    have hpos := (h.deposits receiver amount hentry).1
    show ((ledger receiver).deposit amount.toNat).isSome
    rw [Holding.deposit, if_pos hpos]
    rfl
  · obtain ⟨receiver, hentry, rfl⟩ := List.mem_map.mp hcall
    obtain ⟨-, hend, now, hchain, hlt⟩ := h.withdrawals receiver hentry
    show ((ledger receiver).withdraw withdrawBlock).isSome
    rw [← hshows receiver, Holding.withdraw,
      if_pos ⟨hend, Nat.lt_of_lt_of_le hlt (hnow now hchain)⟩]
    rfl

/-- Each transaction lands, and does to its receivers what its calls do to what was read. -/
theorem Grounded.lands {ledger : Ledger} {thawBlock withdrawBlock : Block}
    (h : Grounded settings snapshot plan deposits) (hshows : snapshot.Shows ledger)
    (hnow : ∀ now ∈ snapshot.chainNow, now.toNat ≤ withdrawBlock.timestamp)
    {sent : List (List (KeyCall Address Holding))}
    (hsent : sent.Subperm (transactions plan deposits thawBlock withdrawBlock))
    {calls : List (KeyCall Address Holding)} (hcalls : calls ∈ sent) :
    (batch calls ledger).isSome ∧
      ∀ call ∈ calls, call.2 (ledger call.1) = some (attempts ledger sent call.1) := by
  have hapart := Apart.of_subperm (h.apart thawBlock withdrawBlock) hsent
  have hnodup := hapart.nodup hcalls
  have hbatch := (batch_isSome_iff hnodup).mpr fun call hcall ↦
    h.calls_isSome hshows hnow (hsent.subset hcalls) hcall
  refine ⟨hbatch, fun call hcall ↦ ?_⟩
  obtain ⟨after, hafter⟩ := Option.isSome_iff_exists.mp hbatch
  rw [(attempts_eq hapart ledger).1 calls hcalls call.1 (List.mem_map_of_mem hcall), attempt,
    hafter]
  exact ((batch_eq_some hnodup).mp hafter).1 call hcall

end Planned

/-! ## The transactions do not depend on each other -/

/-- Whichever of the three transactions land, and in whatever order, all calls of those that do
go through, each receiver gets what its own call does to the account the cycle has read, and
nobody else's account changes. -/
theorem transactions_independent (rounding : Rounding) (profile : Profile) (settings : Settings)
    (hmargin : settings.withdrawMarginBps.toNat ≤ 10000) (snapshot : Snapshot) (plan : CyclePlan)
    (deposits : List (Address × U128))
    (h : Planned rounding profile settings snapshot plan deposits) (ledger : Ledger)
    (hshows : snapshot.Shows ledger) (thawBlock withdrawBlock : Block)
    (hnow : ∀ now ∈ snapshot.chainNow, now.toNat ≤ withdrawBlock.timestamp)
    (sent : List (List (KeyCall Address Holding)))
    (hsent : sent.Subperm (transactions plan deposits thawBlock withdrawBlock)) :
    (∀ calls ∈ sent, (batch calls ledger).isSome ∧
        ∀ call ∈ calls, call.2 (ledger call.1) = some (attempts ledger sent call.1)) ∧
      (∀ receiver, (∀ calls ∈ sent, receiver ∉ calls.map Prod.fst) →
        attempts ledger sent receiver = ledger receiver) ∧
      ∀ sent', sent.Perm sent' → attempts ledger sent' = attempts ledger sent := by
  have hgrounded := h.grounded hmargin
  have hapart := Apart.of_subperm (hgrounded.apart thawBlock withdrawBlock) hsent
  refine ⟨?_, (attempts_eq hapart ledger).2, ?_⟩
  · intro calls hcalls
    exact hgrounded.lands hshows hnow hsent hcalls
  · intro sent' hperm
    exact (attempts_perm hapart hperm).symm

/-! ## The transactions of three receivers -/

def soon : Block := ⟨1_000, 2_500, by decide⟩

def threeLedger : Ledger := fun receiver ↦ (threeReceivers.account receiver).holding

def threeTransactions : List (List (KeyCall Address Holding)) :=
  transactions threeBatches threeBatches.adjustments soon soon

theorem threeBatches_planned : Planned .exact .debug quarterMargin threeReceivers threeBatches
    threeBatches.adjustments where
  plans := ⟨10, by decide +kernel⟩
  deposits := ⟨0, by decide⟩
  length_lt := by decide

theorem transactions_independent_three :
    (∀ calls ∈ threeTransactions.reverse, (batch calls threeLedger).isSome) ∧
      attempts threeLedger threeTransactions = attempts threeLedger threeTransactions.reverse := by
  have hnow : ∀ now ∈ threeReceivers.chainNow, now.toNat ≤ soon.timestamp := by
    intro now hnow
    obtain rfl := Option.some_inj.mp hnow
    decide
  have hsent := transactions_independent .exact .debug quarterMargin (by decide) threeReceivers
    threeBatches threeBatches.adjustments threeBatches_planned threeLedger (fun _ ↦ rfl) soon soon
    hnow threeTransactions.reverse (List.reverse_perm _).subperm
  exact ⟨fun calls hcalls ↦ (hsent.1 calls hcalls).1, hsent.2.2 _ (List.reverse_perm _)⟩

end GraphTally.EscrowManager
