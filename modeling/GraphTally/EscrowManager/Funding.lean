import GraphTally.EscrowManager.Landing
import GraphTally.EscrowManager.PlanSums

/-!
# How much is in the escrow

An upper bound that holds in every interleaving, and what cycles that nothing disturbs reach.
-/

open GraphTally.Theory

namespace GraphTally.EscrowManager

/-! ## Never too much -/

/-- A deposit fills up to the target: no target is above the ceiling. -/
def TargetsWithin (ceiling : Address → Nat) (snapshot : Snapshot) (plan : CyclePlan) : Prop :=
  ∀ receiver desired, (receiver, desired) ∈ plan.adjustments →
    (snapshot.account receiver).net + desired.toNat ≤ ceiling receiver

/-- It brings no receiver above its bound. -/
def Transaction.Within (bound : Address → Nat) (ledger : Ledger) : Transaction → Prop
  | .thaw thaws => ∀ receiver amount, (receiver, amount) ∈ thaws →
      (ledger receiver).balance ≤ bound receiver
  | .deposit deposits => ∀ receiver amount, (receiver, amount) ∈ deposits →
      (ledger receiver).net + amount.toNat ≤ bound receiver
  | .withdraw _ => True

/-- The bound, and what the transactions that were executed late have raised it by. -/
def lateBound (bound : Address → Nat) (late : List (Transaction × Ledger)) (receiver : Address) :
    Nat :=
  bound receiver + raised late receiver

/-- No balance is above its bound, and nothing that is on its way or is still decided on what may
be read can bring one there. -/
structure Bounded (bound : Address → Nat) (world : World) : Prop where
  net_le : ∀ receiver, (world.ledger receiver).net ≤ lateBound bound world.late receiver
  idle_le : ∀ seen, world.chain.Visible seen → ∀ receiver, (seen.ledger receiver).thawing = 0 →
    (world.ledger receiver).balance ≤ lateBound bound world.late receiver
  within : ∀ transaction ∈ world.pending,
    transaction.Within (lateBound bound world.late) world.ledger

theorem net_of_idle {holding : Holding} (h : holding.thawing = 0) :
    holding.net = holding.balance := by
  rw [Holding.net, h, Nat.sub_zero]

section Bounded

variable {rounding : Rounding} {profile : Profile} {settings : Settings}
  {ceiling bound : Address → Nat} {world world' : World}

theorem Transaction.Within.mono {bound' : Address → Nat} {ledger ledger' : Ledger}
    {transaction : Transaction} (h : transaction.Within bound ledger)
    (hbalance : ∀ receiver ∈ transaction.receivers,
      (ledger' receiver).balance + bound receiver ≤ (ledger receiver).balance + bound' receiver)
    (hnet : ∀ receiver ∈ transaction.receivers,
      (ledger' receiver).net + bound receiver ≤ (ledger receiver).net + bound' receiver) :
    transaction.Within bound' ledger' := by
  cases transaction with
  | thaw thaws =>
    intro receiver amount hmem
    have hle := h receiver amount hmem
    have hraised := hbalance receiver (List.mem_map_of_mem hmem)
    omega
  | deposit deposits =>
    intro receiver amount hmem
    have hle := h receiver amount hmem
    have hraised := hnet receiver (List.mem_map_of_mem hmem)
    omega
  | withdraw receivers => exact h

theorem Transaction.Within.net_le {ledger : Ledger} {transaction : Transaction}
    (h : transaction.Within bound ledger) {block : Block} {receiver : Address}
    (hnet : (ledger receiver).net ≤ bound receiver) {after : Holding}
    (haffects : Affects block receiver (ledger receiver) transaction after) :
    after.net ≤ bound receiver := by
  cases haffects with
  | other _ => exact hnet
  | @thaw thaws amount hmem => exact (Nat.sub_le _ _).trans (h receiver amount hmem)
  | @deposit deposits amount hmem =>
    have hle := h receiver amount hmem
    unfold Holding.net at hle ⊢
    dsimp only
    omega
  | withdraw _ => exact hnet

/-- Whatever is written that the manager does not wait for. -/
theorem Bounded.extend (h : Bounded bound world) {late : List (Transaction × Ledger)}
    {version : Version} (hdrift : Drift late world.chain.head version) (lost : List Transaction) :
    Bounded bound ⟨world.chain.extend version, world.pending, lost, late ++ world.late⟩ := by
  have hlimit : ∀ receiver, lateBound bound (late ++ world.late) receiver =
      lateBound bound world.late receiver + raised late receiver := by
    intro receiver
    have happend := raised_append world.late late receiver
    unfold lateBound
    omega
  have hnet : ∀ receiver, (version.ledger receiver).net ≤
      lateBound bound (late ++ world.late) receiver := by
    intro receiver
    have hbefore := h.net_le receiver
    have hraised := hdrift.net_le receiver
    rw [hlimit]
    exact hraised.trans (Nat.add_le_add_right hbefore _)
  refine ⟨hnet, ?_, ?_⟩
  · intro seen hvisible receiver hidle
    rcases Chain.visible_extend hvisible with hold | rfl
    · have hbefore := h.idle_le seen hold receiver hidle
      have hraised := hdrift.balance_le receiver
      show (version.ledger receiver).balance ≤ lateBound bound (late ++ world.late) receiver
      rw [hlimit]
      exact hraised.trans (Nat.add_le_add_right hbefore _)
    · exact net_of_idle hidle ▸ hnet receiver
  · intro transaction hmem
    apply (h.within transaction hmem).mono
    · intro receiver _
      have hraised := hdrift.balance_le receiver
      show (version.ledger receiver).balance + _ ≤ (world.chain.head.ledger receiver).balance + _
      rw [hlimit]
      omega
    · intro receiver _
      have hraised := hdrift.net_le receiver
      show (version.ledger receiver).net + _ ≤ (world.chain.head.ledger receiver).net + _
      rw [hlimit]
      omega

/-- Whatever the manager has waited for. -/
theorem Bounded.land (h : Bounded bound world) (hsound : Sound world) {transaction : Transaction}
    {pending : List Transaction} (hpending : world.pending = transaction :: pending)
    {version : Version}
    (hnet : ∀ receiver, (version.ledger receiver).net ≤ lateBound bound world.late receiver)
    (hkept : ∀ receiver, receiver ∉ transaction.receivers →
      version.ledger receiver = world.ledger receiver) :
    Bounded bound { world with chain := world.chain.land version, pending } := by
  refine ⟨hnet, ?_, ?_⟩
  · intro seen hvisible receiver hidle
    obtain rfl := Chain.visible_land hvisible
    exact net_of_idle hidle ▸ hnet receiver
  · intro later hmem
    -- what is still to come is on other receivers
    have hsame : ∀ receiver ∈ later.receivers, version.ledger receiver = world.ledger receiver := by
      intro receiver hreceiver
      have hapart := hsound.apart
      rw [hpending, List.flatMap_cons, List.nodup_append'] at hapart
      exact hkept receiver fun hin ↦
        hapart.2.2 hin (List.mem_flatMap.mpr ⟨later, hmem, hreceiver⟩)
    have hwithin := h.within later (hpending ▸ List.mem_cons_of_mem _ hmem)
    apply hwithin.mono
    · intro receiver hreceiver
      show (version.ledger receiver).balance + _ ≤ _
      rw [hsame receiver hreceiver]
    · intro receiver hreceiver
      show (version.ledger receiver).net + _ ≤ _
      rw [hsame receiver hreceiver]

theorem Bounded.drop (h : Bounded bound world) {transaction : Transaction}
    {pending : List Transaction} (hpending : world.pending = transaction :: pending)
    (lost : List Transaction) : Bounded bound { world with pending, lost } where
  net_le := h.net_le
  idle_le := h.idle_le
  within later hmem := h.within later (hpending ▸ List.mem_cons_of_mem _ hmem)

theorem Planned.deposit_le {snapshot : Snapshot} {plan : CyclePlan}
    {deposits : List (Address × U128)}
    (h : Planned rounding profile settings snapshot plan deposits)
    (hmargin : settings.withdrawMarginBps.toNat ≤ 10000)
    (hwithin : TargetsWithin ceiling snapshot plan) {receiver : Address} {amount : U128}
    (hmem : (receiver, amount) ∈ deposits) :
    (snapshot.account receiver).net + amount.toNat ≤ ceiling receiver + minDeposit.toNat := by
  obtain ⟨-, desired, hdesired, hle⟩ := (h.grounded hmargin).deposits receiver amount hmem
  have hceiling := hwithin receiver desired hdesired
  omega

/-- What is planned on anything that may be read. -/
theorem Bounded.planned (h : Bounded bound world) (hsound : Sound world)
    (hmargin : settings.withdrawMarginBps.toNat ≤ 10000)
    (hbound : ∀ receiver, ceiling receiver + minDeposit.toNat ≤ bound receiver) {seen : Version}
    (hvisible : world.chain.Visible seen) {snapshot : Snapshot}
    (hshows : snapshot.Shows seen.ledger) {plan : CyclePlan} {deposits : List (Address × U128)}
    (hplanned : Planned rounding profile settings snapshot plan deposits)
    (hwithin : TargetsWithin ceiling snapshot plan) {transaction : Transaction}
    (hmem : transaction ∈ [.thaw plan.thaws, .deposit deposits, .withdraw plan.withdrawals]) :
    transaction.Within (lateBound bound world.late) world.ledger := by
  simp only [List.mem_cons, List.not_mem_nil, or_false] at hmem
  rcases hmem with rfl | rfl | rfl
  · intro receiver amount hmem
    obtain ⟨hidle, -⟩ := (hplanned.grounded hmargin).thaws receiver amount hmem
    apply h.idle_le seen hvisible receiver
    rw [← hshows receiver]
    exact hidle
  · intro receiver amount hmem
    have hle := hplanned.deposit_le hmargin hwithin hmem
    have hdrift : (world.ledger receiver).net ≤
        (seen.ledger receiver).net + raised world.late receiver :=
      (hsound.steady seen hvisible).net_le receiver
    have hseen : (seen.ledger receiver).net = (snapshot.account receiver).net := by
      rw [← hshows receiver]
      rfl
    have hceiling := hbound receiver
    unfold lateBound
    omega
  · trivial

/-- A move that keeps the one invariant keeps the other. -/
theorem Bounded.move (h : Bounded bound world) (hsound : Sound world)
    (hmargin : settings.withdrawMarginBps.toNat ≤ 10000)
    (hbound : ∀ receiver, ceiling receiver + minDeposit.toNat ≤ bound receiver)
    (hmove : Move rounding profile settings (TargetsWithin ceiling) world world') :
    Bounded bound world' := by
  cases hmove with
  | elsewhere helsewhere => exact h.extend helsewhere.drift world.lost
  | plan hidle hvisible hshows hnow hplanned hwithin =>
    refine ⟨h.net_le, h.idle_le, fun transaction hmem ↦ ?_⟩
    exact h.planned hsound hmargin hbound hvisible hshows hplanned hwithin hmem
  | @land transaction pending conditions block ledger hpending htime hexecute =>
    have hmem : transaction ∈ world.pending := hpending ▸ List.mem_cons_self
    have haffects := Transaction.execute_affects (hsound.nodup hmem) hexecute
    apply h.land hsound hpending
    · exact fun receiver ↦ (h.within _ hmem).net_le (h.net_le receiver) (haffects receiver)
    · exact fun receiver hother ↦ (haffects receiver).eq_of_not_mem hother
  | revert hpending htime => exact h.land hsound hpending h.net_le fun _ _ ↦ rfl
  | skip hpending => exact h.drop hpending world.lost
  | giveUp hpending => exact h.drop hpending _
  | @landLate before after transaction conditions block ledger hsplit htime hexecute =>
    have hnodup : transaction.receivers.Nodup := hsound.lost transaction (by simp [hsplit])
    exact h.extend (Transaction.drift hnodup htime hexecute) _

theorem bounded_start {chain : Chain Version} (hsteady : chain.Steady Elsewhere)
    (hbound : ∀ receiver, (chain.head.ledger receiver).net ≤ bound receiver) :
    Bounded bound (.start chain) where
  net_le := hbound
  idle_le seen hvisible receiver hidle := by
    -- nobody has thawed since
    have hle := (lowered_of_collected ((hsteady seen hvisible).collected receiver)).unstarted
    have hstill : (chain.head.ledger receiver).thawing = 0 :=
      Nat.le_zero.mp (hidle ▸ hle.thawing_le)
    exact net_of_idle hstill ▸ hbound receiver
  within _ hmem := absurd hmem List.not_mem_nil

end Bounded

/-- However late the accounts are read and the transactions are executed, no receiver ever counts
on more than it did at the start, or than its highest target and the smallest deposit, but for what
transactions that were given up on have added when they were executed after all. -/
theorem never_overfunded (rounding : Rounding) (profile : Profile) (settings : Settings)
    (hmargin : settings.withdrawMarginBps.toNat ≤ 10000) (ceiling : Address → Nat)
    (chain : Chain Version) (hsteady : chain.Steady Elsewhere) (world : World)
    (hrun : Relation.ReflTransGen (Move rounding profile settings (TargetsWithin ceiling))
      (.start chain) world) (receiver : Address) :
    (world.ledger receiver).net ≤
      max (chain.head.ledger receiver).net (ceiling receiver + minDeposit.toNat) +
        raised world.late receiver := by
  have hstart : Bounded (fun receiver ↦ max (chain.head.ledger receiver).net
      (ceiling receiver + minDeposit.toNat)) (.start chain) :=
    bounded_start hsteady fun _ ↦ Nat.le_max_left _ _
  have hall : Sound world ∧ Bounded (fun receiver ↦ max (chain.head.ledger receiver).net
      (ceiling receiver + minDeposit.toNat)) world := by
    induction hrun with
    | refl => exact ⟨sound_start hsteady, hstart⟩
    | tail _ hmove ih =>
      exact ⟨ih.1.move hmargin hmove,
        ih.2.move ih.1 hmargin (fun receiver ↦ Nat.le_max_right _ _) hmove⟩
  exact hall.2.net_le receiver

/-- The three receivers after one deposit, and after the same one again. -/
def threeFunded : Ledger := attempt threeLedger (depositCalls threeBatches.adjustments)

def threeFundedTwice : Ledger := attempt threeFunded (depositCalls threeBatches.adjustments)

/-- The first cycle has given up on its deposit, the second one has made it again, and then the
first was executed after all. -/
def threeFundedLate : World where
  chain := (threeChain.land ⟨threeFunded, soon.timestamp⟩).extend
    ⟨threeFundedTwice, soon.timestamp⟩
  pending := [.withdraw threeBatches.withdrawals]
  lost := []
  late := [(.deposit threeBatches.adjustments, threeFunded)]

theorem threeFundedLate_run : Relation.ReflTransGen
    (Move .exact .debug quarterMargin (TargetsWithin fun _ ↦ 64 * 10 ^ 18)) (.start threeChain)
    threeFundedLate := by
  have hwithin : TargetsWithin (fun _ ↦ 64 * 10 ^ 18) threeReceivers threeBatches := by
    intro receiver desired hmem
    obtain ⟨rfl, rfl⟩ := Prod.mk.inj (List.mem_singleton.mp hmem)
    decide
  have hvisible : threeChain.Visible threeChain.head := ⟨0, Nat.le_refl _, rfl⟩
  have hdeposit : (Transaction.deposit threeBatches.adjustments).execute
      ⟨false, 64 * 10 ^ 18, 64 * 10 ^ 18⟩ soon threeLedger = some threeFunded := rfl
  have hagain : (Transaction.deposit threeBatches.adjustments).execute
      ⟨false, 64 * 10 ^ 18, 64 * 10 ^ 18⟩ soon threeFunded = some threeFundedTwice := rfl
  have hfirst := Relation.ReflTransGen.single
    (threeChain_plan _ (.start threeChain) hwithin rfl hvisible (Nat.le_refl _))
  have hgiven := ((hfirst.tail (.skip rfl)).tail (.giveUp rfl)).tail (.skip rfl)
  have hsecond := hgiven.tail (threeChain_plan _ _ hwithin rfl hvisible (Nat.le_refl _))
  have hmade := (hsecond.tail (.skip rfl)).tail (.land rfl (by decide) hdeposit)
  exact hmade.tail (@Move.landLate _ _ _ _ _ [] [] _ _ _ _ rfl (by decide) hagain)

/-- A hundred and twenty-eight GRT are more than the target explains, and no more than the deposit
that was made twice does. -/
theorem never_overfunded_three :
    64 * 10 ^ 18 + minDeposit.toNat < (threeFundedTwice (.repeatByte 20 0x11)).net ∧
      (threeFundedTwice (.repeatByte 20 0x11)).net ≤
        max (threeLedger (.repeatByte 20 0x11)).net (64 * 10 ^ 18 + minDeposit.toNat) +
          64 * 10 ^ 18 :=
  ⟨by decide, never_overfunded .exact .debug quarterMargin (by decide) (fun _ ↦ 64 * 10 ^ 18)
    threeChain threeChain_steady threeFundedLate threeFundedLate_run (.repeatByte 20 0x11)⟩

/-! ## Cycles that nothing disturbs -/

/-- The debt the loop finds for a receiver. -/
def Snapshot.debtFor (snapshot : Snapshot) (profile : Profile) (settings : Settings)
    (receiver : Address) : Outcome Empty U128 := do
  let indexerRavs ← snapshot.indexerRavs profile
  receiverDebt profile (((snapshot.debts indexerRavs).lookup receiver).getD 0)
    ((settings.debts.lookup receiver).getD 0)

/-- The cycle reads the ledger as it is, and its transactions land on it. -/
structure Undisturbed (rounding : Rounding) (profile : Profile) (settings : Settings)
    (snapshot : Snapshot) (plan : CyclePlan) (before after : Ledger) : Prop where
  shows : snapshot.Shows before
  lands : ∃ deposits, Planned rounding profile settings snapshot plan deposits ∧
    ∃ thawBlock withdrawBlock : Block,
      (∀ now ∈ snapshot.chainNow, now.toNat ≤ withdrawBlock.timestamp) ∧
        after = attempts before (transactions plan deposits thawBlock withdrawBlock)

/-- What a cycle does for a receiver; its deposits may be cut down. -/
inductive Served (cut : Prop) (target : Nat) (before after : Holding) : Prop
  | covered : target ≤ after.net → Served cut target before after
  | withdrawn : before.thawing ≠ 0 → after.thawing = 0 → after.net = before.net →
      Served cut target before after
  | raised {amount : Nat} : before.net < target →
      min (target - before.net) minDeposit.toNat ≤ amount →
      (¬cut → amount = target - before.net) →
      after = { before with balance := before.balance + amount } → Served cut target before after

section Served

variable {rounding : Rounding} {profile : Profile} {settings : Settings} {snapshot : Snapshot}
  {plan : CyclePlan} {before after : Ledger} {receiver : Address}

-- The one action of a receiver, and its debt and target.
theorem Planned.exists_decision {deposits : List (Address × U128)}
    (h : Planned rounding profile settings snapshot plan deposits)
    (hmargin : settings.withdrawMarginBps.toNat ≤ 10000)
    (hmem : (∃ allocation ∈ snapshot.allocations, allocation.indexer = receiver) ∨
      receiver ∈ snapshot.escrowAccounts) {debt : U128}
    (hdebt : snapshot.debtFor profile settings receiver = .ok debt) :
    ∃ (target : U128) (action : Action) (reclaim : Option Reclaim) (fuel : Nat),
      nextBalance rounding profile debt settings.balanceFillFactor fuel = some (.ok target) ∧
      Chosen (snapshot.account receiver) target reclaim action ∧
      (∀ amount, (receiver, amount) ∈ plan.adjustments ↔ action = .deposit amount) ∧
      (∀ amount, (receiver, amount) ∈ plan.thaws ↔ action = .thaw amount) ∧
      (receiver ∈ plan.withdrawals ↔ action = .withdraw) := by
  obtain ⟨fuel, hplan⟩ := h.plans
  obtain ⟨decisions, hplans⟩ := Snapshot.planCycle_eq_ok.mp hplan
  obtain ⟨indexerRavs, hravs, -, hdecides⟩ := hplans.decided
  have hkey := Snapshot.mem_receivers.mpr hmem
  rw [← hplans.receivers] at hkey
  obtain ⟨decision, hdecision, rfl⟩ := List.mem_map.mp hkey
  obtain ⟨debt', hdebt', htarget, -⟩ := hdecides decision hdecision
  obtain ⟨-, -, -, hchosen⟩ := (hdecides decision hdecision).chosen hmargin
  obtain ⟨table, htable, hsame⟩ := except_bind_eq_ok.mp hdebt
  obtain rfl : indexerRavs = table := Except.ok.inj (hravs.symm.trans htable)
  obtain rfl : debt' = debt := Except.ok.inj (hdebt'.symm.trans hsame)
  have hbatches := hplans.mem_batches decision.receiver
  rw [actionFor_of_mem hplans.nodup hdecision] at hbatches
  exact ⟨decision.target, decision.action, _, fuel, htarget, hchosen, hbatches⟩

-- Whom no batch of the plan names, no transaction calls for.
theorem untouched {deposits : List (Address × U128)}
    (hkeys : (deposits.map Prod.fst).Perm (plan.adjustments.map Prod.fst))
    (hthaws : ∀ amount, (receiver, amount) ∉ plan.thaws)
    (hadjustments : ∀ amount, (receiver, amount) ∉ plan.adjustments)
    (hwithdrawals : receiver ∉ plan.withdrawals) (thawBlock withdrawBlock : Block) :
    ∀ calls ∈ transactions plan deposits thawBlock withdrawBlock,
      receiver ∉ calls.map Prod.fst := by
  intro calls hcalls hin
  simp only [transactions, List.mem_cons, List.not_mem_nil, or_false] at hcalls
  rcases hcalls with rfl | rfl | rfl
  · rw [thawCalls_keys] at hin
    obtain ⟨⟨_, amount⟩, hentry, rfl⟩ := List.mem_map.mp hin
    exact hthaws amount hentry
  · rw [depositCalls_keys] at hin
    obtain ⟨⟨_, amount⟩, hentry, rfl⟩ := List.mem_map.mp (hkeys.subset hin)
    exact hadjustments amount hentry
  · rw [withdrawCalls_keys] at hin
    exact hwithdrawals hin

/-- What is planned for a receiver is what happens to it. -/
theorem Undisturbed.served (h : Undisturbed rounding profile settings snapshot plan before after)
    (hmargin : settings.withdrawMarginBps.toNat ≤ 10000)
    (hmem : (∃ allocation ∈ snapshot.allocations, allocation.indexer = receiver) ∨
      receiver ∈ snapshot.escrowAccounts) {debt : U128}
    (hdebt : snapshot.debtFor profile settings receiver = .ok debt) :
    ∃ (target : U128) (fuel : Nat),
      nextBalance rounding profile debt settings.balanceFillFactor fuel = some (.ok target) ∧
      Served (maxAdjustment.toNat < totalOf plan.adjustments) target.toNat (before receiver)
        (after receiver) := by
  obtain ⟨deposits, hplanned, thawBlock, withdrawBlock, hnow, rfl⟩ := h.lands
  obtain ⟨target, action, reclaim, fuel, htarget, hchosen, hadjustments, hthaws, hwithdrawals⟩ :=
    hplanned.exists_decision hmargin hmem hdebt
  have hgrounded := hplanned.grounded hmargin
  have hapart := hgrounded.apart thawBlock withdrawBlock
  obtain ⟨hkeys, hamounts⟩ := hplanned.deposits_mem
  have hnet : (before receiver).net = (snapshot.account receiver).net := by
    rw [← h.shows receiver]
    rfl
  have hthawing : (before receiver).thawing = (snapshot.account receiver).thawing.toNat := by
    rw [← h.shows receiver]
    rfl
  have hlands : ∀ calls ∈ transactions plan deposits thawBlock withdrawBlock, ∀ call ∈ calls,
      call.2 (before call.1) =
        some (attempts before (transactions plan deposits thawBlock withdrawBlock) call.1) :=
    fun calls hcalls ↦ (hgrounded.lands h.shows hnow (List.Subperm.refl _) hcalls).2
  refine ⟨target, fuel, htarget, ?_⟩
  cases hchosen with
  | nothing hcovered =>
    have hnone := untouched hkeys (fun amount hentry ↦ nomatch (hthaws amount).mp hentry)
      (fun amount hentry ↦ nomatch (hadjustments amount).mp hentry)
      (fun hentry ↦ nomatch hwithdrawals.mp hentry)
    have hkept := (attempts_eq hapart before).2 receiver (hnone thawBlock withdrawBlock)
    apply Served.covered
    rw [hkept]
    omega
  | @withdraw policy now _ _ hrunning _ _ =>
    have hcall := hlands _ (List.mem_cons_of_mem _ (List.mem_cons_of_mem _ List.mem_cons_self)) _
      (List.mem_map_of_mem (hwithdrawals.mpr rfl))
    obtain ⟨-, hafter⟩ := Holding.withdraw_eq_some.mp hcall
    rw [show attempts before _ receiver = _ from hafter]
    exact .withdrawn (by omega) rfl rfl
  | @deposit desired hshort hdesired =>
    have hentry := (hadjustments desired).mpr rfl
    have hin := hkeys.symm.subset (List.mem_map_of_mem hentry)
    obtain ⟨⟨served, amount⟩, hamount, hsame⟩ := List.mem_map.mp hin
    obtain rfl : served = receiver := hsame
    have hlow := (hamounts served amount desired hamount hentry).1
    have hcall := hlands _ (List.mem_cons_of_mem _ List.mem_cons_self) _
      (List.mem_map_of_mem hamount)
    obtain ⟨-, hafter⟩ := Holding.deposit_eq_some.mp hcall
    have hraise : min (target.toNat - (before served).net) minDeposit.toNat ≤ amount.toNat := by
      omega
    have hexact : ¬maxAdjustment.toNat < totalOf plan.adjustments →
        amount.toNat = target.toNat - (before served).net := by
      intro huncut
      obtain rfl := hplanned.deposits_eq (not_lt.mp huncut)
      have hentries := List.inj_on_of_nodup_map hplanned.adjustments_nodup hamount hentry rfl
      obtain rfl : amount = desired := congrArg Prod.snd hentries
      omega
    exact .raised (by omega) hraise hexact hafter
  | @thaw policy tokens _ hidle hcovered hpos _ htokens =>
    have hcall := hlands _ List.mem_cons_self _ (List.mem_map_of_mem ((hthaws tokens).mpr rfl))
    obtain ⟨-, hafter⟩ := Holding.thaw_eq_some.mp hcall
    rw [show attempts before _ receiver = _ from hafter]
    apply Served.covered
    have hfloor := le_floorOf target policy.marginBps
    have hbalance : (before receiver).balance = (snapshot.account receiver).balance.toNat := by
      rw [← h.shows receiver]
      rfl
    show target.toNat ≤ (before receiver).balance - tokens.toNat
    omega

end Served

/-! ## Enough after a while -/

/-- What is missing for the target to be left once the thaw has gone. -/
def gap (target : Nat) (holding : Holding) : Nat := target + holding.thawing - holding.balance

theorem gap_eq_zero {target : Nat} {holding : Holding} (hpos : 0 < target) :
    gap target holding = 0 ↔ target ≤ holding.net := by
  unfold gap Holding.net
  omega

/-- One cycle after `n` more the gap is closed: each cycle closes the smallest deposit of it, but
for one in which a thaw that has matured takes the place of the deposit. -/
def ClosedAfter (grant target n : Nat) (holding : Holding) : Prop :=
  gap target holding ≤ n * grant ∨
    holding.thawing = 0 ∧ gap target holding ≤ (n + 1) * grant

section Closing

variable {cut : Prop} {grant target n : Nat} {before after : Holding}

theorem gap_raised {amount : Nat} (htarget : grant ≤ target)
    (hshort : before.net < target) (hraise : min (target - before.net) grant ≤ amount) :
    gap target { before with balance := before.balance + amount } ≤
      gap target before - grant := by
  unfold gap
  unfold Holding.net at hshort hraise
  dsimp only
  omega

/-- A cycle brings it one nearer. -/
theorem Served.closedAfter (htarget : minDeposit.toNat ≤ target)
    (h : Served cut target before after)
    (hclosed : ClosedAfter minDeposit.toNat target (n + 1) before) :
    ClosedAfter minDeposit.toNat target n after := by
  have hgrant : 0 < minDeposit.toNat := by decide
  unfold ClosedAfter at hclosed ⊢
  rw [Nat.succ_mul (n + 1)] at hclosed
  generalize hnext : (n + 1) * minDeposit.toNat = next at hclosed ⊢
  rw [Nat.succ_mul] at hnext
  cases h with
  | covered hnet =>
    have hgap := (gap_eq_zero (Nat.lt_of_lt_of_le hgrant htarget)).mpr hnet
    exact .inl (by omega)
  | withdrawn hthawing hidle hnet =>
    -- only a gap that counted on this cycle is left
    have hgap : gap target after ≤ gap target before := by
      unfold gap
      unfold Holding.net at hnet
      omega
    exact .inr ⟨hidle, by omega⟩
  | @raised amount hshort hraise _ hafter =>
    have hgap := gap_raised htarget hshort hraise
    rw [← hafter] at hgap
    have hsame : after.thawing = before.thawing := by rw [hafter]
    rcases hclosed with hclosed | ⟨hidle, hclosed⟩
    · exact .inl (by omega)
    · exact .inr ⟨hsame.trans hidle, by omega⟩

-- The last cycle.
theorem Served.closes (htarget : minDeposit.toNat ≤ target) (h : Served cut target before after)
    (hclosed : ClosedAfter minDeposit.toNat target 0 before) : target ≤ after.net := by
  have hgrant : 0 < minDeposit.toNat := by decide
  have hpos : 0 < target := Nat.lt_of_lt_of_le hgrant htarget
  unfold ClosedAfter at hclosed
  rw [Nat.zero_mul, Nat.zero_add, Nat.one_mul] at hclosed
  cases h with
  | covered hnet => exact hnet
  | withdrawn hthawing hidle hnet =>
    have hgap : gap target before = 0 := by omega
    exact ((gap_eq_zero hpos).mp hgap).trans_eq hnet.symm
  | @raised amount hshort hraise _ hafter =>
    have hgap := gap_raised htarget hshort hraise
    rw [← hafter] at hgap
    apply (gap_eq_zero hpos).mp
    omega

end Closing

/-! ## Targets -/

theorem nextBalance_unique {rounding : Rounding} {profile : Profile} {debt : U128}
    {fillFactor : ℚ} {fuel fuel' : Nat} {target target' : U128}
    (h : nextBalance rounding profile debt fillFactor fuel = some (.ok target))
    (h' : nextBalance rounding profile debt fillFactor fuel' = some (.ok target')) :
    target = target' := by
  have hmost := nextBalance_of_le (Nat.le_max_left fuel fuel') h
  rw [nextBalance_of_le (Nat.le_max_right fuel fuel') h'] at hmost
  exact (Except.ok.inj (Option.some_inj.mp hmost)).symm

/-- With the overflow checks on the search starts at the smallest deposit and goes up. -/
theorem minDeposit_le_nextBalance {rounding : Rounding} {debt target : U128} {fillFactor : ℚ}
    {fuel : Nat} (h : nextBalance rounding .debug debt fillFactor fuel = some (.ok target)) :
    minDeposit.toNat ≤ target.toNat := by
  obtain ⟨outcome, hloop, hbind⟩ := Option.map_eq_some_iff.mp h
  obtain ⟨round, rfl, htarget⟩ := except_bind_eq_ok.mp hbind
  have hround : 2 ≤ round.toNat := by
    have hturn : ∀ round next : U32, 2 ≤ round.toNat →
        nextBalanceTurn rounding .debug debt fillFactor round = .ok (some next) →
        2 ≤ next.toNat := by
      intro round next hround hturn
      obtain ⟨tokens, -, hcondition⟩ := except_bind_eq_ok.mp hturn
      split at hcondition
      · obtain ⟨stepped, hstep, hnext⟩ := except_bind_eq_ok.mp hcondition
        obtain rfl : stepped = next := Option.some_inj.mp (Except.ok.inj hnext)
        have hvalue := (stepRound_debug hstep).2
        omega
      · cases hcondition
    exact (whileLoop_exits hturn (by decide) hloop).1
  obtain ⟨tokens, htokens, hvalue⟩ := roundTokens_eq .debug round
  obtain rfl : tokens = target := Except.ok.inj (htokens.symm.trans htarget)
  rw [hvalue, minDeposit_toNat]
  exact Nat.mul_le_mul_right _ hround

/-- While the debt of an active indexer stays the same, it is funded one cycle after as many as
there are smallest deposits in its gap, however the deposits are cut down for the others' sake, and
from then on. -/
theorem funded_after (rounding : Rounding) (profile : Profile) (settings : Settings)
    (hmargin : settings.withdrawMarginBps.toNat ≤ 10000) (hpos : 0 < settings.balanceFillFactor)
    (hone : settings.balanceFillFactor ≤ 1) (snapshots : Nat → Snapshot) (plans : Nat → CyclePlan)
    (ledgers : Nat → Ledger) (cycles : Nat)
    (hcycles : ∀ k < cycles, Undisturbed rounding profile settings (snapshots k) (plans k)
      (ledgers k) (ledgers (k + 1)))
    (indexer : Address)
    (hactive : ∀ k < cycles, ∃ allocation ∈ (snapshots k).allocations,
      allocation.indexer = indexer)
    (debt : U128) (hdebt : ∀ k < cycles, (snapshots k).debtFor profile settings indexer = .ok debt)
    (fuel : Nat) (target : U128)
    (htarget : nextBalance rounding .debug debt settings.balanceFillFactor fuel =
      some (.ok target))
    (n : Nat) (hgap : gap target.toNat (ledgers 0 indexer) ≤ n * minDeposit.toNat)
    (hn : n < cycles) :
    debt.toNat < (ledgers (n + 1) indexer).net ∧ target.toNat ≤ (ledgers (n + 1) indexer).net := by
  have hlow := minDeposit_le_nextBalance htarget
  have hserved : ∀ k < cycles, Served (maxAdjustment.toNat < totalOf (plans k).adjustments)
      target.toNat (ledgers k indexer) (ledgers (k + 1) indexer) := by
    intro k hk
    obtain ⟨target', fuel', htarget', hserved⟩ :=
      (hcycles k hk).served hmargin (.inl (hactive k hk)) (hdebt k hk)
    obtain rfl := nextBalance_unique htarget' (nextBalance_of_debug htarget profile)
    exact hserved
  have hclosed : ∀ k ≤ n,
      ClosedAfter minDeposit.toNat target.toNat (n - k) (ledgers k indexer) := by
    intro k
    induction k with
    | zero => exact fun _ ↦ .inl hgap
    | succ k ih =>
      intro hk
      have hbefore := ih (by omega)
      rw [show n - k = n - (k + 1) + 1 by omega] at hbefore
      exact (hserved k (by omega)).closedAfter hlow hbefore
  have hlast := hclosed n (Nat.le_refl _)
  rw [Nat.sub_self] at hlast
  have hnet := (hserved n hn).closes hlow hlast
  exact ⟨((nextBalance_isTarget htarget).debt_lt hpos hone).trans_le hnet, hnet⟩

/-! ## One indexer -/

def newIndexer : Address := .repeatByte 20 0x11

/-- Its account holds that much before each cycle. -/
def newSnapshots (ravs : RavMap) (funds : Nat → U128) (k : Nat) : Snapshot where
  allocations := [⟨.repeatByte 20 0xab, newIndexer⟩]
  escrowAccounts := AList.insert newIndexer ⟨funds k, 0, 0⟩ ∅
  receipts := .empty
  ravs := ravs
  chainNow := none

def newPlans (target : U128) (funds : Nat → U128) (k : Nat) : CyclePlan where
  totalTarget := target
  adjustments := if funds k = target then [] else [(newIndexer, target - funds k)]
  thaws := []
  withdrawals := []

def newDeposits (funds : Nat → U128) (k : Nat) : List (Address × U128) :=
  if funds k = funds (k + 1) then [] else [(newIndexer, funds (k + 1) - funds k)]

def newLedgers (ravs : RavMap) (funds : Nat → U128) (k : Nat) : Ledger :=
  fun receiver ↦ ((newSnapshots ravs funds k).account receiver).holding

theorem newLedgers_eq (ravs : RavMap) (funds : Nat → U128) (k : Nat) (receiver : Address) :
    newLedgers ravs funds k receiver =
      if receiver = newIndexer then ⟨(funds k).toNat, 0, 0⟩ else ⟨0, 0, 0⟩ := by
  unfold newLedgers Snapshot.account newSnapshots
  split
  · rename_i hsame
    rw [hsame, AList.lookup_insert]
    rfl
  · rename_i hne
    rw [AList.lookup_insert_ne hne]
    rfl

theorem newDeposits_batch {ravs : RavMap} {funds : Nat → U128} {k : Nat}
    (hgrows : (funds k).toNat ≤ (funds (k + 1)).toNat) :
    batch (depositCalls (newDeposits funds k)) (newLedgers ravs funds k) =
      some (newLedgers ravs funds (k + 1)) := by
  unfold newDeposits
  split
  · rename_i hsame
    show some (newLedgers ravs funds k) = _
    congr 1
    funext receiver
    rw [newLedgers_eq, newLedgers_eq, hsame]
  · rename_i hdiffers
    have hne : (funds k).toNat ≠ (funds (k + 1)).toNat :=
      fun hsame ↦ hdiffers (BitVec.eq_of_toNat_eq hsame)
    have hamount : (funds (k + 1) - funds k).toNat = (funds (k + 1)).toNat - (funds k).toNat :=
      BitVec.toNat_sub_of_le hgrows
    rw [batch_eq_some (by simp [depositCalls])]
    refine ⟨fun call hcall ↦ ?_, fun receiver hother ↦ ?_⟩
    · obtain rfl := List.mem_singleton.mp hcall
      apply Holding.deposit_eq_some.mpr
      rw [newLedgers_eq, newLedgers_eq, if_pos rfl, if_pos rfl, hamount]
      dsimp only
      rw [Nat.add_sub_of_le hgrows]
      exact ⟨by omega, rfl⟩
    · have hother : receiver ≠ newIndexer := fun hsame ↦ hother (List.mem_singleton.mpr hsame)
      rw [newLedgers_eq, newLedgers_eq, if_neg hother, if_neg hother]

theorem new_undisturbed {ravs : RavMap} {target : U128} {funds : Nat → U128} {k fuel : Nat}
    (hplan : ((newSnapshots ravs funds k).planCycle .exact .debug quarterMargin fuel).run =
      some (.ok (newPlans target funds k)))
    (hbatch : depositBatch .debug (newPlans target funds k).adjustments fuel =
      some (.ok (newDeposits funds k)))
    (hgrows : (funds k).toNat ≤ (funds (k + 1)).toNat) :
    Undisturbed .exact .debug quarterMargin (newSnapshots ravs funds k) (newPlans target funds k)
      (newLedgers ravs funds k) (newLedgers ravs funds (k + 1)) := by
  have hlength : (newPlans target funds k).adjustments.length < 2 ^ 64 := by
    show (if funds k = target then _ else _ : List (Address × U128)).length < _
    split
    · exact Nat.two_pow_pos 64
    · exact Nat.one_lt_two_pow (by decide)
  refine ⟨fun _ ↦ rfl, newDeposits funds k, ⟨⟨fuel, hplan⟩, ⟨fuel, hbatch⟩, hlength⟩, soon, soon,
    fun _ hnow ↦ (Option.not_mem_none _ hnow).elim, ?_⟩
  show _ = attempt (newLedgers ravs funds k) (depositCalls (newDeposits funds k))
  rw [attempt, newDeposits_batch hgrows]
  rfl

/-- The indexer lacks 16,384 GRT: the first deposit is cut down to 10,002, the second is not. -/
def cutFunds : Nat → U128
  | 0 => 0
  | 1 => 10_002 * grt
  | _ => 16_384 * grt

def cutRavs : RavMap := AList.insert (.repeatByte 20 0xab) (8_000 * grt) ∅

theorem cut_undisturbed (k : Nat) : Undisturbed .exact .debug quarterMargin
    (newSnapshots cutRavs cutFunds k) (newPlans (16_384 * grt) cutFunds k)
    (newLedgers cutRavs cutFunds k) (newLedgers cutRavs cutFunds (k + 1)) :=
  match k with
  | 0 => @new_undisturbed _ _ _ 0 110 (by decide +kernel) (by decide +kernel) (by decide)
  | 1 => @new_undisturbed _ _ _ 1 110 (by decide +kernel) (by decide +kernel) (by decide)
  -- from then on nothing is lacking
  | k + 2 => by
    have hplan : ((newSnapshots cutRavs cutFunds 2).planCycle .exact .debug quarterMargin 110).run =
        some (.ok (newPlans (16_384 * grt) cutFunds 2)) := by
      decide +kernel
    exact @new_undisturbed _ _ _ (k + 2) 110 hplan rfl (Nat.le_refl _)

/-- It is 8,192 smallest deposits. -/
theorem funded_after_new :
    (8_000 * grt).toNat < (newLedgers cutRavs cutFunds 8_193 newIndexer).net ∧
      (16_384 * grt).toNat ≤ (newLedgers cutRavs cutFunds 8_193 newIndexer).net := by
  have hdebt : ∀ k, (newSnapshots cutRavs cutFunds k).debtFor .debug quarterMargin newIndexer =
      .ok (8_000 * grt) := by
    have hsame : ∀ k, (newSnapshots cutRavs cutFunds k).debtFor .debug quarterMargin newIndexer =
        (newSnapshots cutRavs cutFunds 0).debtFor .debug quarterMargin newIndexer := fun _ ↦ rfl
    intro k
    rw [hsame]
    decide +kernel
  have hactive : ∀ k, ∃ allocation ∈ (newSnapshots cutRavs cutFunds k).allocations,
      allocation.indexer = newIndexer := fun _ ↦ ⟨_, List.mem_singleton_self _, rfl⟩
  exact funded_after .exact .debug quarterMargin (by decide) (by decide +kernel)
    (by decide +kernel) (newSnapshots cutRavs cutFunds) (newPlans (16_384 * grt) cutFunds)
    (newLedgers cutRavs cutFunds) 8_193 (fun k _ ↦ cut_undisturbed k) newIndexer
    (fun k _ ↦ hactive k) (8_000 * grt) (fun k _ ↦ hdebt k) 20 (16_384 * grt) (by decide +kernel)
    8_192 (by decide +kernel) (by decide)

end GraphTally.EscrowManager
