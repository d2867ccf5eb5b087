import GraphTally.EscrowManager.Decide
import GraphTally.EscrowManager.Deposits
import GraphTally.EscrowManager.Ladder
import GraphTally.EscrowManager.Ravs
import GraphTally.Theory.Enumeration

/-!
# The plan of a cycle

The loop of `main` up to its transactions: who the receivers are, what each is owed, and which of
the three batches each goes into.
-/

open GraphTally.Theory

namespace GraphTally.EscrowManager

structure Allocation where
  id : Address
  indexer : Address
  deriving DecidableEq

/-- What a cycle plans with of the checked configuration. -/
structure Settings where
  debts : OrderedMap Address U64
  balanceFillFactor : ℚ
  withdrawEnabled : Bool
  withdrawMarginBps : U128
  minWithdraw : U128

/-- What a cycle reads.  The chain time is read only where reclamation is enabled. -/
structure Snapshot where
  allocations : List Allocation
  escrowAccounts : HashTable Address EscrowAccount
  receipts : OrderedMap Address U128
  ravs : RavMap
  chainNow : Option U64

/-- The three batches, and the sum of the targets. -/
structure CyclePlan where
  totalTarget : U128
  adjustments : List (Address × U128)
  thaws : List (Address × U128)
  withdrawals : List Address
  deriving DecidableEq

def CyclePlan.empty : CyclePlan := ⟨0, [], [], []⟩

/-- The batch an action goes into. -/
def CyclePlan.push (plan : CyclePlan) (receiver : Address) : Action → CyclePlan
  | .nothing => plan
  | .withdraw => { plan with withdrawals := plan.withdrawals ++ [receiver] }
  | .deposit amount => { plan with adjustments := plan.adjustments ++ [(receiver, amount)] }
  | .thaw amount => { plan with thaws := plan.thaws ++ [(receiver, amount)] }

def debtReady (debts : OrderedMap Address U128) : Bool := debts.values.any (0 < ·.toNat)

namespace Snapshot

variable (snapshot : Snapshot)

/-- The set has no values. -/
def receivers : OrderedMap Address Unit :=
  .ofList ((snapshot.allocations.map (·.indexer) ++ snapshot.escrowAccounts.keys).map (·, ()))

/-- `unwrap_or_default` -/
def account (receiver : Address) : EscrowAccount :=
  (snapshot.escrowAccounts.lookup receiver).getD ⟨0, 0, 0⟩

/-- The metrics sum the accounts with the plain operator. -/
def accountWords (field : EscrowAccount → U128) : List U128 :=
  snapshot.escrowAccounts.entries.map fun entry ↦ field entry.2

section Debts

variable (profile : Profile)

def addRav (indexerRavs : OrderedMap Address U128) (allocation : Allocation) :
    Outcome Empty (OrderedMap Address U128) :=
  match snapshot.ravs.lookup allocation.id with
  | none => .ok indexerRavs
  | some value => do
    let sum ← plainAdd profile ((indexerRavs.lookup allocation.indexer).getD 0) value
    return indexerRavs.insert allocation.indexer sum

def indexerRavs : Outcome Empty (OrderedMap Address U128) :=
  snapshot.allocations.foldlM (snapshot.addRav profile) .empty

def debts (indexerRavs : OrderedMap Address U128) : OrderedMap Address U128 :=
  snapshot.receivers.mapVal fun receiver _ ↦
    wordMax ((snapshot.receipts.lookup receiver).getD 0) ((indexerRavs.lookup receiver).getD 0)

end Debts

/-- The policy of a cycle, where the debts can be trusted. -/
def reclaim (settings : Settings) (debts : OrderedMap Address U128) : Option Reclaim :=
  if settings.withdrawEnabled && debtReady debts then
    some ⟨snapshot.chainNow, settings.withdrawMarginBps, settings.minWithdraw⟩
  else none

section Plan

variable (rounding : Rounding) (profile : Profile) (settings : Settings) (fuel : Nat)

/-- The body of the loop over the receivers. -/
def planReceiver (debts : OrderedMap Address U128) (plan : CyclePlan) (receiver : Address) :
    Fueled (Failure Empty) CyclePlan := do
  let debt ← receiverDebt profile ((debts.lookup receiver).getD 0)
    ((settings.debts.lookup receiver).getD 0)
  let target ← ExceptT.mk (nextBalance rounding profile debt settings.balanceFillFactor fuel)
  let totalTarget ← (plainAdd profile plan.totalTarget target : Outcome Empty U128)
  let action ← decide profile (snapshot.account receiver) target (snapshot.reclaim settings debts)
  return CyclePlan.push { plan with totalTarget } receiver action

/-- The sums that are only logged or measured panic like the others. -/
def planCycle : Fueled (Failure Empty) CyclePlan := do
  let _ ← (plainSum profile (snapshot.accountWords (·.balance)) : Outcome Empty U128)
  let _ ← (plainSum profile (snapshot.accountWords (·.thawing)) : Outcome Empty U128)
  let indexerRavs ← snapshot.indexerRavs profile
  let debts := snapshot.debts indexerRavs
  let _ ← (plainSum profile debts.values : Outcome Empty U128)
  let plan ← (snapshot.receivers.entries.map Prod.fst).foldlM
    (snapshot.planReceiver rounding profile settings fuel debts) .empty
  let _ ← (plainSum profile (plan.adjustments.map Prod.snd) : Outcome Empty U128)
  let _ ← (plainSum profile (plan.thaws.map Prod.snd) : Outcome Empty U128)
  return plan

end Plan

end Snapshot

/-! ## The decisions of a cycle -/

/-- What a turn of the loop comes to. -/
structure Decision where
  receiver : Address
  target : U128
  action : Action

namespace Decision

variable (decision : Decision)

def adjustment : Option (Address × U128) :=
  match decision.action with
  | .deposit amount => some (decision.receiver, amount)
  | _ => none

def thawing : Option (Address × U128) :=
  match decision.action with
  | .thaw amount => some (decision.receiver, amount)
  | _ => none

def withdrawal : Option Address :=
  match decision.action with
  | .withdraw => some decision.receiver
  | _ => none

end Decision

/-- The plan that a list of decisions makes. -/
def CyclePlan.of (totalTarget : U128) (decisions : List Decision) : CyclePlan :=
  ⟨totalTarget, decisions.filterMap (·.adjustment), decisions.filterMap (·.thawing),
    decisions.filterMap (·.withdrawal)⟩

/-- Everybody a batch is for. -/
def CyclePlan.served (plan : CyclePlan) : List Address :=
  plan.thaws.map Prod.fst ++ plan.adjustments.map Prod.fst ++ plan.withdrawals

theorem CyclePlan.push_of (totalTarget totalTarget' : U128) (decisions : List Decision)
    (decision : Decision) :
    CyclePlan.push { CyclePlan.of totalTarget decisions with totalTarget := totalTarget' }
      decision.receiver decision.action = .of totalTarget' (decisions ++ [decision]) := by
  obtain ⟨receiver, target, action⟩ := decision
  cases action <;> simp [CyclePlan.push, CyclePlan.of, Decision.adjustment, Decision.thawing,
    Decision.withdrawal]

/-! ## Who is in which batch -/

section Batches

variable {totalTarget : U128} {decisions : List Decision} {receiver : Address} {amount : U128}

theorem mem_adjustments : (receiver, amount) ∈ (CyclePlan.of totalTarget decisions).adjustments ↔
    ∃ decision ∈ decisions, decision.receiver = receiver ∧ decision.action = .deposit amount := by
  show _ ∈ decisions.filterMap _ ↔ _
  rw [List.mem_filterMap]
  apply exists_congr
  rintro ⟨other, target, action⟩
  cases action <;> simp [Decision.adjustment]

theorem mem_thaws : (receiver, amount) ∈ (CyclePlan.of totalTarget decisions).thaws ↔
    ∃ decision ∈ decisions, decision.receiver = receiver ∧ decision.action = .thaw amount := by
  show _ ∈ decisions.filterMap _ ↔ _
  rw [List.mem_filterMap]
  apply exists_congr
  rintro ⟨other, target, action⟩
  cases action <;> simp [Decision.thawing]

theorem mem_withdrawals : receiver ∈ (CyclePlan.of totalTarget decisions).withdrawals ↔
    ∃ decision ∈ decisions, decision.receiver = receiver ∧ decision.action = .withdraw := by
  show _ ∈ decisions.filterMap _ ↔ _
  rw [List.mem_filterMap]
  apply exists_congr
  rintro ⟨other, target, action⟩
  cases action <;> simp [Decision.withdrawal]

-- One decision serves its receiver once, or not at all.
theorem served_cons (totalTarget : U128) (decision : Decision) (decisions : List Decision) :
    (CyclePlan.of totalTarget (decision :: decisions)).served.Perm
      ((if decision.action = .nothing then [] else [decision.receiver]) ++
        (CyclePlan.of totalTarget decisions).served) := by
  obtain ⟨receiver, target, action⟩ := decision
  cases action with
  | nothing =>
    simp [CyclePlan.served, CyclePlan.of, Decision.thawing, Decision.adjustment,
      Decision.withdrawal]
  | withdraw =>
    simp only [CyclePlan.served, CyclePlan.of, Decision.thawing, Decision.adjustment,
      Decision.withdrawal, List.filterMap_cons, reduceCtorEq, if_false, List.singleton_append]
    exact List.perm_middle
  | deposit amount =>
    simp only [CyclePlan.served, CyclePlan.of, Decision.thawing, Decision.adjustment,
      Decision.withdrawal, List.filterMap_cons, List.map_cons, reduceCtorEq, if_false,
      List.append_assoc, List.cons_append]
    exact List.perm_middle
  | thaw amount =>
    simp only [CyclePlan.served, CyclePlan.of, Decision.thawing, Decision.adjustment,
      Decision.withdrawal, List.filterMap_cons, List.map_cons, reduceCtorEq, if_false,
      List.cons_append]
    exact List.Perm.refl _

/-- Over all three batches, the receivers whose action is not `nothing`, each once. -/
theorem served_perm (totalTarget : U128) (decisions : List Decision) :
    (CyclePlan.of totalTarget decisions).served.Perm
      ((decisions.filter (·.action ≠ .nothing)).map (·.receiver)) := by
  induction decisions with
  | nil => exact List.Perm.refl _
  | cons decision decisions ih =>
    refine (served_cons totalTarget decision decisions).trans ?_
    by_cases hnothing : decision.action = .nothing
    · rw [if_pos hnothing, List.filter_cons_of_neg (by simpa using hnothing)]
      exact ih
    · rw [if_neg hnothing, List.filter_cons_of_pos (by simpa using hnothing)]
      exact ih.cons _

/-- The action of a receiver that a list of decisions may leave out. -/
def actionFor (decisions : List Decision) (receiver : Address) : Action :=
  ((decisions.find? fun decision ↦ decision.receiver = receiver).map (·.action)).getD .nothing

theorem actionFor_of_mem (hnodup : (decisions.map (·.receiver)).Nodup) {decision : Decision}
    (h : decision ∈ decisions) : actionFor decisions decision.receiver = decision.action := by
  have hfound : (decisions.find? fun other ↦ other.receiver = decision.receiver).isSome := by
    rw [List.find?_isSome]
    exact ⟨decision, h, by simp⟩
  obtain ⟨found, hfind⟩ := Option.isSome_iff_exists.mp hfound
  have hsame : found.receiver = decision.receiver := by simpa using List.find?_some hfind
  obtain rfl := List.inj_on_of_nodup_map hnodup (List.mem_of_find?_eq_some hfind) h hsame
  rw [actionFor, hfind]
  rfl

theorem actionFor_of_not_mem (h : receiver ∉ decisions.map (·.receiver)) :
    actionFor decisions receiver = .nothing := by
  have hfind : decisions.find? (fun decision ↦ decision.receiver = receiver) = none := by
    rw [List.find?_eq_none]
    intro decision hdecision hsame
    exact h (List.mem_map.mpr ⟨decision, hdecision, of_decide_eq_true hsame⟩)
  rw [actionFor, hfind]
  rfl

theorem actionFor_eq (hnodup : (decisions.map (·.receiver)).Nodup) {action : Action}
    (hsome : action ≠ .nothing) : actionFor decisions receiver = action ↔
      ∃ decision ∈ decisions, decision.receiver = receiver ∧ decision.action = action := by
  constructor
  · intro h
    cases hfind : decisions.find? fun decision ↦ decision.receiver = receiver with
    | none =>
      rw [actionFor, hfind] at h
      exact absurd h.symm hsome
    | some found =>
      rw [actionFor, hfind] at h
      exact ⟨found, List.mem_of_find?_eq_some hfind, by simpa using List.find?_some hfind, h⟩
  · rintro ⟨decision, hmem, rfl, rfl⟩
    exact actionFor_of_mem hnodup hmem

end Batches

/-- Thaws and withdrawals are decided under a policy. -/
theorem Chosen.exists_policy {account : EscrowAccount} {target : U128} {reclaim : Option Reclaim}
    {action : Action} (h : Chosen account target reclaim action)
    (hreclaims : action = .withdraw ∨ ∃ amount, action = .thaw amount) :
    ∃ policy, reclaim = some policy := by
  cases h with
  | withdraw hreclaim _ _ _ _ => exact ⟨_, hreclaim⟩
  | deposit _ _ => simp at hreclaims
  | thaw hreclaim _ _ _ _ _ => exact ⟨_, hreclaim⟩
  | nothing _ => simp at hreclaims

namespace Snapshot

/-- An active indexer, or the holder of an account. -/
def Serves (snapshot : Snapshot) (receiver : Address) : Prop :=
  (∃ allocation ∈ snapshot.allocations, allocation.indexer = receiver) ∨
    receiver ∈ snapshot.escrowAccounts

theorem mem_receivers {snapshot : Snapshot} {receiver : Address} :
    receiver ∈ snapshot.receivers.entries.map Prod.fst ↔ snapshot.Serves receiver := by
  rw [Serves, receivers, OrderedMap.mem_keys_ofList, List.map_map, AList.mem_keys]
  show receiver ∈ List.map id _ ↔ _
  rw [List.map_id, List.mem_append, List.mem_map]

section Decisions

variable (snapshot : Snapshot) (rounding : Rounding) (profile : Profile) (settings : Settings)
  (fuel : Nat)

/-- How a turn comes to its decision. -/
def Decides (debts : OrderedMap Address U128) (decision : Decision) : Prop :=
  ∃ debt, receiverDebt profile ((debts.lookup decision.receiver).getD 0)
      ((settings.debts.lookup decision.receiver).getD 0) = .ok debt ∧
    nextBalance rounding profile debt settings.balanceFillFactor fuel =
      some (.ok decision.target) ∧
    decide profile (snapshot.account decision.receiver) decision.target
      (snapshot.reclaim settings debts) = .ok decision.action

/-- The sums of a cycle that does not panic, around the decisions of its loop. -/
structure Plans (decisions : List Decision) (plan : CyclePlan) : Prop where
  balances : ∃ total, (plainSum profile (snapshot.accountWords (·.balance)) : Outcome Empty U128) =
    .ok total
  thawings : ∃ total, (plainSum profile (snapshot.accountWords (·.thawing)) : Outcome Empty U128) =
    .ok total
  decided : ∃ indexerRavs, snapshot.indexerRavs profile = .ok indexerRavs ∧
    (∃ total, (plainSum profile (snapshot.debts indexerRavs).values : Outcome Empty U128) =
      .ok total) ∧
    ∀ decision ∈ decisions, snapshot.Decides rounding profile settings fuel
      (snapshot.debts indexerRavs) decision
  receivers : decisions.map (·.receiver) = snapshot.receivers.entries.map Prod.fst
  target : (plainSum profile (decisions.map (·.target)) : Outcome Empty U128) =
    .ok plan.totalTarget
  batches : plan = .of plan.totalTarget decisions
  adjustments : ∃ total, (plainSum profile (plan.adjustments.map Prod.snd) :
    Outcome Empty U128) = .ok total
  thaws : ∃ total, (plainSum profile (plan.thaws.map Prod.snd) : Outcome Empty U128) = .ok total

variable {snapshot rounding profile settings fuel}

-- One turn appends its decision.
theorem planReceiver_of {debts : OrderedMap Address U128} {totalTarget : U128}
    {before : List Decision} {receiver : Address} {plan : CyclePlan} :
    (snapshot.planReceiver rounding profile settings fuel debts (.of totalTarget before)
        receiver).run = some (.ok plan) ↔
      ∃ decision, decision.receiver = receiver ∧
        snapshot.Decides rounding profile settings fuel debts decision ∧
        ∃ next, (plainAdd profile totalTarget decision.target : Outcome Empty U128) = .ok next ∧
          plan = .of next (before ++ [decision]) := by
  unfold planReceiver
  simp only [fueled_bind_eq_ok, fueled_lift_eq_ok]
  constructor
  · rintro ⟨debt, hdebt, target, htarget, next, hnext, action, haction, hplan⟩
    refine ⟨⟨receiver, target, action⟩, rfl, ⟨debt, hdebt, htarget, haction⟩, next, hnext, ?_⟩
    rw [← CyclePlan.push_of totalTarget]
    exact (Except.ok.inj (Option.some_inj.mp hplan)).symm
  · rintro ⟨decision, rfl, ⟨debt, hdebt, htarget, haction⟩, next, hnext, rfl⟩
    refine ⟨debt, hdebt, decision.target, htarget, next, hnext, decision.action, haction, ?_⟩
    rw [← CyclePlan.push_of totalTarget]
    rfl

/-- The loop makes one decision for each receiver, in their order. -/
theorem planReceivers_of {debts : OrderedMap Address U128} {receivers : List Address}
    {totalTarget : U128} (before : List Decision) {plan : CyclePlan} :
    (receivers.foldlM (snapshot.planReceiver rounding profile settings fuel debts)
        (.of totalTarget before)).run = some (.ok plan) ↔
      ∃ decisions, decisions.map (·.receiver) = receivers ∧
        (∀ decision ∈ decisions,
          snapshot.Decides rounding profile settings fuel debts decision) ∧
        (decisions.map (·.target)).foldlM (fun sum word ↦ (plainAdd profile sum word :
          Outcome Empty U128)) totalTarget = .ok plan.totalTarget ∧
        plan = .of plan.totalTarget (before ++ decisions) := by
  induction receivers generalizing totalTarget before with
  | nil =>
    simp only [List.foldlM_nil, List.map_eq_nil_iff]
    constructor
    · intro h
      obtain rfl := Except.ok.inj (Option.some_inj.mp h)
      exact ⟨[], rfl, by simp, rfl, by rw [List.append_nil]; rfl⟩
    · rintro ⟨decisions, rfl, -, htarget, hplan⟩
      rw [hplan, List.append_nil, ← Except.ok.inj htarget]
      rfl
  | cons receiver receivers ih =>
    rw [List.foldlM_cons, fueled_bind_eq_ok]
    constructor
    · rintro ⟨next, hnext, hrest⟩
      obtain ⟨decision, hreceiver, hdecides, sum, hsum, rfl⟩ := planReceiver_of.mp hnext
      obtain ⟨decisions, hreceivers, hall, htarget, hplan⟩ := (ih _).mp hrest
      refine ⟨decision :: decisions, ?_, ?_, ?_, ?_⟩
      · rw [List.map_cons, hreceiver, hreceivers]
      · exact List.forall_mem_cons.mpr ⟨hdecides, hall⟩
      · rw [List.map_cons, List.foldlM_cons, hsum]
        exact htarget
      · rw [hplan, List.append_assoc]
        rfl
    · rintro ⟨decisions, hreceivers, hall, htarget, hplan⟩
      cases decisions with
      | nil => cases hreceivers
      | cons decision decisions =>
        obtain ⟨hreceiver, hreceivers⟩ := List.cons.inj hreceivers
        obtain ⟨hdecides, hall⟩ := List.forall_mem_cons.mp hall
        rw [List.map_cons, List.foldlM_cons] at htarget
        obtain ⟨sum, hsum, htarget⟩ := except_bind_eq_ok.mp htarget
        refine ⟨_, planReceiver_of.mpr ⟨decision, hreceiver, hdecides, sum, hsum, rfl⟩, ?_⟩
        apply (ih _).mpr
        refine ⟨decisions, hreceivers, hall, htarget, ?_⟩
        rw [List.append_assoc]
        exact hplan

theorem planCycle_eq_ok {plan : CyclePlan} :
    (snapshot.planCycle rounding profile settings fuel).run = some (.ok plan) ↔
      ∃ decisions, snapshot.Plans rounding profile settings fuel decisions plan := by
  unfold planCycle
  simp only [fueled_bind_eq_ok, fueled_lift_eq_ok]
  constructor
  · rintro ⟨balances, hbalances, thawings, hthawings, indexerRavs, hravs, debts, hdebts, plan',
      hloop, adjustments, hadjustments, thaws, hthaws, hplan⟩
    obtain rfl := Except.ok.inj (Option.some_inj.mp hplan)
    obtain ⟨decisions, hreceivers, hall, htarget, hof⟩ :=
      (planReceivers_of []).mp hloop
    exact ⟨decisions, ⟨balances, hbalances⟩, ⟨thawings, hthawings⟩,
      ⟨indexerRavs, hravs, ⟨debts, hdebts⟩, hall⟩, hreceivers, htarget, hof,
      ⟨adjustments, hadjustments⟩, ⟨thaws, hthaws⟩⟩
  · rintro ⟨decisions, ⟨balances, hbalances⟩, ⟨thawings, hthawings⟩,
      ⟨indexerRavs, hravs, ⟨debts, hdebts⟩, hall⟩, hreceivers, htarget, hof,
      ⟨adjustments, hadjustments⟩, ⟨thaws, hthaws⟩⟩
    refine ⟨balances, hbalances, thawings, hthawings, indexerRavs, hravs, debts, hdebts, plan, ?_,
      adjustments, hadjustments, thaws, hthaws, rfl⟩
    exact (planReceivers_of []).mpr ⟨decisions, hreceivers, hall, htarget, hof⟩

namespace Plans

variable {decisions : List Decision} {plan : CyclePlan}

theorem nodup (h : snapshot.Plans rounding profile settings fuel decisions plan) :
    (decisions.map (·.receiver)).Nodup := by
  rw [h.receivers]
  exact snapshot.receivers.keys_nodup

theorem served_nodup (h : snapshot.Plans rounding profile settings fuel decisions plan) :
    plan.served.Nodup := by
  rw [h.batches, (served_perm plan.totalTarget decisions).nodup_iff]
  exact h.nodup.sublist (List.filter_sublist.map _)

/-- The three batches say what the action of each receiver is. -/
theorem mem_batches (h : snapshot.Plans rounding profile settings fuel decisions plan)
    (receiver : Address) :
    (∀ amount, (receiver, amount) ∈ plan.adjustments ↔
        actionFor decisions receiver = .deposit amount) ∧
      (∀ amount, (receiver, amount) ∈ plan.thaws ↔
        actionFor decisions receiver = .thaw amount) ∧
      (receiver ∈ plan.withdrawals ↔ actionFor decisions receiver = .withdraw) := by
  rw [h.batches]
  refine ⟨fun amount ↦ ?_, fun amount ↦ ?_, ?_⟩
  · rw [mem_adjustments, actionFor_eq h.nodup (by simp)]
  · rw [mem_thaws, actionFor_eq h.nodup (by simp)]
  · rw [mem_withdrawals, actionFor_eq h.nodup (by simp)]

-- Whoever is in one of these batches was decided on so.
theorem exists_reclaimed (h : snapshot.Plans rounding profile settings fuel decisions plan)
    (hsome : plan.thaws ≠ [] ∨ plan.withdrawals ≠ []) :
    ∃ decision ∈ decisions,
      decision.action = .withdraw ∨ ∃ amount, decision.action = .thaw amount := by
  rw [h.batches] at hsome
  rcases hsome with hthaws | hwithdrawals
  · obtain ⟨⟨receiver, amount⟩, hmem⟩ := List.exists_mem_of_ne_nil _ hthaws
    obtain ⟨decision, hdecision, -, haction⟩ := mem_thaws.mp hmem
    exact ⟨decision, hdecision, .inr ⟨amount, haction⟩⟩
  · obtain ⟨receiver, hmem⟩ := List.exists_mem_of_ne_nil _ hwithdrawals
    obtain ⟨decision, hdecision, -, haction⟩ := mem_withdrawals.mp hmem
    exact ⟨decision, hdecision, .inl haction⟩

end Plans

theorem lookup_debts {indexerRavs : OrderedMap Address U128} {receiver : Address}
    (h : snapshot.Serves receiver) :
    (snapshot.debts indexerRavs).lookup receiver =
      some (wordMax ((snapshot.receipts.lookup receiver).getD 0)
        ((indexerRavs.lookup receiver).getD 0)) := by
  obtain ⟨entry, hentry, rfl⟩ := List.mem_map.mp (mem_receivers.mpr h)
  exact OrderedMap.lookup_eq_some.mpr (List.mem_map_of_mem hentry)

theorem floorOf_lt_of_reclaim (hmargin : settings.withdrawMarginBps.toNat ≤ 10000)
    {debts : OrderedMap Address U128} {debt target : U128} {policy : Reclaim}
    (htarget : IsTarget rounding debt settings.balanceFillFactor target)
    (h : policy ∈ snapshot.reclaim settings debts) :
    floorOf target policy.marginBps < 2 ^ 128 := by
  unfold reclaim at h
  split at h
  · obtain rfl := Option.some_inj.mp h
    exact htarget.floorOf_lt hmargin
  · cases h

/-- What a decision rests on. -/
theorem Decides.chosen {debts : OrderedMap Address U128} {decision : Decision}
    (hmargin : settings.withdrawMarginBps.toNat ≤ 10000)
    (h : snapshot.Decides rounding profile settings fuel debts decision) :
    ∃ debt, debt.toNat = max ((debts.lookup decision.receiver).getD 0).toNat
        (((settings.debts.lookup decision.receiver).getD 0).toNat * 10 ^ 18) ∧
      IsTarget rounding debt settings.balanceFillFactor decision.target ∧
      Chosen (snapshot.account decision.receiver) decision.target
        (snapshot.reclaim settings debts) decision.action := by
  obtain ⟨debt, hdebt, htarget, hdecide⟩ := h
  obtain ⟨debt', hdebt', hvalue⟩ := receiverDebt_eq
    ((debts.lookup decision.receiver).getD 0) ((settings.debts.lookup decision.receiver).getD 0)
  obtain rfl : debt' = debt := Except.ok.inj ((hdebt' profile).symm.trans hdebt)
  have htarget := nextBalance_isTarget htarget
  obtain ⟨action, haction, hchosen⟩ := decide_chosen (snapshot.account decision.receiver)
    fun policy hpolicy ↦ floorOf_lt_of_reclaim hmargin htarget hpolicy
  obtain rfl : action = decision.action := Except.ok.inj ((haction profile).symm.trans hdecide)
  exact ⟨_, hvalue, htarget, hchosen⟩

/-! ## When anything is reclaimed -/

/-- Somebody is owed something, on the books of one consumer or the other. -/
def KnowsDebt (snapshot : Snapshot) : Prop :=
  (∃ receiver fees, snapshot.receipts.lookup receiver = some fees ∧ 0 < fees.toNat) ∨
    ∃ allocation ∈ snapshot.allocations, ∃ value,
      snapshot.ravs.lookup allocation.id = some value ∧ 0 < value.toNat

-- A sum that is not zero, wrapped or not, has a summand that is not.
theorem addRav_zero {indexerRavs indexerRavs' : OrderedMap Address U128} {allocation : Allocation}
    (hzero : ∀ value, snapshot.ravs.lookup allocation.id = some value → value = 0)
    (hbefore : ∀ indexer, (indexerRavs.lookup indexer).getD 0 = 0)
    (h : snapshot.addRav profile indexerRavs allocation = .ok indexerRavs') (indexer : Address) :
    (indexerRavs'.lookup indexer).getD 0 = 0 := by
  unfold addRav at h
  cases hlookup : snapshot.ravs.lookup allocation.id with
  | none =>
    rw [hlookup] at h
    obtain rfl := Except.ok.inj h
    exact hbefore indexer
  | some value =>
    rw [hlookup] at h
    obtain ⟨sum, hsum, hinsert⟩ := except_bind_eq_ok.mp h
    obtain rfl := Except.ok.inj hinsert
    rw [hbefore, hzero value hlookup] at hsum
    by_cases hsame : indexer = allocation.indexer
    · rw [hsame, OrderedMap.lookup_insert, plainAdd_eq_ok hsum]
      rfl
    · rw [OrderedMap.lookup_insert_ne hsame]
      exact hbefore indexer

theorem indexerRavs_zero {indexerRavs : OrderedMap Address U128}
    (hzero : ∀ allocation ∈ snapshot.allocations, ∀ value,
      snapshot.ravs.lookup allocation.id = some value → value = 0)
    (h : snapshot.indexerRavs profile = .ok indexerRavs) (indexer : Address) :
    (indexerRavs.lookup indexer).getD 0 = 0 := by
  have hfold : ∀ (allocations : List Allocation) (before : OrderedMap Address U128),
      (∀ allocation ∈ allocations, ∀ value,
        snapshot.ravs.lookup allocation.id = some value → value = 0) →
      (∀ indexer, (before.lookup indexer).getD 0 = 0) →
      allocations.foldlM (snapshot.addRav profile) before = .ok indexerRavs →
      (indexerRavs.lookup indexer).getD 0 = 0 := by
    intro allocations
    induction allocations with
    | nil =>
      intro before _ hbefore h
      obtain rfl := Except.ok.inj h
      exact hbefore indexer
    | cons allocation allocations ih =>
      intro before hzero hbefore h
      rw [List.foldlM_cons] at h
      obtain ⟨next, hnext, hrest⟩ := except_bind_eq_ok.mp h
      obtain ⟨hhere, hothers⟩ := List.forall_mem_cons.mp hzero
      exact ih next hothers (addRav_zero hhere hbefore hnext) hrest
  exact hfold _ _ hzero (fun indexer ↦ rfl) h

/-- The policy is there only where it is enabled and some debt is known. -/
theorem reclaim_eq_some {indexerRavs : OrderedMap Address U128} {policy : Reclaim}
    (hravs : snapshot.indexerRavs profile = .ok indexerRavs)
    (h : snapshot.reclaim settings (snapshot.debts indexerRavs) = some policy) :
    settings.withdrawEnabled = true ∧ snapshot.KnowsDebt ∧
      policy = ⟨snapshot.chainNow, settings.withdrawMarginBps, settings.minWithdraw⟩ := by
  unfold reclaim at h
  split at h
  · rename_i henabled
    rw [Bool.and_eq_true] at henabled
    refine ⟨henabled.1, ?_, (Option.some_inj.mp h).symm⟩
    obtain ⟨debt, hdebt, hpos⟩ := List.any_eq_true.mp henabled.2
    have hpos : 0 < debt.toNat := of_decide_eq_true hpos
    obtain ⟨entry, hentry, rfl⟩ := List.mem_map.mp hdebt
    obtain ⟨receiver, -, rfl⟩ := List.mem_map.mp hentry
    rw [toNat_wordMax] at hpos
    by_contra hunknown
    -- no fees and no values: the larger of the two is zero
    have hreceipts : (snapshot.receipts.lookup receiver.1).getD 0 = 0 := by
      cases hlookup : snapshot.receipts.lookup receiver.1 with
      | none => rfl
      | some fees =>
        apply BitVec.eq_of_toNat_eq
        show fees.toNat = 0
        by_contra hfees
        exact hunknown (.inl ⟨receiver.1, fees, hlookup, Nat.pos_of_ne_zero hfees⟩)
    have hvalues : ∀ allocation ∈ snapshot.allocations, ∀ value,
        snapshot.ravs.lookup allocation.id = some value → value = 0 := by
      intro allocation hallocation value hvalue
      apply BitVec.eq_of_toNat_eq
      show value.toNat = 0
      by_contra hpositive
      exact hunknown (.inr ⟨allocation, hallocation, value, hvalue,
        Nat.pos_of_ne_zero hpositive⟩)
    rw [hreceipts, indexerRavs_zero hvalues hravs] at hpos
    exact absurd hpos (by decide)
  · cases h

end Decisions

end Snapshot

/-! ## A snapshot of three receivers -/

def quarterMargin : Settings := ⟨.empty, 4 / 5, true, 2_500, 5 * grt⟩

/-- An indexer with 30 GRT of RAVs and no account, an idle account, and one that has matured. -/
def threeReceivers : Snapshot where
  allocations := [⟨.repeatByte 20 0xaa, .repeatByte 20 0x11⟩]
  escrowAccounts := AList.insert (.repeatByte 20 0x22) ⟨20 * grt, 0, 0⟩
    (AList.insert (.repeatByte 20 0x33) ⟨20 * grt, 5 * grt, 900⟩ ∅)
  receipts := .empty
  ravs := AList.insert (.repeatByte 20 0xaa) (30 * grt) ∅
  chainNow := some 1_000

def threeBatches : CyclePlan where
  totalTarget := 68 * grt
  adjustments := [(.repeatByte 20 0x11, 64 * grt)]
  thaws := [(.repeatByte 20 0x22, BitVec.ofNat 128 (175 * 10 ^ 17))]
  withdrawals := [.repeatByte 20 0x33]

end GraphTally.EscrowManager
