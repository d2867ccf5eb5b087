import GraphTally.EscrowManager.Ledger
import GraphTally.Theory.Pinned
import Mathlib.Logic.Relation

/-!
# Reads that lag behind

The manager and the chain, in any interleaving with collections: cycles planned on accounts that
the subgraph may show late, and transactions that are executed, revert, or are given up on and
executed later still.
-/

open GraphTally.Theory

namespace GraphTally.EscrowManager

/-- The chain after a block. -/
structure Version where
  ledger : Ledger
  timestamp : Nat

/-- What others are assumed to do: time passes, and receivers collect. -/
structure Elsewhere (before after : Version) : Prop where
  timestamp_le : before.timestamp ≤ after.timestamp
  collected : ∀ receiver,
    Relation.ReflTransGen Holding.Collects (before.ledger receiver) (after.ledger receiver)

inductive Transaction where
  | thaw (thaws : List (Address × U128))
  | deposit (deposits : List (Address × U128))
  | withdraw (receivers : List Address)

namespace Transaction

def calls (block : Block) : Transaction → List (KeyCall Address Holding)
  | .thaw thaws => thawCalls block thaws
  | .deposit deposits => depositCalls deposits
  | .withdraw receivers => withdrawCalls block receivers

def receivers : Transaction → List Address
  | .thaw thaws => thaws.map Prod.fst
  | .deposit deposits => deposits.map Prod.fst
  | .withdraw receivers => receivers

/-- What the wallet pays for it. -/
def spent : Transaction → Nat
  | .deposit deposits => totalOf deposits
  | .thaw _ | .withdraw _ => 0

end Transaction

/-- What a transaction meets besides the accounts. -/
structure Conditions where
  paused : Bool
  wallet : Nat
  allowance : Nat

/-- What is assumed of `multicall`: all calls are made or none, none while the contract is paused,
and none of a deposit that the wallet does not hold or has not approved. -/
def Transaction.execute (transaction : Transaction) (conditions : Conditions) (block : Block)
    (ledger : Ledger) : Option Ledger :=
  if conditions.paused = false ∧ transaction.spent ≤ conditions.wallet ∧
      transaction.spent ≤ conditions.allowance then
    batch (transaction.calls block) ledger
  else none

/-- The chain, what the cycle under way has still to send, what was given up on and is not on the
chain, and what was and is, each with the ledger it found there. -/
structure World where
  chain : Chain Version
  pending : List Transaction
  lost : List Transaction
  late : List (Transaction × Ledger)

/-- The chain's last ledger. -/
def World.ledger (world : World) : Ledger := world.chain.head.ledger

/-- Before the first cycle. -/
def World.start (chain : Chain Version) : World := ⟨chain, [], [], []⟩

section Move

variable (rounding : Rounding) (profile : Profile) (settings : Settings)
  (allowed : Snapshot → CyclePlan → Prop)

inductive Move (world : World) : World → Prop
  | elsewhere {version : Version} : Elsewhere world.chain.head version →
      Move world { world with chain := world.chain.extend version }
  | plan {seen : Version} {snapshot : Snapshot} {plan : CyclePlan}
      {deposits : List (Address × U128)} :
      world.pending = [] → world.chain.Visible seen → snapshot.Shows seen.ledger →
      (∀ now ∈ snapshot.chainNow, now.toNat ≤ world.chain.head.timestamp) →
      Planned rounding profile settings snapshot plan deposits → allowed snapshot plan →
      Move world { world with
        pending := [.thaw plan.thaws, .deposit deposits, .withdraw plan.withdrawals] }
  /-- A transaction whose receipt is waited for pins the accounts the next cycle reads. -/
  | land {transaction : Transaction} {pending : List Transaction} {conditions : Conditions}
      {block : Block} {ledger : Ledger} :
      world.pending = transaction :: pending → world.chain.head.timestamp ≤ block.timestamp →
      transaction.execute conditions block world.ledger = some ledger →
      Move world { world with chain := world.chain.land ⟨ledger, block.timestamp⟩, pending }
  /-- So does one that was reverted: only the block is read from its receipt. -/
  | revert {transaction : Transaction} {pending : List Transaction} {timestamp : Nat} :
      world.pending = transaction :: pending → world.chain.head.timestamp ≤ timestamp →
      Move world { world with chain := world.chain.land ⟨world.ledger, timestamp⟩, pending }
  /-- An empty one is not sent, and one that is refused is not on its way. -/
  | skip {transaction : Transaction} {pending : List Transaction} :
      world.pending = transaction :: pending → Move world { world with pending }
  /-- After thirty seconds without a receipt, the next one is sent. -/
  | giveUp {transaction : Transaction} {pending : List Transaction} :
      world.pending = transaction :: pending →
      Move world { world with pending, lost := transaction :: world.lost }
  /-- It may be executed all the same, at any time, and pins nothing. -/
  | landLate {before after : List Transaction} {transaction : Transaction}
      {conditions : Conditions} {block : Block} {ledger : Ledger} :
      world.lost = before ++ transaction :: after →
      world.chain.head.timestamp ≤ block.timestamp →
      transaction.execute conditions block world.ledger = some ledger →
      Move world { world with
        chain := world.chain.extend ⟨ledger, block.timestamp⟩
        lost := before ++ after
        late := (transaction, world.ledger) :: world.late }

end Move

/-! ## What a transaction does to an account -/

namespace Transaction

/-- A receiver's account after a transaction that is executed. -/
inductive Affects (block : Block) (receiver : Address) (before : Holding) :
    Transaction → Holding → Prop
  | other {transaction : Transaction} : receiver ∉ transaction.receivers →
      Affects block receiver before transaction before
  | thaw {thaws : List (Address × U128)} {amount : U128} : (receiver, amount) ∈ thaws →
      Affects block receiver before (.thaw thaws) ⟨before.balance, amount.toNat, block.thawEnd⟩
  | deposit {deposits : List (Address × U128)} {amount : U128} : (receiver, amount) ∈ deposits →
      Affects block receiver before (.deposit deposits)
        ⟨before.balance + amount.toNat, before.thawing, before.thawEnd⟩
  | withdraw {receivers : List Address} : receiver ∈ receivers →
      Affects block receiver before (.withdraw receivers) ⟨before.net, 0, 0⟩

variable {transaction : Transaction} {conditions : Conditions} {block : Block}
  {ledger after : Ledger}

theorem calls_keys (block : Block) (transaction : Transaction) :
    (transaction.calls block).map Prod.fst = transaction.receivers := by
  cases transaction with
  | thaw thaws => exact thawCalls_keys block thaws
  | deposit deposits => exact depositCalls_keys deposits
  | withdraw receivers => exact withdrawCalls_keys block receivers

theorem execute_affects (hnodup : transaction.receivers.Nodup)
    (h : transaction.execute conditions block ledger = some after) (receiver : Address) :
    Affects block receiver (ledger receiver) transaction (after receiver) := by
  unfold execute at h
  split at h
  · rw [← transaction.calls_keys block] at hnodup
    obtain ⟨hcalls, hkept⟩ := (batch_eq_some hnodup).mp h
    by_cases hmem : receiver ∈ (transaction.calls block).map Prod.fst
    · obtain ⟨call, hcall, rfl⟩ := List.mem_map.mp hmem
      have hresult := hcalls call hcall
      cases transaction with
      | thaw thaws =>
        obtain ⟨⟨receiver, amount⟩, hentry, rfl⟩ := List.mem_map.mp hcall
        rw [(Holding.thaw_eq_some.mp hresult).2]
        exact .thaw hentry
      | deposit deposits =>
        obtain ⟨⟨receiver, amount⟩, hentry, rfl⟩ := List.mem_map.mp hcall
        rw [(Holding.deposit_eq_some.mp hresult).2]
        exact .deposit hentry
      | withdraw receivers =>
        obtain ⟨receiver, hentry, rfl⟩ := List.mem_map.mp hcall
        rw [(Holding.withdraw_eq_some.mp hresult).2]
        exact .withdraw hentry
    · rw [hkept receiver hmem]
      rw [transaction.calls_keys block] at hmem
      exact .other hmem
  · cases h

theorem Affects.eq_of_not_mem {before after : Holding} {receiver : Address}
    (h : Affects block receiver before transaction after)
    (hother : receiver ∉ transaction.receivers) : after = before := by
  cases h with
  | other _ => rfl
  | thaw hmem | deposit hmem => exact absurd (List.mem_map_of_mem hmem) hother
  | withdraw hmem => exact absurd hmem hother

theorem execute_isSome (hnodup : transaction.receivers.Nodup) :
    (transaction.execute conditions block ledger).isSome ↔
      (conditions.paused = false ∧ transaction.spent ≤ conditions.wallet ∧
        transaction.spent ≤ conditions.allowance) ∧
      ∀ call ∈ transaction.calls block, (call.2 (ledger call.1)).isSome := by
  rw [← transaction.calls_keys block] at hnodup
  unfold execute
  split
  · rename_i hmet
    rw [and_iff_right hmet, batch_isSome_iff hnodup]
  · rename_i hunmet
    exact iff_of_false Bool.false_ne_true fun h ↦ hunmet h.1

end Transaction

/-! ## What may have happened since an account was read -/

/-- What executing a transaction on a ledger may add to what a receiver counts on: its deposit, or
what a thaw leaves of the one that it restarts. -/
def raiseOf (receiver : Address) : Transaction × Ledger → Nat
  | (.thaw thaws, ledger) => (thaws.map fun entry ↦
      if entry.1 = receiver then (ledger receiver).thawing - entry.2.toNat else 0).sum
  | (.deposit deposits, _) => (deposits.map fun entry ↦
      if entry.1 = receiver then entry.2.toNat else 0).sum
  | (.withdraw _, _) => 0

def raised (late : List (Transaction × Ledger)) (receiver : Address) : Nat :=
  (late.map (raiseOf receiver)).sum

/-- A thaw for the receiver that was given up on was executed after all. -/
def ThawedLate (late : List (Transaction × Ledger)) (receiver : Address) : Prop :=
  ∃ thaws ledger, (.thaw thaws, ledger) ∈ late ∧ receiver ∈ thaws.map Prod.fst

/-- No thaw was started, and if one was running it still is, or is cancelled. -/
structure Unstarted (before after : Holding) : Prop where
  thawing_le : after.thawing ≤ before.thawing
  thawEnd_eq : after.thawEnd = 0 ∨ after.thawEnd = before.thawEnd

/-- Collections, and what was executed late. -/
structure Drift (late : List (Transaction × Ledger)) (before after : Version) : Prop where
  timestamp_le : before.timestamp ≤ after.timestamp
  balance_le : ∀ receiver, (after.ledger receiver).balance ≤
    (before.ledger receiver).balance + raised late receiver
  net_le : ∀ receiver, (after.ledger receiver).net ≤
    (before.ledger receiver).net + raised late receiver
  unstarted : ∀ receiver, ThawedLate late receiver ∨
    Unstarted (before.ledger receiver) (after.ledger receiver)

theorem Unstarted.refl (holding : Holding) : Unstarted holding holding where
  thawing_le := Nat.le_refl _
  thawEnd_eq := .inr rfl

theorem Unstarted.trans {first second third : Holding} (h : Unstarted first second)
    (h' : Unstarted second third) : Unstarted first third where
  thawing_le := h'.thawing_le.trans h.thawing_le
  thawEnd_eq := by
    rcases h'.thawEnd_eq with hzero | hsame
    · exact .inl hzero
    · rw [hsame]
      exact h.thawEnd_eq

theorem raised_append (late later : List (Transaction × Ledger)) (receiver : Address) :
    raised (later ++ late) receiver = raised later receiver + raised late receiver := by
  rw [raised, List.map_append, List.sum_append]
  rfl

theorem ThawedLate.mono {late late' : List (Transaction × Ledger)} {receiver : Address}
    (h : ThawedLate late receiver) (hsubset : late ⊆ late') : ThawedLate late' receiver := by
  obtain ⟨thaws, ledger, hmem, hreceiver⟩ := h
  exact ⟨thaws, ledger, hsubset hmem, hreceiver⟩

namespace Drift

theorem refl (late : List (Transaction × Ledger)) (version : Version) :
    Drift late version version where
  timestamp_le := Nat.le_refl _
  balance_le _ := Nat.le_add_right _ _
  net_le _ := Nat.le_add_right _ _
  unstarted _ := .inr (.refl _)

theorem trans {late later : List (Transaction × Ledger)} {first second third : Version}
    (h : Drift late first second) (h' : Drift later second third) :
    Drift (later ++ late) first third where
  timestamp_le := h.timestamp_le.trans h'.timestamp_le
  balance_le receiver := by
    have hle := h.balance_le receiver
    have hle' := h'.balance_le receiver
    rw [raised_append]
    omega
  net_le receiver := by
    have hle := h.net_le receiver
    have hle' := h'.net_le receiver
    rw [raised_append]
    omega
  unstarted receiver := by
    rcases h.unstarted receiver with hthawed | hunstarted
    · exact .inl (hthawed.mono (List.subset_append_right _ _))
    · rcases h'.unstarted receiver with hthawed | hunstarted'
      · exact .inl (hthawed.mono (List.subset_append_left _ _))
      · exact .inr (hunstarted.trans hunstarted')

end Drift

/-- A collection only ever takes. -/
structure Lowered (before after : Holding) : Prop where
  balance_le : after.balance ≤ before.balance
  net_le : after.net ≤ before.net
  unstarted : Unstarted before after

theorem Holding.Collects.lowered {before after : Holding} (h : before.Collects after) :
    Lowered before after := by
  have hbalance := h.balance_le
  have hthawing := h.thawing_le
  have hshrinks := h.shrinks_le
  refine ⟨hbalance, ?_, hthawing, ?_⟩
  · unfold Holding.net
    omega
  · by_cases hcancelled : after.thawing = 0
    · exact .inl (h.cancelled hcancelled)
    · exact .inr (h.running hcancelled)

theorem lowered_of_collected {before after : Holding}
    (h : Relation.ReflTransGen Holding.Collects before after) : Lowered before after := by
  induction h with
  | refl => exact ⟨Nat.le_refl _, Nat.le_refl _, .refl _⟩
  | tail _ hcollects ih =>
    obtain ⟨hbalance, hnet, hunstarted⟩ := hcollects.lowered
    exact ⟨hbalance.trans ih.balance_le, hnet.trans ih.net_le, ih.unstarted.trans hunstarted⟩

theorem Elsewhere.drift {before after : Version} (h : Elsewhere before after) :
    Drift [] before after where
  timestamp_le := h.timestamp_le
  balance_le receiver := (lowered_of_collected (h.collected receiver)).balance_le
  net_le receiver := (lowered_of_collected (h.collected receiver)).net_le
  unstarted receiver := .inr (lowered_of_collected (h.collected receiver)).unstarted

theorem raiseOf_deposit {deposits : List (Address × U128)} {receiver : Address} {amount : U128}
    (h : (receiver, amount) ∈ deposits) (ledger : Ledger) :
    amount.toNat ≤ raiseOf receiver (.deposit deposits, ledger) := by
  apply List.le_sum_of_mem
  exact List.mem_map.mpr ⟨(receiver, amount), h, if_pos rfl⟩

theorem raiseOf_thaw {thaws : List (Address × U128)} {receiver : Address} {amount : U128}
    (h : (receiver, amount) ∈ thaws) (ledger : Ledger) :
    (ledger receiver).thawing - amount.toNat ≤ raiseOf receiver (.thaw thaws, ledger) := by
  apply List.le_sum_of_mem
  exact List.mem_map.mpr ⟨(receiver, amount), h, if_pos rfl⟩

/-- A transaction that is executed late is part of what may have happened. -/
theorem Transaction.drift {transaction : Transaction} {conditions : Conditions} {block : Block}
    {version : Version} {ledger : Ledger} (hnodup : transaction.receivers.Nodup)
    (htime : version.timestamp ≤ block.timestamp)
    (h : transaction.execute conditions block version.ledger = some ledger) :
    Drift [(transaction, version.ledger)] version ⟨ledger, block.timestamp⟩ := by
  have hone : ∀ receiver, raised [(transaction, version.ledger)] receiver =
      raiseOf receiver (transaction, version.ledger) := fun _ ↦ Nat.add_zero _
  have haccount : ∀ receiver,
      (ledger receiver).balance ≤ (version.ledger receiver).balance +
          raiseOf receiver (transaction, version.ledger) ∧
        (ledger receiver).net ≤ (version.ledger receiver).net +
          raiseOf receiver (transaction, version.ledger) ∧
        (ThawedLate [(transaction, version.ledger)] receiver ∨
          Unstarted (version.ledger receiver) (ledger receiver)) := by
    intro receiver
    have haffects := execute_affects hnodup h receiver
    generalize ledger receiver = after at haffects ⊢
    cases haffects with
    | other _ => exact ⟨Nat.le_add_right _ _, Nat.le_add_right _ _, .inr (.refl _)⟩
    | @thaw thaws amount hentry =>
      have hraise := raiseOf_thaw hentry version.ledger
      have hthawed : ThawedLate [(.thaw thaws, version.ledger)] receiver :=
        ⟨thaws, _, List.mem_singleton_self _, List.mem_map_of_mem hentry⟩
      refine ⟨Nat.le_add_right _ _, ?_, .inl hthawed⟩
      unfold Holding.net
      dsimp only
      omega
    | @deposit deposits amount hentry =>
      have hraise := raiseOf_deposit hentry version.ledger
      refine ⟨Nat.add_le_add_left hraise _, ?_, .inr ⟨Nat.le_refl _, .inr rfl⟩⟩
      unfold Holding.net
      dsimp only
      omega
    | withdraw hentry =>
      refine ⟨?_, Nat.le_add_right _ _, .inr ⟨Nat.zero_le _, .inl rfl⟩⟩
      exact (Nat.sub_le _ _).trans (Nat.le_add_right _ _)
  refine ⟨htime, fun receiver ↦ ?_, fun receiver ↦ ?_, fun receiver ↦ (haccount receiver).2.2⟩
  · rw [hone]
    exact (haccount receiver).1
  · rw [hone]
    exact (haccount receiver).2.1

/-! ## What the transactions still to be sent rest on -/

/-- It is still as good as when it was planned, but for thaws that were executed late. -/
def Transaction.Holds (late : List (Transaction × Ledger)) (version : Version) :
    Transaction → Prop
  | .thaw thaws => ∀ receiver amount, (receiver, amount) ∈ thaws → 0 < amount.toNat ∧
      (ThawedLate late receiver ∨ (version.ledger receiver).thawing = 0)
  | .deposit deposits => ∀ receiver amount, (receiver, amount) ∈ deposits → 0 < amount.toNat
  | .withdraw receivers => ∀ receiver ∈ receivers,
      ThawedLate late receiver ∨ (version.ledger receiver).thawEnd < version.timestamp

/-- The invariant of the manager and the chain. -/
structure Sound (world : World) : Prop where
  steady : world.chain.Steady (Drift world.late)
  apart : (world.pending.flatMap Transaction.receivers).Nodup
  lost : ∀ transaction ∈ world.lost, transaction.receivers.Nodup
  holds : ∀ transaction ∈ world.pending, transaction.Holds world.late world.chain.head

-- It rests on its own receivers' thaws only, and on time not going back.
theorem Transaction.Holds.of_unstarted {late late' : List (Transaction × Ledger)}
    {before after : Version} {transaction : Transaction} (h : transaction.Holds late before)
    (hsubset : late ⊆ late') (htime : before.timestamp ≤ after.timestamp)
    (hkept : ∀ receiver ∈ transaction.receivers, ThawedLate late' receiver ∨
      Unstarted (before.ledger receiver) (after.ledger receiver)) :
    transaction.Holds late' after := by
  cases transaction with
  | thaw thaws =>
    intro receiver amount hmem
    obtain ⟨hpos, hidle⟩ := h receiver amount hmem
    refine ⟨hpos, ?_⟩
    rcases hkept receiver (List.mem_map_of_mem hmem) with hthawed | hunstarted
    · exact .inl hthawed
    · rcases hidle with hthawed | hidle
      · exact .inl (hthawed.mono hsubset)
      · have hle := hunstarted.thawing_le
        right
        omega
  | deposit deposits => exact h
  | withdraw receivers =>
    intro receiver hmem
    rcases hkept receiver hmem with hthawed | hunstarted
    · exact .inl hthawed
    · rcases h receiver hmem with hthawed | hlt
      · exact .inl (hthawed.mono hsubset)
      · have hend := hunstarted.thawEnd_eq
        right
        omega

section Sound

variable {rounding : Rounding} {profile : Profile} {settings : Settings}
  {allowed : Snapshot → CyclePlan → Prop} {world world' : World}

theorem Planned.holds {snapshot : Snapshot} {plan : CyclePlan}
    {deposits : List (Address × U128)}
    (h : Planned rounding profile settings snapshot plan deposits)
    (hmargin : settings.withdrawMarginBps.toNat ≤ 10000) {seen : Version} {timestamp : Nat}
    (hshows : snapshot.Shows seen.ledger)
    (hnow : ∀ now ∈ snapshot.chainNow, now.toNat ≤ timestamp) {transaction : Transaction}
    (hmem : transaction ∈ [.thaw plan.thaws, .deposit deposits, .withdraw plan.withdrawals])
    (late : List (Transaction × Ledger)) : transaction.Holds late ⟨seen.ledger, timestamp⟩ := by
  have hgrounded := h.grounded hmargin
  simp only [List.mem_cons, List.not_mem_nil, or_false] at hmem
  rcases hmem with rfl | rfl | rfl
  · intro receiver amount hmem
    obtain ⟨hidle, hpos, -⟩ := hgrounded.thaws receiver amount hmem
    refine ⟨hpos, .inr ?_⟩
    rw [← hshows receiver]
    exact hidle
  · intro receiver amount hmem
    exact (hgrounded.deposits receiver amount hmem).1
  · intro receiver hmem
    obtain ⟨-, -, now, hchain, hlt⟩ := hgrounded.withdrawals receiver hmem
    right
    rw [← hshows receiver]
    exact Nat.lt_of_lt_of_le hlt (hnow now hchain)

theorem Planned.receivers_nodup {snapshot : Snapshot} {plan : CyclePlan}
    {deposits : List (Address × U128)}
    (h : Planned rounding profile settings snapshot plan deposits)
    (hmargin : settings.withdrawMarginBps.toNat ≤ 10000) :
    ([Transaction.thaw plan.thaws, .deposit deposits, .withdraw plan.withdrawals].flatMap
      Transaction.receivers).Nodup := by
  have hapart := (h.grounded hmargin).apart ⟨0, 1, by decide⟩ ⟨0, 1, by decide⟩
  unfold Apart transactions at hapart
  simpa only [List.flatten_cons, List.flatten_nil, List.map_append, List.append_nil,
    thawCalls_keys, depositCalls_keys, withdrawCalls_keys, List.flatMap_cons,
    List.flatMap_nil, Transaction.receivers, List.map_nil] using hapart

/-- Whatever is written that the manager does not wait for. -/
theorem Sound.extend (h : Sound world) {late : List (Transaction × Ledger)} {version : Version}
    (hdrift : Drift late world.chain.head version) {lost : List Transaction}
    (hlost : lost ⊆ world.lost) :
    Sound ⟨world.chain.extend version, world.pending, lost, late ++ world.late⟩ where
  steady := h.steady.extend (Drift.refl _) (fun _ _ _ ↦ Drift.trans) hdrift
  apart := h.apart
  lost transaction hmem := h.lost transaction (hlost hmem)
  holds transaction hmem := by
    refine (h.holds transaction hmem).of_unstarted (List.subset_append_right _ _)
      hdrift.timestamp_le fun receiver _ ↦ ?_
    exact (hdrift.unstarted receiver).imp_left fun hthawed ↦
      hthawed.mono (List.subset_append_left _ _)

/-- Whatever the manager has waited for, and that changes the accounts of one transaction only. -/
theorem Sound.land (h : Sound world) {transaction : Transaction} {pending : List Transaction}
    (hpending : world.pending = transaction :: pending) {version : Version}
    (htime : world.chain.head.timestamp ≤ version.timestamp)
    (hkept : ∀ receiver, receiver ∉ transaction.receivers →
      version.ledger receiver = world.ledger receiver) :
    Sound { world with chain := world.chain.land version, pending } := by
  obtain ⟨hsteady, hapart, hlost, hholds⟩ := h
  rw [hpending, List.flatMap_cons, List.nodup_append'] at hapart
  obtain ⟨-, hrest, hdisjoint⟩ := hapart
  refine ⟨Chain.steady_land (Drift.refl _), hrest, hlost, fun later hmem ↦ ?_⟩
  have hlater := hholds later (hpending ▸ List.mem_cons_of_mem _ hmem)
  refine hlater.of_unstarted (fun _ ↦ id) htime fun receiver hreceiver ↦ .inr ?_
  have hother : receiver ∉ transaction.receivers :=
    fun hin ↦ hdisjoint hin (List.mem_flatMap.mpr ⟨later, hmem, hreceiver⟩)
  show Unstarted (world.ledger receiver) (version.ledger receiver)
  rw [hkept receiver hother]
  exact .refl _

/-- Whatever is not sent. -/
theorem Sound.drop (h : Sound world) {transaction : Transaction} {pending : List Transaction}
    (hpending : world.pending = transaction :: pending) : Sound { world with pending } := by
  obtain ⟨hsteady, hapart, hlost, hholds⟩ := h
  rw [hpending] at hapart hholds
  rw [List.flatMap_cons, List.nodup_append'] at hapart
  exact ⟨hsteady, hapart.2.1, hlost, fun later hmem ↦ hholds later (List.mem_cons_of_mem _ hmem)⟩

theorem Sound.nodup (h : Sound world) {transaction : Transaction}
    (hmem : transaction ∈ world.pending) : transaction.receivers.Nodup :=
  (List.nodup_flatMap.mp h.apart).1 transaction hmem

/-- Every move keeps the invariant. -/
theorem Sound.move (h : Sound world) (hmargin : settings.withdrawMarginBps.toNat ≤ 10000)
    (hmove : Move rounding profile settings allowed world world') : Sound world' := by
  cases hmove with
  | elsewhere helsewhere => exact h.extend helsewhere.drift fun _ ↦ id
  | plan hidle hvisible hshows hnow hplanned _ =>
    refine ⟨h.steady, hplanned.receivers_nodup hmargin, h.lost, fun transaction hmem ↦ ?_⟩
    have hdrift := h.steady _ hvisible
    exact (hplanned.holds hmargin hshows hnow hmem world.late).of_unstarted (fun _ ↦ id)
      (Nat.le_refl _) fun receiver _ ↦ hdrift.unstarted receiver
  | @land transaction pending conditions block ledger hpending htime hexecute =>
    refine h.land hpending htime fun receiver hother ↦ ?_
    have haffects := Transaction.execute_affects (h.nodup (hpending ▸ List.mem_cons_self)) hexecute
      receiver
    exact haffects.eq_of_not_mem hother
  | revert hpending htime => exact h.land hpending htime fun _ _ ↦ rfl
  | skip hpending => exact h.drop hpending
  | @giveUp transaction pending hpending =>
    obtain ⟨hsteady, hapart, hlost, hholds⟩ := h.drop hpending
    refine ⟨hsteady, hapart, ?_, hholds⟩
    intro given hmem
    rcases List.mem_cons.mp hmem with rfl | hmem
    · exact h.nodup (hpending ▸ List.mem_cons_self)
    · exact hlost given hmem
  | @landLate before after transaction conditions block ledger hsplit htime hexecute =>
    have hnodup : transaction.receivers.Nodup := h.lost transaction (by simp [hsplit])
    refine h.extend (Transaction.drift hnodup htime hexecute) fun given hmem ↦ ?_
    rw [hsplit]
    exact ((List.sublist_cons_self transaction after).append_left before).subset hmem

/-- Before the first cycle the reads have to miss none of the payer's transactions. -/
theorem sound_start {chain : Chain Version} (h : chain.Steady Elsewhere) :
    Sound (.start chain) where
  steady seen hvisible := (h seen hvisible).drift
  apart := List.nodup_nil
  lost _ hmem := absurd hmem List.not_mem_nil
  holds _ hmem := absurd hmem List.not_mem_nil

/-- It holds in everything that is reached. -/
theorem Sound.run (h : Sound world) (hmargin : settings.withdrawMarginBps.toNat ≤ 10000)
    (hrun : Relation.ReflTransGen (Move rounding profile settings allowed) world world') :
    Sound world' := by
  induction hrun with
  | refl => exact h
  | tail _ hmove ih => exact ih.move hmargin hmove

end Sound

/-! ## Nothing is sent on what is out of date -/

section Execute

variable {late : List (Transaction × Ledger)} {version : Version} {conditions : Conditions}
  {block : Block}

theorem execute_thaw_isSome {thaws : List (Address × U128)}
    (hnodup : (Transaction.thaw thaws).receivers.Nodup)
    (h : (Transaction.thaw thaws).Holds late version) :
    ((Transaction.thaw thaws).execute conditions block version.ledger).isSome ↔
      conditions.paused = false ∧ ∀ receiver amount, (receiver, amount) ∈ thaws →
        amount.toNat ≤ (version.ledger receiver).balance := by
  have hcall : ∀ receiver amount, (receiver, amount) ∈ thaws →
      (((version.ledger receiver).thaw block amount.toNat).isSome ↔
        amount.toNat ≤ (version.ledger receiver).balance) := by
    intro receiver amount hmem
    have hpos := (h receiver amount hmem).1
    rw [Holding.thaw, Option.isSome_ite]
    exact and_iff_right hpos
  rw [Transaction.execute_isSome hnodup]
  refine and_congr ⟨fun h ↦ h.1, fun h ↦ ⟨h, Nat.zero_le _, Nat.zero_le _⟩⟩ ⟨?_, ?_⟩
  · intro h receiver amount hmem
    exact (hcall receiver amount hmem).mp (h _ (List.mem_map_of_mem hmem))
  · intro h call hmem
    obtain ⟨⟨receiver, amount⟩, hentry, rfl⟩ := List.mem_map.mp hmem
    exact (hcall receiver amount hentry).mpr (h receiver amount hentry)

theorem execute_deposit_isSome {deposits : List (Address × U128)}
    (hnodup : (Transaction.deposit deposits).receivers.Nodup)
    (h : (Transaction.deposit deposits).Holds late version) :
    ((Transaction.deposit deposits).execute conditions block version.ledger).isSome ↔
      conditions.paused = false ∧ totalOf deposits ≤ conditions.wallet ∧
        totalOf deposits ≤ conditions.allowance := by
  rw [Transaction.execute_isSome hnodup]
  refine and_iff_left fun call hmem ↦ ?_
  obtain ⟨⟨receiver, amount⟩, hentry, rfl⟩ := List.mem_map.mp hmem
  show ((version.ledger receiver).deposit amount.toNat).isSome
  rw [Holding.deposit, if_pos (h receiver amount hentry)]
  rfl

theorem execute_withdraw_isSome {receivers : List Address}
    (hnodup : (Transaction.withdraw receivers).receivers.Nodup)
    (hblock : version.timestamp ≤ block.timestamp)
    (hmatured : ∀ receiver ∈ receivers, (version.ledger receiver).thawEnd < version.timestamp) :
    ((Transaction.withdraw receivers).execute conditions block version.ledger).isSome ↔
      conditions.paused = false ∧
        ∀ receiver ∈ receivers, (version.ledger receiver).thawEnd ≠ 0 := by
  have hcall : ∀ receiver ∈ receivers, (((version.ledger receiver).withdraw block).isSome ↔
      (version.ledger receiver).thawEnd ≠ 0) := by
    intro receiver hmem
    rw [Holding.withdraw, Option.isSome_ite]
    exact and_iff_left (Nat.lt_of_lt_of_le (hmatured receiver hmem) hblock)
  rw [Transaction.execute_isSome hnodup]
  refine and_congr ⟨fun h ↦ h.1, fun h ↦ ⟨h, Nat.zero_le _, Nat.zero_le _⟩⟩ ⟨?_, ?_⟩
  · intro h receiver hmem
    exact (hcall receiver hmem).mp (h _ (List.mem_map_of_mem hmem))
  · intro h call hmem
    obtain ⟨receiver, hentry, rfl⟩ := List.mem_map.mp hmem
    exact (hcall receiver hentry).mpr (h receiver hentry)

end Execute

/-- Whenever a transaction comes to be sent, no thaw in it restarts one that is running, unless one
for the same receiver that was given up on was executed after all.  On an open contract a batch of
thaws reverts exactly when one takes more than is left of an account, one of deposits only for want
of tokens or of allowance, and one of withdrawals, but for the same exception, exactly when a thaw
was cancelled meanwhile. -/
theorem landing_safe (rounding : Rounding) (profile : Profile) (settings : Settings)
    (hmargin : settings.withdrawMarginBps.toNat ≤ 10000) (allowed : Snapshot → CyclePlan → Prop)
    (chain : Chain Version) (hsteady : chain.Steady Elsewhere) (world : World)
    (hrun : Relation.ReflTransGen (Move rounding profile settings allowed) (.start chain) world)
    (transaction : Transaction) (pending : List Transaction)
    (hpending : world.pending = transaction :: pending) (conditions : Conditions) (block : Block)
    (hblock : world.chain.head.timestamp ≤ block.timestamp) :
    match transaction with
    | .thaw thaws =>
      (∀ receiver amount, (receiver, amount) ∈ thaws →
        ThawedLate world.late receiver ∨ (world.ledger receiver).thawing = 0) ∧
      ((transaction.execute conditions block world.ledger).isSome ↔ conditions.paused = false ∧
        ∀ receiver amount, (receiver, amount) ∈ thaws →
          amount.toNat ≤ (world.ledger receiver).balance)
    | .deposit deposits =>
      (transaction.execute conditions block world.ledger).isSome ↔ conditions.paused = false ∧
        totalOf deposits ≤ conditions.wallet ∧ totalOf deposits ≤ conditions.allowance
    | .withdraw receivers =>
      (∀ receiver ∈ receivers, ¬ThawedLate world.late receiver) →
        ((transaction.execute conditions block world.ledger).isSome ↔
          conditions.paused = false ∧
            ∀ receiver ∈ receivers, (world.ledger receiver).thawEnd ≠ 0) := by
  have hsound := (sound_start hsteady).run hmargin hrun
  have hmem : transaction ∈ world.pending := hpending ▸ List.mem_cons_self
  have hnodup := hsound.nodup hmem
  have hholds := hsound.holds transaction hmem
  cases transaction with
  | thaw thaws =>
    have hidle : ∀ receiver amount, (receiver, amount) ∈ thaws →
        ThawedLate world.late receiver ∨ (world.ledger receiver).thawing = 0 :=
      fun receiver amount hentry ↦ (hholds receiver amount hentry).2
    exact ⟨hidle, execute_thaw_isSome hnodup hholds⟩
  | deposit deposits => exact execute_deposit_isSome hnodup hholds
  | withdraw receivers =>
    intro hnone
    apply execute_withdraw_isSome hnodup hblock
    intro receiver hentry
    exact (hholds receiver hentry).resolve_left (hnone receiver hentry)

/-! ## The chain of three receivers -/

def threeChain : Chain Version := ⟨[], ⟨threeLedger, 1_000⟩, 0⟩

/-- What the first cycle has to send. -/
def threePending : List Transaction :=
  [.thaw threeBatches.thaws, .deposit threeBatches.adjustments, .withdraw threeBatches.withdrawals]

theorem threeChain_steady : threeChain.Steady Elsewhere :=
  Chain.steady_start (fun _ ↦ ⟨Nat.le_refl _, fun _ ↦ .refl⟩) _

theorem threeChain_plan (allowed : Snapshot → CyclePlan → Prop) (world : World)
    (hallowed : allowed threeReceivers threeBatches) (hidle : world.pending = [])
    (hvisible : world.chain.Visible threeChain.head)
    (htime : threeChain.head.timestamp ≤ world.chain.head.timestamp) :
    Move .exact .debug quarterMargin allowed world { world with pending := threePending } := by
  refine .plan hidle hvisible (fun _ ↦ rfl) ?_ threeBatches_planned hallowed
  intro now hnow
  obtain rfl := Option.some_inj.mp hnow
  exact htime

/-- After the thaw. -/
def threeThawed : Ledger := attempt threeLedger (thawCalls soon threeBatches.thaws)

/-- The first cycle has given up on its thaw, which was executed after all, and has sent nothing
else; the second one reads what the first has read. -/
def threeThawedLate : World where
  chain := threeChain.extend ⟨threeThawed, soon.timestamp⟩
  pending := threePending
  lost := []
  late := [(.thaw threeBatches.thaws, threeLedger)]

theorem threeThawedLate_run : Relation.ReflTransGen
    (Move .exact .debug quarterMargin fun _ _ ↦ True) (.start threeChain) threeThawedLate := by
  have hvisible : threeChain.Visible threeChain.head := ⟨0, Nat.le_refl _, rfl⟩
  have hstill : threeThawedLate.chain.Visible threeChain.head := ⟨0, Nat.le_refl _, rfl⟩
  have hthaw : (Transaction.thaw threeBatches.thaws).execute ⟨false, 0, 0⟩ soon threeLedger =
      some threeThawed := rfl
  have hfirst := Relation.ReflTransGen.single
    (threeChain_plan (fun _ _ ↦ True) (.start threeChain) trivial rfl hvisible (Nat.le_refl _))
  have hgiven := (((hfirst.tail (.giveUp rfl)).tail (.skip rfl)).tail (.skip rfl))
  have hlate := hgiven.tail (@Move.landLate _ _ _ _ _ [] [] _ _ _ _ rfl (by decide) hthaw)
  exact hlate.tail (threeChain_plan _ _ trivial rfl hstill (by decide))

/-- The second cycle restarts the thaw. -/
theorem landing_safe_three :
    ThawedLate threeThawedLate.late (.repeatByte 20 0x22) ∧
      ((Transaction.thaw threeBatches.thaws).execute ⟨false, 0, 0⟩ soon threeThawed).isSome := by
  have hsafe := landing_safe .exact .debug quarterMargin (by decide) (fun _ _ ↦ True) threeChain
    threeChain_steady threeThawedLate threeThawedLate_run _ _ rfl ⟨false, 0, 0⟩ soon
    (Nat.le_refl _)
  have hrunning : (threeThawed (.repeatByte 20 0x22)).thawing ≠ 0 := by decide
  refine ⟨(hsafe.1 _ _ List.mem_cons_self).resolve_right hrunning, hsafe.2.mpr ⟨rfl, ?_⟩⟩
  intro receiver amount hmem
  obtain ⟨rfl, rfl⟩ := Prod.mk.inj (List.mem_singleton.mp hmem)
  decide

end GraphTally.EscrowManager
