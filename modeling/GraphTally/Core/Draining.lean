import GraphTally.Core.Agreement
import GraphTally.Core.Transparency
import GraphTally.Core.Truncation
import Mathlib.Algebra.Order.BigOperators.Group.List

/-!
# Draining the storage

Rounds with the aggregator, each under a limit: what a round leaves for the next one, and when
nothing is left.
-/

open GraphTally.Theory

namespace GraphTally

/-! ## Batches in which nothing fails -/

section Passing

variable {ω Rcpt : Type} {checks : CheckList ω Rcpt} {worlds : ω → Prop}

/-- The checks let the receipts through in each of these worlds, and stay in them. -/
def Passing (checks : CheckList ω Rcpt) (worlds : ω → Prop)
    (receipts : List (ReceiptWithState Checking Rcpt)) : Prop :=
  ∀ receipt ∈ receipts, ∀ world, worlds world →
    (receipt.performChecks checks world).1 = .ok () ∧
      worlds (receipt.performChecks checks world).2

theorem Passing.finalizeReceipts {receipts : List (ReceiptWithState Checking Rcpt)}
    (h : Passing checks worlds receipts) {world : ω} (hworld : worlds world) :
    ∃ valid, (finalizeReceipts checks receipts world).1 = .ok (valid, []) ∧
      receiptsOf valid = receiptsOf receipts := by
  induction receipts generalizing world with
  | nil => exact ⟨[], rfl, rfl⟩
  | cons receipt receipts ih =>
    obtain ⟨hhere, hrest⟩ := List.forall_mem_cons.mp h
    obtain ⟨hpasses, hworld'⟩ := hhere world hworld
    rcases hperform : receipt.performChecks checks world with ⟨result, world'⟩
    rw [hperform] at hpasses hworld'
    obtain rfl : result = .ok () := hpasses
    obtain ⟨valid, hvalid, hsame⟩ := ih hrest hworld'
    refine ⟨receipt.performStateChanges ⟨⟩ :: valid, ?_, ?_⟩
    · have hfinalize : receipt.finalizeReceiptChecks checks world =
          (.ok (.inl (receipt.performStateChanges ⟨⟩)), world') := by
        rw [ReceiptWithState.finalizeReceiptChecks, hperform]
      rcases hloop : GraphTally.finalizeReceipts checks receipts world' with ⟨loop, world''⟩
      rw [hloop] at hvalid
      obtain rfl : loop = .ok (valid, []) := hvalid
      rw [GraphTally.finalizeReceipts, hfinalize]
      simp only [hloop]
    · rw [receiptsOf_cons, receiptsOf_cons, hsame]
      rfl

variable {Id : Type} [DecidableEq Id] [WithUniqueId Rcpt Id]

theorem UniqueCheck.checkFrom_of_nodup {signatures : Finset Id}
    {receipts : List (ReceiptWithState Checking Rcpt)}
    (hfresh : ∀ receipt ∈ receipts, uniqueId receipt.receipt ∉ signatures)
    (hnodup : ((receiptsOf receipts).map uniqueId).Nodup) :
    (UniqueCheck.checkFrom signatures receipts).1 = receipts := by
  induction receipts generalizing signatures with
  | nil => rfl
  | cons receipt receipts ih =>
    obtain ⟨hhere, hrest⟩ := List.forall_mem_cons.mp hfresh
    rw [receiptsOf_cons, List.map_cons, List.nodup_cons] at hnodup
    rw [UniqueCheck.checkFrom, if_neg hhere]
    show receipt :: _ = _
    rw [ih _ hnodup.2]
    intro other hother
    rw [Finset.mem_insert, not_or]
    refine ⟨fun hsame ↦ hnodup.1 ?_, hrest other hother⟩
    rw [← hsame]
    exact List.mem_map_of_mem (mem_receiptsOf.mpr ⟨other, hother, rfl⟩)

variable [WithValueAndTimestamp Rcpt]

theorem survivors_of_nodup {min : U64} {retrieved : List (ReceiptWithState Checking Rcpt)}
    (hlate : ∀ receipt ∈ retrieved, min.toNat ≤ receipt.timestampNs.toNat)
    (hnodup : ((receiptsOf retrieved).map uniqueId).Nodup) :
    survivors min retrieved = retrieved := by
  have hstamped : (TimestampCheck.checkBatch min retrieved).1 = retrieved := by
    rw [TimestampCheck.checkBatch_checking]
    exact List.filter_eq_self.mpr fun receipt hmem ↦ decide_eq_true (hlate receipt hmem)
  rw [survivors, hstamped]
  exact UniqueCheck.checkFrom_of_nodup (fun _ _ ↦ Finset.notMem_empty _) hnodup

variable {σ Rav Domain : Type} {manager : Manager σ ω Rcpt Rav Domain} {profile : Profile}
  {clock : SystemTime} {timestampBufferNs min max : U64} {limit : Option U64} {s s' : σ}
  {retrieved : List (ReceiptWithState Checking Rcpt)}

/-- All that was retrieved is valid. -/
theorem Manager.Retrieves.collectReceipts_of_passing
    (h : manager.Retrieves profile clock timestampBufferNs min limit s max retrieved s')
    (hlate : ∀ receipt ∈ retrieved, min.toNat ≤ receipt.timestampNs.toNat)
    (hnodup : ((receiptsOf retrieved).map uniqueId).Nodup)
    (hpasses : Passing (manager.checks s') worlds retrieved) {world : ω} (hworld : worlds world) :
    ∃ valid invalid, (manager.collectReceipts profile clock timestampBufferNs min limit s
      world).1 = .ok (valid, invalid) ∧ receiptsOf valid = receiptsOf retrieved := by
  obtain ⟨valid, hvalid, hsame⟩ := hpasses.finalizeReceipts hworld
  refine ⟨valid, (TimestampCheck.checkBatch min retrieved).2 ++
    (UniqueCheck.checkBatch (TimestampCheck.checkBatch min retrieved).1).2 ++ [], ?_, hsame⟩
  rw [h.collectReceipts_eq, survivors_of_nodup hlate hnodup, hvalid]

end Passing

/-! ## One round -/

/-- The stored receipts that no stored RAV covers. -/
def InMemoryContext.pending (self : InMemoryContext) :
    List (ReceiptWithState Checking SignedReceipt) :=
  (self.receiptStorage.entries.filter fun e ↦ aboveRav self.ravStorage e.2).map (·.2)

section Pending

variable {context : InMemoryContext} {min max : U64}

theorem InMemoryContext.min_le_of_aboveRav {entry : ReceiptWithState Checking SignedReceipt}
    (hmin : min.toNat = context.ravStorage.elim 0 (·.message.timestampNs.toNat + 1))
    (habove : aboveRav context.ravStorage entry) : min.toNat ≤ entry.timestampNs.toNat := by
  rw [hmin]
  cases hrav : context.ravStorage with
  | none => exact Nat.zero_le _
  | some rav =>
    rw [hrav] at habove
    exact of_decide_eq_true habove

theorem InMemoryContext.min_le_of_pending
    (hmin : min.toNat = context.ravStorage.elim 0 (·.message.timestampNs.toNat + 1)) :
    ∀ receipt ∈ context.pending, min.toNat ≤ receipt.timestampNs.toNat := by
  intro receipt hreceipt
  obtain ⟨e, he, rfl⟩ := List.mem_map.mp hreceipt
  exact min_le_of_aboveRav hmin (List.mem_filter.mp he).2

/-- A window from above the RAV that ends late enough is what is pending. -/
theorem InMemoryContext.inRange_eq_pending
    (hmin : min.toNat = context.ravStorage.elim 0 (·.message.timestampNs.toNat + 1))
    (hmax : ∀ receipt ∈ context.pending, receipt.timestampNs.toNat < max.toNat) :
    context.inRange (.halfOpen min max) = context.pending := by
  rw [InMemoryContext.inRange, InMemoryContext.pending]
  congr 1
  apply List.filter_congr
  intro e he
  rw [← contains_and_aboveRav hmin e.2, Bool.and_eq_right_iff_imp,
    TimestampRange.contains_halfOpen]
  intro habove
  exact ⟨min_le_of_aboveRav hmin habove,
    hmax e.2 (List.mem_map.mpr ⟨e, List.mem_filter.mpr ⟨he, habove⟩, rfl⟩)⟩

theorem InMemoryContext.pending_cleaned : context.cleaned.pending = context.pending := by
  show ((context.receiptStorage.entries.filter _).filter _).map _ = _
  rw [List.filter_filter]
  exact congrArg _ (List.filter_congr fun e _ ↦ Bool.and_self _)

/-- Under a RAV that ends with what was due, what was left is pending. -/
theorem InMemoryContext.pending_updateLastRav {limit : Nat} {signed : SignedRav}
    (hcovers : ∀ receipt ∈ wholeGroups (·.timestampNs.toNat) limit context.pending,
      receipt.timestampNs.toNat ≤ signed.message.timestampNs.toNat)
    (hattained : ∃ receipt ∈ wholeGroups (·.timestampNs.toNat) limit context.pending,
      receipt.timestampNs.toNat = signed.message.timestampNs.toNat) :
    (context.updateLastRav signed).pending =
      leftGroups (·.timestampNs.toNat) limit context.pending := by
  obtain ⟨newest, hnewest, hmark⟩ := hattained
  obtain ⟨e, he, rfl⟩ := List.mem_map.mp (mem_wholeGroups.mp hnewest).1
  have hlater := (List.mem_filter.mp he).2
  have hpending : ∀ other ∈ context.receiptStorage.entries,
      aboveRav context.ravStorage other.2 → other.2 ∈ context.pending := fun other hother habove ↦
    List.mem_map.mpr ⟨other, List.mem_filter.mpr ⟨hother, habove⟩, rfl⟩
  unfold leftGroups
  show (context.receiptStorage.entries.filter fun other ↦ aboveRav (some signed) other.2).map _ = _
  conv_rhs => rw [InMemoryContext.pending, List.filter_map, List.filter_filter]
  congr 1
  apply List.filter_congr
  intro other hother
  rw [Bool.eq_iff_iff, Bool.and_eq_true]
  show decide (signed.message.timestampNs.toNat < other.2.timestampNs.toNat) = true ↔
    decide (limit < context.pending.countP (·.timestampNs.toNat ≤ other.2.timestampNs.toNat)) =
      true ∧ aboveRav context.ravStorage other.2 = true
  rw [decide_eq_true_eq, decide_eq_true_eq]
  constructor
  · intro hafter
    have habove : aboveRav context.ravStorage other.2 = true := by
      cases hrav : context.ravStorage with
      | none => rfl
      | some rav =>
        rw [hrav] at hlater
        have hbefore : rav.message.timestampNs.toNat < e.2.timestampNs.toNat :=
          of_decide_eq_true hlater
        apply decide_eq_true
        omega
    refine ⟨?_, habove⟩
    by_contra hfits
    have hcovered := hcovers other.2
      (mem_wholeGroups.mpr ⟨hpending other hother habove, Nat.le_of_not_lt hfits⟩)
    omega
  · rintro ⟨hleft, habove⟩
    rw [← hmark]
    exact @key_lt_of_notMem_wholeGroups _ (·.timestampNs.toNat) limit context.pending e.2 other.2
      hnewest (hpending other hother habove) fun hmem ↦
        absurd (mem_wholeGroups.mp hmem).2 (Nat.not_le.mpr hleft)

end Pending

section Rounds

variable {ω Domain Key : Type} [Alloy Key] [SolStruct Domain Receipt]
  [SolStruct Domain ReceiptAggregateVoucher]

structure Round (ω : Type) where
  around : Surroundings ω
  clock : SystemTime
  timestampBufferNs : U64
  cleanUp : Bool

/-- Receipts of one account up to `last`, no id twice, that the indexer's checks and the
aggregator's both accept, and whose value still fits the RAV. -/
structure Serviceable (indexer : Indexer ω Domain) (signers : SignerRegistry Key)
    (account : Account) (worlds : ω → Prop) (last : Nat) (context : InMemoryContext) : Prop where
  unique : ((receiptsOf context.pending).map uniqueId).Nodup
  pendingUntil : ∀ receipt ∈ context.pending, receipt.timestampNs.toNat ≤ last
  previousUntil : ∀ prev ∈ context.ravStorage, prev.message.timestampNs.toNat ≤ last
  accepted : ∀ receipt ∈ receiptsOf context.pending, receipt.message.account = account ∧
    AcceptedFor signers indexer.domainSeparator account.payer receipt
  previous : ∀ prev ∈ context.ravStorage, prev.message.account = account ∧
    AcceptedFor signers indexer.domainSeparator account.payer prev
  passing : ∀ other, Passing (indexer.checks other) worlds context.pending
  signer : ∃ wallet accepted, signers.resolve account.payer = some (wallet, accepted) ∧
    Alloy.address wallet ∈ accepted ∧ context.senderAddress = some (Alloy.address wallet)
  fits : previousValue context.ravStorage + exactTotal (receiptsOf context.pending) < 2 ^ 128

/-- The window of the round ends after `last`. -/
structure Round.Late (round : Round ω) (worlds : ω → Prop) (last : Nat) : Prop where
  world : worlds round.around.world
  window : ∃ now, getCurrentTimestampU64Ns round.clock = .ok now ∧
    last + round.timestampBufferNs.toNat < now.toNat

/-- What a round takes of the receipts that are left. -/
abbrev due (limit : U64) (receipts : List (ReceiptWithState Checking SignedReceipt)) :
    List (ReceiptWithState Checking SignedReceipt) :=
  wholeGroups (·.timestampNs.toNat) limit.toNat receipts

theorem exactTotal_due_add_left (limit : U64)
    (receipts : List (ReceiptWithState Checking SignedReceipt)) :
    exactTotal (receiptsOf (due limit receipts)) +
        exactTotal (receiptsOf (leftGroups (·.timestampNs.toNat) limit.toNat receipts)) =
      exactTotal (receiptsOf receipts) := by
  have hperm : (due limit receipts ++
      leftGroups (·.timestampNs.toNat) limit.toNat receipts).Perm receipts :=
    wholeGroups_append_leftGroups
  have hsum := ((receiptsOf_perm hperm).map (·.message.value.toNat)).sum_eq
  rw [receiptsOf_append, List.map_append, List.sum_append] at hsum
  exact hsum

variable {indexer : Indexer ω Domain} {signers : SignerRegistry Key} {account : Account}
  {worlds : ω → Prop} {last : Nat} {context : InMemoryContext} {limit : U64} {turn : Round ω}

-- The window of a late round is served with what is due.
theorem Serviceable.retrieves (h : Serviceable indexer signers account worlds last context)
    (hlate : turn.Late worlds last) :
    ∃ min max retrieved,
      Manager.minTimestampNs indexer.profile context.ravStorage = .ok min ∧
      min.toNat = context.ravStorage.elim 0 (·.message.timestampNs.toNat + 1) ∧
      (indexer.manager turn.around).Retrieves indexer.profile turn.clock
        turn.timestampBufferNs min (some limit) context max retrieved context ∧
      retrieved.Perm (due limit context.pending) := by
  obtain ⟨now, hclock, hnow⟩ := hlate.window
  have hprevious : ∀ prev ∈ context.ravStorage, prev.message.timestampNs.toNat + 1 < 2 ^ 64 := by
    intro prev hprev
    have huntil := h.previousUntil prev hprev
    have hfits := now.isLt
    omega
  have hbuffer : turn.timestampBufferNs.toNat ≤ now.toNat := by omega
  obtain ⟨hmaxEq, hmax⟩ := InMemoryContext.maxTimestampNs_of_fits indexer.profile hclock hbuffer
  obtain ⟨min, hminEq, hmin⟩ := InMemoryContext.minTimestampNs_of_fits indexer.profile hprevious
  have hwindow : min.toNat ≤ (now - turn.timestampBufferNs).toNat := by
    rw [hmin, hmax]
    cases hrav : context.ravStorage with
    | none => exact Nat.zero_le _
    | some prev =>
      have huntil := h.previousUntil prev hrav
      rw [Option.elim_some]
      omega
  have hrange : context.inRange (.halfOpen min (now - turn.timestampBufferNs)) =
      context.pending := by
    apply InMemoryContext.inRange_eq_pending hmin
    intro receipt hreceipt
    have huntil := h.pendingUntil receipt hreceipt
    omega
  have hperm := context.retrieve_perm turn.around.enumeration turn.around.unstable
    (.halfOpen min (now - turn.timestampBufferNs)) (some limit)
  rw [hrange] at hperm
  exact ⟨min, _, _, hminEq, hmin, ⟨hmaxEq, hwindow, rfl⟩, hperm⟩

/-- A late round requests what is due. -/
theorem Serviceable.createRavRequest (h : Serviceable indexer signers account worlds last context)
    (hlate : turn.Late worlds last) (limit : U64) :
    ∃ request, ((indexer.manager turn.around).createRavRequest indexer.profile turn.clock
        turn.timestampBufferNs (some limit) context turn.around.world).1 = .ok request ∧
      request.previousRav = context.ravStorage ∧
      (receiptsOf request.validReceipts).Perm (receiptsOf (due limit context.pending)) := by
  obtain ⟨min, max, retrieved, hminEq, hmin, hretrieves, hperm⟩ := h.retrieves hlate
  have hpending : ∀ receipt ∈ retrieved, receipt ∈ context.pending := fun receipt hreceipt ↦
    (mem_wholeGroups.mp (hperm.mem_iff.mp hreceipt)).1
  have hnodup : ((receiptsOf retrieved).map uniqueId).Nodup := by
    rw [((receiptsOf_perm hperm).map uniqueId).nodup_iff]
    exact h.unique.sublist ((List.filter_sublist.map _).map _)
  have hpasses : Passing ((indexer.manager turn.around).checks context) worlds retrieved :=
    fun receipt hreceipt ↦ h.passing context receipt (hpending receipt hreceipt)
  obtain ⟨valid, invalid, hcollect, hvalid⟩ := hretrieves.collectReceipts_of_passing
    (fun receipt hreceipt ↦ InMemoryContext.min_le_of_pending hmin receipt
      (hpending receipt hreceipt)) hnodup hpasses hlate.world
  refine ⟨⟨valid, context.ravStorage, invalid,
    Aggregate.aggregateReceipts valid context.ravStorage⟩, ?_, rfl, ?_⟩
  · show (((InMemoryContext.manager indexer.profile turn.around.enumeration
      turn.around.unstable indexer.checks indexer.domainSeparator).createRavRequest
        indexer.profile turn.clock turn.timestampBufferNs (some limit) context
          turn.around.world).1) = _
    rw [InMemoryContext.createRavRequest_eq, hminEq]
    dsimp only [Except.bind]
    rw [Indexer.manager] at hcollect
    rw [hcollect]
    rfl
  · rw [hvalid]
    exact receiptsOf_perm hperm

-- The wallet that signs for what is due is the signer the indexer knows.
theorem Serviceable.wallet (h : Serviceable indexer signers account worlds last context)
    {batch : List SignedReceipt} {first : SignedReceipt} {wallet : Key} {accepted : Finset Address}
    (hbatch : batch.Perm (receiptsOf (due limit context.pending)))
    (hacceptable : Acceptable indexer.domainSeparator batch context.ravStorage signers first wallet
      accepted) :
    first.message.account = account ∧ signers.resolve account.payer = some (wallet, accepted) ∧
      Alloy.address wallet ∈ accepted ∧ context.senderAddress = some (Alloy.address wallet) := by
  have hmem := hbatch.subset (List.mem_of_head? hacceptable.head)
  have hfirst := (h.accepted first ((List.filter_sublist.map _).subset hmem)).1
  obtain ⟨own, others, hresolve, hown, hsender⟩ := h.signer
  obtain ⟨rfl, rfl⟩ : own = wallet ∧ others = accepted := by
    have hresolves := hacceptable.resolves
    rw [show first.message.payer = account.payer from congrArg Account.payer hfirst] at hresolves
    simpa using hresolve.symm.trans hresolves
  exact ⟨hfirst, hresolve, hown, hsender⟩

/-- What a round does: it takes what is due, and what is left is serviceable as before. -/
structure Taken (indexer : Indexer ω Domain) (signers : SignerRegistry Key) (account : Account)
    (worlds : ω → Prop) (last : Nat) (limit : U64) (before after : InMemoryContext) : Prop where
  pending : after.pending = leftGroups (·.timestampNs.toNat) limit.toNat before.pending
  value : previousValue after.ravStorage + exactTotal (receiptsOf after.pending) =
    previousValue before.ravStorage + exactTotal (receiptsOf before.pending)
  serviceable : Serviceable indexer signers account worlds last after

theorem Serviceable.taken_none (h : Serviceable indexer signers account worlds last context)
    (hdue : due limit context.pending = []) :
    Taken indexer signers account worlds last limit context context := by
  refine ⟨?_, rfl, h⟩
  symm
  apply List.filter_eq_self.mpr
  intro receipt hreceipt
  have hleft : receipt ∈ leftGroups (·.timestampNs.toNat) limit.toNat context.pending := by
    rw [mem_leftGroups]
    refine ⟨hreceipt, ?_⟩
    show receipt ∉ due limit context.pending
    rw [hdue]
    exact List.not_mem_nil
  exact (List.mem_filter.mp hleft).2

/-- The RAV over what was due replaces the stored one. -/
theorem Serviceable.taken_some (h : Serviceable indexer signers account worlds last context)
    {batch : List SignedReceipt} {first : SignedReceipt} {wallet : Key} {accepted : Finset Address}
    {signed : SignedRav} (hbatch : batch.Perm (receiptsOf (due limit context.pending)))
    (hacceptable : Acceptable indexer.domainSeparator batch context.ravStorage signers first wallet
      accepted)
    (hissued : Issued indexer.domainSeparator batch context.ravStorage first wallet signed) :
    Taken indexer signers account worlds last limit context (context.updateLastRav signed) := by
  have hdue : ∀ receipt, receipt ∈ batch ↔
      ∃ entry ∈ due limit context.pending, entry.receipt = receipt := fun receipt ↦
    hbatch.mem_iff.trans mem_receiptsOf
  have hcovers : ∀ entry ∈ due limit context.pending,
      entry.timestampNs.toNat ≤ signed.message.timestampNs.toNat := fun entry hentry ↦
    hissued.covers entry.receipt ((hdue _).mpr ⟨entry, hentry, rfl⟩)
  have hattained : ∃ entry ∈ due limit context.pending,
      entry.timestampNs.toNat = signed.message.timestampNs.toNat := by
    obtain ⟨receipt, hreceipt, hmark⟩ := hissued.attained
    obtain ⟨entry, hentry, rfl⟩ := (hdue receipt).mp hreceipt
    exact ⟨entry, hentry, congrArg BitVec.toNat hmark⟩
  have hpending := InMemoryContext.pending_updateLastRav hcovers hattained
  have hsublist : (context.updateLastRav signed).pending.Sublist context.pending := by
    rw [hpending]
    exact List.filter_sublist
  have hvalue : previousValue (context.updateLastRav signed).ravStorage +
      exactTotal (receiptsOf (context.updateLastRav signed).pending) =
        previousValue context.ravStorage + exactTotal (receiptsOf context.pending) := by
    have hsplit := exactTotal_due_add_left limit context.pending
    have hsame : exactTotal batch = exactTotal (receiptsOf (due limit context.pending)) :=
      (hbatch.map _).sum_eq
    rw [hpending]
    show signed.message.valueAggregate.toNat + _ = _
    rw [hissued.value, hsame]
    omega
  obtain ⟨hfirst, hresolve, hown, hsender⟩ := h.wallet hbatch hacceptable
  have hstored : ∀ prev ∈ (context.updateLastRav signed).ravStorage, prev = signed :=
    fun prev hprev ↦ (Option.some_inj.mp hprev).symm
  refine ⟨hpending, hvalue, ?_⟩
  exact {
    unique := h.unique.sublist ((hsublist.map _).map _)
    pendingUntil := fun receipt hreceipt ↦ h.pendingUntil receipt (hsublist.subset hreceipt)
    previousUntil := by
      intro prev hprev
      rw [hstored prev hprev]
      obtain ⟨entry, hentry, hmark⟩ := hattained
      rw [← hmark]
      exact h.pendingUntil entry (mem_wholeGroups.mp hentry).1
    accepted := fun receipt hreceipt ↦
      h.accepted receipt ((hsublist.map _).subset hreceipt)
    previous := by
      intro prev hprev
      rw [hstored prev hprev]
      exact ⟨hissued.account.trans hfirst, wallet, accepted, hresolve, _, hown, hissued.recovers⟩
    passing := fun other receipt hreceipt ↦
      h.passing other receipt (hsublist.subset hreceipt)
    signer := ⟨wallet, accepted, hresolve, hown, hsender⟩
    fits := by
      rw [hvalue]
      exact h.fits }

theorem Serviceable.cleaned (h : Serviceable indexer signers account worlds last context) :
    Serviceable indexer signers account worlds last context.cleaned := by
  have hpending : context.cleaned.pending = context.pending := InMemoryContext.pending_cleaned
  refine ⟨?_, ?_, h.previousUntil, ?_, h.previous, ?_, h.signer, ?_⟩ <;> rw [hpending]
  exacts [h.unique, h.pendingUntil, h.accepted, h.passing, h.fits]

variable [AlloyText]

/-- The aggregator is asked for the RAV the request expects, and its answer is stored. -/
def Indexer.requestRav (indexer : Indexer ω Domain) (signers : SignerRegistry Key)
    (around : Surroundings ω) (clock : SystemTime) (timestampBufferNs : U64) (limit : Option U64)
    (context : InMemoryContext) : InMemoryContext :=
  match (indexer.manager around).createRavRequest indexer.profile clock timestampBufferNs limit
      context around.world with
  | (.error _, context, _) => context
  | (.ok ravRequest, context, _) =>
    match checkAndAggregateReceipts indexer.domainSeparator (receiptsOf ravRequest.validReceipts)
        ravRequest.previousRav signers, ravRequest.expectedRav with
    | .ok remoteRav, .ok expectedRav =>
      ((indexer.manager around).verifyAndStoreRav expectedRav remoteRav context).2
    | _, _ => context

def Indexer.round (indexer : Indexer ω Domain) (signers : SignerRegistry Key) (limit : U64)
    (context : InMemoryContext) (round : Round ω) : InMemoryContext :=
  let answered := indexer.requestRav signers round.around round.clock round.timestampBufferNs
    (some limit) context
  if round.cleanUp then ((indexer.manager round.around).removeObsoleteReceipts answered).2
  else answered

def Indexer.rounds (indexer : Indexer ω Domain) (signers : SignerRegistry Key) (limit : U64)
    (rounds : List (Round ω)) (context : InMemoryContext) : InMemoryContext :=
  rounds.foldl (indexer.round signers limit) context

/-- The aggregator issues the RAV that a request of what is due expects. -/
theorem Serviceable.answered (hsign : SignsRecoverably Key)
    (h : Serviceable indexer signers account worlds last context) (hlate : turn.Late worlds last)
    {request : RavRequest SignedReceipt ReceiptAggregateVoucher}
    (hrequest : ((indexer.manager turn.around).createRavRequest indexer.profile turn.clock
      turn.timestampBufferNs (some limit) context turn.around.world).1 = .ok request)
    (hprevious : request.previousRav = context.ravStorage)
    (hperm : (receiptsOf request.validReceipts).Perm (receiptsOf (due limit context.pending)))
    (hdue : due limit context.pending ≠ []) :
    ∃ signed, checkAndAggregateReceipts indexer.domainSeparator
        (receiptsOf request.validReceipts) request.previousRav signers = .ok signed ∧
      request.expectedRav = .ok signed.message := by
  obtain ⟨-, min, now, max, retrieved, hrequested, -⟩ :=
    InMemoryContext.createRavRequest_serves hrequest
  have hread : (indexer.manager turn.around).context.ReadsInRange :=
    indexer.readsInRange turn.around
  have hfits : ∀ prev ∈ request.previousRav, prev.message.timestampNs.toNat + 1 < 2 ^ 64 := by
    obtain ⟨now, -, hnow⟩ := hlate.window
    intro prev hprev
    have huntil := h.previousUntil prev (hprevious ▸ hprev)
    have hlt := now.isLt
    omega
  have hreceipts : ∀ receipt ∈ receiptsOf request.validReceipts,
      receipt.message.account = account ∧
        AcceptedFor signers indexer.domainSeparator account.payer receipt := by
    intro receipt hreceipt
    exact h.accepted receipt ((List.filter_sublist.map _).subset (hperm.subset hreceipt))
  have hagree := issued_iff_expected hsign hrequested hread hfits hreceipts fun prev hprev ↦
    h.previous prev (hprevious ▸ hprev)
  have htotal : previousValue request.previousRav +
      exactTotal (receiptsOf request.validReceipts) < 2 ^ 128 := by
    have hsame : exactTotal (receiptsOf request.validReceipts) =
        exactTotal (receiptsOf (due limit context.pending)) := (hperm.map _).sum_eq
    have hsplit := exactTotal_due_add_left limit context.pending
    have hbound := h.fits
    rw [hprevious, hsame]
    omega
  have hvalid : receiptsOf request.validReceipts ≠ [] := by
    intro hnil
    rw [hnil] at hperm
    exact hdue (List.map_eq_nil_iff.mp hperm.nil_eq.symm)
  obtain ⟨first, receipts, hcons⟩ := List.exists_cons_of_ne_nil hvalid
  have hhead : (receiptsOf request.validReceipts).head? = some first := by
    rw [hcons]
    rfl
  obtain ⟨message, haggregate⟩ : ∃ message, ReceiptAggregateVoucher.aggregateFor
      first.message.account (receiptsOf request.validReceipts) request.previousRav =
        .ok message := ReceiptAggregateVoucher.aggregateReceipts_isOk.mpr htotal
  have hexpected : request.expectedRav = .ok message := by
    rw [hrequested.expected]
    exact ReceiptAggregateVoucher.aggregate_eq_ok.mpr ⟨first, hhead, haggregate⟩
  obtain ⟨signed, hsigned, rfl⟩ := (hagree message).mpr hexpected
  exact ⟨signed, hsigned, hexpected⟩

/-- Nothing is due and nothing happens, or the RAV the aggregator issues for it is stored. -/
theorem Serviceable.requestRav (hsign : SignsRecoverably Key)
    (h : Serviceable indexer signers account worlds last context) (hlate : turn.Late worlds last) :
    (due limit context.pending = [] ∧ indexer.requestRav signers turn.around turn.clock
        turn.timestampBufferNs (some limit) context = context) ∨
      ∃ batch first wallet accepted signed, batch.Perm (receiptsOf (due limit context.pending)) ∧
        Acceptable indexer.domainSeparator batch context.ravStorage signers first wallet accepted ∧
        Issued indexer.domainSeparator batch context.ravStorage first wallet signed ∧
        indexer.requestRav signers turn.around turn.clock turn.timestampBufferNs (some limit)
          context = context.updateLastRav signed := by
  obtain ⟨request, hrequest, hprevious, hperm⟩ := h.createRavRequest hlate limit
  have hstate : ((indexer.manager turn.around).createRavRequest indexer.profile turn.clock
      turn.timestampBufferNs (some limit) context turn.around.world).2.1 = context :=
    Manager.createRavRequest_readOnly (fun _ ↦ rfl) fun _ _ _ ↦ rfl
  have hcreate : ∃ world, (indexer.manager turn.around).createRavRequest indexer.profile
      turn.clock turn.timestampBufferNs (some limit) context turn.around.world =
        (.ok request, context, world) :=
    ⟨_, Prod.ext hrequest (Prod.ext hstate rfl)⟩
  obtain ⟨world, hcreate⟩ := hcreate
  unfold Indexer.requestRav
  rw [hcreate]
  dsimp only
  by_cases hdue : due limit context.pending = []
  · left
    refine ⟨hdue, ?_⟩
    rw [hdue] at hperm
    rw [hperm.eq_nil]
    rfl
  · right
    obtain ⟨signed, hsigned, hexpected⟩ := h.answered hsign hlate hrequest hprevious hperm hdue
    obtain ⟨first, wallet, accepted, hacceptable, hissued⟩ :=
      checkAndAggregateReceipts_issued hsign hsigned
    rw [hprevious] at hacceptable hissued
    refine ⟨_, first, wallet, accepted, signed, hperm, hacceptable, hissued, ?_⟩
    rw [hsigned, hexpected]
    dsimp only
    obtain ⟨-, -, -, hsender⟩ := h.wallet hperm hacceptable
    have hknown : (indexer.manager turn.around).context.verifySigner (Alloy.address wallet)
        context = (.ok true, context) := by
      show (Except.ok (context.verifySigner _), context) = _
      rw [InMemoryContext.verifySigner, hsender]
      simp
    rw [Manager.verifyAndStoreRav_stores hissued.recovers hknown]
    rfl

/-- A late round takes what is due, whether it cleans up or not. -/
theorem Serviceable.round (hsign : SignsRecoverably Key)
    (h : Serviceable indexer signers account worlds last context) (hlate : turn.Late worlds last)
    (limit : U64) : Taken indexer signers account worlds last limit context
      (indexer.round signers limit context turn) := by
  have hanswered : Taken indexer signers account worlds last limit context
      (indexer.requestRav signers turn.around turn.clock turn.timestampBufferNs (some limit)
        context) := by
    rcases h.requestRav hsign hlate with ⟨hdue, hsame⟩ | ⟨batch, first, wallet, accepted, signed,
      hbatch, hacceptable, hissued, hstored⟩
    · rw [hsame]
      exact h.taken_none hdue
    · rw [hstored]
      exact h.taken_some hbatch hacceptable hissued
  unfold Indexer.round
  dsimp only
  split
  · -- what a cleanup deletes is not pending
    rw [show ((indexer.manager turn.around).removeObsoleteReceipts _).2 = _ from
      InMemoryContext.removeObsoleteReceipts_eq]
    refine ⟨?_, ?_, hanswered.serviceable.cleaned⟩ <;> rw [InMemoryContext.pending_cleaned]
    exacts [hanswered.pending, hanswered.value]
  · exact hanswered

/-! ## Round after round -/

theorem Serviceable.rounds (hsign : SignsRecoverably Key)
    (h : Serviceable indexer signers account worlds last context) {rounds : List (Round ω)}
    (hlate : ∀ round ∈ rounds, round.Late worlds last) (limit : U64) :
    Serviceable indexer signers account worlds last
        (indexer.rounds signers limit rounds context) ∧
      (indexer.rounds signers limit rounds context).pending =
        (leftGroups (·.timestampNs.toNat) limit.toNat)^[rounds.length] context.pending ∧
      previousValue (indexer.rounds signers limit rounds context).ravStorage +
          exactTotal (receiptsOf (indexer.rounds signers limit rounds context).pending) =
        previousValue context.ravStorage + exactTotal (receiptsOf context.pending) := by
  induction rounds generalizing context with
  | nil => exact ⟨h, rfl, rfl⟩
  | cons round rounds ih =>
    obtain ⟨hround, hrounds⟩ := List.forall_mem_cons.mp hlate
    have htaken := h.round hsign hround limit
    obtain ⟨hserviceable, hpending, hvalue⟩ := ih htaken.serviceable hrounds
    rw [htaken.pending] at hpending
    exact ⟨hserviceable, hpending, hvalue.trans htaken.value⟩

/-- What is left only gets less, so the RAV only gets more. -/
theorem Serviceable.rounds_mono (hsign : SignsRecoverably Key)
    (h : Serviceable indexer signers account worlds last context) {rounds : List (Round ω)}
    (hlate : ∀ round ∈ rounds, round.Late worlds last) (limit : U64) :
    (indexer.rounds signers limit rounds context).pending.Sublist context.pending ∧
      previousValue context.ravStorage ≤
        previousValue (indexer.rounds signers limit rounds context).ravStorage := by
  obtain ⟨-, hpending, hvalue⟩ := h.rounds hsign hlate limit
  have hleft : ∀ (n : Nat) (receipts : List (ReceiptWithState Checking SignedReceipt)),
      ((leftGroups (·.timestampNs.toNat) limit.toNat)^[n] receipts).Sublist receipts := by
    intro n
    induction n with
    | zero => exact fun receipts ↦ List.Sublist.refl _
    | succ n ih => exact fun receipts ↦ (ih _).trans List.filter_sublist
  have hsublist := hleft rounds.length context.pending
  rw [← hpending] at hsublist
  have htotal : exactTotal (receiptsOf (indexer.rounds signers limit rounds context).pending) ≤
      exactTotal (receiptsOf context.pending) := by
    unfold exactTotal receiptsOf
    exact ((hsublist.map _).map _).sum_le_sum fun _ _ ↦ Nat.zero_le _
  exact ⟨hsublist, by omega⟩

/-- Late rounds only move value from the receipts that are left into the RAV, round after round.
When no timestamp has more receipts than the limit they leave none, after two rounds for each
`limit + 1` of them; when one has, there is always something left. -/
theorem Indexer.rounds_drain (hsign : SignsRecoverably Key) (indexer : Indexer ω Domain)
    (signers : SignerRegistry Key) (account : Account) (worlds : ω → Prop) (last : Nat)
    (limit : U64) (context : InMemoryContext)
    (h : Serviceable indexer signers account worlds last context) (rounds : List (Round ω))
    (hlate : ∀ round ∈ rounds, round.Late worlds last) :
    previousValue (indexer.rounds signers limit rounds context).ravStorage +
          exactTotal (receiptsOf (indexer.rounds signers limit rounds context).pending) =
        previousValue context.ravStorage + exactTotal (receiptsOf context.pending) ∧
      (∀ earlier later, rounds = earlier ++ later →
        (indexer.rounds signers limit rounds context).pending.Sublist
            (indexer.rounds signers limit earlier context).pending ∧
          previousValue (indexer.rounds signers limit earlier context).ravStorage ≤
            previousValue (indexer.rounds signers limit rounds context).ravStorage) ∧
      (∀ n, GroupsFit (·.timestampNs.toNat) limit.toNat context.pending →
        context.pending.length ≤ n * (limit.toNat + 1) → 2 * n ≤ rounds.length →
          (indexer.rounds signers limit rounds context).pending = []) ∧
      ((indexer.rounds signers limit rounds context).pending = [] →
        GroupsFit (·.timestampNs.toNat) limit.toNat context.pending) := by
  obtain ⟨-, hpending, hvalue⟩ := h.rounds hsign hlate limit
  refine ⟨hvalue, ?_, ?_, ?_⟩
  · rintro earlier later rfl
    obtain ⟨hearlier, hlater⟩ := List.forall_mem_append.mp hlate
    rw [show indexer.rounds signers limit (earlier ++ later) context = _ from List.foldl_append]
    exact (h.rounds hsign hearlier limit).1.rounds_mono hsign hlater limit
  · intro n hgroups hlength henough
    obtain ⟨more, hmore⟩ := Nat.exists_eq_add_of_le' henough
    rw [hpending, hmore, Function.iterate_add_apply, leftGroups_iterate hgroups hlength]
    exact Function.iterate_fixed rfl more
  · intro hempty k
    by_contra hover
    exact leftGroups_stuck (Nat.lt_of_not_le hover) rounds.length (hpending.symm.trans hempty)

end Rounds

/-! ## Two receipts, one at a time -/

namespace Known

def lateRound (cleanUp : Bool) : Round (Finset B256) := ⟨surroundings, .ok 100, 0, cleanUp⟩

theorem lateRound_late (cleanUp : Bool) : (lateRound cleanUp).Late (· = collections) 20 :=
  ⟨rfl, 100, rfl, by simp [lateRound]⟩

theorem serviceable : Serviceable indexer registry account (· = collections) 20 (store batch) where
  unique := by decide +kernel
  pendingUntil := by decide +kernel
  previousUntil := nofun
  accepted := by
    intro receipt hreceipt
    have hknown : ∀ receipt ∈ receiptsOf (store batch).pending,
        receipt.message.account = account ∧
          receipt.recoverSigner domain = .ok Key.one.address := by decide +kernel
    obtain ⟨haccount, hsigner⟩ := hknown receipt hreceipt
    exact ⟨haccount, .one, {Key.one.address}, by rfl, Key.one.address, by simp, hsigner⟩
  previous := nofun
  passing := by
    intro other receipt hreceipt world hworld
    obtain rfl : world = collections := hworld
    have hknown : ∀ receipt ∈ (store batch).pending,
        (receipt.performChecks (getFullListOfChecks domain {Key.one.address} id)
          collections).1 = .ok () ∧
        (receipt.performChecks (getFullListOfChecks domain {Key.one.address} id)
          collections).2 = collections := by decide +kernel
    exact hknown receipt hreceipt
  signer := ⟨.one, {Key.one.address}, by rfl, by simp; rfl, rfl⟩
  fits := by decide +kernel

end Known

open Known in
theorem Indexer.rounds_drain_known :
    (indexer.rounds registry 1 [lateRound true, lateRound false] (store batch)).pending = [] ∧
      previousValue
        (indexer.rounds registry 1 [lateRound true, lateRound false] (store batch)).ravStorage =
          12 := by
  have hdrain := Indexer.rounds_drain signsRecoverably indexer registry account (· = collections)
    20 1 (store batch) serviceable [lateRound true, lateRound false]
    (by simp [lateRound_late])
  have hgroups : GroupsFit (·.timestampNs.toNat) (1 : U64).toNat (store batch).pending := by
    have hnodup : ((store batch).pending.map (·.timestampNs.toNat)).Nodup := by decide +kernel
    intro k
    have hcount := List.nodup_iff_count_le_one.mp hnodup k
    rw [List.count, List.countP_map, List.countP_eq_length_filter] at hcount
    exact hcount
  have hempty := hdrain.2.2.1 1 hgroups (by decide +kernel) (by decide)
  have hvalue := hdrain.1
  rw [hempty] at hvalue
  have htotal : exactTotal (receiptsOf (store batch).pending) = 12 := by decide +kernel
  exact ⟨hempty, hvalue.trans (congrArg _ htotal)⟩

end GraphTally
