import GraphTally.Batching
import GraphTally.Core.Selection
import GraphTally.Core.Truncation

/-!
# Requests and the order of the storage

The storage is a hash table and the sort is unstable, so each run retrieves the window's receipts
in an order of its own.  Here two such runs are compared: over checks that judge the receipt
alone, and ids that belong to one receipt each, a request is the same up to order.
-/

open GraphTally.Theory

namespace GraphTally

/-! ## Batches in another order -/

section Batches

variable {Rcpt Id ω : Type} {batch batch' : List (ReceiptWithState Checking Rcpt)}

/-- Receipts that share an id are identical. -/
def OneReceiptPerId [WithUniqueId Rcpt Id] (receipts : List Rcpt) : Prop :=
  ∀ a ∈ receipts, ∀ b ∈ receipts, uniqueId a = uniqueId b → a = b

instance [DecidableEq Rcpt] [DecidableEq Id] [WithUniqueId Rcpt Id] (receipts : List Rcpt) :
    Decidable (OneReceiptPerId receipts) :=
  inferInstanceAs (Decidable (∀ a ∈ receipts, ∀ b ∈ receipts, uniqueId a = uniqueId b → a = b))

-- A receipt under check carries nothing but itself.
theorem map_new_receiptsOf (batch : List (ReceiptWithState Checking Rcpt)) :
    (receiptsOf batch).map .new = batch := by
  rw [receiptsOf, List.map_map]
  exact List.map_id _

theorem perm_of_receiptsOf (h : (receiptsOf batch).Perm (receiptsOf batch')) :
    batch.Perm batch' := by
  rw [← map_new_receiptsOf batch, ← map_new_receiptsOf batch']
  exact h.map _

theorem TimestampCheck.checkBatch_failed [WithValueAndTimestamp Rcpt] (min : U64)
    (batch : List (ReceiptWithState Checking Rcpt)) :
    (TimestampCheck.checkBatch min batch).2 =
      (batch.filter fun receipt ↦ receipt.timestampNs.toNat < min.toNat).map fun receipt ↦
        receipt.performStateError (.invalidTimestamp receipt.timestampNs min) := by
  induction batch with
  | nil => rfl
  | cons receipt batch ih =>
    rw [TimestampCheck.checkBatch]
    by_cases hearly : receipt.timestampNs.toNat < min.toNat
    · rw [if_neg (by omega), List.filter_cons_of_pos (by simpa using hearly), ih]
      rfl
    · rw [if_pos (by omega), List.filter_cons_of_neg (by simpa using hearly), ih]

section Unique

variable [DecidableEq Id] [WithUniqueId Rcpt Id]

theorem UniqueCheck.checkFrom_failed (signatures : Finset Id)
    (batch : List (ReceiptWithState Checking Rcpt)) :
    (UniqueCheck.checkFrom signatures batch).2 =
      (receiptsOf (UniqueCheck.checkFrom signatures batch).2).map fun receipt ↦
        ⟨receipt, ⟨.nonUniqueReceipt⟩⟩ := by
  induction batch generalizing signatures with
  | nil => rfl
  | cons receipt batch ih =>
    rw [UniqueCheck.checkFrom]
    split
    · rw [receiptsOf_cons, List.map_cons, ← ih]
      rfl
    · exact ih _

-- The ids of a batch decide its receipts, so every id lets its receipt through once.
theorem UniqueCheck.mem_checkBatch (hids : OneReceiptPerId (receiptsOf batch)) {receipt : Rcpt} :
    receipt ∈ receiptsOf (UniqueCheck.checkBatch batch).1 ↔ receipt ∈ receiptsOf batch := by
  constructor
  · intro hmem
    exact ((UniqueCheck.checkFrom_sublist ∅ batch).map (·.receipt)).subset hmem
  · intro hmem
    have hfirst := UniqueCheck.checkFrom_filter ∅ batch (uniqueId receipt)
    rw [if_neg (Finset.notMem_empty _)] at hfirst
    have hsome : ((receiptsOf batch).find? (uniqueId · = uniqueId receipt)).isSome := by
      apply List.find?_isSome.mpr
      exact ⟨receipt, hmem, decide_eq_true rfl⟩
    rcases Option.isSome_iff_exists.mp hsome with ⟨first, hfound⟩
    have hid : uniqueId first = uniqueId receipt := by simpa using List.find?_some hfound
    have hsame : first = receipt :=
      hids first (List.mem_of_find?_eq_some hfound) receipt hmem hid
    rw [hfound, hsame] at hfirst
    have hin : receipt ∈ (receiptsOf (UniqueCheck.checkFrom ∅ batch).1).filter
        (uniqueId · = uniqueId receipt) := by
      rw [hfirst]
      exact List.mem_singleton_self _
    exact (List.mem_filter.mp hin).1

/-- Which copies of a receipt fail does not show: both sides hold the same receipts. -/
theorem UniqueCheck.checkBatch_congr (h : batch.Perm batch')
    (hids : OneReceiptPerId (receiptsOf batch)) :
    (UniqueCheck.checkBatch batch).1.Perm (UniqueCheck.checkBatch batch').1 ∧
      (UniqueCheck.checkBatch batch).2.Perm (UniqueCheck.checkBatch batch').2 := by
  have hreceipts := receiptsOf_perm h
  have hids' : OneReceiptPerId (receiptsOf batch') := fun a ha b hb ↦
    hids a (hreceipts.mem_iff.mpr ha) b (hreceipts.mem_iff.mpr hb)
  have hpassed : (receiptsOf (UniqueCheck.checkBatch batch).1).Perm
      (receiptsOf (UniqueCheck.checkBatch batch').1) := by
    apply (List.perm_ext_iff_of_nodup (UniqueCheck.checkFrom_nodup ∅ batch).of_map
      (UniqueCheck.checkFrom_nodup ∅ batch').of_map).mpr
    intro receipt
    exact (UniqueCheck.mem_checkBatch hids).trans
      (hreceipts.mem_iff.trans (UniqueCheck.mem_checkBatch hids').symm)
  refine ⟨perm_of_receiptsOf hpassed, ?_⟩
  -- what is left of the batch is the same as well
  have hall := (UniqueCheck.checkFrom_perm ∅ batch).trans
    (hreceipts.trans (UniqueCheck.checkFrom_perm ∅ batch').symm)
  have hfailed := (List.perm_append_left_iff _).mp (hall.trans (hpassed.symm.append_right _))
  rw [UniqueCheck.checkBatch, UniqueCheck.checkBatch, UniqueCheck.checkFrom_failed ∅ batch,
    UniqueCheck.checkFrom_failed ∅ batch']
  exact hfailed.map _

end Unique

/-! ## The loop of checks -/

/-- Where a receipt goes when it passes, and when it fails. -/
def passedBy (answers : List (Rcpt → Except CheckError Unit))
    (receipt : ReceiptWithState Checking Rcpt) : Option (ReceiptWithState Checked Rcpt) :=
  match firstFailure answers receipt.receipt with
  | none => some (receipt.performStateChanges ⟨⟩)
  | some _ => none

def failedBy (answers : List (Rcpt → Except CheckError Unit))
    (receipt : ReceiptWithState Checking Rcpt) : Option (ReceiptWithState Failed Rcpt) :=
  match firstFailure answers receipt.receipt with
  | some (.failed e) => some (receipt.performStateError (.checkFailure e))
  | _ => none

variable {checks : CheckList ω Rcpt} {answers : List (Rcpt → Except CheckError Unit)}

/-- A loop that gets through has sent each receipt to its side. -/
theorem finalizeReceipts_eq (h : AnswersBy checks answers) {world : ω}
    {result : List (ReceiptWithState Checked Rcpt) × List (ReceiptWithState Failed Rcpt)}
    (hresult : (finalizeReceipts checks batch world).1 = .ok result) :
    result = (batch.filterMap (passedBy answers), batch.filterMap (failedBy answers)) := by
  induction batch generalizing world result with
  | nil => exact (Except.ok.inj hresult).symm
  | cons receipt batch ih =>
    rcases finalizeReceipts_cons_ok hresult with ⟨finalized, rest, world', hfinalized, hrest, rfl⟩
    rw [finalizeReceiptChecks_answers h] at hfinalized
    rw [ih hrest, List.filterMap_cons, List.filterMap_cons, passedBy, failedBy]
    rcases hfailure : firstFailure answers receipt.receipt with _ | (e | e) <;>
      rw [hfailure] at hfinalized <;> cases hfinalized <;> rfl

-- A retryable failure anywhere in the batch is met in every order.
theorem finalizeReceipts_congr {checks' : CheckList ω Rcpt} (h : AnswersBy checks answers)
    (h' : AnswersBy checks' answers) (hperm : batch.Perm batch') (world world' : ω) :
    (∃ e e', (finalizeReceipts checks batch world).1 = .error e ∧
        (finalizeReceipts checks' batch' world').1 = .error e') ∨
      ∃ result result', (finalizeReceipts checks batch world).1 = .ok result ∧
        (finalizeReceipts checks' batch' world').1 = .ok result' ∧
        result.1.Perm result'.1 ∧ result.2.Perm result'.2 := by
  have hretry : (∃ e, (finalizeReceipts checks batch world).1 = .error e) ↔
      ∃ e, (finalizeReceipts checks' batch' world').1 = .error e := by
    rw [finalizeReceipts_error_iff h, finalizeReceipts_error_iff h']
    simp only [hperm.mem_iff]
  cases hresult : (finalizeReceipts checks batch world).1 with
  | error e =>
    rcases hretry.mp ⟨e, hresult⟩ with ⟨e', hresult'⟩
    exact .inl ⟨e, e', rfl, hresult'⟩
  | ok result =>
    cases hresult' : (finalizeReceipts checks' batch' world').1 with
    | error e' =>
      rcases hretry.mpr ⟨e', hresult'⟩ with ⟨e, herror⟩
      rw [hresult] at herror
      cases herror
    | ok result' =>
      refine .inr ⟨result, result', rfl, rfl, ?_⟩
      rw [finalizeReceipts_eq h hresult, finalizeReceipts_eq h' hresult']
      exact ⟨hperm.filterMap _, hperm.filterMap _⟩

variable [WithValueAndTimestamp Rcpt] [DecidableEq Id] [WithUniqueId Rcpt Id]

theorem survivors_sublist (min : U64) (batch : List (ReceiptWithState Checking Rcpt)) :
    (survivors min batch).Sublist batch := by
  have hunique := UniqueCheck.checkFrom_sublist ∅ (TimestampCheck.checkBatch min batch).1
  rw [TimestampCheck.checkBatch_checking] at hunique
  rw [survivors, UniqueCheck.checkBatch, TimestampCheck.checkBatch_checking]
  exact hunique.trans List.filter_sublist

/-- Both batch checks over another order: the same survivors, and the same failures. -/
theorem batchChecks_congr (hperm : batch.Perm batch') (hids : OneReceiptPerId (receiptsOf batch))
    (min : U64) : (survivors min batch).Perm (survivors min batch') ∧
      ((TimestampCheck.checkBatch min batch).2 ++
          (UniqueCheck.checkBatch (TimestampCheck.checkBatch min batch).1).2).Perm
        ((TimestampCheck.checkBatch min batch').2 ++
          (UniqueCheck.checkBatch (TimestampCheck.checkBatch min batch').1).2) := by
  have hstamped : (TimestampCheck.checkBatch min batch).1.Perm
      (TimestampCheck.checkBatch min batch').1 := by
    rw [TimestampCheck.checkBatch_checking, TimestampCheck.checkBatch_checking]
    exact hperm.filter _
  have hearly : (TimestampCheck.checkBatch min batch).2.Perm
      (TimestampCheck.checkBatch min batch').2 := by
    rw [TimestampCheck.checkBatch_failed, TimestampCheck.checkBatch_failed]
    exact (hperm.filter _).map _
  have hstampedIds : OneReceiptPerId (receiptsOf (TimestampCheck.checkBatch min batch).1) := by
    rw [TimestampCheck.checkBatch_receiptsOf]
    intro a ha b hb
    exact hids a (List.mem_filter.mp ha).1 b (List.mem_filter.mp hb).1
  have hunique := UniqueCheck.checkBatch_congr hstamped hstampedIds
  exact ⟨hunique.1, hearly.append hunique.2⟩

end Batches

/-! ## Aggregation in another order -/

namespace ReceiptAggregateVoucher

theorem aggregate_perm {receipts receipts' : List (ReceiptWithState Checked SignedReceipt)}
    {previousRav : Option SignedRav} (h : receipts.Perm receipts')
    (haccount : ∃ account, ∀ receipt ∈ receiptsOf receipts, receipt.message.account = account) :
    (Aggregate.aggregateReceipts receipts previousRav :
        Except AggregationError ReceiptAggregateVoucher) =
      Aggregate.aggregateReceipts receipts' previousRav := by
  rcases haccount with ⟨account, haccount⟩
  cases receipts with
  | nil =>
    rw [h.nil_eq]
  | cons first rest =>
    cases receipts' with
    | nil => exact absurd h.symm.nil_eq (by simp)
    | cons first' rest' =>
      have hreceipts := receiptsOf_perm h
      have hfirst : first.receipt.message.account = account :=
        haccount _ (List.mem_cons_self ..)
      have hfirst' : first'.receipt.message.account = account :=
        haccount _ (hreceipts.mem_iff.mpr (List.mem_cons_self ..))
      show aggregateFor first.receipt.message.account (receiptsOf (first :: rest)) previousRav =
        aggregateFor first'.receipt.message.account (receiptsOf (first' :: rest')) previousRav
      rw [hfirst, hfirst', aggregateFor_perm hreceipts]

end ReceiptAggregateVoucher

/-! ## Requests up to order -/

/-- The same receipts on the same sides, in orders of their own. -/
structure RavRequest.SameReceipts {Rcpt Rav : Type} (a b : RavRequest Rcpt Rav) : Prop where
  valid : a.validReceipts.Perm b.validReceipts
  previous : a.previousRav = b.previousRav
  invalid : a.invalidReceipts.Perm b.invalidReceipts

/-- Results related by `same`, the same failure, or two retryable checks: which one of several is
met first is up to the order. -/
inductive SameOutcome {α : Type} (same : α → α → Prop) : Outcome Error α → Outcome Error α → Prop
  | ok {a b : α} : same a b → SameOutcome same (.ok a) (.ok b)
  | failure (failure : Failure Error) : SameOutcome same (.error failure) (.error failure)
  | retryable (e e' : String) :
      SameOutcome same (.error (.error (.receiptError (.retryableCheck e))))
        (.error (.error (.receiptError (.retryableCheck e'))))

theorem SameOutcome.mono {α : Type} {same same' : α → α → Prop} {a b : Outcome Error α}
    (h : SameOutcome same a b) (himp : ∀ x y, same x y → same' x y) : SameOutcome same' a b := by
  cases h with
  | ok hsame => exact .ok (himp _ _ hsame)
  | failure failure => exact .failure failure
  | retryable e e' => exact .retryable e e'

theorem SameOutcome.map {α β : Type} {same : α → α → Prop} {same' : β → β → Prop} {f : α → β}
    {a b : Outcome Error α} (h : SameOutcome same a b)
    (himp : ∀ x y, same x y → same' (f x) (f y)) : SameOutcome same' (a.map f) (b.map f) := by
  cases h with
  | ok hsame => exact .ok (himp _ _ hsame)
  | failure failure => exact .failure failure
  | retryable e e' => exact .retryable e e'

namespace InMemoryContext

/-- The stored receipts in the window of a request.  A request that fails before it has computed
its window sees none. -/
def inWindow (profile : Profile) (clock : SystemTime) (timestampBufferNs : U64)
    (self : InMemoryContext) : List (ReceiptWithState Checking SignedReceipt) :=
  match Manager.minTimestampNs profile self.ravStorage,
    Manager.maxTimestampNs profile clock timestampBufferNs with
  | .ok min, .ok max => self.inRange (.halfOpen min max)
  | _, _ => []

section Compare

variable {ω Domain Id : Type} [DecidableEq Id] [WithUniqueId SignedReceipt Id]
  {profile : Profile} {enumeration enumeration' : Enumeration} {unstable unstable' : UnstableSort}
  {checks checks' : InMemoryContext → CheckList ω SignedReceipt}
  {answers : List (SignedReceipt → Except CheckError Unit)} {domainSeparator : Domain}
  {clock : SystemTime} {timestampBufferNs : U64} {limit : Option U64}
  {context context' : InMemoryContext} {world world' : ω}

/-- `create_rav_request` is `collect_receipts` between reading the RAV and aggregating. -/
theorem createRavRequest_eq :
    ((manager profile enumeration unstable checks domainSeparator).createRavRequest profile clock
      timestampBufferNs limit context world).1 =
    (Manager.minTimestampNs profile context.ravStorage).bind fun min ↦
      ((manager profile enumeration unstable checks domainSeparator).collectReceipts profile clock
        timestampBufferNs min limit context world).1.map fun collected ↦
          { validReceipts := collected.1, previousRav := context.ravStorage,
            invalidReceipts := collected.2,
            expectedRav := Aggregate.aggregateReceipts collected.1 context.ravStorage } := by
  unfold Manager.createRavRequest
  rw [getPreviousRav_eq]
  unfold Manager.createRavRequestFrom
  dsimp only
  cases Manager.minTimestampNs profile context.ravStorage with
  | error e => rfl
  | ok min =>
    dsimp only [Except.bind]
    rcases (manager profile enumeration unstable checks domainSeparator).collectReceipts profile
      clock timestampBufferNs min limit context world with ⟨_ | _, _⟩ <;> rfl

theorem retrieve_congr (enumeration : Enumeration) (unstable : UnstableSort)
    (enumeration' : Enumeration) (unstable' : UnstableSort) {range : TimestampRange}
    (limit : Option U64) (h : (context.inRange range).Perm (context'.inRange range)) :
    (context.retrieveReceiptsInTimestampRange enumeration unstable range limit).Perm
      (context'.retrieveReceiptsInTimestampRange enumeration' unstable' range limit) := by
  refine (retrieve_perm enumeration unstable range limit context).trans (List.Perm.trans ?_
    (retrieve_perm enumeration' unstable' range limit context').symm)
  cases limit with
  | none => exact h
  | some limit => exact wholeGroups_perm h

/-- The receipts of the window, collected twice. -/
theorem collectReceipts_congr {min max : U64}
    (hmax : Manager.maxTimestampNs profile clock timestampBufferNs = .ok max)
    (hwindow : (context.inRange (.halfOpen min max)).Perm (context'.inRange (.halfOpen min max)))
    (hids : OneReceiptPerId (receiptsOf (context.inRange (.halfOpen min max))))
    (hchecks : AnswersBy (checks context) answers)
    (hchecks' : AnswersBy (checks' context') answers) :
    SameOutcome (fun a b ↦ a.1.Perm b.1 ∧ a.2.Perm b.2 ∧
        receiptsOf a.1 ⊆ receiptsOf (context.inRange (.halfOpen min max)))
      ((manager profile enumeration unstable checks domainSeparator).collectReceipts profile clock
        timestampBufferNs min limit context world).1
      ((manager profile enumeration' unstable' checks' domainSeparator).collectReceipts profile
        clock timestampBufferNs min limit context' world').1 := by
  by_cases horder : min.toNat ≤ max.toNat
  · have hretrieves : (manager profile enumeration unstable checks domainSeparator).Retrieves
        profile clock timestampBufferNs min limit context max
        (context.retrieveReceiptsInTimestampRange enumeration unstable (.halfOpen min max) limit)
        context := ⟨hmax, horder, rfl⟩
    have hretrieves' : (manager profile enumeration' unstable' checks' domainSeparator).Retrieves
        profile clock timestampBufferNs min limit context' max
        (context'.retrieveReceiptsInTimestampRange enumeration' unstable' (.halfOpen min max) limit)
        context' := ⟨hmax, horder, rfl⟩
    have hperm := retrieve_congr enumeration unstable enumeration' unstable' limit hwindow
    have hsubset := List.map_subset (·.receipt)
      (retrieve_subset enumeration unstable (.halfOpen min max) limit context)
    have hretrievedIds : OneReceiptPerId (receiptsOf (context.retrieveReceiptsInTimestampRange
        enumeration unstable (.halfOpen min max) limit)) := fun a ha b hb ↦
      hids a (hsubset ha) b (hsubset hb)
    have hbatch := batchChecks_congr hperm hretrievedIds min
    have hanswers : AnswersBy ((manager profile enumeration unstable checks
      domainSeparator).checks context) answers := hchecks
    have hanswers' : AnswersBy ((manager profile enumeration' unstable' checks'
      domainSeparator).checks context') answers := hchecks'
    rw [hretrieves.collectReceipts_eq, hretrieves'.collectReceipts_eq]
    rcases finalizeReceipts_congr hanswers hanswers' hbatch.1 world world' with
      ⟨e, e', herror, herror'⟩ | ⟨result, result', hok, hok', hvalid, hfailed⟩
    · rw [herror, herror']
      exact .retryable e e'
    · rw [hok, hok']
      refine .ok ⟨hvalid, hbatch.2.append hfailed, ?_⟩
      have hsurvived := List.map_subset (·.receipt) (survivors_sublist min
        (context.retrieveReceiptsInTimestampRange enumeration unstable (.halfOpen min max)
          limit)).subset
      intro receipt hreceipt
      exact hsubset (hsurvived ((finalizeReceipts_partition hok).1.subset hreceipt))
  · unfold Manager.collectReceipts
    simp only [hmax, if_pos (Nat.lt_of_not_le horder)]
    exact .failure _

/-- Two requests that see the same window in two orders. -/
theorem createRavRequest_congr (hrav : context'.ravStorage = context.ravStorage)
    (hwindow : (context.inWindow profile clock timestampBufferNs).Perm
      (context'.inWindow profile clock timestampBufferNs))
    (hids : OneReceiptPerId (receiptsOf (context.inWindow profile clock timestampBufferNs)))
    (hchecks : AnswersBy (checks context) answers)
    (hchecks' : AnswersBy (checks' context') answers) :
    SameOutcome (fun a b ↦ a.SameReceipts b ∧
        ((∃ account, ∀ receipt ∈ receiptsOf (context.inWindow profile clock timestampBufferNs),
          receipt.message.account = account) → a.expectedRav = b.expectedRav))
      ((manager profile enumeration unstable checks domainSeparator).createRavRequest profile clock
        timestampBufferNs limit context world).1
      ((manager profile enumeration' unstable' checks' domainSeparator).createRavRequest profile
        clock timestampBufferNs limit context' world').1 := by
  unfold inWindow at hwindow hids ⊢
  rw [createRavRequest_eq, createRavRequest_eq, hrav]
  rw [hrav] at hwindow
  cases hmin : Manager.minTimestampNs profile context.ravStorage with
  | error failure => exact .failure failure
  | ok min =>
    rw [hmin] at hwindow hids
    cases hmax : Manager.maxTimestampNs profile clock timestampBufferNs with
    | error failure =>
      dsimp only [Except.bind]
      unfold Manager.collectReceipts
      simp only [hmax]
      exact .failure failure
    | ok max =>
      rw [hmax] at hwindow hids
      refine (collectReceipts_congr hmax hwindow hids hchecks hchecks').map ?_
      intro a b hsame
      refine ⟨⟨hsame.1, rfl, hsame.2.1⟩, ?_⟩
      intro haccount
      rcases haccount with ⟨account, haccount⟩
      apply ReceiptAggregateVoucher.aggregate_perm hsame.1
      exact ⟨account, fun receipt hreceipt ↦ haccount receipt (hsame.2.2 hreceipt)⟩

end Compare

/-- Whatever order the storage is listed in and wherever the sort puts equal timestamps, a request
returns the same receipts on the same sides and expects the same RAV. -/
theorem createRavRequest_orderFree {ω Domain Id : Type} [DecidableEq Id]
    [WithUniqueId SignedReceipt Id] (profile : Profile) (enumeration enumeration' : Enumeration)
    (unstable unstable' : UnstableSort) (checks : InMemoryContext → CheckList ω SignedReceipt)
    {answers : List (SignedReceipt → Except CheckError Unit)} (domainSeparator : Domain)
    (clock : SystemTime) (timestampBufferNs : U64) (limit : Option U64)
    (context : InMemoryContext) (world world' : ω) (hchecks : AnswersBy (checks context) answers)
    (hids : OneReceiptPerId (receiptsOf (context.inWindow profile clock timestampBufferNs)))
    (haccount : ∃ account, ∀ receipt ∈ receiptsOf (context.inWindow profile clock
      timestampBufferNs), receipt.message.account = account) :
    SameOutcome (fun a b ↦ a.SameReceipts b ∧ a.expectedRav = b.expectedRav)
      ((manager profile enumeration unstable checks domainSeparator).createRavRequest profile clock
        timestampBufferNs limit context world).1
      ((manager profile enumeration' unstable' checks domainSeparator).createRavRequest profile
        clock timestampBufferNs limit context world').1 := by
  refine (createRavRequest_congr rfl (List.Perm.refl _) hids hchecks hchecks).mono ?_
  intro a b hsame
  exact ⟨hsame.1, hsame.2 haccount⟩

end InMemoryContext

namespace Known

def reversedOrder : Enumeration := ⟨List.reverse, List.reverse_perm⟩

end Known

open Known InMemoryContext in
theorem InMemoryContext.createRavRequest_orderFree_known :
    SameOutcome (fun a b ↦ a.SameReceipts b ∧ a.expectedRav = b.expectedRav)
      ((manager .debug .insertionOrder .merge (fun _ ↦ getFullListOfChecks domain
        {Key.one.address} fun _ : Unit ↦ collections) domain).createRavRequest .debug (.ok 100) 0
          (some 1) (store batch) ()).1
      ((manager .debug reversedOrder .merge (fun _ ↦ getFullListOfChecks domain
        {Key.one.address} fun _ : Unit ↦ collections) domain).createRavRequest .debug (.ok 100) 0
          (some 1) (store batch) ()).1 :=
  createRavRequest_orderFree .debug .insertionOrder reversedOrder .merge .merge _ domain (.ok 100) 0
    (some 1) (store batch) () () (answersBy_unit _) (by decide +kernel)
    ⟨account, by decide +kernel⟩

end GraphTally
