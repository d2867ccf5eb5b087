import GraphTally.Receipt.ReceivedReceipt
import GraphTally.Theory.Watermark

/-!
# Receipts and vouchers

The `graph` crate: the two signed messages and the aggregation of the first into the second.
-/

open GraphTally.Theory

namespace GraphTally

structure Receipt where
  collectionId : B256
  payer : Address
  dataService : Address
  serviceProvider : Address
  timestampNs : U64
  nonce : U64
  value : U128
  deriving DecidableEq

structure ReceiptAggregateVoucher where
  collectionId : B256
  payer : Address
  serviceProvider : Address
  dataService : Address
  timestampNs : U64
  valueAggregate : U128
  metadata : List UInt8
  deriving DecidableEq

abbrev SignedReceipt := Eip712SignedMessage Receipt
abbrev SignedRav := Eip712SignedMessage ReceiptAggregateVoucher

instance : WithValueAndTimestamp Receipt where
  value := Receipt.value
  timestampNs := Receipt.timestampNs

instance : WithValueAndTimestamp ReceiptAggregateVoucher where
  value := ReceiptAggregateVoucher.valueAggregate
  timestampNs := ReceiptAggregateVoucher.timestampNs

/-- The four ids that say whose money a receipt or a RAV speaks for. -/
structure Account where
  collectionId : B256
  payer : Address
  dataService : Address
  serviceProvider : Address
  deriving DecidableEq

def Receipt.account (receipt : Receipt) : Account :=
  ⟨receipt.collectionId, receipt.payer, receipt.dataService, receipt.serviceProvider⟩

def ReceiptAggregateVoucher.account (rav : ReceiptAggregateVoucher) : Account :=
  ⟨rav.collectionId, rav.payer, rav.dataService, rav.serviceProvider⟩

inductive AggregationError where
  | aggregateOverflow
  | noValidReceiptsForRavRequest
  | other (source : String)
  deriving DecidableEq, Repr

/-- The `Aggregate` trait. -/
class Aggregate (Rcpt Rav : Type) where
  aggregateReceipts : List (ReceiptWithState Checked Rcpt) → Option (Eip712SignedMessage Rav) →
    Except AggregationError Rav

namespace ReceiptAggregateVoucher

/-- The loop of `aggregate_receipts`: a running maximum and a checked running sum. -/
def aggregateFrom (timestampMax : U64) (valueAggregate : U128) :
    List SignedReceipt → Except AggregationError (U64 × U128)
  | [] => .ok (timestampMax, valueAggregate)
  | receipt :: receipts =>
    match checkedAdd valueAggregate receipt.message.value with
    | none => .error .aggregateOverflow
    | some valueAggregate =>
      aggregateFrom (wordMax timestampMax receipt.message.timestampNs) valueAggregate receipts

def aggregateReceipts (collectionId : B256) (payer dataService serviceProvider : Address)
    (receipts : List SignedReceipt) (previousRav : Option SignedRav) :
    Except AggregationError ReceiptAggregateVoucher :=
  let timestampMax := previousRav.elim 0 (·.message.timestampNs)
  let valueAggregate := previousRav.elim 0 (·.message.valueAggregate)
  (aggregateFrom timestampMax valueAggregate receipts).map fun result ↦ {
    collectionId, timestampNs := result.1, valueAggregate := result.2, payer, dataService,
    serviceProvider, metadata := [] }

/-- Aggregation for an account as a whole. -/
abbrev aggregateFor (account : Account) (receipts : List SignedReceipt)
    (previousRav : Option SignedRav) : Except AggregationError ReceiptAggregateVoucher :=
  aggregateReceipts account.collectionId account.payer account.dataService
    account.serviceProvider receipts previousRav

/-- The ids of the result are those of whichever receipt comes first. -/
instance : Aggregate SignedReceipt ReceiptAggregateVoucher where
  aggregateReceipts receipts previousRav :=
    match receipts with
    | [] => .error .noValidReceiptsForRavRequest
    | first :: _ =>
      let message := first.receipt.message
      aggregateReceipts message.collectionId message.payer message.dataService
        message.serviceProvider (receiptsOf receipts) previousRav

end ReceiptAggregateVoucher

/-! ## Exact arithmetic -/

/-- The sum of the receipts' values, with no word in sight. -/
def exactTotal (receipts : List SignedReceipt) : Nat :=
  (receipts.map (·.message.value.toNat)).sum

@[simp] theorem exactTotal_nil : exactTotal [] = 0 := rfl

@[simp] theorem exactTotal_cons (receipt : SignedReceipt) (receipts : List SignedReceipt) :
    exactTotal (receipt :: receipts) = receipt.message.value.toNat + exactTotal receipts := rfl

theorem exactTotal_flatten (batches : List (List SignedReceipt)) :
    exactTotal batches.flatten = (batches.map exactTotal).sum := by
  induction batches with
  | nil => rfl
  | cons batch batches ih =>
    simp only [List.flatten_cons, List.map_cons, List.sum_cons, ← ih, exactTotal, List.map_append,
      List.sum_append]

def previousValue (previousRav : Option SignedRav) : Nat :=
  previousRav.elim 0 (·.message.valueAggregate.toNat)

def previousTimestamp (previousRav : Option SignedRav) : Nat :=
  previousRav.elim 0 (·.message.timestampNs.toNat)

def latest (timestamp : Nat) (receipts : List SignedReceipt) : Nat :=
  receipts.foldl (fun t receipt ↦ max t receipt.message.timestampNs.toNat) timestamp

@[simp] theorem latest_cons (timestamp : Nat) (receipt : SignedReceipt)
    (receipts : List SignedReceipt) : latest timestamp (receipt :: receipts) =
      latest (max timestamp receipt.message.timestampNs.toNat) receipts := rfl

theorem le_latest (timestamp : Nat) (receipts : List SignedReceipt) :
    timestamp ≤ latest timestamp receipts := by
  induction receipts generalizing timestamp with
  | nil => exact le_rfl
  | cons receipt receipts ih => exact (le_max_left _ _).trans (ih _)

theorem timestamp_le_latest (timestamp : Nat) {receipts : List SignedReceipt}
    {receipt : SignedReceipt} (h : receipt ∈ receipts) :
    receipt.message.timestampNs.toNat ≤ latest timestamp receipts := by
  induction receipts generalizing timestamp with
  | nil => cases h
  | cons x xs ih =>
    rcases List.mem_cons.mp h with rfl | h
    · exact (le_max_right _ _).trans (le_latest _ xs)
    · exact ih _ h

-- A running maximum is its start or one of the elements.
theorem latest_attained (timestamp : Nat) (receipts : List SignedReceipt) :
    latest timestamp receipts = timestamp ∨
      ∃ receipt ∈ receipts, receipt.message.timestampNs.toNat = latest timestamp receipts := by
  induction receipts generalizing timestamp with
  | nil => exact .inl rfl
  | cons x xs ih =>
    rcases ih (max timestamp x.message.timestampNs.toNat) with h | ⟨r, hr, h⟩
    · rw [latest_cons, h]
      rcases le_total timestamp x.message.timestampNs.toNat with hle | hle
      · exact .inr ⟨x, List.mem_cons_self, (max_eq_right hle).symm⟩
      · exact .inl (max_eq_left hle)
    · exact .inr ⟨r, List.mem_cons_of_mem _ hr, h⟩

/-! ## What aggregation computes -/

namespace ReceiptAggregateVoucher

-- Success means that no partial sum overflowed, so the total is the exact one.
theorem aggregateFrom_eq_ok {timestampMax timestampMax' : U64}
    {valueAggregate valueAggregate' : U128} {receipts : List SignedReceipt} :
    aggregateFrom timestampMax valueAggregate receipts =
        .ok (timestampMax', valueAggregate') ↔
      valueAggregate'.toNat = valueAggregate.toNat + exactTotal receipts ∧
        timestampMax'.toNat = latest timestampMax.toNat receipts := by
  induction receipts generalizing timestampMax valueAggregate with
  | nil =>
    simp only [aggregateFrom, Except.ok.injEq, Prod.mk.injEq, exactTotal_nil, Nat.add_zero,
      latest, List.foldl_nil, BitVec.toNat_inj]
    exact ⟨fun h ↦ ⟨h.2.symm, h.1.symm⟩, fun h ↦ ⟨h.2.symm, h.1.symm⟩⟩
  | cons receipt receipts ih =>
    rw [aggregateFrom]
    cases hadd : checkedAdd valueAggregate receipt.message.value with
    | none =>
      -- the first value is already too much, and the rest only adds to it
      have hover := checkedAdd_eq_none.mp hadd
      have hlt := valueAggregate'.isLt
      simp only [reduceCtorEq, exactTotal_cons, false_iff]
      omega
    | some sum =>
      have hsum := checkedAdd_eq_some.mp hadd
      simp only [ih, hsum, toNat_wordMax, latest_cons, exactTotal_cons, Nat.add_assoc]

-- The partial sums grow, so the first overflow decides for the whole list.
theorem aggregateFrom_eq_error {timestampMax : U64} {valueAggregate : U128}
    {receipts : List SignedReceipt} {e : AggregationError} :
    aggregateFrom timestampMax valueAggregate receipts = .error e ↔
      e = .aggregateOverflow ∧ 2 ^ 128 ≤ valueAggregate.toNat + exactTotal receipts := by
  induction receipts generalizing timestampMax valueAggregate with
  | nil =>
    have hlt := valueAggregate.isLt
    simp only [aggregateFrom, reduceCtorEq, exactTotal_nil, Nat.add_zero, false_iff]
    omega
  | cons receipt receipts ih =>
    rw [aggregateFrom]
    cases hadd : checkedAdd valueAggregate receipt.message.value with
    | none =>
      have hover := checkedAdd_eq_none.mp hadd
      simp only [Except.error.injEq, exactTotal_cons, eq_comm (a := e), iff_self_and]
      omega
    | some sum =>
      have hsum := checkedAdd_eq_some.mp hadd
      simp only [ih, hsum, exactTotal_cons, Nat.add_assoc]

variable {account : Account} {receipts : List SignedReceipt} {previousRav : Option SignedRav}

theorem toNat_previousValue :
    (previousRav.elim 0 (·.message.valueAggregate) : U128).toNat = previousValue previousRav := by
  cases previousRav <;> rfl

theorem toNat_previousTimestamp :
    (previousRav.elim 0 (·.message.timestampNs) : U64).toNat = previousTimestamp previousRav := by
  cases previousRav <;> rfl

theorem aggregateReceipts_eq_ok {rav : ReceiptAggregateVoucher} :
    aggregateFor account receipts previousRav = .ok rav ↔
      rav.account = account ∧ rav.metadata = [] ∧
        rav.valueAggregate.toNat = previousValue previousRav + exactTotal receipts ∧
        rav.timestampNs.toNat = latest (previousTimestamp previousRav) receipts := by
  rw [← toNat_previousValue, ← toNat_previousTimestamp, ← aggregateFrom_eq_ok, aggregateFor,
    aggregateReceipts]
  cases aggregateFrom _ _ receipts with
  | error e => simp [Except.map]
  | ok result =>
    obtain ⟨ravCollectionId, ravPayer, ravServiceProvider, ravDataService, ravTimestamp, ravValue,
      ravMetadata⟩ := rav
    obtain ⟨collectionId, payer, dataService, serviceProvider⟩ := account
    simp only [Except.map, Except.ok.injEq, mk.injEq, ReceiptAggregateVoucher.account,
      Account.mk.injEq, Prod.ext_iff]
    grind

/-- Aggregation fails exactly when the exact total leaves the word, and then with an overflow. -/
theorem aggregateReceipts_eq_error {e : AggregationError} :
    aggregateFor account receipts previousRav = .error e ↔
      e = .aggregateOverflow ∧ 2 ^ 128 ≤ previousValue previousRav + exactTotal receipts := by
  rw [← toNat_previousValue, ← aggregateFrom_eq_error, aggregateFor, aggregateReceipts]
  cases aggregateFrom _ _ receipts <;> simp [Except.map]

/-- The trait's `aggregate_receipts` is the function above at the first receipt's account. -/
theorem aggregate_eq_ok {receipts : List (ReceiptWithState Checked SignedReceipt)}
    {rav : ReceiptAggregateVoucher} :
    Aggregate.aggregateReceipts receipts previousRav = .ok rav ↔
      ∃ first, (receiptsOf receipts).head? = some first ∧
        aggregateFor first.message.account (receiptsOf receipts) previousRav = .ok rav := by
  cases receipts with
  | nil => simp [Aggregate.aggregateReceipts, receiptsOf_nil]
  | cons first receipts =>
    simp only [receiptsOf_cons, List.head?_cons, Option.some_inj, exists_eq_left']
    rfl

theorem aggregateReceipts_isOk :
    (∃ rav, aggregateFor account receipts previousRav = .ok rav) ↔
      previousValue previousRav + exactTotal receipts < 2 ^ 128 := by
  cases haggregate : aggregateFor account receipts previousRav with
  | error e => simpa using (aggregateReceipts_eq_error.mp haggregate).2
  | ok rav =>
    have hlt := rav.valueAggregate.isLt
    rw [(aggregateReceipts_eq_ok.mp haggregate).2.2.1] at hlt
    exact ⟨fun _ ↦ hlt, fun _ ↦ ⟨rav, rfl⟩⟩

end ReceiptAggregateVoucher

/-! ## A RAV as a watermark -/

def SignedReceipt.mark (receipt : SignedReceipt) : Nat := receipt.message.timestampNs.toNat

def SignedReceipt.amount (receipt : SignedReceipt) : Nat := receipt.message.value.toNat

def ReceiptAggregateVoucher.voucher (rav : ReceiptAggregateVoucher) : Voucher Nat Nat :=
  ⟨rav.timestampNs.toNat, rav.valueAggregate.toNat⟩

/-- Receipts later than the previous RAV aggregate to a voucher that extends it. -/
theorem ReceiptAggregateVoucher.aggregateReceipts_extends {account : Account}
    {receipts : List SignedReceipt} {previousRav : Option SignedRav}
    {rav : ReceiptAggregateVoucher}
    (haggregate : aggregateFor account receipts previousRav = .ok rav)
    (hne : receipts ≠ [])
    (hlater : ∀ prev ∈ previousRav, ∀ receipt ∈ receipts,
      prev.message.timestampNs.toNat < receipt.message.timestampNs.toNat) :
    Voucher.Extends SignedReceipt.mark SignedReceipt.amount
      (previousRav.map (·.message.voucher)) receipts rav.voucher := by
  obtain ⟨-, -, hvalue, htimestamp⟩ := aggregateReceipts_eq_ok.mp haggregate
  refine ⟨?above, ?covers, ?attained, ?total⟩
  case above =>
    intro v hv receipt hreceipt
    obtain ⟨prev, hprev, rfl⟩ := Option.mem_map.mp hv
    exact hlater prev hprev receipt hreceipt
  case covers =>
    intro receipt hreceipt
    show receipt.message.timestampNs.toNat ≤ rav.timestampNs.toNat
    rw [htimestamp]
    exact timestamp_le_latest _ hreceipt
  case attained =>
    show ∃ receipt ∈ receipts, receipt.message.timestampNs.toNat = rav.timestampNs.toNat
    rw [htimestamp]
    rcases latest_attained (previousTimestamp previousRav) receipts with h | h
    · -- every receipt is at or above the start, so any of them attains a maximum that stays there
      obtain ⟨receipt, hreceipt⟩ := List.exists_mem_of_ne_nil _ hne
      have hle := timestamp_le_latest (previousTimestamp previousRav) hreceipt
      refine ⟨receipt, hreceipt, le_antisymm hle ?_⟩
      rw [h]
      cases previousRav with
      | none => exact Nat.zero_le _
      | some prev => exact (hlater prev rfl receipt hreceipt).le
    · exact h
  case total =>
    show rav.valueAggregate.toNat = _
    rw [hvalue]
    cases previousRav <;> rfl

end GraphTally
