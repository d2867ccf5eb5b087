import GraphTally.Graph

/-!
# Aggregation in batches

A client with too many receipts for one call splits them over several, each with the RAV of the
call before.  How they are split and ordered makes no difference.
-/

open GraphTally.Theory

namespace GraphTally

/-! ## Another order -/

theorem exactTotal_perm {receipts receipts' : List SignedReceipt} (h : receipts.Perm receipts') :
    exactTotal receipts = exactTotal receipts' :=
  (h.map _).sum_eq

theorem latest_perm {receipts receipts' : List SignedReceipt} (h : receipts.Perm receipts')
    (timestamp : Nat) : latest timestamp receipts = latest timestamp receipts' := by
  induction h generalizing timestamp with
  | nil => rfl
  | cons receipt _ ih => exact ih _
  | swap a b receipts => rw [latest_cons, latest_cons, latest_cons, latest_cons, max_right_comm]
  | trans _ _ ih ih' => exact (ih _).trans (ih' _)

namespace ReceiptAggregateVoucher

-- The partial sums differ, but they leave the word together.
theorem aggregateFor_perm {account : Account} {receipts receipts' : List SignedReceipt}
    {previousRav : Option SignedRav} (h : receipts.Perm receipts') :
    aggregateFor account receipts previousRav = aggregateFor account receipts' previousRav := by
  cases haggregate : aggregateFor account receipts previousRav with
  | error e =>
    symm
    rw [aggregateReceipts_eq_error, ← exactTotal_perm h]
    exact aggregateReceipts_eq_error.mp haggregate
  | ok rav =>
    symm
    rw [aggregateReceipts_eq_ok, ← exactTotal_perm h, ← latest_perm h]
    exact aggregateReceipts_eq_ok.mp haggregate

/-! ## Another split -/

/-- The loop over two batches is the loop over the second from where the first left it. -/
theorem aggregateFrom_append (timestampMax : U64) (valueAggregate : U128)
    (batch batch' : List SignedReceipt) :
    aggregateFrom timestampMax valueAggregate (batch ++ batch') =
      aggregateFrom timestampMax valueAggregate batch >>= fun result ↦
        aggregateFrom result.1 result.2 batch' := by
  induction batch generalizing timestampMax valueAggregate with
  | nil => rfl
  | cons receipt batch ih =>
    rw [List.cons_append, aggregateFrom, aggregateFrom]
    cases checkedAdd valueAggregate receipt.message.value with
    | none => rfl
    | some sum => exact ih _ sum

section Split

variable (collectionId : B256) (payer dataService serviceProvider : Address)

/-- A later call goes on from the RAV of the one before, whatever its signature. -/
theorem aggregateReceipts_append (sign : ReceiptAggregateVoucher → Signature)
    (batch batch' : List SignedReceipt) (previousRav : Option SignedRav) :
    aggregateReceipts collectionId payer dataService serviceProvider (batch ++ batch')
        previousRav =
      aggregateReceipts collectionId payer dataService serviceProvider batch previousRav >>=
        fun rav ↦ aggregateReceipts collectionId payer dataService serviceProvider batch'
          (some ⟨rav, sign rav⟩) := by
  unfold aggregateReceipts
  simp only [aggregateFrom_append]
  cases aggregateFrom (previousRav.elim 0 (·.message.timestampNs))
      (previousRav.elim 0 (·.message.valueAggregate)) batch with
  | error e => rfl
  | ok result => rfl

/-- The calls for one batch after another. -/
def aggregateBatches (sign : ReceiptAggregateVoucher → Signature)
    (batches : List (List SignedReceipt)) (rav : ReceiptAggregateVoucher) :
    Except AggregationError ReceiptAggregateVoucher :=
  batches.foldlM (fun rav batch ↦ aggregateReceipts collectionId payer dataService serviceProvider
    batch (some ⟨rav, sign rav⟩)) rav

/-- However many calls there are, their outcome is that of a single one. -/
theorem aggregateBatches_flatten (sign : ReceiptAggregateVoucher → Signature)
    (batch : List SignedReceipt) (batches : List (List SignedReceipt))
    (previousRav : Option SignedRav) :
    aggregateReceipts collectionId payer dataService serviceProvider batch previousRav >>=
        aggregateBatches collectionId payer dataService serviceProvider sign batches =
      aggregateReceipts collectionId payer dataService serviceProvider
        (batch ++ batches.flatten) previousRav := by
  induction batches generalizing batch with
  | nil =>
    rw [List.flatten_nil, List.append_nil]
    exact bind_pure _
  | cons next batches ih =>
    rw [List.flatten_cons, ← List.append_assoc, ← ih (batch ++ next),
      aggregateReceipts_append _ _ _ _ sign, bind_assoc]
    rfl

/-- Neither the split into calls nor the order of the receipts changes the outcome, and it is an
overflow exactly when the exact total is no `u128`. -/
theorem aggregateReceipts_batchFree (previousRav : Option SignedRav) :
    (∀ (sign : ReceiptAggregateVoucher → Signature) (batch batch' : List SignedReceipt),
      aggregateReceipts collectionId payer dataService serviceProvider (batch ++ batch')
          previousRav =
        aggregateReceipts collectionId payer dataService serviceProvider batch previousRav >>=
          fun rav ↦ aggregateReceipts collectionId payer dataService serviceProvider batch'
            (some ⟨rav, sign rav⟩)) ∧
    (∀ receipts receipts' : List SignedReceipt, receipts.Perm receipts' →
      aggregateReceipts collectionId payer dataService serviceProvider receipts previousRav =
        aggregateReceipts collectionId payer dataService serviceProvider receipts' previousRav) ∧
    ∀ receipts : List SignedReceipt,
      aggregateReceipts collectionId payer dataService serviceProvider receipts previousRav =
          .error .aggregateOverflow ↔
        2 ^ 128 - 1 < previousValue previousRav + exactTotal receipts := by
  let account : Account := ⟨collectionId, payer, dataService, serviceProvider⟩
  refine ⟨?_, ?_, ?_⟩
  · intro sign batch batch'
    exact aggregateReceipts_append _ _ _ _ sign batch batch' previousRav
  · intro receipts receipts' hperm
    show aggregateFor account receipts previousRav = aggregateFor account receipts' previousRav
    exact aggregateFor_perm hperm
  · intro receipts
    show aggregateFor account receipts previousRav = _ ↔ _
    rw [aggregateReceipts_eq_error, and_iff_right rfl]
    omega

end Split

end ReceiptAggregateVoucher

end GraphTally
