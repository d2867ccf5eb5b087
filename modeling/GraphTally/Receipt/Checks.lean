import GraphTally.Receipt.ReceivedReceipt
import Mathlib.Data.Finset.Insert

/-! The checks the `receipt` crate itself provides: two over a batch, one over a single receipt. -/

open GraphTally.Theory

namespace GraphTally

variable {Rcpt Id ω : Type}

/-! ## `TimestampCheck` -/

/-- `TimestampCheck(min).check_batch`: receipts at or above the minimum go on. -/
def TimestampCheck.checkBatch [WithValueAndTimestamp Rcpt] (minTimestampNs : U64) :
    List (ReceiptWithState Checking Rcpt) →
      List (ReceiptWithState Checking Rcpt) × List (ReceiptWithState Failed Rcpt)
  | [] => ([], [])
  | receipt :: receipts =>
    let rest := checkBatch minTimestampNs receipts
    if minTimestampNs.toNat ≤ receipt.timestampNs.toNat then (receipt :: rest.1, rest.2)
    else (rest.1,
      receipt.performStateError (.invalidTimestamp receipt.timestampNs minTimestampNs) :: rest.2)

theorem TimestampCheck.checkBatch_checking [WithValueAndTimestamp Rcpt] (min : U64)
    (receipts : List (ReceiptWithState Checking Rcpt)) :
    (TimestampCheck.checkBatch min receipts).1 =
      receipts.filter (fun r ↦ min.toNat ≤ r.timestampNs.toNat) := by
  induction receipts with
  | nil => rfl
  | cons r rs ih =>
    rw [TimestampCheck.checkBatch, List.filter_cons, ← ih]
    by_cases h : min.toNat ≤ r.timestampNs.toNat <;> simp [h]

-- Both checks only sort receipts into two lists: nothing is lost or duplicated.
theorem TimestampCheck.checkBatch_perm [WithValueAndTimestamp Rcpt] (min : U64)
    (receipts : List (ReceiptWithState Checking Rcpt)) :
    (receiptsOf (TimestampCheck.checkBatch min receipts).1 ++
      receiptsOf (TimestampCheck.checkBatch min receipts).2).Perm (receiptsOf receipts) := by
  induction receipts with
  | nil => rfl
  | cons r rs ih =>
    rw [TimestampCheck.checkBatch]
    split
    · exact ih.cons r.receipt
    · exact List.perm_middle.trans (ih.cons r.receipt)

/-! ## `UniqueCheck` -/

/-- The loop of `UniqueCheck.check_batch`; `signatures` is its set of identifiers seen so far. -/
def UniqueCheck.checkFrom [DecidableEq Id] [WithUniqueId Rcpt Id] (signatures : Finset Id) :
    List (ReceiptWithState Checking Rcpt) →
      List (ReceiptWithState Checking Rcpt) × List (ReceiptWithState Failed Rcpt)
  | [] => ([], [])
  | receipt :: receipts =>
    let id := uniqueId receipt.receipt
    let rest := checkFrom (insert id signatures) receipts
    if id ∈ signatures then (rest.1, receipt.performStateError .nonUniqueReceipt :: rest.2)
    else (receipt :: rest.1, rest.2)

def UniqueCheck.checkBatch [DecidableEq Id] [WithUniqueId Rcpt Id]
    (receipts : List (ReceiptWithState Checking Rcpt)) :
    List (ReceiptWithState Checking Rcpt) × List (ReceiptWithState Failed Rcpt) :=
  UniqueCheck.checkFrom ∅ receipts

section Unique

variable [DecidableEq Id] [WithUniqueId Rcpt Id]

theorem UniqueCheck.checkFrom_perm (signatures : Finset Id)
    (receipts : List (ReceiptWithState Checking Rcpt)) :
    (receiptsOf (UniqueCheck.checkFrom signatures receipts).1 ++
      receiptsOf (UniqueCheck.checkFrom signatures receipts).2).Perm (receiptsOf receipts) := by
  induction receipts generalizing signatures with
  | nil => rfl
  | cons r rs ih =>
    rw [UniqueCheck.checkFrom]
    split
    · exact List.perm_middle.trans ((ih _).cons r.receipt)
    · exact (ih _).cons r.receipt

theorem UniqueCheck.checkFrom_sublist (signatures : Finset Id)
    (receipts : List (ReceiptWithState Checking Rcpt)) :
    (UniqueCheck.checkFrom signatures receipts).1.Sublist receipts := by
  induction receipts generalizing signatures with
  | nil => exact List.Sublist.refl _
  | cons r rs ih =>
    rw [UniqueCheck.checkFrom]
    split
    · exact (ih _).cons r
    · exact (ih _).cons_cons r

/-- No receipt that passes has an identifier seen before the loop started. -/
theorem UniqueCheck.checkFrom_fresh {signatures : Finset Id}
    {receipts : List (ReceiptWithState Checking Rcpt)} {r : ReceiptWithState Checking Rcpt}
    (h : r ∈ (UniqueCheck.checkFrom signatures receipts).1) :
    uniqueId r.receipt ∉ signatures := by
  induction receipts generalizing signatures with
  | nil => cases h
  | cons x xs ih =>
    rw [UniqueCheck.checkFrom] at h
    split at h
    · exact fun hmem ↦ ih h (Finset.mem_insert_of_mem hmem)
    · rename_i hx
      rcases List.mem_cons.mp h with rfl | h
      · exact hx
      · exact fun hmem ↦ ih h (Finset.mem_insert_of_mem hmem)

-- What passes the loop has distinct ids, also across what was seen before it.
theorem UniqueCheck.checkFrom_nodup (signatures : Finset Id)
    (receipts : List (ReceiptWithState Checking Rcpt)) :
    ((receiptsOf (UniqueCheck.checkFrom signatures receipts).1).map uniqueId).Nodup := by
  induction receipts generalizing signatures with
  | nil => exact List.nodup_nil
  | cons r rs ih =>
    rw [UniqueCheck.checkFrom]
    split
    · exact ih _
    · refine List.nodup_cons.mpr ⟨fun hmem ↦ ?_, ih _⟩
      obtain ⟨y, hy, hid⟩ := List.mem_map.mp hmem
      obtain ⟨z, hz, rfl⟩ := mem_receiptsOf.mp hy
      exact UniqueCheck.checkFrom_fresh hz (hid ▸ Finset.mem_insert_self _ _)

end Unique

/-! ## `StatefulTimestampCheck` -/

structure StatefulTimestampCheck where
  minTimestampNs : U64
  deriving DecidableEq

def StatefulTimestampCheck.updateMinTimestampNs (_self : StatefulTimestampCheck)
    (minTimestampNs : U64) : StatefulTimestampCheck :=
  ⟨minTimestampNs⟩

/-- The bound is exclusive.  `stored` reads the shared check out of the outside state. -/
def StatefulTimestampCheck.check [WithValueAndTimestamp Rcpt] [AlloyText]
    (stored : ω → StatefulTimestampCheck) : Check ω Rcpt := fun receipt world ↦
  let minTimestampNs := (stored world).minTimestampNs
  if receipt.timestampNs.toNat ≤ minTimestampNs.toNat then
    (.error (.failed (ReceiptError.invalidTimestamp receipt.timestampNs minTimestampNs).text),
      world)
  else (.ok (), world)

end GraphTally
