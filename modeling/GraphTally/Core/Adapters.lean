import GraphTally.Core.Error
import GraphTally.Theory.Enumeration

/-!
# Adapters

The traits a `Manager` reaches its storage through, over a state `σ` that the implementor
chooses, and the helper the crate offers for one of them.
-/

open GraphTally.Theory

namespace GraphTally

/-! ## Ranges of timestamps -/

inductive Bound where
  | included (timestampNs : U64)
  | excluded (timestampNs : U64)
  | unbounded
  deriving DecidableEq

/-- A `RangeBounds<u64>`. -/
structure TimestampRange where
  start : Bound
  finish : Bound
  deriving DecidableEq

/-- `min..max`. -/
def TimestampRange.halfOpen (min max : U64) : TimestampRange := ⟨.included min, .excluded max⟩

/-- `..=max`. -/
def TimestampRange.upTo (max : U64) : TimestampRange := ⟨.unbounded, .included max⟩

def TimestampRange.contains (range : TimestampRange) (timestampNs : U64) : Bool :=
  (match range.start with
    | .included min => decide (min.toNat ≤ timestampNs.toNat)
    | .excluded min => decide (min.toNat < timestampNs.toNat)
    | .unbounded => true) &&
  (match range.finish with
    | .included max => decide (timestampNs.toNat ≤ max.toNat)
    | .excluded max => decide (timestampNs.toNat < max.toNat)
    | .unbounded => true)

@[simp] theorem TimestampRange.contains_halfOpen (min max timestampNs : U64) :
    (TimestampRange.halfOpen min max).contains timestampNs = true ↔
      min.toNat ≤ timestampNs.toNat ∧ timestampNs.toNat < max.toNat := by
  simp [TimestampRange.halfOpen, TimestampRange.contains]

@[simp] theorem TimestampRange.contains_upTo (max timestampNs : U64) :
    (TimestampRange.upTo max).contains timestampNs = true ↔ timestampNs.toNat ≤ max.toNat := by
  simp [TimestampRange.upTo, TimestampRange.contains]

/-! ## The traits -/

/-- `RavStore`, `RavRead`, `ReceiptStore`, `ReceiptDelete`, `ReceiptRead` and `SignatureChecker`.
An adapter's own error is kept as its text. -/
structure Adapters (σ Rcpt Rav : Type) where
  updateLastRav : Eip712SignedMessage Rav → σ → Outcome String Unit × σ
  lastRav : σ → Outcome String (Option (Eip712SignedMessage Rav)) × σ
  storeReceipt : ReceiptWithState Checking Rcpt → σ → Outcome String U64 × σ
  removeReceiptsInTimestampRange : TimestampRange → σ → Outcome String Unit × σ
  retrieveReceiptsInTimestampRange : TimestampRange → Option U64 → σ →
    Outcome String (List (ReceiptWithState Checking Rcpt)) × σ
  verifySigner : Address → σ → Outcome String Bool × σ

/-- What `ReceiptRead` promises, over the receipts the adapter holds in each state: only receipts
in range, at most `limit` of them, and all or none of those that share a timestamp. -/
structure ReceiptReadContract {σ Rcpt Rav : Type} [WithValueAndTimestamp Rcpt]
    (adapters : Adapters σ Rcpt Rav) (held : σ → List Rcpt) : Prop where
  inRange : ∀ {range limit s receipts},
    (adapters.retrieveReceiptsInTimestampRange range limit s).1 = .ok receipts →
      (receiptsOf receipts).Subperm ((held s).filter (range.contains <| timestampNs ·))
  limited : ∀ {range limit s receipts},
    (adapters.retrieveReceiptsInTimestampRange range (some limit) s).1 = .ok receipts →
      receipts.length ≤ limit.toNat
  unlimited : ∀ {range s receipts},
    (adapters.retrieveReceiptsInTimestampRange range none s).1 = .ok receipts →
      (receiptsOf receipts).Perm ((held s).filter (range.contains <| timestampNs ·))
  wholeTimestamps : ∀ {range limit s receipts},
    (adapters.retrieveReceiptsInTimestampRange range limit s).1 = .ok receipts →
      ∀ r ∈ receipts, ((receiptsOf receipts).filter (timestampNs · = r.timestampNs)).Perm
        ((held s).filter (timestampNs · = r.timestampNs))

/-! ## Safe truncation -/

/-- Truncate to `limit` receipts, and drop the last timestamp as well when the cut would leave
part of it behind. -/
def safeTruncateReceipts {S Rcpt : Type} [WithValueAndTimestamp Rcpt] (unstable : UnstableSort)
    (receipts : List (ReceiptWithState S Rcpt)) (limit : U64) :
    List (ReceiptWithState S Rcpt) :=
  if hlen : receipts.length ≤ limit.toNat then receipts
  else if limit.toNat = 0 then []
  else
    let sorted := unstable.sortByKey (·.timestampNs.toNat) receipts
    have hlimit : limit.toNat < sorted.length := by
      rw [(unstable.perm _ _).length_eq]
      omega
    let lastTimestamp := sorted[limit.toNat - 1].timestampNs.toNat
    let afterLastTimestamp := sorted[limit.toNat].timestampNs.toNat
    let truncated := sorted.take limit.toNat
    if lastTimestamp = afterLastTimestamp then
      truncated.filter (·.timestampNs.toNat ≠ lastTimestamp)
    else truncated

section Truncation

variable {S Rcpt : Type} [WithValueAndTimestamp Rcpt]

/-- What is left is the input up to some timestamp, wherever the sort puts equal ones. -/
theorem safeTruncateReceipts_cut (unstable : UnstableSort)
    (receipts : List (ReceiptWithState S Rcpt)) (limit : U64) :
    ∃ cut : Nat, (safeTruncateReceipts unstable receipts limit).Perm
      (receipts.filter (·.timestampNs.toNat < cut)) := by
  unfold safeTruncateReceipts
  split
  · refine ⟨2 ^ 64, ?_⟩
    rw [List.filter_eq_self.mpr fun r _ ↦ decide_eq_true r.timestampNs.isLt]
  · rename_i hlen
    split
    · exact ⟨0, by simp⟩
    · have hsorted := unstable.sorted (fun r ↦ r.timestampNs.toNat) receipts
      have hperm := unstable.perm (fun r ↦ r.timestampNs.toNat) receipts
      have hlimit : limit.toNat <
          (unstable.sortByKey (fun r ↦ r.timestampNs.toNat) receipts).length := by
        rw [hperm.length_eq]
        omega
      -- the cut is at the first timestamp that is dropped
      refine ⟨_, List.Perm.trans ?_ (hperm.filter fun r ↦ r.timestampNs.toNat <
        (unstable.sortByKey (fun r ↦ r.timestampNs.toNat) receipts)[limit.toNat].timestampNs.toNat)⟩
      dsimp only
      split
      · rename_i hsame
        rw [take_filter_ne_eq_filter_lt hsorted hlimit hsame]
      · rename_i hcut
        rw [take_eq_filter_lt hsorted hlimit hcut]

-- The receipt at the limit is dropped with all of its timestamp.
theorem safeTruncateReceipts_length (unstable : UnstableSort)
    (receipts : List (ReceiptWithState S Rcpt)) (limit : U64) :
    (safeTruncateReceipts unstable receipts limit).length ≤ limit.toNat := by
  unfold safeTruncateReceipts
  split
  · assumption
  · split
    · exact Nat.zero_le _
    · dsimp only
      split
      · exact (List.length_filter_le _ _).trans (List.length_take_le _ _)
      · exact List.length_take_le _ _

end Truncation

end GraphTally
