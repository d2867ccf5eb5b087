import GraphTally.Aggregator.Aggregator
import GraphTally.KnownSignatures
import GraphTally.Receipt.Checks

/-!
# Signatures that stand for each other

Anybody can turn a signature into its twin, so both are one to the checks against replay.  No
other two signatures are.
-/

open GraphTally.Theory

namespace GraphTally

/-! ## Canonical bytes -/

/-- One can be made of the other without the key. -/
def Signature.Alike (a b : Signature) : Prop := a = b ∨ a.Twin b

instance (a b : Signature) : Decidable (a.Alike b) := by
  unfold Signature.Alike
  infer_instance

section Canonical

variable {Key : Type} [Alloy Key]

/-- A signature above half the order that normalizes to one below it is that one's twin. -/
theorem Signature.twin_of_normalized {a b : Signature}
    (h : ⟨a.r, secp256k1Order - a.s, !a.yParity⟩ = b)
    (hlow : b.s.toNat ≤ secp256k1Order.toNat / 2) : a.Twin b := by
  rcases b with ⟨r, s, yParity⟩
  simp only [mk.injEq] at h
  have horder : secp256k1Order.toNat =
      0xFFFFFFFFFFFFFFFFFFFFFFFFFFFFFFFEBAAEDCE6AF48A03BBFD25E8CD0364141 := rfl
  have hdifference := congrArg BitVec.toNat h.2.1
  rw [BitVec.toNat_sub] at hdifference
  have hless := a.s.isLt
  refine ⟨h.1, ?_, ?_⟩
  · show a.s.toNat + s.toNat = _
    have hlow : s.toNat ≤ secp256k1Order.toNat / 2 := hlow
    omega
  · show a.yParity = !yParity
    rw [← h.2.2, Bool.not_not]

/-- The unique ids of two signatures are equal exactly when the signatures are, or are twins. -/
theorem Signature.getSignatureBytes_eq_iff (hnorm : NormalizesS Key) (hlays : LaysOut Key)
    {a b : Signature} : a.getSignatureBytes = b.getSignatureBytes ↔ a.Alike b := by
  constructor
  · intro h
    have hnormal : Alloy.normalizedS a = Alloy.normalizedS b := hlays.asBytes_injective h
    by_cases ha : secp256k1Order.toNat / 2 < a.s.toNat
    · rw [hnorm.high a ha] at hnormal
      by_cases hb : secp256k1Order.toNat / 2 < b.s.toNat
      · rw [hnorm.high b hb] at hnormal
        rcases a with ⟨r, s, yParity⟩
        rcases b with ⟨r', s', yParity'⟩
        simp only [mk.injEq, sub_right_inj] at hnormal
        left
        rw [hnormal.1, hnormal.2.1, Bool.not_inj hnormal.2.2]
      · rw [hnorm.low b (not_lt.mp hb)] at hnormal
        exact .inr (twin_of_normalized hnormal (not_lt.mp hb))
    · rw [hnorm.low a (not_lt.mp ha)] at hnormal
      by_cases hb : secp256k1Order.toNat / 2 < b.s.toNat
      · rw [hnorm.high b hb] at hnormal
        exact .inr (twin_of_normalized hnormal.symm (not_lt.mp ha)).symm
      · rw [hnorm.low b (not_lt.mp hb)] at hnormal
        exact .inl hnormal
  · rintro (rfl | htwin)
    · rfl
    · exact htwin.getSignatureBytes_eq hnorm

end Canonical

/-! ## Positions -/

section Positions

variable {Rcpt Id : Type} [DecidableEq Id] [WithUniqueId Rcpt Id]

/-- No earlier position has the id of this one. -/
def FirstOfId (receipts : List (ReceiptWithState Checking Rcpt))
    (entry : ReceiptWithState Checking Rcpt × Nat) : Prop :=
  ∀ earlier ∈ receipts.take entry.2, uniqueId earlier.receipt ≠ uniqueId entry.1.receipt

instance (receipts : List (ReceiptWithState Checking Rcpt))
    (entry : ReceiptWithState Checking Rcpt × Nat) : Decidable (FirstOfId receipts entry) := by
  unfold FirstOfId
  infer_instance

-- The set holds the ids of the receipts before.
theorem UniqueCheck.checkFrom_positions (before receipts : List (ReceiptWithState Checking Rcpt)) :
    UniqueCheck.checkFrom (before.map fun r ↦ uniqueId r.receipt).toFinset receipts =
      (((receipts.zipIdx before.length).filter (FirstOfId (before ++ receipts) ·)).map Prod.fst,
        ((receipts.zipIdx before.length).filter (¬FirstOfId (before ++ receipts) ·)).map
          (·.1.performStateError .nonUniqueReceipt)) := by
  induction receipts generalizing before with
  | nil => rfl
  | cons receipt receipts ih =>
    have hinsert : insert (uniqueId receipt.receipt)
        (before.map fun r ↦ uniqueId r.receipt).toFinset =
          ((before ++ [receipt]).map fun r ↦ uniqueId r.receipt).toFinset := by
      ext id
      simp
    have hfirst : FirstOfId (before ++ receipt :: receipts) (receipt, before.length) ↔
        uniqueId receipt.receipt ∉ (before.map fun r ↦ uniqueId r.receipt).toFinset := by
      unfold FirstOfId
      simp
    have hrest := ih (before ++ [receipt])
    rw [List.append_assoc, List.singleton_append, List.length_append, List.length_singleton,
      ← hinsert] at hrest
    rw [UniqueCheck.checkFrom, List.zipIdx_cons, hrest]
    by_cases hseen :
        uniqueId receipt.receipt ∈ (before.map fun r ↦ uniqueId r.receipt).toFinset
    · rw [if_pos hseen, List.filter_cons_of_neg, List.filter_cons_of_pos]
      · rfl
      · simpa [hfirst] using hseen
      · simpa [hfirst] using hseen
    · rw [if_neg hseen, List.filter_cons_of_pos, List.filter_cons_of_neg]
      · rfl
      · simpa [hfirst] using hseen
      · simpa [hfirst] using hseen

end Positions

/-! ## The two checks -/

/-- No earlier position holds the signature of this one or its twin. -/
def FirstOfClass (receipts : List (ReceiptWithState Checking SignedReceipt))
    (entry : ReceiptWithState Checking SignedReceipt × Nat) : Prop :=
  ∀ earlier ∈ receipts.take entry.2, ¬earlier.receipt.signature.Alike entry.1.receipt.signature

instance (receipts : List (ReceiptWithState Checking SignedReceipt))
    (entry : ReceiptWithState Checking SignedReceipt × Nat) :
    Decidable (FirstOfClass receipts entry) := by
  unfold FirstOfClass
  infer_instance

section Checks

variable {Key : Type} [Alloy Key]

theorem checkSignaturesUnique_pairwise (hnorm : NormalizesS Key) (hlays : LaysOut Key)
    (receipts : List SignedReceipt) : checkSignaturesUnique receipts = .ok () ↔
      receipts.Pairwise fun a b ↦ ¬a.signature.Alike b.signature := by
  rw [checkSignaturesUnique_eq_ok, List.Nodup, List.pairwise_map]
  apply List.Pairwise.iff
  intro a b
  show a.signature.getSignatureBytes ≠ b.signature.getSignatureBytes ↔ _
  rw [ne_eq, Signature.getSignatureBytes_eq_iff hnorm hlays]

theorem firstOfId_iff (hnorm : NormalizesS Key) (hlays : LaysOut Key)
    (receipts : List (ReceiptWithState Checking SignedReceipt))
    (entry : ReceiptWithState Checking SignedReceipt × Nat) :
    FirstOfId receipts entry ↔ FirstOfClass receipts entry := by
  unfold FirstOfId FirstOfClass
  apply forall₂_congr
  intro earlier _
  show earlier.receipt.signature.getSignatureBytes ≠
    entry.1.receipt.signature.getSignatureBytes ↔ _
  rw [ne_eq, Signature.getSignatureBytes_eq_iff hnorm hlays]

/-- Two ids are equal exactly for one signature or two twins.  So the aggregator's check passes the
batches without such a pair, and the indexer's keeps the first position of each class. -/
theorem uniqueIds_alike (hnorm : NormalizesS Key) (hlays : LaysOut Key) :
    (∀ a b : Signature, a.getSignatureBytes = b.getSignatureBytes ↔ a.Alike b) ∧
    (∀ receipts : List SignedReceipt, checkSignaturesUnique receipts = .ok () ↔
      receipts.Pairwise fun a b ↦ ¬a.signature.Alike b.signature) ∧
    ∀ receipts : List (ReceiptWithState Checking SignedReceipt),
      UniqueCheck.checkBatch receipts =
        ((receipts.zipIdx.filter (FirstOfClass receipts ·)).map Prod.fst,
          (receipts.zipIdx.filter (¬FirstOfClass receipts ·)).map
            (·.1.performStateError .nonUniqueReceipt)) := by
  refine ⟨?_, checkSignaturesUnique_pairwise hnorm hlays, ?_⟩
  · intro a b
    exact Signature.getSignatureBytes_eq_iff hnorm hlays
  · intro receipts
    have hpositions := UniqueCheck.checkFrom_positions [] receipts
    simp only [List.nil_append, List.length_nil, firstOfId_iff hnorm hlays] at hpositions
    exact hpositions

end Checks

/-! ## A known twin -/

namespace Known

/-- The same receipt under the twin of its signature. -/
def twinned (receipt : SignedReceipt) : SignedReceipt :=
  ⟨receipt.message, receipt.signature.r, secp256k1Order - receipt.signature.s,
    !receipt.signature.yParity⟩

end Known

open Known in
/-- The twin of a receipt is refused with it, and another receipt is not. -/
theorem uniqueIds_alike_known :
    checkSignaturesUnique batch = .ok () ∧
      ¬checkSignaturesUnique (batch ++ batch.map twinned) = .ok () := by
  have hunique := (uniqueIds_alike normalizesS laysOut).2.1
  rw [hunique, hunique]
  exact ⟨by decide +kernel, by decide +kernel⟩

end GraphTally
