import GraphTally.Aggregator.Aggregator
import GraphTally.KnownSignatures

/-!
# Acceptance

Exactly which batches the aggregator signs a RAV for, and what it then signs.
-/

open GraphTally.Theory

namespace GraphTally

section Acceptance

variable {Domain Key : Type} [Alloy Key] [SolStruct Domain Receipt]
  [SolStruct Domain ReceiptAggregateVoucher]

/-- `message` recovers to one of `accepted`. -/
def SignedByOneOf {M : Type} [SolStruct Domain M] (domainSeparator : Domain)
    (accepted : Finset Address) (message : Eip712SignedMessage M) : Prop :=
  ∃ signer ∈ accepted, message.recoverSigner domainSeparator = .ok signer

/-- What a batch and its previous RAV must satisfy.  `first` is the batch's first receipt, and
`wallet` and `accepted` are what the registry holds for its payer. -/
structure Acceptable (domainSeparator : Domain) (receipts : List SignedReceipt)
    (previousRav : Option SignedRav) (signers : SignerRegistry Key) (first : SignedReceipt)
    (wallet : Key) (accepted : Finset Address) : Prop where
  head : receipts.head? = some first
  unique : (receipts.map uniqueId).Nodup
  resolves : signers.resolve first.message.payer = some (wallet, accepted)
  receiptsSigned : ∀ receipt ∈ receipts, SignedByOneOf domainSeparator accepted receipt
  previousSigned : ∀ prev ∈ previousRav, SignedByOneOf domainSeparator accepted prev
  later : ∀ prev ∈ previousRav, ∀ receipt ∈ receipts,
    prev.message.timestampNs.toNat < receipt.message.timestampNs.toNat
  sameAccount : ∀ receipt ∈ receipts, receipt.message.account = first.message.account
  previousAccount : ∀ prev ∈ previousRav, prev.message.account = first.message.account
  fits : previousValue previousRav + exactTotal receipts < 2 ^ 128

/-- What the RAV returned for such a batch is. -/
structure Issued (domainSeparator : Domain) (receipts : List SignedReceipt)
    (previousRav : Option SignedRav) (first : SignedReceipt) (wallet : Key)
    (signed : SignedRav) : Prop where
  account : signed.message.account = first.message.account
  value : signed.message.valueAggregate.toNat = previousValue previousRav + exactTotal receipts
  covers : ∀ receipt ∈ receipts,
    receipt.message.timestampNs.toNat ≤ signed.message.timestampNs.toNat
  attained : ∃ receipt ∈ receipts, receipt.message.timestampNs = signed.message.timestampNs
  metadata : signed.message.metadata = []
  signature : Alloy.signHashSync wallet
    (SolStruct.eip712SigningHash domainSeparator signed.message) = .ok signed.signature
  recovers : signed.recoverSigner domainSeparator = .ok (Alloy.address wallet)
  noOther : ∀ key : Key, Alloy.signHashSync key
    (SolStruct.eip712SigningHash domainSeparator signed.message) = .ok signed.signature →
      Alloy.address key = Alloy.address wallet

theorem Acceptable.ne_nil {domainSeparator : Domain} {receipts : List SignedReceipt}
    {previousRav : Option SignedRav} {signers : SignerRegistry Key} {first : SignedReceipt}
    {wallet : Key} {accepted : Finset Address}
    (h : Acceptable domainSeparator receipts previousRav signers first wallet accepted) :
    receipts ≠ [] := by
  rintro rfl
  exact absurd h.head (by simp)

variable [AlloyText] {domainSeparator : Domain} {receipts : List SignedReceipt}
  {previousRav : Option SignedRav} {signers : SignerRegistry Key} {signed : SignedRav}

/-- The function is the conjunction of its checks, then the aggregation, then the signature. -/
theorem checkAndAggregateReceipts_eq_ok :
    checkAndAggregateReceipts domainSeparator receipts previousRav signers = .ok signed ↔
      ∃ first wallet accepted,
        Acceptable domainSeparator receipts previousRav signers first wallet accepted ∧
        ReceiptAggregateVoucher.aggregateFor first.message.account receipts previousRav =
          .ok signed.message ∧
        Alloy.signHashSync wallet
          (SolStruct.eip712SigningHash domainSeparator signed.message) =
            .ok signed.signature := by
  unfold checkAndAggregateReceipts
  rw [except_bind_unit_eq_ok, checkSignaturesUnique_eq_ok]
  cases hhead : receipts.head? with
  | none =>
    simp only [reduceCtorEq, and_false, false_iff]
    rintro ⟨first, wallet, accepted, hacceptable, -⟩
    exact absurd hacceptable.head (by simp [hhead])
  | some first =>
    simp only
    cases hresolve : signers.resolve first.message.account.payer with
    | none =>
      simp only [reduceCtorEq, and_false, false_iff]
      rintro ⟨first', wallet, accepted, hacceptable, -⟩
      obtain rfl : first = first' := Option.some_inj.mp (hhead.symm.trans hacceptable.head)
      exact Option.some_ne_none _ (hacceptable.resolves.symm.trans hresolve)
    | some keys =>
      obtain ⟨wallet, accepted⟩ := keys
      have hids := checkCollectionId_eq_ok receipts first.message.account
      have hprevIds := checkPreviousRavIds_eq_ok previousRav first.message.account
      simp only [except_bind_unit_eq_ok]
      rw [forM_eq_ok, forM_eq_ok, checkReceiptTimestamps_eq_ok, except_bind_eq_ok]
      simp only [checkSignatureIsFromOneOfAddresses_eq_ok, except_mapError_eq_ok,
        Eip712SignedMessage.exists_new_eq_ok, Option.mem_toList]
      constructor
      · rintro ⟨hunique, hreceipts, hprevious, hlater, hsame, hprevSame, hrav, hsignature⟩
        have hfits := ReceiptAggregateVoucher.aggregateReceipts_isOk.mp ⟨_, hrav⟩
        exact ⟨first, wallet, accepted, ⟨hhead, hunique, hresolve, hreceipts, hprevious, hlater,
          hids.mp hsame, hprevIds.mp hprevSame, hfits⟩, hrav, hsignature⟩
      · rintro ⟨first', wallet', accepted', hacceptable, hrav, hsignature⟩
        obtain rfl : first = first' := Option.some_inj.mp (hhead.symm.trans hacceptable.head)
        obtain ⟨rfl, rfl⟩ : wallet = wallet' ∧ accepted = accepted' := by
          simpa using hresolve.symm.trans hacceptable.resolves
        exact ⟨hacceptable.unique, hacceptable.receiptsSigned, hacceptable.previousSigned,
          hacceptable.later, hids.mpr hacceptable.sameAccount,
          hprevIds.mpr hacceptable.previousAccount, hrav, hsignature⟩

/-- Seen as a watermark, an issued RAV extends the previous one by its batch. -/
theorem checkAndAggregateReceipts_extends
    (h : checkAndAggregateReceipts domainSeparator receipts previousRav signers = .ok signed) :
    Voucher.Extends SignedReceipt.mark SignedReceipt.amount
      (previousRav.map (·.message.voucher)) receipts signed.message.voucher := by
  obtain ⟨first, wallet, accepted, hacceptable, hrav, -⟩ := checkAndAggregateReceipts_eq_ok.mp h
  exact ReceiptAggregateVoucher.aggregateReceipts_extends hrav hacceptable.ne_nil
    hacceptable.later

/-- What the function returns satisfies its specification. -/
theorem checkAndAggregateReceipts_issued (hsign : SignsRecoverably Key)
    (h : checkAndAggregateReceipts domainSeparator receipts previousRav signers = .ok signed) :
    ∃ first wallet accepted,
      Acceptable domainSeparator receipts previousRav signers first wallet accepted ∧
        Issued domainSeparator receipts previousRav first wallet signed := by
  obtain ⟨first, wallet, accepted, hacceptable, hrav, hsignature⟩ :=
    checkAndAggregateReceipts_eq_ok.mp h
  obtain ⟨haccount, hmetadata, hvalue, -⟩ :=
    ReceiptAggregateVoucher.aggregateReceipts_eq_ok.mp hrav
  have hextends := checkAndAggregateReceipts_extends h
  obtain ⟨latest, hlatest, hmark⟩ := hextends.attained
  have hrecovers : ∀ key : Key, Alloy.signHashSync key
      (SolStruct.eip712SigningHash domainSeparator signed.message) = .ok signed.signature →
        signed.recoverSigner domainSeparator = .ok (Alloy.address key) := fun key hkey ↦
    Eip712SignedMessage.recoverSigner_of_new hsign
      (Eip712SignedMessage.new_eq_ok.mpr ⟨rfl, hkey⟩)
  refine ⟨first, wallet, accepted, hacceptable, haccount, hvalue, hextends.covers,
    ⟨latest, hlatest, BitVec.eq_of_toNat_eq hmark⟩, hmetadata, hsignature,
    hrecovers wallet hsignature, fun key hkey ↦ ?_⟩
  have hsame := (hrecovers key hkey).symm.trans (hrecovers wallet hsignature)
  exact Except.ok.inj hsame

/-- The aggregator issues a RAV exactly for the acceptable batches, and the RAV it issues carries
their ids, exact total and latest timestamp under the payer's own key. -/
theorem checkAndAggregateReceipts_spec (hsign : SignsRecoverably Key)
    (domainSeparator : Domain) (receipts : List SignedReceipt) (previousRav : Option SignedRav)
    (signers : SignerRegistry Key) :
    ((∃ signed, checkAndAggregateReceipts domainSeparator receipts previousRav signers =
        .ok signed) ↔
      ∃ first wallet accepted,
        Acceptable domainSeparator receipts previousRav signers first wallet accepted) ∧
    ∀ signed, checkAndAggregateReceipts domainSeparator receipts previousRav signers =
        .ok signed →
      ∃ first wallet accepted,
        Acceptable domainSeparator receipts previousRav signers first wallet accepted ∧
          Issued domainSeparator receipts previousRav first wallet signed := by
  refine ⟨⟨?_, ?_⟩, fun signed ↦ checkAndAggregateReceipts_issued hsign⟩
  · rintro ⟨signed, h⟩
    obtain ⟨first, wallet, accepted, hacceptable, -⟩ := checkAndAggregateReceipts_issued hsign h
    exact ⟨first, wallet, accepted, hacceptable⟩
  · rintro ⟨first, wallet, accepted, hacceptable⟩
    obtain ⟨rav, hrav⟩ : ∃ rav, ReceiptAggregateVoucher.aggregateFor first.message.account
        receipts previousRav = .ok rav :=
      ReceiptAggregateVoucher.aggregateReceipts_isOk.mpr hacceptable.fits
    obtain ⟨signature, hsignature⟩ :=
      hsign.signs wallet (SolStruct.eip712SigningHash domainSeparator rav)
    exact ⟨⟨rav, signature⟩, checkAndAggregateReceipts_eq_ok.mpr
      ⟨first, wallet, accepted, hacceptable, hrav, hsignature⟩⟩

end Acceptance

open Known in
theorem checkAndAggregateReceipts_spec_known : ∃ first wallet accepted,
    Acceptable domain batch none registry first wallet accepted ∧
      Issued domain batch none first wallet (signed .one (rav 20 12)) :=
  (checkAndAggregateReceipts_spec signsRecoverably domain batch none registry).2
    (signed .one (rav 20 12)) (by decide +kernel)

end GraphTally
