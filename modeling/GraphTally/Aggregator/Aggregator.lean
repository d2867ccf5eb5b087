import GraphTally.Aggregator.Signers
import GraphTally.Core.Error
import GraphTally.Graph

/-!
# The aggregator's checks

`check_and_aggregate_receipts`: what an indexer's batch must satisfy before the aggregator signs
a RAV for it.
-/

open GraphTally.Theory

namespace GraphTally

/-- What the source boxes into one `anyhow` error. -/
inductive AggregatorError where
  | core (e : Error)
  | aggregation (e : AggregationError)
  | eip712 (e : Eip712Error)
  | noSigningKey (payer : Address)
  deriving DecidableEq

/-- The derived `Debug` of a signature's bytes. -/
def signatureBytesDebug (bytes : SignatureBytes) : String :=
  "SignatureBytes([" ++ ", ".intercalate (bytes.bytes.map fun b ↦ toString b.toNat) ++ "])"

section Checks

variable {Domain Key M : Type} [Alloy Key] [AlloyText]

def checkSignatureIsFromOneOfAddresses [SolStruct Domain M] (domainSeparator : Domain)
    (acceptedAddresses : Finset Address) (message : Eip712SignedMessage M) :
    Except AggregatorError Unit :=
  match message.recoverSigner domainSeparator with
  | .error e => .error (.eip712 e)
  | .ok recovered =>
    if recovered ∉ acceptedAddresses then .error (.core (.invalidRecoveredSigner recovered))
    else .ok ()

/-- The four ids are compared one by one, all with the same answer. -/
def checkCollectionId (receipts : List SignedReceipt) (collectionId : B256)
    (payer dataService serviceProvider : Address) : Except AggregatorError Unit :=
  receipts.forM fun receipt ↦
    if receipt.message.collectionId ≠ collectionId then .error (.core .ravCollectionIdNotUniform)
    else if receipt.message.payer ≠ payer then .error (.core .ravCollectionIdNotUniform)
    else if receipt.message.dataService ≠ dataService then
      .error (.core .ravCollectionIdNotUniform)
    else if receipt.message.serviceProvider ≠ serviceProvider then
      .error (.core .ravCollectionIdNotUniform)
    else .ok ()

/-- The loop of `check_signatures_unique`, from the signatures seen so far. -/
def checkSignaturesUniqueFrom (receiptSignatures : Finset SignatureBytes) :
    List SignedReceipt → Except AggregatorError Unit
  | [] => .ok ()
  | receipt :: receipts =>
    let signature := uniqueId receipt
    if signature ∈ receiptSignatures then
      .error (.core (.duplicateReceiptSignature (signatureBytesDebug signature)))
    else checkSignaturesUniqueFrom (insert signature receiptSignatures) receipts

def checkSignaturesUnique (receipts : List SignedReceipt) : Except AggregatorError Unit :=
  checkSignaturesUniqueFrom ∅ receipts

def checkReceiptTimestamps (receipts : List SignedReceipt) (previousRav : Option SignedRav) :
    Except AggregatorError Unit :=
  match previousRav with
  | none => .ok ()
  | some previousRav => receipts.forM fun receipt ↦
    if receipt.message.timestampNs.toNat ≤ previousRav.message.timestampNs.toNat then
      .error (.core (.receiptTimestampLowerThanRav previousRav.message.timestampNs
        receipt.message.timestampNs))
    else .ok ()

/-- The last block of checks: a mismatch in any of the ids is reported by the collection ids. -/
def checkPreviousRavIds (previousRav : Option SignedRav) (collectionId : B256)
    (payer dataService serviceProvider : Address) : Except AggregatorError Unit :=
  match previousRav with
  | none => .ok ()
  | some previousRav =>
    let mismatch := .error (.core (.ravCollectionIdMismatch
      (AlloyText.upperHex previousRav.message.collectionId.bytes)
      (AlloyText.upperHex collectionId.bytes)))
    if previousRav.message.collectionId ≠ collectionId then mismatch
    else if previousRav.message.payer ≠ payer then mismatch
    else if previousRav.message.dataService ≠ dataService then mismatch
    else if previousRav.message.serviceProvider ≠ serviceProvider then mismatch
    else .ok ()

variable [SolStruct Domain Receipt] [SolStruct Domain ReceiptAggregateVoucher]

/-- The parallel signature check reports some failing receipt; here it is the first one. -/
def checkAndAggregateReceipts (domainSeparator : Domain) (receipts : List SignedReceipt)
    (previousRav : Option SignedRav) (signers : SignerRegistry Key) :
    Except AggregatorError SignedRav := do
  checkSignaturesUnique receipts
  match receipts.head? with
  | none => .error (.core .noValidReceiptsForRavRequest)
  | some first =>
    let account := first.message.account
    match signers.resolve account.payer with
    | none => .error (.noSigningKey account.payer)
    | some (wallet, acceptedAddresses) =>
      receipts.forM (checkSignatureIsFromOneOfAddresses domainSeparator acceptedAddresses)
      previousRav.toList.forM
        (checkSignatureIsFromOneOfAddresses domainSeparator acceptedAddresses)
      checkReceiptTimestamps receipts previousRav
      checkCollectionId receipts account.collectionId account.payer account.dataService
        account.serviceProvider
      checkPreviousRavIds previousRav account.collectionId account.payer account.dataService
        account.serviceProvider
      let rav ← (ReceiptAggregateVoucher.aggregateReceipts account.collectionId account.payer
        account.dataService account.serviceProvider receipts previousRav).mapError .aggregation
      (Eip712SignedMessage.new domainSeparator rav wallet).mapError .eip712

end Checks

/-! ## What each check means -/

variable {Domain Key M : Type} [Alloy Key]

-- The signer that is recovered is the only candidate, so membership can be stated with ∃.
theorem checkSignatureIsFromOneOfAddresses_eq_ok [SolStruct Domain M] {domainSeparator : Domain}
    {acceptedAddresses : Finset Address} {message : Eip712SignedMessage M} :
    checkSignatureIsFromOneOfAddresses domainSeparator acceptedAddresses message = .ok () ↔
      ∃ signer ∈ acceptedAddresses, message.recoverSigner domainSeparator = .ok signer := by
  unfold checkSignatureIsFromOneOfAddresses
  cases message.recoverSigner domainSeparator with
  | error e => simp
  | ok recovered => simp [eq_comm]

-- Four comparisons of ids are one comparison of accounts.
theorem checkCollectionId_eq_ok (receipts : List SignedReceipt) (account : Account) :
    checkCollectionId receipts account.collectionId account.payer account.dataService
        account.serviceProvider = .ok () ↔
      ∀ receipt ∈ receipts, receipt.message.account = account := by
  obtain ⟨collectionId, payer, dataService, serviceProvider⟩ := account
  unfold checkCollectionId
  rw [forM_eq_ok]
  refine forall₂_congr fun receipt _ ↦ ?_
  simp only [guard_eq_ok, not_not, and_true, Receipt.account, Account.mk.injEq]

theorem checkPreviousRavIds_eq_ok [AlloyText] (previousRav : Option SignedRav)
    (account : Account) :
    checkPreviousRavIds previousRav account.collectionId account.payer account.dataService
        account.serviceProvider = .ok () ↔
      ∀ prev ∈ previousRav, prev.message.account = account := by
  obtain ⟨collectionId, payer, dataService, serviceProvider⟩ := account
  unfold checkPreviousRavIds
  cases previousRav with
  | none => simp
  | some prev =>
    simp only [guard_eq_ok, not_not, and_true, Option.mem_some_iff, forall_eq',
      ReceiptAggregateVoucher.account, Account.mk.injEq]

-- Strictly above: a receipt at the previous RAV's own timestamp is refused.
theorem checkReceiptTimestamps_eq_ok {receipts : List SignedReceipt}
    {previousRav : Option SignedRav} :
    checkReceiptTimestamps receipts previousRav = .ok () ↔
      ∀ prev ∈ previousRav, ∀ receipt ∈ receipts,
        prev.message.timestampNs.toNat < receipt.message.timestampNs.toNat := by
  unfold checkReceiptTimestamps
  cases previousRav with
  | none => simp
  | some prev => simp only [forM_eq_ok, guard_eq_ok, not_le, and_true, Option.mem_some_iff,
      forall_eq']

-- The loop invariant: no duplicate so far, and none of what was seen comes again.
theorem checkSignaturesUniqueFrom_eq_ok {receiptSignatures : Finset SignatureBytes}
    {receipts : List SignedReceipt} :
    checkSignaturesUniqueFrom receiptSignatures receipts = .ok () ↔
      (receipts.map uniqueId).Nodup ∧
        ∀ receipt ∈ receipts, uniqueId receipt ∉ receiptSignatures := by
  induction receipts generalizing receiptSignatures with
  | nil => simp [checkSignaturesUniqueFrom]
  | cons receipt receipts ih =>
    rw [checkSignaturesUniqueFrom, guard_eq_ok, ih]
    simp only [List.map_cons, List.nodup_cons, List.mem_map, Finset.mem_insert, not_or,
      List.mem_cons, forall_eq_or_imp]
    grind

theorem checkSignaturesUnique_eq_ok {receipts : List SignedReceipt} :
    checkSignaturesUnique receipts = .ok () ↔ (receipts.map uniqueId).Nodup := by
  rw [checkSignaturesUnique, checkSignaturesUniqueFrom_eq_ok]
  simp

end GraphTally
