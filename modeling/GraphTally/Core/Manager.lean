import GraphTally.Core.Adapters
import GraphTally.Graph
import GraphTally.Receipt.Checks

/-!
# The manager

`Manager` over any adapters: storing receipts, selecting a batch for a RAV request, storing the
signed RAV that answers it, and deleting what a stored RAV has made obsolete.
-/

open GraphTally.Theory

namespace GraphTally

/-- The time since the epoch in nanoseconds, or why the system cannot tell. -/
abbrev SystemTime := Except String Nat

def getCurrentTimestampU64Ns (clock : SystemTime) : Outcome Error U64 :=
  match clock with
  | .ok nanos => .ok (BitVec.ofNat 64 nanos)
  | .error e => .error (.error (.invalidSystemTime e))

/-- `{:?}` of a message type. -/
class DebugText (α : Type) where
  debugText : α → String

/-- The derived `Debug` of the RAV. -/
instance [AlloyText] : DebugText ReceiptAggregateVoucher where
  debugText rav := "ReceiptAggregateVoucher \x7b collectionId: " ++
    AlloyText.debug rav.collectionId.bytes ++ ", payer: " ++ AlloyText.debug rav.payer.bytes ++
    ", serviceProvider: " ++ AlloyText.debug rav.serviceProvider.bytes ++ ", dataService: " ++
    AlloyText.debug rav.dataService.bytes ++ ", timestampNs: " ++
    toString rav.timestampNs.toNat ++ ", valueAggregate: " ++ toString rav.valueAggregate.toNat ++
    ", metadata: " ++ AlloyText.debug rav.metadata ++ " \x7d"

structure RavRequest (Rcpt Rav : Type) where
  validReceipts : List (ReceiptWithState Checked Rcpt)
  previousRav : Option (Eip712SignedMessage Rav)
  invalidReceipts : List (ReceiptWithState Failed Rcpt)
  expectedRav : Except AggregationError Rav
  deriving DecidableEq

/-- The checks may read the context, which shares its locks with them, and update the outside
state `ω`; the context itself is written by the manager only. -/
structure Manager (σ ω Rcpt Rav Domain : Type) where
  context : Adapters σ Rcpt Rav
  checks : σ → CheckList ω Rcpt
  domainSeparator : Domain

/-- The loop at the end of `collect_receipts`: a retryable failure abandons the whole batch. -/
def finalizeReceipts {ω Rcpt : Type} (checks : CheckList ω Rcpt) :
    List (ReceiptWithState Checking Rcpt) → ω →
      Except String (List (ReceiptWithState Checked Rcpt) × List (ReceiptWithState Failed Rcpt)) ×
        ω
  | [], world => (.ok ([], []), world)
  | receipt :: receipts, world =>
    match receipt.finalizeReceiptChecks checks world with
    | (.error e, world) => (.error e, world)
    | (.ok finalized, world) =>
      match finalizeReceipts checks receipts world with
      | (.error e, world) => (.error e, world)
      | (.ok rest, world) =>
        match finalized with
        | .inl checked => (.ok (checked :: rest.1, rest.2), world)
        | .inr failed => (.ok (rest.1, failed :: rest.2), world)

namespace Manager

variable {σ ω Rcpt Rav Domain : Type}

def getPreviousRav (self : Manager σ ω Rcpt Rav Domain) (s : σ) :
    Outcome Error (Option (Eip712SignedMessage Rav)) × σ :=
  let result := self.context.lastRav s
  (result.1.mapError .adapterError, result.2)

/-- `SignatureChecker::check_signature`. -/
def checkSignature {Key : Type} [Alloy Key] [SolStruct Domain Rav]
    (self : Manager σ ω Rcpt Rav Domain) (signedMessage : Eip712SignedMessage Rav) (s : σ) :
    Outcome Error Unit × σ :=
  match signedMessage.recoverSigner self.domainSeparator with
  | .error e => (.error (.error (.signatureError e)), s)
  | .ok recovered =>
    match self.context.verifySigner recovered s with
    | (.error .panic, s) => (.error .panic, s)
    | (.error (.error e), s) => (.error (.error (.failedToVerifySigner e)), s)
    | (.ok true, s) => (.ok (), s)
    | (.ok false, s) => (.error (.error (.invalidRecoveredSigner recovered)), s)

def verifyAndStoreRav {Key : Type} [Alloy Key] [SolStruct Domain Rav] [DecidableEq Rav]
    [DebugText Rav] (self : Manager σ ω Rcpt Rav Domain) (expectedRav : Rav)
    (signedRav : Eip712SignedMessage Rav) (s : σ) : Outcome Error Unit × σ :=
  match self.checkSignature signedRav s with
  | (.error e, s) => (.error e, s)
  | (.ok (), s) =>
    if signedRav.message ≠ expectedRav then
      (.error (.error (.invalidReceivedRav (DebugText.debugText signedRav.message)
        (DebugText.debugText expectedRav))), s)
    else
      let result := self.context.updateLastRav signedRav s
      (result.1.mapError .adapterError, result.2)

/-- The upper end of the window: `timestampBufferNs` before now. -/
def maxTimestampNs (profile : Profile) (clock : SystemTime) (timestampBufferNs : U64) :
    Outcome Error U64 := do
  let now ← getCurrentTimestampU64Ns clock
  plainSub profile now timestampBufferNs

/-- The receipts that will fail, or that a RAV may aggregate, out of those in the window. -/
def collectReceipts {Id : Type} [WithValueAndTimestamp Rcpt] [DecidableEq Id]
    [WithUniqueId Rcpt Id] (self : Manager σ ω Rcpt Rav Domain) (profile : Profile)
    (clock : SystemTime) (timestampBufferNs minTimestampNs : U64) (limit : Option U64) (s : σ)
    (world : ω) :
    Outcome Error (List (ReceiptWithState Checked Rcpt) × List (ReceiptWithState Failed Rcpt)) ×
      σ × ω :=
  match maxTimestampNs profile clock timestampBufferNs with
  | .error e => (.error e, s, world)
  | .ok max =>
    if max.toNat < minTimestampNs.toNat then
      (.error (.error (.timestampRangeError minTimestampNs max)), s, world)
    else
      match self.context.retrieveReceiptsInTimestampRange (.halfOpen minTimestampNs max) limit
          s with
      | (.error e, s) => (Outcome.mapError .adapterError (.error e), s, world)
      | (.ok checkingReceipts, s) =>
        let stamped := TimestampCheck.checkBatch minTimestampNs checkingReceipts
        let unique := UniqueCheck.checkBatch stamped.1
        match finalizeReceipts (self.checks s) unique.1 world with
        | (.error e, world) => (.error (.error (.receiptError (.retryableCheck e))), s, world)
        | (.ok finalized, world) =>
          (.ok (finalized.1, stamped.2 ++ unique.2 ++ finalized.2), s, world)

/-- The lower end of the window: one past the previous RAV. -/
def minTimestampNs [WithValueAndTimestamp Rav] (profile : Profile)
    (previousRav : Option (Eip712SignedMessage Rav)) : Outcome Error U64 :=
  match previousRav with
  | some rav => plainAdd profile (timestampNs rav.message) 1
  | none => .ok 0

section Request

variable {Id : Type} [WithValueAndTimestamp Rcpt] [DecidableEq Id] [WithUniqueId Rcpt Id]
  [WithValueAndTimestamp Rav] [Aggregate Rcpt Rav]

/-- `create_rav_request` once it has read the previous RAV. -/
def createRavRequestFrom (self : Manager σ ω Rcpt Rav Domain) (profile : Profile)
    (clock : SystemTime) (timestampBufferNs : U64) (receiptsLimit : Option U64)
    (previousRav : Option (Eip712SignedMessage Rav)) (s : σ) (world : ω) :
    Outcome Error (RavRequest Rcpt Rav) × σ × ω :=
  match minTimestampNs profile previousRav with
  | .error e => (.error e, s, world)
  | .ok min =>
    match self.collectReceipts profile clock timestampBufferNs min receiptsLimit s world with
    | (.error e, s, world) => (.error e, s, world)
    | (.ok (validReceipts, invalidReceipts), s, world) =>
      let expectedRav := Aggregate.aggregateReceipts validReceipts previousRav
      (.ok { validReceipts, previousRav, invalidReceipts, expectedRav }, s, world)

def createRavRequest (self : Manager σ ω Rcpt Rav Domain) (profile : Profile)
    (clock : SystemTime) (timestampBufferNs : U64) (receiptsLimit : Option U64) (s : σ)
    (world : ω) : Outcome Error (RavRequest Rcpt Rav) × σ × ω :=
  match self.getPreviousRav s with
  | (.error e, s) => (.error e, s, world)
  | (.ok previousRav, s) =>
    self.createRavRequestFrom profile clock timestampBufferNs receiptsLimit previousRav s world

end Request

def removeObsoleteReceipts [WithValueAndTimestamp Rav] (self : Manager σ ω Rcpt Rav Domain)
    (s : σ) : Outcome Error Unit × σ :=
  match self.getPreviousRav s with
  | (.error e, s) => (.error e, s)
  | (.ok none, s) => (.ok (), s)
  | (.ok (some lastRav), s) =>
    let result := self.context.removeReceiptsInTimestampRange
      (.upTo (timestampNs lastRav.message)) s
    (result.1.mapError .adapterError, result.2)

def verifyAndStoreReceipt (self : Manager σ ω Rcpt Rav Domain) (signedReceipt : Rcpt) (s : σ)
    (world : ω) : Outcome Error Unit × σ × ω :=
  let receivedReceipt := ReceiptWithState.new signedReceipt
  match receivedReceipt.performChecks (self.checks s) world with
  | (.error e, world) => (.error (.error (.receiptError e)), s, world)
  | (.ok (), world) =>
    let result := self.context.storeReceipt receivedReceipt s
    ((result.1.mapError .adapterError).map fun _ ↦ (), result.2, world)

end Manager

end GraphTally
