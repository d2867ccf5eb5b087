import GraphTally.Eip712Message
import GraphTally.Theory.MachineWord

/-!
# Received receipts

The `receipt` crate: the traits a receipt type implements, the typestate wrapper a received
receipt lives in, and the checks that move it from `Checking` to `Checked` or `Failed`.
-/

open GraphTally.Theory

namespace GraphTally

/-- What aggregation reads of a receipt or a voucher. -/
class WithValueAndTimestamp (α : Type) where
  value : α → U128
  timestampNs : α → U64

class WithUniqueId (α : Type) (Id : outParam Type) where
  uniqueId : α → Id

instance {M : Type} [WithValueAndTimestamp M] :
    WithValueAndTimestamp (Eip712SignedMessage M) where
  value signed := WithValueAndTimestamp.value signed.message
  timestampNs signed := WithValueAndTimestamp.timestampNs signed.message

instance {M Key : Type} [Alloy Key] : WithUniqueId (Eip712SignedMessage M) SignatureBytes where
  uniqueId signed := signed.signature.getSignatureBytes

export WithValueAndTimestamp (timestampNs)
export WithUniqueId (uniqueId)

inductive ReceiptError where
  | invalidCollectionID (receivedCollectionId : B256)
  | invalidSignature (sourceErrorMessage : String)
  | invalidTimestamp (receivedTimestamp timestampMin : U64)
  | invalidValue (receivedValue : U128)
  | nonUniqueReceipt
  | subtractEscrowFailed
  | checkFailure (message : String)
  | retryableCheck (message : String)
  deriving DecidableEq

def ReceiptError.text [AlloyText] : ReceiptError → String
  | .invalidCollectionID id => "invalid collection ID: " ++ AlloyText.display id.bytes
  | .invalidSignature message => "Signature check failed:\n" ++ message
  | .invalidTimestamp received min =>
      "invalid timestamp: " ++ toString received.toNat ++ " (expected min " ++
        toString min.toNat ++ ")"
  | .invalidValue received => "Invalid Value: " ++ toString received.toNat ++ " "
  | .nonUniqueReceipt => "Receipt is not unique"
  | .subtractEscrowFailed => "Attempt to collect escrow failed"
  | .checkFailure message => "Issue encountered while performing check: " ++ message
  | .retryableCheck message => "Retryable check error encountered: " ++ message

/-! ## The typestate -/

structure Checking where
  deriving DecidableEq

structure Checked where
  deriving DecidableEq

structure Failed where
  error : ReceiptError
  deriving DecidableEq

structure ReceiptWithState (S Rcpt : Type) where
  receipt : Rcpt
  state : S
  deriving DecidableEq

variable {S Rcpt ω : Type}

def ReceiptWithState.new (receipt : Rcpt) : ReceiptWithState Checking Rcpt :=
  ⟨receipt, ⟨⟩⟩

def ReceiptWithState.performStateError (self : ReceiptWithState S Rcpt) (error : ReceiptError) :
    ReceiptWithState Failed Rcpt :=
  ⟨self.receipt, ⟨error⟩⟩

def ReceiptWithState.performStateChanges {T : Type} (self : ReceiptWithState S Rcpt)
    (newState : T) : ReceiptWithState T Rcpt :=
  ⟨self.receipt, newState⟩

/-- `signed_receipt().timestamp_ns()`. -/
def ReceiptWithState.timestampNs [WithValueAndTimestamp Rcpt]
    (self : ReceiptWithState S Rcpt) : U64 :=
  WithValueAndTimestamp.timestampNs self.receipt

/-- The receipts of a list, whatever state they are in. -/
def receiptsOf (receipts : List (ReceiptWithState S Rcpt)) : List Rcpt :=
  receipts.map (·.receipt)

@[simp] theorem receiptsOf_nil : receiptsOf ([] : List (ReceiptWithState S Rcpt)) = [] := rfl

@[simp] theorem receiptsOf_cons (r : ReceiptWithState S Rcpt)
    (receipts : List (ReceiptWithState S Rcpt)) :
    receiptsOf (r :: receipts) = r.receipt :: receiptsOf receipts := rfl

@[simp] theorem receiptsOf_append (a b : List (ReceiptWithState S Rcpt)) :
    receiptsOf (a ++ b) = receiptsOf a ++ receiptsOf b := List.map_append

theorem receiptsOf_perm {a b : List (ReceiptWithState S Rcpt)} (h : a.Perm b) :
    (receiptsOf a).Perm (receiptsOf b) := h.map _

theorem mem_receiptsOf {receipts : List (ReceiptWithState S Rcpt)} {x : Rcpt} :
    x ∈ receiptsOf receipts ↔ ∃ r ∈ receipts, r.receipt = x := List.mem_map

/-! ## Checks -/

/-- An `anyhow` error is kept as its text: that is all a check's caller reads of it. -/
inductive CheckError where
  | retryable (source : String)
  | failed (source : String)
  deriving DecidableEq, Repr

/-- A check may read and update state outside the receipt (its context, shared locks, a
database): `ω` is all of that state. -/
abbrev Check (ω Rcpt : Type) :=
  ReceiptWithState Checking Rcpt → ω → Except CheckError Unit × ω

abbrev CheckList (ω Rcpt : Type) := List (Check ω Rcpt)

/-- `perform_checks` stops at the first check that does not pass. -/
def ReceiptWithState.performChecks (self : ReceiptWithState Checking Rcpt) :
    CheckList ω Rcpt → ω → Except ReceiptError Unit × ω
  | [], world => (.ok (), world)
  | check :: checks, world =>
    match check self world with
    | (.ok (), world) => self.performChecks checks world
    | (.error (.retryable e), world) => (.error (.retryableCheck e), world)
    | (.error (.failed e), world) => (.error (.checkFailure e), world)

/-- `finalize_receipt_checks`: a retryable failure is the caller's, any other fails the receipt. -/
def ReceiptWithState.finalizeReceiptChecks (self : ReceiptWithState Checking Rcpt)
    (checks : CheckList ω Rcpt) (world : ω) :
    Except String (ReceiptWithState Checked Rcpt ⊕ ReceiptWithState Failed Rcpt) × ω :=
  match self.performChecks checks world with
  | (.error (.retryableCheck e), world) => (.error e, world)
  | (.error e, world) => (.ok (.inr (self.performStateError e)), world)
  | (.ok (), world) => (.ok (.inl (self.performStateChanges ⟨⟩)), world)

/-- Whatever a receipt's checks answer, the receipt itself is carried through. -/
theorem ReceiptWithState.finalizeReceiptChecks_receipt (self : ReceiptWithState Checking Rcpt)
    (checks : CheckList ω Rcpt) (world : ω)
    {result : ReceiptWithState Checked Rcpt ⊕ ReceiptWithState Failed Rcpt}
    (h : (self.finalizeReceiptChecks checks world).1 = .ok result) :
    result.elim (·.receipt) (·.receipt) = self.receipt := by
  unfold ReceiptWithState.finalizeReceiptChecks at h
  split at h
  · cases h
  · cases h
    rfl
  · cases h
    rfl

end GraphTally
