import GraphTally.Graph

/-!
# The gRPC messages

The messages of the `graph_tally` service, and how native values are read out of them and written
into them.
-/

open GraphTally.Theory

namespace GraphTally.Grpc

structure Uint128 where
  high : U64
  low : U64
  deriving DecidableEq

structure Receipt where
  collectionId : List UInt8
  payer : List UInt8
  dataService : List UInt8
  serviceProvider : List UInt8
  timestampNs : U64
  nonce : U64
  value : Option Uint128
  deriving DecidableEq

structure SignedReceipt where
  message : Option Receipt
  signature : List UInt8
  deriving DecidableEq

structure ReceiptAggregateVoucher where
  collectionId : List UInt8
  payer : List UInt8
  dataService : List UInt8
  serviceProvider : List UInt8
  timestampNs : U64
  valueAggregate : Option Uint128
  metadata : List UInt8
  deriving DecidableEq

structure SignedRav where
  message : Option ReceiptAggregateVoucher
  signature : List UInt8
  deriving DecidableEq

structure RavRequest where
  receipts : List SignedReceipt
  previousRav : Option SignedRav
  deriving DecidableEq

structure RavResponse where
  rav : Option SignedRav
  deriving DecidableEq

/-- `alloy`'s reading of a signature's bytes. -/
class SignatureFormat where
  ofBytes : List UInt8 → Except String Signature

/-- What `alloy` writes for a signature, it reads back. -/
def ReadsWritten (Key : Type) [Alloy Key] [SignatureFormat] : Prop :=
  ∀ signature : Signature,
    SignatureFormat.ofBytes (Alloy.asBytes signature).bytes = .ok signature

/-- A signature is read out of 65 bytes: `r` and `s`, and a recovery byte that tells the parity. -/
structure ReadsLayout [SignatureFormat] : Prop where
  length : ∀ bytes signature, SignatureFormat.ofBytes bytes = .ok signature → bytes.length = 65
  r : ∀ bytes signature, SignatureFormat.ofBytes bytes = .ok signature →
    ofBigEndian (bytes.take 32) = signature.r.toNat
  s : ∀ bytes signature, SignatureFormat.ofBytes bytes = .ok signature →
    ofBigEndian ((bytes.drop 32).take 32) = signature.s.toNat

/-! ## Reading

The handlers drop the errors of the conversions, so a conversion has a result or none. -/

def Uint128.toU128 (value : Uint128) : U128 :=
  (value.high.setWidth 128 <<< 64) ||| value.low.setWidth 128

def fixedBytes (n : Nat) (bytes : List UInt8) : Option (FixedBytes n) :=
  if h : bytes.length = n then some ⟨bytes, h⟩ else none

def Receipt.tryInto (receipt : Receipt) : Option GraphTally.Receipt := do
  let collectionId ← fixedBytes 32 receipt.collectionId
  let value ← receipt.value
  let payer ← fixedBytes 20 receipt.payer
  let dataService ← fixedBytes 20 receipt.dataService
  let serviceProvider ← fixedBytes 20 receipt.serviceProvider
  return { collectionId, payer, dataService, serviceProvider, timestampNs := receipt.timestampNs,
           nonce := receipt.nonce, value := value.toU128 }

def ReceiptAggregateVoucher.tryInto (voucher : ReceiptAggregateVoucher) :
    Option GraphTally.ReceiptAggregateVoucher := do
  let collectionId ← fixedBytes 32 voucher.collectionId
  let valueAggregate ← voucher.valueAggregate
  let payer ← fixedBytes 20 voucher.payer
  let dataService ← fixedBytes 20 voucher.dataService
  let serviceProvider ← fixedBytes 20 voucher.serviceProvider
  return { collectionId, payer, serviceProvider, dataService, timestampNs := voucher.timestampNs,
           valueAggregate := valueAggregate.toU128, metadata := voucher.metadata }

section Signed

variable [SignatureFormat]

def readSignature (bytes : List UInt8) : Option Signature :=
  (SignatureFormat.ofBytes bytes).toOption

def SignedReceipt.tryInto (receipt : SignedReceipt) : Option GraphTally.SignedReceipt := do
  let signature ← readSignature receipt.signature
  let message ← (← receipt.message).tryInto
  return ⟨message, signature⟩

def SignedRav.tryInto (voucher : SignedRav) : Option GraphTally.SignedRav := do
  let signature ← readSignature voucher.signature
  let message ← (← voucher.message).tryInto
  return ⟨message, signature⟩

/-- `signed_rav`, by which a client reads a response. -/
def RavResponse.signedRav (self : RavResponse) : Option GraphTally.SignedRav := do
  (← self.rav).tryInto

end Signed

/-! ## Writing -/

def Uint128.ofU128 (value : U128) : Uint128 :=
  ⟨(value >>> 64).setWidth 64, value.setWidth 64⟩

def Receipt.of (value : GraphTally.Receipt) : Receipt where
  collectionId := value.collectionId.bytes
  payer := value.payer.bytes
  dataService := value.dataService.bytes
  serviceProvider := value.serviceProvider.bytes
  timestampNs := value.timestampNs
  nonce := value.nonce
  value := some (Uint128.ofU128 value.value)

def SignedReceipt.of {Key : Type} [Alloy Key] (value : GraphTally.SignedReceipt) :
    SignedReceipt where
  message := some (Receipt.of value.message)
  signature := (Alloy.asBytes value.signature).bytes

def ReceiptAggregateVoucher.of (value : GraphTally.ReceiptAggregateVoucher) :
    ReceiptAggregateVoucher where
  collectionId := value.collectionId.bytes
  payer := value.payer.bytes
  dataService := value.dataService.bytes
  serviceProvider := value.serviceProvider.bytes
  timestampNs := value.timestampNs
  valueAggregate := some (Uint128.ofU128 value.valueAggregate)
  metadata := value.metadata

def SignedRav.of {Key : Type} [Alloy Key] (voucher : GraphTally.SignedRav) : SignedRav where
  message := some (ReceiptAggregateVoucher.of voucher.message)
  signature := (Alloy.asBytes voucher.signature).bytes

def RavRequest.new {Key : Type} [Alloy Key] (receipts : List GraphTally.SignedReceipt)
    (previousRav : Option GraphTally.SignedRav) : RavRequest where
  receipts := receipts.map .of
  previousRav := previousRav.map .of

/-- The two halves make up the value again. -/
theorem Uint128.toU128_ofU128 (value : U128) : (Uint128.ofU128 value).toU128 = value := by
  apply BitVec.eq_of_getLsbD_eq
  intro i hi
  simp only [toU128, ofU128, BitVec.getLsbD_or, BitVec.getLsbD_shiftLeft, BitVec.getLsbD_setWidth,
    BitVec.getLsbD_ushiftRight]
  by_cases hlow : i < 64
  · simp [hi, hlow]
  · have hsplit : 64 + (i - 64) = i := by omega
    have hhigh : i - 64 < 64 := by omega
    have hwide : i - 64 < 128 := by omega
    simp [hi, hlow, hsplit, hhigh, hwide]

/-- Each half is read back out of the value. -/
theorem Uint128.ofU128_toU128 (value : Uint128) : Uint128.ofU128 value.toU128 = value := by
  rcases value with ⟨high, low⟩
  have hhigh : (((high.setWidth 128 <<< 64) ||| low.setWidth 128) >>> 64).setWidth 64 = high := by
    apply BitVec.eq_of_getLsbD_eq
    intro i hi
    have hwide : 64 + i < 128 := by omega
    simp [hi, hwide]
  have hlow : ((high.setWidth 128 <<< 64) ||| low.setWidth 128).setWidth 64 = low := by
    apply BitVec.eq_of_getLsbD_eq
    intro i hi
    simp [hi]
  rw [ofU128, toU128, hhigh, hlow]

/-! ## Reading what was written -/

theorem fixedBytes_bytes {n : Nat} (bytes : FixedBytes n) :
    fixedBytes n bytes.bytes = some bytes := dif_pos bytes.size_eq

theorem Receipt.tryInto_of (value : GraphTally.Receipt) :
    (Receipt.of value).tryInto = some value := by
  simp [Receipt.tryInto, Receipt.of, fixedBytes_bytes, Uint128.toU128_ofU128]

theorem ReceiptAggregateVoucher.tryInto_of (value : GraphTally.ReceiptAggregateVoucher) :
    (ReceiptAggregateVoucher.of value).tryInto = some value := by
  simp [ReceiptAggregateVoucher.tryInto, ReceiptAggregateVoucher.of, fixedBytes_bytes,
    Uint128.toU128_ofU128]

section RoundTrip

variable {Key : Type} [Alloy Key] [SignatureFormat]

theorem ReadsWritten.readSignature (h : ReadsWritten Key) (signature : Signature) :
    Grpc.readSignature (Alloy.asBytes signature).bytes = some signature := by
  rw [Grpc.readSignature, h signature]
  rfl

theorem SignedReceipt.tryInto_of (h : ReadsWritten Key) (value : GraphTally.SignedReceipt) :
    (SignedReceipt.of value).tryInto = some value := by
  simp [SignedReceipt.tryInto, SignedReceipt.of, h.readSignature, Receipt.tryInto_of]

theorem SignedRav.tryInto_of (h : ReadsWritten Key) (voucher : GraphTally.SignedRav) :
    (SignedRav.of voucher).tryInto = some voucher := by
  simp [SignedRav.tryInto, SignedRav.of, h.readSignature, ReceiptAggregateVoucher.tryInto_of]

/-- A request is read back as the receipts and the RAV it was made from. -/
theorem RavRequest.new_read (h : ReadsWritten Key) (receipts : List GraphTally.SignedReceipt)
    (previousRav : Option GraphTally.SignedRav) :
    (RavRequest.new receipts previousRav).receipts.mapM SignedReceipt.tryInto =
        some receipts ∧
      (RavRequest.new receipts previousRav).previousRav.mapM SignedRav.tryInto =
        some previousRav := by
  constructor
  · rw [RavRequest.new]
    induction receipts with
    | nil => rfl
    | cons receipt receipts ih =>
      rw [List.map_cons, List.mapM_cons, SignedReceipt.tryInto_of h, ih]
      rfl
  · cases previousRav with
    | none => rfl
    | some prev =>
      rw [RavRequest.new, Option.map_some, Option.mapM_some, SignedRav.tryInto_of h]
      rfl

end RoundTrip

/-- The message on the wire determines the message. -/
theorem ReceiptAggregateVoucher.of_inj {value value' : GraphTally.ReceiptAggregateVoucher}
    (h : ReceiptAggregateVoucher.of value = ReceiptAggregateVoucher.of value') :
    value = value' := by
  have hread := ReceiptAggregateVoucher.tryInto_of value
  rw [h, ReceiptAggregateVoucher.tryInto_of value'] at hread
  exact (Option.some_inj.mp hread).symm

theorem SignedRav.of_message {Key : Type} [Alloy Key] {voucher voucher' : GraphTally.SignedRav}
    (h : SignedRav.of voucher = SignedRav.of voucher') : voucher.message = voucher'.message :=
  ReceiptAggregateVoucher.of_inj (Option.some_inj.mp (SignedRav.mk.inj h).1)

end GraphTally.Grpc
