import GraphTally.Aggregator.Grpc

/-!
# The legacy gRPC messages

The `v2` and `uint128` modules, kept for existing clients.  Their messages are generated on their
own and converted by code of their own, field by field.
-/

open GraphTally.Theory

namespace GraphTally.Grpc.V2

structure Uint128 where
  high : U64
  low : U64
  deriving DecidableEq

structure Receipt where
  collectionId : List UInt8
  payer : List UInt8
  dataService : List UInt8
  serviceProvider : List UInt8
  timestampNs : U64
  nonce : U64
  value : Option Uint128
  deriving DecidableEq

structure SignedReceipt where
  message : Option Receipt
  signature : List UInt8
  deriving DecidableEq

structure ReceiptAggregateVoucher where
  collectionId : List UInt8
  payer : List UInt8
  dataService : List UInt8
  serviceProvider : List UInt8
  timestampNs : U64
  valueAggregate : Option Uint128
  metadata : List UInt8
  deriving DecidableEq

structure SignedRav where
  message : Option ReceiptAggregateVoucher
  signature : List UInt8
  deriving DecidableEq

structure RavRequest where
  receipts : List SignedReceipt
  previousRav : Option SignedRav
  deriving DecidableEq

structure RavResponse where
  rav : Option SignedRav
  deriving DecidableEq

/-! ## Reading -/

def Uint128.toU128 (value : Uint128) : U128 :=
  (value.high.setWidth 128 <<< 64) ||| value.low.setWidth 128

def Receipt.tryInto (receipt : Receipt) : Option GraphTally.Receipt := do
  let collectionId ← fixedBytes 32 receipt.collectionId
  let value ← receipt.value
  let payer ← fixedBytes 20 receipt.payer
  let dataService ← fixedBytes 20 receipt.dataService
  let serviceProvider ← fixedBytes 20 receipt.serviceProvider
  return { collectionId, payer, dataService, serviceProvider, timestampNs := receipt.timestampNs,
           nonce := receipt.nonce, value := value.toU128 }

def ReceiptAggregateVoucher.tryInto (voucher : ReceiptAggregateVoucher) :
    Option GraphTally.ReceiptAggregateVoucher := do
  let collectionId ← fixedBytes 32 voucher.collectionId
  let valueAggregate ← voucher.valueAggregate
  let payer ← fixedBytes 20 voucher.payer
  let dataService ← fixedBytes 20 voucher.dataService
  let serviceProvider ← fixedBytes 20 voucher.serviceProvider
  return { collectionId, payer, serviceProvider, dataService, timestampNs := voucher.timestampNs,
           valueAggregate := valueAggregate.toU128, metadata := voucher.metadata }

section Signed

variable [SignatureFormat]

def SignedReceipt.tryInto (receipt : SignedReceipt) : Option GraphTally.SignedReceipt := do
  let signature ← readSignature receipt.signature
  let message ← (← receipt.message).tryInto
  return ⟨message, signature⟩

def SignedRav.tryInto (voucher : SignedRav) : Option GraphTally.SignedRav := do
  let signature ← readSignature voucher.signature
  let message ← (← voucher.message).tryInto
  return ⟨message, signature⟩

/-- `signed_rav`, by which a client reads a response. -/
def RavResponse.signedRav (self : RavResponse) : Option GraphTally.SignedRav := do
  (← self.rav).tryInto

end Signed

/-! ## Writing -/

def Uint128.ofU128 (value : U128) : Uint128 :=
  ⟨(value >>> 64).setWidth 64, value.setWidth 64⟩

def Receipt.of (value : GraphTally.Receipt) : Receipt where
  collectionId := value.collectionId.bytes
  payer := value.payer.bytes
  dataService := value.dataService.bytes
  serviceProvider := value.serviceProvider.bytes
  timestampNs := value.timestampNs
  nonce := value.nonce
  value := some (Uint128.ofU128 value.value)

def SignedReceipt.of {Key : Type} [Alloy Key] (value : GraphTally.SignedReceipt) :
    SignedReceipt where
  message := some (Receipt.of value.message)
  signature := (Alloy.asBytes value.signature).bytes

def ReceiptAggregateVoucher.of (value : GraphTally.ReceiptAggregateVoucher) :
    ReceiptAggregateVoucher where
  collectionId := value.collectionId.bytes
  payer := value.payer.bytes
  dataService := value.dataService.bytes
  serviceProvider := value.serviceProvider.bytes
  timestampNs := value.timestampNs
  valueAggregate := some (Uint128.ofU128 value.valueAggregate)
  metadata := value.metadata

def SignedRav.of {Key : Type} [Alloy Key] (voucher : GraphTally.SignedRav) : SignedRav where
  message := some (ReceiptAggregateVoucher.of voucher.message)
  signature := (Alloy.asBytes voucher.signature).bytes

def RavRequest.new {Key : Type} [Alloy Key] (receipts : List GraphTally.SignedReceipt)
    (previousRav : Option GraphTally.SignedRav) : RavRequest where
  receipts := receipts.map .of
  previousRav := previousRav.map .of

/-! ## The current messages

A message of the current package with the same fields: both packages read and write it alike. -/

def Uint128.current (value : Uint128) : Grpc.Uint128 := ⟨value.high, value.low⟩

def Receipt.current (receipt : Receipt) : Grpc.Receipt where
  collectionId := receipt.collectionId
  payer := receipt.payer
  dataService := receipt.dataService
  serviceProvider := receipt.serviceProvider
  timestampNs := receipt.timestampNs
  nonce := receipt.nonce
  value := receipt.value.map Uint128.current

def ReceiptAggregateVoucher.current (voucher : ReceiptAggregateVoucher) :
    Grpc.ReceiptAggregateVoucher where
  collectionId := voucher.collectionId
  payer := voucher.payer
  dataService := voucher.dataService
  serviceProvider := voucher.serviceProvider
  timestampNs := voucher.timestampNs
  valueAggregate := voucher.valueAggregate.map Uint128.current
  metadata := voucher.metadata

def SignedReceipt.current (receipt : SignedReceipt) : Grpc.SignedReceipt :=
  ⟨receipt.message.map Receipt.current, receipt.signature⟩

def SignedRav.current (voucher : SignedRav) : Grpc.SignedRav :=
  ⟨voucher.message.map ReceiptAggregateVoucher.current, voucher.signature⟩

def RavRequest.current (request : RavRequest) : Grpc.RavRequest :=
  ⟨request.receipts.map SignedReceipt.current, request.previousRav.map SignedRav.current⟩

def RavResponse.current (response : RavResponse) : Grpc.RavResponse :=
  ⟨response.rav.map SignedRav.current⟩

theorem Uint128.current_injective {value value' : Uint128} (h : value.current = value'.current) :
    value = value' := by
  rcases value with ⟨high, low⟩
  rcases value' with ⟨high', low'⟩
  rcases Grpc.Uint128.mk.inj h with ⟨rfl, rfl⟩
  rfl

theorem Receipt.current_injective {receipt receipt' : Receipt}
    (h : receipt.current = receipt'.current) : receipt = receipt' := by
  rcases receipt with ⟨collectionId, payer, dataService, serviceProvider, timestampNs, nonce, value⟩
  rcases receipt' with ⟨collectionId', payer', dataService', serviceProvider', timestampNs', nonce',
    value'⟩
  simp only [current, Grpc.Receipt.mk.injEq] at h
  rcases h with ⟨rfl, rfl, rfl, rfl, rfl, rfl, hvalue⟩
  rw [Option.map_injective (fun _ _ ↦ Uint128.current_injective) hvalue]

theorem ReceiptAggregateVoucher.current_injective {voucher voucher' : ReceiptAggregateVoucher}
    (h : voucher.current = voucher'.current) : voucher = voucher' := by
  rcases voucher with ⟨collectionId, payer, dataService, serviceProvider, timestampNs, amount,
    metadata⟩
  rcases voucher' with ⟨collectionId', payer', dataService', serviceProvider', timestampNs',
    amount', metadata'⟩
  simp only [current, Grpc.ReceiptAggregateVoucher.mk.injEq] at h
  rcases h with ⟨rfl, rfl, rfl, rfl, rfl, hamount, rfl⟩
  rw [Option.map_injective (fun _ _ ↦ Uint128.current_injective) hamount]

theorem SignedRav.current_injective {voucher voucher' : SignedRav}
    (h : voucher.current = voucher'.current) : voucher = voucher' := by
  rcases voucher with ⟨message, signature⟩
  rcases voucher' with ⟨message', signature'⟩
  simp only [current, Grpc.SignedRav.mk.injEq] at h
  rcases h with ⟨hmessage, rfl⟩
  rw [Option.map_injective (fun _ _ ↦ ReceiptAggregateVoucher.current_injective) hmessage]

theorem Receipt.tryInto_current (receipt : Receipt) :
    receipt.tryInto = receipt.current.tryInto := by
  rcases receipt with ⟨collectionId, payer, dataService, serviceProvider, timestampNs, nonce, value⟩
  cases value with
  | none => rfl
  | some value => rfl

theorem ReceiptAggregateVoucher.tryInto_current (voucher : ReceiptAggregateVoucher) :
    voucher.tryInto = voucher.current.tryInto := by
  rcases voucher with ⟨collectionId, payer, dataService, serviceProvider, timestampNs, amount,
    metadata⟩
  cases amount with
  | none => rfl
  | some amount => rfl

/-- The message on the wire determines the message. -/
theorem SignedRav.of_message {Key : Type} [Alloy Key] {voucher voucher' : GraphTally.SignedRav}
    (h : SignedRav.of voucher = SignedRav.of voucher') : voucher.message = voucher'.message :=
  Grpc.SignedRav.of_message (congrArg SignedRav.current h)

theorem RavRequest.current_new {Key : Type} [Alloy Key] (receipts : List GraphTally.SignedReceipt)
    (previousRav : Option GraphTally.SignedRav) :
    (RavRequest.new receipts previousRav).current = .new receipts previousRav := by
  simp only [new, current, Grpc.RavRequest.new, List.map_map, Option.map_map]
  rfl

section Signed

variable [SignatureFormat]

theorem SignedReceipt.tryInto_current (receipt : SignedReceipt) :
    receipt.tryInto = receipt.current.tryInto := by
  rcases receipt with ⟨_ | message, signature⟩
  · rfl
  · simp only [tryInto, current, Grpc.SignedReceipt.tryInto, Receipt.tryInto_current,
      Option.map_some]
    rfl

theorem SignedRav.tryInto_current (voucher : SignedRav) :
    voucher.tryInto = voucher.current.tryInto := by
  rcases voucher with ⟨_ | message, signature⟩
  · rfl
  · simp only [tryInto, current, Grpc.SignedRav.tryInto, ReceiptAggregateVoucher.tryInto_current,
      Option.map_some]
    rfl

theorem RavRequest.receipts_current (request : RavRequest) :
    request.receipts.mapM SignedReceipt.tryInto =
      request.current.receipts.mapM Grpc.SignedReceipt.tryInto := by
  rw [current, List.mapM_map]
  exact congrArg (request.receipts.mapM ·) (funext SignedReceipt.tryInto_current)

theorem RavRequest.previousRav_current (request : RavRequest) :
    request.previousRav.mapM SignedRav.tryInto =
      request.current.previousRav.mapM Grpc.SignedRav.tryInto := by
  rcases request with ⟨receipts, _ | previousRav⟩
  · rfl
  · simp only [current, Option.map_some, Option.mapM_some, SignedRav.tryInto_current]

theorem RavResponse.signedRav_current (response : RavResponse) :
    response.signedRav = response.current.signedRav := by
  rcases response with ⟨_ | rav⟩
  · rfl
  · exact SignedRav.tryInto_current rav

end Signed

end GraphTally.Grpc.V2
