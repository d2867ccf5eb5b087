import GraphTally.Aggregator.GrpcV2
import GraphTally.KnownSignatures
import GraphTally.Theory.Codec

/-!
# The wire format

A message that is read was written from the value it is read as, but for the recovery byte of its
signature.  Both packages read and write alike.
-/

open GraphTally.Theory

namespace GraphTally.Grpc

/-! ## Well-formed messages -/

/-- What the conversions ask of the fields of a message. -/
structure WellFormedFields {Value : Type} (value : Option Value)
    (collectionId payer dataService serviceProvider : List UInt8) : Prop where
  value : value.isSome = true
  collectionId : collectionId.length = 32
  payer : payer.length = 20
  dataService : dataService.length = 20
  serviceProvider : serviceProvider.length = 20

def Receipt.WellFormed (receipt : Receipt) : Prop :=
  WellFormedFields receipt.value receipt.collectionId receipt.payer receipt.dataService
    receipt.serviceProvider

def ReceiptAggregateVoucher.WellFormed (voucher : ReceiptAggregateVoucher) : Prop :=
  WellFormedFields voucher.valueAggregate voucher.collectionId voucher.payer voucher.dataService
    voucher.serviceProvider

def V2.Receipt.WellFormed (receipt : V2.Receipt) : Prop :=
  WellFormedFields receipt.value receipt.collectionId receipt.payer receipt.dataService
    receipt.serviceProvider

def V2.ReceiptAggregateVoucher.WellFormed (voucher : V2.ReceiptAggregateVoucher) : Prop :=
  WellFormedFields voucher.valueAggregate voucher.collectionId voucher.payer voucher.dataService
    voucher.serviceProvider

/-- The message is there and well formed, and `alloy` accepts the signature. -/
def WellFormedSigned [SignatureFormat] {M : Type} (WellFormed : M → Prop) (message : Option M)
    (signature : List UInt8) : Prop :=
  (∃ present ∈ message, WellFormed present) ∧
    ∃ accepted, SignatureFormat.ofBytes signature = .ok accepted

/-- The bytes are the same up to the last one, the recovery byte. -/
def SameButRecovery (signature signature' : List UInt8) : Prop :=
  signature.length = signature'.length ∧ signature.take 64 = signature'.take 64

/-! ## The messages -/

theorem fixedBytes_eq_some {n : Nat} {bytes : List UInt8} {fixed : FixedBytes n} :
    fixedBytes n bytes = some fixed ↔ bytes = fixed.bytes := by
  constructor
  · intro h
    unfold fixedBytes at h
    split at h
    · obtain rfl := Option.some_inj.mp h
      rfl
    · cases h
  · rintro rfl
    exact fixedBytes_bytes fixed

theorem Receipt.tryInto_eq_some {receipt : Receipt} {value : GraphTally.Receipt} :
    receipt.tryInto = some value ↔ receipt = .of value := by
  constructor
  · intro h
    rcases receipt with ⟨collectionId, payer, dataService, serviceProvider, timestampNs, nonce,
      amount⟩
    simp only [tryInto, bind, Option.bind_eq_some_iff, fixedBytes_eq_some, pure,
      Option.some_inj] at h
    rcases h with ⟨_, rfl, found, rfl, _, rfl, _, rfl, _, rfl, rfl⟩
    simp only [of, Uint128.ofU128_toU128]
  · rintro rfl
    exact tryInto_of value

theorem ReceiptAggregateVoucher.tryInto_eq_some {voucher : ReceiptAggregateVoucher}
    {value : GraphTally.ReceiptAggregateVoucher} :
    voucher.tryInto = some value ↔ voucher = .of value := by
  constructor
  · intro h
    rcases voucher with ⟨collectionId, payer, dataService, serviceProvider, timestampNs, amount,
      metadata⟩
    simp only [tryInto, bind, Option.bind_eq_some_iff, fixedBytes_eq_some, pure,
      Option.some_inj] at h
    rcases h with ⟨_, rfl, found, rfl, _, rfl, _, rfl, _, rfl, rfl⟩
    simp only [of, Uint128.ofU128_toU128]
  · rintro rfl
    exact tryInto_of value

theorem Receipt.codec : Codec Receipt.tryInto Receipt.of Receipt.WellFormed Eq := by
  refine .exact (fun _ _ ↦ tryInto_eq_some) fun receipt ↦ ⟨?_, ?_⟩
  · rintro ⟨value, rfl⟩
    exact ⟨rfl, value.collectionId.size_eq, value.payer.size_eq, value.dataService.size_eq,
      value.serviceProvider.size_eq⟩
  · intro h
    rcases receipt with ⟨collectionId, payer, dataService, serviceProvider, timestampNs, nonce,
      amount⟩
    rcases Option.isSome_iff_exists.mp h.value with ⟨found, hfound⟩
    obtain rfl : amount = some found := hfound
    refine ⟨⟨⟨collectionId, h.collectionId⟩, ⟨payer, h.payer⟩, ⟨dataService, h.dataService⟩,
      ⟨serviceProvider, h.serviceProvider⟩, timestampNs, nonce, found.toU128⟩, ?_⟩
    simp only [of, Uint128.ofU128_toU128]

theorem ReceiptAggregateVoucher.codec : Codec ReceiptAggregateVoucher.tryInto
    ReceiptAggregateVoucher.of ReceiptAggregateVoucher.WellFormed Eq := by
  refine .exact (fun _ _ ↦ tryInto_eq_some) fun voucher ↦ ⟨?_, ?_⟩
  · rintro ⟨value, rfl⟩
    exact ⟨rfl, value.collectionId.size_eq, value.payer.size_eq, value.dataService.size_eq,
      value.serviceProvider.size_eq⟩
  · intro h
    rcases voucher with ⟨collectionId, payer, dataService, serviceProvider, timestampNs, amount,
      metadata⟩
    rcases Option.isSome_iff_exists.mp h.value with ⟨found, hfound⟩
    obtain rfl : amount = some found := hfound
    refine ⟨⟨⟨collectionId, h.collectionId⟩, ⟨payer, h.payer⟩,
      ⟨serviceProvider, h.serviceProvider⟩, ⟨dataService, h.dataService⟩, timestampNs,
      found.toU128, metadata⟩, ?_⟩
    simp only [of, Uint128.ofU128_toU128]

theorem WellFormedFields.map {Value Value' : Type} (f : Value → Value') {value : Option Value}
    {collectionId payer dataService serviceProvider : List UInt8} :
    WellFormedFields (value.map f) collectionId payer dataService serviceProvider ↔
      WellFormedFields value collectionId payer dataService serviceProvider := by
  constructor
  · intro h
    have hvalue := h.value
    rw [Option.isSome_map] at hvalue
    exact { h with value := hvalue }
  · intro h
    have hvalue := h.value
    rw [← Option.isSome_map (f := f)] at hvalue
    exact { h with value := hvalue }

theorem V2.Receipt.codec :
    Codec V2.Receipt.tryInto V2.Receipt.of V2.Receipt.WellFormed Eq := by
  have hcurrent : Codec V2.Receipt.tryInto V2.Receipt.of (fun receipt ↦ receipt.current.WellFormed)
      (fun receipt receipt' ↦ receipt.current = receipt'.current) :=
    Grpc.Receipt.codec.transport current id id (fun receipt ↦ by simp [tryInto_current])
      (fun _ ↦ rfl) (fun _ ↦ rfl) (fun _ ↦ rfl)
  exact hcurrent.congr (fun receipt ↦ WellFormedFields.map _) fun _ _ h ↦ current_injective h

theorem V2.ReceiptAggregateVoucher.codec : Codec V2.ReceiptAggregateVoucher.tryInto
    V2.ReceiptAggregateVoucher.of V2.ReceiptAggregateVoucher.WellFormed Eq := by
  have hcurrent : Codec V2.ReceiptAggregateVoucher.tryInto V2.ReceiptAggregateVoucher.of
      (fun voucher ↦ voucher.current.WellFormed)
      (fun voucher voucher' ↦ voucher.current = voucher'.current) :=
    Grpc.ReceiptAggregateVoucher.codec.transport current id id
      (fun voucher ↦ by simp [tryInto_current]) (fun _ ↦ rfl) (fun _ ↦ rfl) (fun _ ↦ rfl)
  exact hcurrent.congr (fun voucher ↦ WellFormedFields.map _) fun _ _ h ↦ current_injective h

/-! ## Signed messages -/

section Signed

variable {Key : Type} [Alloy Key] [SignatureFormat]

theorem readSignature_eq_some {bytes : List UInt8} {signature : Signature} :
    readSignature bytes = some signature ↔ SignatureFormat.ofBytes bytes = .ok signature := by
  rw [readSignature]
  cases SignatureFormat.ofBytes bytes with
  | error e => simp [Except.toOption]
  | ok found => simp [Except.toOption]

/-- What is written for a signature that was read. -/
theorem ReadsLayout.sameButRecovery (hreads : ReadsLayout) (hlays : LaysOut Key)
    {bytes : List UInt8} {signature : Signature}
    (h : SignatureFormat.ofBytes bytes = .ok signature) :
    SameButRecovery (Alloy.asBytes signature).bytes bytes := by
  have hlength := hreads.length bytes signature h
  have hwritten := (Alloy.asBytes signature).size_eq
  refine ⟨hwritten.trans hlength.symm, ?_⟩
  have hr : (Alloy.asBytes signature).bytes.take 32 = bytes.take 32 := by
    apply ofBigEndian_injective
    · simp only [List.length_take, hwritten, hlength]
    · rw [hlays.r, hreads.r bytes signature h]
  have hs : ((Alloy.asBytes signature).bytes.drop 32).take 32 = (bytes.drop 32).take 32 := by
    apply ofBigEndian_injective
    · simp only [List.length_take, List.length_drop, hwritten, hlength]
    · rw [hlays.s, hreads.s bytes signature h]
  show (Alloy.asBytes signature).bytes.take (32 + 32) = bytes.take (32 + 32)
  rw [List.take_add, List.take_add, hr, hs]

theorem signature_codec (hwritten : ReadsWritten Key) (hlays : LaysOut Key)
    (hreads : ReadsLayout) :
    Codec readSignature (fun signature ↦ (Alloy.asBytes signature).bytes)
      (fun bytes ↦ ∃ accepted, SignatureFormat.ofBytes bytes = .ok accepted)
      SameButRecovery where
  decode_encode signature := hwritten.readSignature signature
  decodes_iff bytes := by simp only [readSignature_eq_some]
  encode_decode bytes signature h :=
    hreads.sameButRecovery hlays (readSignature_eq_some.mp h)

theorem signed_codec {M N W : Type} {decode : M → Option N} {encode : N → M}
    {WellFormed : M → Prop} (h : Codec decode encode WellFormed Eq)
    (hwritten : ReadsWritten Key) (hlays : LaysOut Key) (hreads : ReadsLayout)
    {decodeSigned : W → Option (Eip712SignedMessage N)}
    {encodeSigned : Eip712SignedMessage N → W} (message : W → Option M)
    (signature : W → List UInt8)
    (hdecode : ∀ w, decodeSigned w = do
      let signature ← readSignature (signature w)
      let message ← decode (← message w)
      return ⟨message, signature⟩)
    (hmessage : ∀ n, message (encodeSigned n) = some (encode n.message))
    (hsignature : ∀ n, signature (encodeSigned n) = (Alloy.asBytes n.signature).bytes) :
    Codec decodeSigned encodeSigned
      (fun w ↦ WellFormedSigned WellFormed (message w) (signature w))
      (fun w w' ↦ message w = message w' ∧ SameButRecovery (signature w) (signature w')) := by
  have hpair := h.optional.pair (signature_codec hwritten hlays hreads)
  refine hpair.transport (fun w ↦ (message w, signature w)) (fun n ↦ ⟨n.1, n.2⟩)
    (fun n ↦ (n.message, n.signature)) ?_ ?_ (fun _ ↦ rfl) (fun _ ↦ rfl)
  · intro w
    rw [hdecode]
    cases message w with
    | none => cases readSignature (signature w) <;> rfl
    | some present =>
      cases readSignature (signature w) <;> cases hpresent : decode present <;> simp [hpresent]
  · intro n
    rw [hmessage, hsignature]

/-- In both packages a message that was written is read back, exactly the well-formed messages are
read, and what is read is written again up to the recovery byte. -/
theorem wire_codecs (hwritten : ReadsWritten Key) (hlays : LaysOut Key) (hreads : ReadsLayout) :
    Codec SignedReceipt.tryInto SignedReceipt.of
        (fun w ↦ WellFormedSigned Receipt.WellFormed w.message w.signature)
        (fun w w' ↦ w.message = w'.message ∧ SameButRecovery w.signature w'.signature) ∧
      Codec SignedRav.tryInto SignedRav.of
        (fun w ↦ WellFormedSigned ReceiptAggregateVoucher.WellFormed w.message w.signature)
        (fun w w' ↦ w.message = w'.message ∧ SameButRecovery w.signature w'.signature) ∧
      Codec V2.SignedReceipt.tryInto V2.SignedReceipt.of
        (fun w ↦ WellFormedSigned V2.Receipt.WellFormed w.message w.signature)
        (fun w w' ↦ w.message = w'.message ∧ SameButRecovery w.signature w'.signature) ∧
      Codec V2.SignedRav.tryInto V2.SignedRav.of
        (fun w ↦ WellFormedSigned V2.ReceiptAggregateVoucher.WellFormed w.message w.signature)
        (fun w w' ↦ w.message = w'.message ∧ SameButRecovery w.signature w'.signature) := by
  refine ⟨?_, ?_, ?_, ?_⟩
  · exact signed_codec Receipt.codec hwritten hlays hreads SignedReceipt.message
      SignedReceipt.signature (fun _ ↦ rfl) (fun _ ↦ rfl) (fun _ ↦ rfl)
  · exact signed_codec ReceiptAggregateVoucher.codec hwritten hlays hreads SignedRav.message
      SignedRav.signature (fun _ ↦ rfl) (fun _ ↦ rfl) (fun _ ↦ rfl)
  · exact signed_codec V2.Receipt.codec hwritten hlays hreads V2.SignedReceipt.message
      V2.SignedReceipt.signature (fun _ ↦ rfl) (fun _ ↦ rfl) (fun _ ↦ rfl)
  · exact signed_codec V2.ReceiptAggregateVoucher.codec hwritten hlays hreads
      V2.SignedRav.message V2.SignedRav.signature (fun _ ↦ rfl) (fun _ ↦ rfl) (fun _ ↦ rfl)

end Signed

end GraphTally.Grpc

namespace GraphTally

open Known in
/-- A known receipt comes back, and a message without its parts is not read. -/
theorem Grpc.wire_codecs_known :
    (Grpc.SignedReceipt.of (signed .one (receipt 10 1 5))).tryInto =
        some (signed .one (receipt 10 1 5)) ∧
      ¬∃ value, (⟨none, []⟩ : Grpc.V2.SignedReceipt).tryInto = some value := by
  have hcodecs := Grpc.wire_codecs readsWritten laysOut readsLayout
  refine ⟨hcodecs.1.decode_encode _, ?_⟩
  rw [hcodecs.2.2.1.decodes_iff]
  intro hwell
  rcases hwell.1 with ⟨present, hpresent, -⟩
  cases hpresent

end GraphTally
