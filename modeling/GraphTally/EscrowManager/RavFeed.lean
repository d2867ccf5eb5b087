import GraphTally.Aggregator.Server
import GraphTally.EscrowManager.Ravs
import GraphTally.KnownSignatures

/-!
# From the aggregator to the escrow manager

The records the aggregator writes, as the RAV consumer reads them.
-/

open GraphTally.Theory

namespace GraphTally.EscrowManager

/-! ## Reading a written record -/

def delivered (record : KafkaRecord) : Message := ⟨some record.key, some record.payload⟩

/-- The collection id of an allocation. -/
def IsPadded (collectionId : B256) (allocation : Address) : Prop :=
  collectionId.bytes = List.replicate 12 0 ++ allocation.bytes

section Parse

variable [AlloyText]

/-- The text of a byte string: two digits a byte after the prefix, all ASCII and no separator. -/
theorem WritesHex.debug_text (hwrites : WritesHex) {n : Nat} (bytes : FixedBytes n) :
    ∃ digits, (AlloyText.debug bytes.bytes).toList = '0' :: 'x' :: digits ∧
      ofHex digits = some bytes.bytes ∧ digits.length = 2 * n ∧
      Ascii ('0' :: 'x' :: digits) ∧ ':' ∉ '0' :: 'x' :: digits := by
  obtain ⟨digits, htext, hhex⟩ := hwrites.debug bytes.bytes
  obtain ⟨hlength, hdigits⟩ := ofHex_eq_some hhex
  rw [bytes.size_eq] at hlength
  refine ⟨digits, htext, hhex, hlength, ?_, ?_⟩
  · refine .cons (by decide) (.cons (by decide) fun c hc ↦ ?_)
    exact (hexValue_isSome (hdigits c hc)).1
  · simp only [List.mem_cons, not_or]
    refine ⟨by decide, by decide, fun hmem ↦ ?_⟩
    exact (hexValue_isSome (hdigits ':' hmem)).2.1 rfl

/-- A record with an allocation's id is read as it was written. -/
theorem parseRecord_delivered (hwrites : WritesHex) (sender : Address) {collectionId : B256}
    {allocation : Address} (hpadded : IsPadded collectionId allocation) (value : U128) :
    parseRecord (delivered (produceKafkaRecords sender collectionId value)) =
      .ok (.v2 ⟨sender, allocation, value⟩) := by
  obtain ⟨senderDigits, hsender, hsenderHex, -, hsenderAscii, hseparator⟩ :=
    hwrites.debug_text sender
  obtain ⟨digits, hid, hidHex, hlength, hidAscii, -⟩ := hwrites.debug_text collectionId
  have hkeyAscii : Ascii ('0' :: 'x' :: senderDigits ++ ':' :: '0' :: 'x' :: digits) :=
    hsenderAscii.append (.cons (by decide) hidAscii)
  have hidLength : ('0' :: 'x' :: digits).length = 66 := by
    simp only [List.length_cons]
    omega
  -- the slice drops the prefix and the twelve bytes of padding
  have hslice : sliceFrom 26 ('0' :: 'x' :: digits) = some (digits.drop (2 * 12)) :=
    sliceFrom_ascii hidAscii (by omega)
  have hallocation : ofHex (digits.drop (2 * 12)) = some allocation.bytes := by
    rw [ofHex_drop 12 hidHex, hpadded, List.drop_left' List.length_replicate]
  have hvalue : parseUnsigned 128 (toDecimal value.toNat) = .ok value := by
    rw [parseUnsigned_toDecimal value.isLt, BitVec.ofNat_toNat, BitVec.setWidth_eq]
  -- follow the reader: decode, split, measure, slice, and parse the three fields
  unfold parseRecord delivered produceKafkaRecords
  dsimp only
  rw [hsender, hid, fromUtf8Lossy_toUtf8 hkeyAscii, splitOnce_append hseparator,
    fromUtf8Lossy_toUtf8 (toDecimal_ascii _)]
  dsimp only
  rw [parseId, utf8Length_ascii hidAscii, hidLength, if_neg (by decide),
    if_neg (not_not.mpr rfl), hslice]
  dsimp only
  rw [hwrites.parse sender senderDigits hsenderHex, hwrites.parseBare allocation _ hallocation,
    hvalue]

end Parse

/-! ## What the escrow manager sees of an issued RAV -/

/-- The record is parsed, accepted, and counted for the allocation. -/
structure Seen [AlloyText] (signers : List Address) (record : KafkaRecord) (allocation : Address)
    (value : U128) : Prop where
  accepted : ∃ signer ∈ signers,
    parseRecord (delivered record) = .ok (.v2 ⟨signer, allocation, value⟩)
  counted : ∀ map, ∃ after held, processMessage signers map (delivered record) = .ok after ∧
    after.lookup allocation = some held ∧ value.toNat ≤ held.toNat

section Seen

variable [AlloyText]

/-- The reader takes the address in front of the id for a signer. -/
theorem processMessage_delivered (hwrites : WritesHex) (signers : List Address) (map : RavMap)
    (sender : Address) {collectionId : B256} {allocation : Address}
    (hpadded : IsPadded collectionId allocation) (value : U128) :
    processMessage signers map (delivered (produceKafkaRecords sender collectionId value)) =
      .ok (if sender ∈ signers then updateRav map ⟨sender, allocation, value⟩ else map) := by
  unfold processMessage
  rw [parseRecord_delivered hwrites sender hpadded value]
  exact (apply_ite Except.ok (sender ∈ signers) _ _).symm

-- The record is well formed either way; only the filter decides.
theorem seen_iff (hwrites : WritesHex) (signers : List Address) (sender : Address)
    {collectionId : B256} {allocation : Address} (hpadded : IsPadded collectionId allocation)
    (value : U128) :
    Seen signers (produceKafkaRecords sender collectionId value) allocation value ↔
      sender ∈ signers := by
  have hparse := parseRecord_delivered hwrites sender hpadded value
  constructor
  · rintro ⟨⟨signer, hsigner, hparse'⟩, -⟩
    have hrecord := ParseResult.v2.inj (Except.ok.inj (hparse.symm.trans hparse'))
    rw [(Record.mk.inj hrecord).1]
    exact hsigner
  · intro hsender
    refine ⟨⟨sender, hsender, hparse⟩, fun map ↦ ?_⟩
    obtain ⟨held, hheld, hle⟩ := updateRav_holds map ⟨sender, allocation, value⟩
    refine ⟨_, held, ?_, hheld, hle⟩
    rw [processMessage_delivered hwrites signers map sender hpadded, if_pos hsender]

variable {Domain Key : Type} [Alloy Key] [SolStruct Domain Receipt]
  [SolStruct Domain ReceiptAggregateVoucher] [Grpc.SignatureFormat]

/-- An escrow manager that is configured with the signers of a payer sees the payer's RAVs exactly
when the payer is one of them. -/
theorem returned_rav_seen_iff (hwrites : WritesHex) (profile : Profile)
    (endpoint : RpcImpl Domain Key) (hkafka : endpoint.kafka = true)
    (rav : ReceiptAggregateVoucher) (records : List KafkaRecord)
    (hreturns : endpoint.Returns profile rav records) (allocation : Address)
    (hpadded : IsPadded rav.collectionId allocation) :
    ∃ wallet accepted record, endpoint.signers.resolve rav.payer = some (wallet, accepted) ∧
      records = [record] ∧
      ∀ signers : List Address, (∀ signer, signer ∈ signers ↔ signer ∈ accepted) →
        (Seen signers record allocation rav.valueAggregate ↔ rav.payer ∈ accepted) := by
  obtain ⟨rfl, receipts, previousRav, signed, hsigned, rfl⟩ := hreturns.produced
  obtain ⟨first, wallet, accepted, hacceptable, haggregate, -⟩ :=
    checkAndAggregateReceipts_eq_ok.mp hsigned
  have haccount := (ReceiptAggregateVoucher.aggregateReceipts_eq_ok.mp haggregate).1
  have hpayer : signed.message.payer = first.message.payer := congrArg Account.payer haccount
  refine ⟨wallet, accepted, _, ?_, if_pos hkafka, fun signers hsigners ↦ ?_⟩
  · rw [hpayer]
    exact hacceptable.resolves
  · exact (seen_iff hwrites signers _ hpadded _).trans (hsigners _)

end Seen

end GraphTally.EscrowManager

/-! ## A payer that does not sign for itself -/

namespace GraphTally.Known

open EscrowManager

theorem parseAddress_of_digits {text : String} {digits : List Char} {address : Address}
    (htext : (if text.toList.take 2 = ['0', 'x'] then text.toList.drop 2 else text.toList) =
      digits) (hhex : ofHex digits = some address.bytes) : parseAddress text = .ok address := by
  unfold parseAddress
  dsimp only
  rw [htext, hhex]
  exact dif_pos address.size_eq

theorem writesHex : WritesHex where
  debug bytes := ⟨toHex .lower bytes, String.toList_ofList, ofHex_toHex .lower bytes⟩
  parse address digits hhex := by
    refine parseAddress_of_digits ?_ hhex
    rw [String.toList_ofList]
    exact if_pos rfl
  parseBare address digits hhex := by
    refine parseAddress_of_digits ?_ hhex
    rw [String.toList_ofList]
    -- no digit is an `x`
    refine if_neg fun htake ↦ ?_
    have hx : 'x' ∈ digits := List.mem_of_mem_take (i := 2) (by rw [htake]; simp)
    exact (hexValue_isSome ((ofHex_eq_some hhex).2 'x' hx)).2.2 rfl

def endpoint : RpcImpl Eip712Domain Key := ⟨registry, domain, true⟩

def allocation : Address := .repeatByte 20 0xab

def record : KafkaRecord :=
  produceKafkaRecords account.payer account.collectionId 12

theorem endpoint_returns : endpoint.Returns .debug (rav 20 12) [record] :=
  .rpc "0.0" batch none ⟨signed .one (rav 20 12), none⟩ (by decide +kernel) rfl

end GraphTally.Known

namespace GraphTally.EscrowManager

open Known in
/-- The RAV is signed by the payer's only key, and the record that names the payer is dropped. -/
theorem returned_rav_not_seen :
    endpoint.Returns .debug (rav 20 12) [record] ∧ endpoint.kafka = true ∧
      IsPadded (rav 20 12).collectionId allocation ∧
      endpoint.signers.resolve (rav 20 12).payer = some (.one, {Key.one.address}) ∧
      processMessage [Key.one.address] ∅ (delivered record) = .ok ∅ ∧
      ¬Seen [Key.one.address] record allocation 12 := by
  have hpadded : IsPadded (rav 20 12).collectionId allocation := by
    unfold IsPadded
    decide +kernel
  have hforeign : account.payer ∉ [Key.one.address] := by decide +kernel
  refine ⟨endpoint_returns, rfl, hpadded, by rfl, ?_, fun hseen ↦ ?_⟩
  · exact (processMessage_delivered writesHex _ ∅ account.payer hpadded 12).trans
      (congrArg Except.ok (if_neg hforeign))
  · exact hforeign ((seen_iff writesHex _ _ hpadded _).mp hseen)

open Known in
theorem returned_rav_seen_iff_known :
    ∃ wallet accepted written,
      endpoint.signers.resolve (rav 20 12).payer = some (wallet, accepted) ∧
      [record] = [written] ∧
      ∀ signers : List Address, (∀ signer, signer ∈ signers ↔ signer ∈ accepted) →
        (Seen signers written allocation (rav 20 12).valueAggregate ↔
          (rav 20 12).payer ∈ accepted) :=
  returned_rav_seen_iff writesHex .debug endpoint rfl (rav 20 12) [record] endpoint_returns
    allocation (by unfold IsPadded; decide +kernel)

end GraphTally.EscrowManager
