import GraphTally.Aggregator.Server
import GraphTally.KnownSignatures

/-!
# One batch, three endpoints

A client may send a batch to the JSON-RPC method or to either of the gRPC services, each with
messages and conversions of its own.
-/

open GraphTally.Theory

namespace GraphTally

/-! ## Each endpoint in terms of the aggregation -/

-- A counter that wraps never stands in the way.
theorem receiptsGrt_release {ε : Type} (receipts : List SignedReceipt) :
    ∃ total, (receiptsGrt .release receipts : Outcome ε U128) = .ok total := by
  have hfold : ∀ (receipts : List SignedReceipt) (sum : U128), ∃ total,
      (receipts.foldlM (fun sum receipt ↦ plainAdd .release sum receipt.message.value) sum :
        Outcome ε U128) = .ok total := by
    intro receipts
    induction receipts with
    | nil =>
      intro sum
      exact ⟨sum, rfl⟩
    | cons receipt receipts ih =>
      intro sum
      have hadd : (plainAdd .release sum receipt.message.value : Outcome ε U128) =
          .ok (sum + receipt.message.value) := by
        unfold plainAdd plainResult
        split <;> rfl
      rw [List.foldlM_cons, hadd]
      exact ih _
  exact hfold receipts 0

theorem parseApiVersion_supported {apiVersion : String}
    (h : ∃ version ∈ graphTallyRpcApiVersions, version.text = apiVersion) :
    ∃ version, parseApiVersion apiVersion = .ok version := by
  rcases h with ⟨version, hversion, htext⟩
  have hfound : (graphTallyRpcApiVersions.find? (·.text == apiVersion)).isSome :=
    List.find?_isSome.mpr ⟨version, hversion, by rw [htext, beq_self_eq_true]⟩
  rcases Option.isSome_iff_exists.mp hfound with ⟨found, hfind⟩
  exact ⟨found, by rw [parseApiVersion, hfind]⟩

section Endpoints

variable {Domain Key : Type} [Alloy Key] [AlloyText] [SolStruct Domain Receipt]
  [SolStruct Domain ReceiptAggregateVoucher] {self : RpcImpl Domain Key}
  {receipts : List SignedReceipt} {previousRav : Option SignedRav}

/-- An aggregated batch was not empty. -/
theorem ne_nil_of_checkAndAggregateReceipts {domainSeparator : Domain} {signed : SignedRav}
    {signers : SignerRegistry Key}
    (h : checkAndAggregateReceipts domainSeparator receipts previousRav signers = .ok signed) :
    receipts.isEmpty = false := by
  cases receipts with
  | nil => cases h
  | cons receipt receipts => rfl

theorem RpcImpl.aggregateReceipts_of_ok {apiVersion : String} {signed : SignedRav}
    (hversion : ∃ version ∈ graphTallyRpcApiVersions, version.text = apiVersion)
    (h : checkAndAggregateReceipts self.domainSeparator receipts previousRav self.signers =
      .ok signed) :
    ∃ response : JsonRpcResponse SignedRav, response.data = signed ∧
      self.aggregateReceipts .release apiVersion receipts previousRav =
        (.ok response, self.produce signed.message) := by
  rcases receiptsGrt_release (ε := JsonRpcError) receipts with ⟨total, htotal⟩
  rcases parseApiVersion_supported hversion with ⟨version, hparse⟩
  refine ⟨.warn signed (checkApiVersionDeprecation version).toList, rfl, ?_⟩
  have hne := ne_nil_of_checkAndAggregateReceipts h
  unfold RpcImpl.aggregateReceipts aggregateReceipts_
  simp only [htotal, hparse, hne, h, Bool.false_eq_true, ↓reduceIte]
  rfl

theorem RpcImpl.aggregateReceipts_of_error (apiVersion : String) {e : AggregatorError}
    (h : checkAndAggregateReceipts self.domainSeparator receipts previousRav self.signers =
      .error e) :
    ∃ rpcError, self.aggregateReceipts .release apiVersion receipts previousRav =
      (.error (.error rpcError), []) := by
  rcases receiptsGrt_release (ε := JsonRpcError) receipts with ⟨total, htotal⟩
  have hrefused : ∃ rpcError, aggregateReceipts_ apiVersion self.signers self.domainSeparator
      receipts previousRav = .error rpcError := by
    unfold aggregateReceipts_
    split
    · exact ⟨_, rfl⟩
    · split
      · exact ⟨_, rfl⟩
      · rw [h]
        exact ⟨_, rfl⟩
  rcases hrefused with ⟨rpcError, hrefused⟩
  refine ⟨rpcError, ?_⟩
  unfold RpcImpl.aggregateReceipts
  simp only [htotal, hrefused]

variable [Grpc.SignatureFormat]

theorem GraphTallyAggregator.aggregateReceipts_of_ok (hformat : Grpc.ReadsWritten Key)
    {signed : SignedRav}
    (h : checkAndAggregateReceipts self.domainSeparator receipts previousRav self.signers =
      .ok signed) :
    ∃ response : Grpc.RavResponse, response.signedRav = some signed ∧
      GraphTallyAggregator.aggregateReceipts .release self (.new receipts previousRav) =
        (.ok response, self.produce signed.message) := by
  rcases receiptsGrt_release (ε := Status) receipts with ⟨total, htotal⟩
  rcases Grpc.RavRequest.new_read hformat receipts previousRav with ⟨hreceipts, hprevious⟩
  refine ⟨⟨some (.of signed)⟩, Grpc.SignedRav.tryInto_of hformat signed, ?_⟩
  unfold GraphTallyAggregator.aggregateReceipts
  simp only [hreceipts, hprevious, htotal, h]

theorem GraphTallyAggregator.aggregateReceipts_of_error (hformat : Grpc.ReadsWritten Key)
    {e : AggregatorError}
    (h : checkAndAggregateReceipts self.domainSeparator receipts previousRav self.signers =
      .error e) :
    ∃ status, GraphTallyAggregator.aggregateReceipts .release self (.new receipts previousRav) =
      (.error (.error status), []) := by
  rcases receiptsGrt_release (ε := Status) receipts with ⟨total, htotal⟩
  rcases Grpc.RavRequest.new_read hformat receipts previousRav with ⟨hreceipts, hprevious⟩
  refine ⟨⟨.failedPrecondition, e.text⟩, ?_⟩
  unfold GraphTallyAggregator.aggregateReceipts
  simp only [hreceipts, hprevious, htotal, h]

-- The legacy service is asked in its own messages, and answers in them.
theorem TapAggregator.aggregateReceipts_of_ok {signed : SignedRav} {records : List KafkaRecord}
    {response : Grpc.RavResponse} (hread : response.signedRav = some signed)
    (h : GraphTallyAggregator.aggregateReceipts .release self (.new receipts previousRav) =
      (.ok response, records)) :
    ∃ response : Grpc.V2.RavResponse, response.signedRav = some signed ∧
      TapAggregator.aggregateReceipts .release self (.new receipts previousRav) =
        (.ok response, records) := by
  rw [← Grpc.V2.RavRequest.current_new, TapAggregator.aggregateReceipts_current] at h
  rcases hresult : TapAggregator.aggregateReceipts .release self
    (.new receipts previousRav) with ⟨_ | response', records'⟩ <;> rw [hresult] at h <;> cases h
  exact ⟨response', response'.signedRav_current.trans hread, rfl⟩

theorem TapAggregator.aggregateReceipts_of_error {status : Status}
    (h : GraphTallyAggregator.aggregateReceipts .release self (.new receipts previousRav) =
      (.error (.error status), [])) :
    TapAggregator.aggregateReceipts .release self (.new receipts previousRav) =
      (.error (.error status), []) := by
  rw [← Grpc.V2.RavRequest.current_new, TapAggregator.aggregateReceipts_current] at h
  rcases hresult : TapAggregator.aggregateReceipts .release self
    (.new receipts previousRav) with ⟨_ | response, records⟩ <;> rw [hresult] at h <;> cases h
  rfl

/-- What the three endpoints answer to one batch: they all refuse it and write no record, or they
all return one signed RAV, as its client reads it, and each writes the one record of it if a
producer is configured. -/
inductive RpcImpl.Agrees (self : RpcImpl Domain Key) (apiVersion : String)
    (receipts : List SignedReceipt) (previousRav : Option SignedRav) : Prop
  | refused (rpcError : JsonRpcError) (tapError graphTallyError : Status) :
      self.aggregateReceipts .release apiVersion receipts previousRav =
        (.error (.error rpcError), []) →
      TapAggregator.aggregateReceipts .release self
        (Grpc.V2.RavRequest.new receipts previousRav) =
          (.error (.error tapError), []) →
      GraphTallyAggregator.aggregateReceipts .release self
        (Grpc.RavRequest.new receipts previousRav) =
          (.error (.error graphTallyError), []) →
      self.Agrees apiVersion receipts previousRav
  | returned (signed : SignedRav) (records : List KafkaRecord)
      (rpcResponse : JsonRpcResponse SignedRav) (tapResponse : Grpc.V2.RavResponse)
      (graphTallyResponse : Grpc.RavResponse) :
      (self.kafka = true → records = [produceKafkaRecords signed.message.payer
        signed.message.collectionId signed.message.valueAggregate]) →
      (self.kafka = false → records = []) →
      self.aggregateReceipts .release apiVersion receipts previousRav =
        (.ok rpcResponse, records) →
      rpcResponse.data = signed →
      TapAggregator.aggregateReceipts .release self
        (Grpc.V2.RavRequest.new receipts previousRav) = (.ok tapResponse, records) →
      tapResponse.signedRav = some signed →
      GraphTallyAggregator.aggregateReceipts .release self
        (Grpc.RavRequest.new receipts previousRav) = (.ok graphTallyResponse, records) →
      graphTallyResponse.signedRav = some signed →
      self.Agrees apiVersion receipts previousRav

/-- Under a supported API version a client may go from one endpoint to another. -/
theorem endpoints_agree (hformat : Grpc.ReadsWritten Key) (self : RpcImpl Domain Key)
    (receipts : List SignedReceipt) (previousRav : Option SignedRav) (apiVersion : String)
    (hversion : ∃ version ∈ graphTallyRpcApiVersions, version.text = apiVersion) :
    self.Agrees apiVersion receipts previousRav := by
  cases h : checkAndAggregateReceipts self.domainSeparator receipts previousRav self.signers with
  | error e =>
    rcases RpcImpl.aggregateReceipts_of_error apiVersion h with ⟨rpcError, hrpc⟩
    rcases GraphTallyAggregator.aggregateReceipts_of_error hformat h with ⟨status, hgrpc⟩
    have htap := TapAggregator.aggregateReceipts_of_error hgrpc
    exact .refused rpcError status status hrpc htap hgrpc
  | ok signed =>
    rcases RpcImpl.aggregateReceipts_of_ok hversion h with ⟨rpcResponse, hdata, hrpc⟩
    rcases GraphTallyAggregator.aggregateReceipts_of_ok hformat h with ⟨response, hread, hgrpc⟩
    rcases TapAggregator.aggregateReceipts_of_ok hread hgrpc with ⟨tapResponse, htapRead, htap⟩
    have hproduced : self.kafka = true → self.produce signed.message = [produceKafkaRecords
        signed.message.payer signed.message.collectionId signed.message.valueAggregate] := by
      intro hkafka
      rw [RpcImpl.produce, if_pos hkafka]
    have hsilent : self.kafka = false → self.produce signed.message = [] := by
      intro hkafka
      rw [RpcImpl.produce, hkafka, if_neg Bool.false_ne_true]
    exact .returned signed _ rpcResponse tapResponse response hproduced hsilent hrpc hdata htap
      htapRead hgrpc hread

end Endpoints

open Known in
theorem endpoints_agree_known :
    (⟨registry, domain, true⟩ : RpcImpl Eip712Domain Key).Agrees "0.0" batch none :=
  endpoints_agree readsWritten _ batch none "0.0" ⟨.v0_0, List.mem_singleton_self _, rfl⟩

end GraphTally
