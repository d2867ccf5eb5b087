import GraphTally.Aggregator.Acceptance
import GraphTally.Aggregator.GrpcV2
import GraphTally.Theory.Text

/-!
# The aggregator's endpoints

The JSON-RPC method and the two gRPC methods that aggregate receipts, with the Kafka record each
of them writes.  The counters that only Prometheus reads are left out.
-/

open GraphTally.Theory

namespace GraphTally

/-! ## Texts of errors -/

/-- `{}` of an `AggregationError`. -/
def AggregationError.text : AggregationError → String
  | .aggregateOverflow => "Aggregating receipt results in overflow"
  | .noValidReceiptsForRavRequest => "Failed to produce rav request, no valid receipts"
  | .other source => source

def AggregatorError.text [AlloyText] : AggregatorError → String
  | .core e => e.text
  | .aggregation e => e.text
  | .eip712 e => e.text
  | .noSigningKey payer => "no signing key configured for payer " ++
      AlloyText.displayAddress payer ++
      "; signing with another payer's key would produce an uncollectable RAV"

/-! ## API versions -/

inductive GraphTallyRpcApiVersion where
  | v0_0
  deriving DecidableEq, Repr

def GraphTallyRpcApiVersion.text : GraphTallyRpcApiVersion → String
  | .v0_0 => "0.0"

def graphTallyRpcApiVersions : List GraphTallyRpcApiVersion := [.v0_0]

def graphTallyRpcApiVersionsDeprecated : List GraphTallyRpcApiVersion := []

structure GraphTallyRpcApiVersionsInfo where
  versionsSupported : List GraphTallyRpcApiVersion
  versionsDeprecated : List GraphTallyRpcApiVersion
  deriving DecidableEq

def graphTallyRpcApiVersionsInfo : GraphTallyRpcApiVersionsInfo :=
  ⟨graphTallyRpcApiVersions, graphTallyRpcApiVersionsDeprecated⟩

inductive JsonRpcErrorCode where
  | generic
  | invalidVersion
  | aggregation

def JsonRpcErrorCode.toInt : JsonRpcErrorCode → Int
  | .generic => -32000
  | .invalidVersion => -32001
  | .aggregation => -32002

inductive JsonRpcWarningCode where
  | generic
  | deprecatedVersion

def JsonRpcWarningCode.toInt : JsonRpcWarningCode → Int
  | .generic => -32050
  | .deprecatedVersion => -32051

structure JsonRpcError where
  code : Int
  message : String
  data : Option GraphTallyRpcApiVersionsInfo
  deriving DecidableEq

structure JsonRpcWarning where
  code : Int
  message : String
  data : Option GraphTallyRpcApiVersionsInfo
  deriving DecidableEq

structure JsonRpcResponse (T : Type) where
  data : T
  warnings : Option (List JsonRpcWarning)
  deriving DecidableEq

def JsonRpcResponse.warn {T : Type} (data : T) (warnings : List JsonRpcWarning) :
    JsonRpcResponse T :=
  ⟨data, if warnings.isEmpty then none else some warnings⟩

def parseApiVersion (apiVersion : String) : Except JsonRpcError GraphTallyRpcApiVersion :=
  match graphTallyRpcApiVersions.find? (·.text == apiVersion) with
  | some version => .ok version
  | none => .error ⟨JsonRpcErrorCode.invalidVersion.toInt,
      "Unsupported API version: \"" ++ apiVersion ++ "\".", some graphTallyRpcApiVersionsInfo⟩

def checkApiVersionDeprecation (apiVersion : GraphTallyRpcApiVersion) : Option JsonRpcWarning :=
  if apiVersion ∈ graphTallyRpcApiVersionsDeprecated then
    some ⟨JsonRpcWarningCode.deprecatedVersion.toInt,
      "The API version " ++ apiVersion.text ++ " will be deprecated. Please check " ++
        "https://github.com/graphprotocol/timeline_aggregation_protocol for more information.",
      some graphTallyRpcApiVersionsInfo⟩
  else none

/-! ## The endpoints -/

structure KafkaRecord where
  topic : String
  key : List UInt8
  payload : List UInt8
  deriving DecidableEq

/-- The key is `{sender:?}:{key_fragment:?}`. -/
def produceKafkaRecords [AlloyText] (sender : Address) (keyFragment : B256)
    (aggregatedValue : U128) : KafkaRecord where
  topic := "gateway_ravs"
  key := toUtf8 ((AlloyText.debug sender.bytes).toList ++
    ':' :: (AlloyText.debug keyFragment.bytes).toList)
  payload := toUtf8 (toDecimal aggregatedValue.toNat)

inductive StatusCode where
  | invalidArgument
  | failedPrecondition
  deriving DecidableEq

structure Status where
  code : StatusCode
  message : String
  deriving DecidableEq

/-- `kafka` says whether a producer is configured. -/
structure RpcImpl (Domain Key : Type) where
  signers : SignerRegistry Key
  domainSeparator : Domain
  kafka : Bool

/-- The values are summed for a counter before anything is checked. -/
def receiptsGrt {ε : Type} (profile : Profile) (receipts : List SignedReceipt) :
    Outcome ε U128 :=
  receipts.foldlM (fun sum receipt ↦ plainAdd profile sum receipt.message.value) 0

section Endpoints

variable {Domain Key : Type} [Alloy Key] [AlloyText]

/-- The record of a RAV that is returned. -/
def RpcImpl.produce (self : RpcImpl Domain Key) (rav : ReceiptAggregateVoucher) :
    List KafkaRecord :=
  if self.kafka then [produceKafkaRecords rav.payer rav.collectionId rav.valueAggregate] else []

variable [SolStruct Domain Receipt] [SolStruct Domain ReceiptAggregateVoucher]

/-- `aggregate_receipts_`. -/
def aggregateReceipts_ (apiVersion : String) (signers : SignerRegistry Key)
    (domainSeparator : Domain) (receipts : List SignedReceipt) (previousRav : Option SignedRav) :
    Except JsonRpcError (JsonRpcResponse SignedRav) :=
  match parseApiVersion apiVersion with
  | .error e => .error e
  | .ok apiVersion =>
    if receipts.isEmpty then
      .error ⟨JsonRpcErrorCode.aggregation.toInt, "Cannot aggregate empty receipt batch", none⟩
    else
      match checkAndAggregateReceipts domainSeparator receipts previousRav signers with
      | .ok res => .ok (.warn res (checkApiVersionDeprecation apiVersion).toList)
      | .error e => .error ⟨JsonRpcErrorCode.aggregation.toInt, e.text, none⟩

/-- The JSON-RPC method. -/
def RpcImpl.aggregateReceipts (profile : Profile) (self : RpcImpl Domain Key) (apiVersion : String)
    (receipts : List SignedReceipt) (previousRav : Option SignedRav) :
    Outcome JsonRpcError (JsonRpcResponse SignedRav) × List KafkaRecord :=
  match (receiptsGrt profile receipts : Outcome JsonRpcError U128) with
  | .error e => (.error e, [])
  | .ok _ =>
    match aggregateReceipts_ apiVersion self.signers self.domainSeparator receipts previousRav with
    | .ok res => (.ok res, self.produce res.data.message)
    | .error e => (.error (.error e), [])

variable [Grpc.SignatureFormat]

/-- The method of the legacy `TapAggregator` service. -/
def TapAggregator.aggregateReceipts (profile : Profile) (self : RpcImpl Domain Key)
    (request : Grpc.V2.RavRequest) : Outcome Status Grpc.V2.RavResponse × List KafkaRecord :=
  match request.receipts.mapM Grpc.V2.SignedReceipt.tryInto with
  | none =>
    (.error (.error ⟨.invalidArgument, "Error while getting list of signed_receipts"⟩), [])
  | some receipts =>
    match request.previousRav.mapM Grpc.V2.SignedRav.tryInto with
    | none => (.error (.error ⟨.invalidArgument, "Error while getting previous rav"⟩), [])
    | some previousRav =>
      match (receiptsGrt profile receipts : Outcome Status U128) with
      | .error e => (.error e, [])
      | .ok _ =>
        match checkAndAggregateReceipts self.domainSeparator receipts previousRav self.signers with
        | .ok res => (.ok ⟨some (.of res)⟩, self.produce res.message)
        | .error e => (.error (.error ⟨.failedPrecondition, e.text⟩), [])

/-- The method of the `GraphTallyAggregator` service. -/
def GraphTallyAggregator.aggregateReceipts (profile : Profile) (self : RpcImpl Domain Key)
    (request : Grpc.RavRequest) : Outcome Status Grpc.RavResponse × List KafkaRecord :=
  match request.receipts.mapM Grpc.SignedReceipt.tryInto with
  | none =>
    (.error (.error ⟨.invalidArgument, "Error while getting list of signed_receipts"⟩), [])
  | some receipts =>
    match request.previousRav.mapM Grpc.SignedRav.tryInto with
    | none => (.error (.error ⟨.invalidArgument, "Error while getting previous rav"⟩), [])
    | some previousRav =>
      match (receiptsGrt profile receipts : Outcome Status U128) with
      | .error e => (.error e, [])
      | .ok _ =>
        match checkAndAggregateReceipts self.domainSeparator receipts previousRav self.signers with
        | .ok res => (.ok ⟨some (.of res)⟩, self.produce res.message)
        | .error e => (.error (.error ⟨.failedPrecondition, e.text⟩), [])

/-- A call of one of the endpoints that returned `rav` and wrote `records`. -/
inductive RpcImpl.Returns (profile : Profile) (self : RpcImpl Domain Key)
    (rav : ReceiptAggregateVoucher) (records : List KafkaRecord) : Prop
  | rpc (apiVersion : String) (receipts : List SignedReceipt) (previousRav : Option SignedRav)
      (response : JsonRpcResponse SignedRav) :
      self.aggregateReceipts profile apiVersion receipts previousRav = (.ok response, records) →
      response.data.message = rav → Returns profile self rav records
  | tapAggregator (request : Grpc.V2.RavRequest) (response : Grpc.V2.RavResponse)
      (signed : SignedRav) :
      TapAggregator.aggregateReceipts profile self request = (.ok response, records) →
      response.rav = some (.of signed) → signed.message = rav → Returns profile self rav records
  | graphTallyAggregator (request : Grpc.RavRequest) (response : Grpc.RavResponse)
      (signed : SignedRav) :
      GraphTallyAggregator.aggregateReceipts profile self request = (.ok response, records) →
      response.rav = some (.of signed) → signed.message = rav → Returns profile self rav records

end Endpoints

/-! ## What the endpoints have in common -/

section Returns

variable {Domain Key : Type} [Alloy Key] [AlloyText] [SolStruct Domain Receipt]
  [SolStruct Domain ReceiptAggregateVoucher] {profile : Profile} {self : RpcImpl Domain Key}
  {records : List KafkaRecord}

-- The API version and the counter decide only whether there is an answer, not which one.
theorem RpcImpl.aggregateReceipts_ok {apiVersion : String} {receipts : List SignedReceipt}
    {previousRav : Option SignedRav} {response : JsonRpcResponse SignedRav}
    (h : self.aggregateReceipts profile apiVersion receipts previousRav =
      (.ok response, records)) :
    checkAndAggregateReceipts self.domainSeparator receipts previousRav self.signers =
        .ok response.data ∧ records = self.produce response.data.message := by
  unfold RpcImpl.aggregateReceipts at h
  split at h
  · cases h
  · split at h
    · rename_i res hres
      obtain ⟨hresponse, rfl⟩ := Prod.mk.inj h
      obtain rfl := Except.ok.inj hresponse
      refine ⟨?_, rfl⟩
      unfold aggregateReceipts_ at hres
      split at hres
      · cases hres
      · split at hres
        · cases hres
        · split at hres
          · rename_i signed hsigned
            obtain rfl := Except.ok.inj hres
            exact hsigned
          · cases hres
    · cases h

/-- Some batch was aggregated to the RAV, and its record is the only one. -/
def RpcImpl.Produced (self : RpcImpl Domain Key) (rav : ReceiptAggregateVoucher)
    (records : List KafkaRecord) : Prop :=
  records = self.produce rav ∧ ∃ receipts previousRav signed,
    checkAndAggregateReceipts self.domainSeparator receipts previousRav self.signers =
      .ok signed ∧ signed.message = rav

variable [Grpc.SignatureFormat]

-- What a request is read as is what is aggregated.
theorem GraphTallyAggregator.aggregateReceipts_ok {request : Grpc.RavRequest}
    {response : Grpc.RavResponse}
    (h : GraphTallyAggregator.aggregateReceipts profile self request = (.ok response, records)) :
    ∃ receipts previousRav signed,
      request.receipts.mapM Grpc.SignedReceipt.tryInto = some receipts ∧
      request.previousRav.mapM Grpc.SignedRav.tryInto = some previousRav ∧
      checkAndAggregateReceipts self.domainSeparator receipts previousRav self.signers =
        .ok signed ∧ response.rav = some (.of signed) ∧ records = self.produce signed.message := by
  unfold GraphTallyAggregator.aggregateReceipts at h
  split at h
  · cases h
  · rename_i receipts hreceipts
    split at h
    · cases h
    · rename_i previousRav hprevious
      split at h
      · cases h
      · split at h
        · rename_i signed hsigned
          obtain ⟨hresponse, rfl⟩ := Prod.mk.inj h
          obtain rfl := Except.ok.inj hresponse
          exact ⟨receipts, previousRav, signed, hreceipts, hprevious, hsigned, rfl, rfl⟩
        · cases h

/-- The legacy service answers as the current one does, in the messages of its own package. -/
theorem TapAggregator.aggregateReceipts_current (profile : Profile) (self : RpcImpl Domain Key)
    (request : Grpc.V2.RavRequest) :
    GraphTallyAggregator.aggregateReceipts profile self request.current =
      ((TapAggregator.aggregateReceipts profile self request).1.map (·.current),
        (TapAggregator.aggregateReceipts profile self request).2) := by
  unfold GraphTallyAggregator.aggregateReceipts TapAggregator.aggregateReceipts
  rw [request.receipts_current, request.previousRav_current]
  rcases request.current.receipts.mapM Grpc.SignedReceipt.tryInto with _ | receipts
  · rfl
  rcases request.current.previousRav.mapM Grpc.SignedRav.tryInto with _ | previousRav
  · rfl
  dsimp only
  rcases (receiptsGrt profile receipts : Outcome Status U128) with e | total
  · rfl
  dsimp only
  rcases checkAndAggregateReceipts self.domainSeparator receipts previousRav self.signers
    with e | signed <;> rfl

theorem TapAggregator.aggregateReceipts_ok {request : Grpc.V2.RavRequest}
    {response : Grpc.V2.RavResponse}
    (h : TapAggregator.aggregateReceipts profile self request = (.ok response, records)) :
    ∃ receipts previousRav signed,
      request.receipts.mapM Grpc.V2.SignedReceipt.tryInto = some receipts ∧
      request.previousRav.mapM Grpc.V2.SignedRav.tryInto = some previousRav ∧
      checkAndAggregateReceipts self.domainSeparator receipts previousRav self.signers =
        .ok signed ∧ response.rav = some (.of signed) ∧ records = self.produce signed.message := by
  have hcurrent := TapAggregator.aggregateReceipts_current profile self request
  rw [h] at hcurrent
  obtain ⟨receipts, previousRav, signed, hreceipts, hprevious, hsigned, hresponse, hrecords⟩ :=
    GraphTallyAggregator.aggregateReceipts_ok hcurrent
  rw [← request.receipts_current] at hreceipts
  rw [← request.previousRav_current] at hprevious
  refine ⟨receipts, previousRav, signed, hreceipts, hprevious, hsigned, ?_, hrecords⟩
  exact Option.map_injective (fun _ _ ↦ Grpc.V2.SignedRav.current_injective) hresponse

/-- Whatever the endpoint, a returned RAV passed the checks and its record was written. -/
theorem RpcImpl.Returns.produced {rav : ReceiptAggregateVoucher}
    (h : self.Returns profile rav records) : self.Produced rav records := by
  cases h with
  | rpc apiVersion receipts previousRav response hresult hmessage =>
    obtain ⟨hsigned, hrecords⟩ := RpcImpl.aggregateReceipts_ok hresult
    subst hmessage
    exact ⟨hrecords, receipts, previousRav, response.data, hsigned, rfl⟩
  | tapAggregator request response signed hresult hresponse hmessage =>
    obtain ⟨receipts, previousRav, signed', -, -, hsigned, hresponse', hrecords⟩ :=
      TapAggregator.aggregateReceipts_ok hresult
    have hsame : signed'.message = signed.message :=
      Grpc.V2.SignedRav.of_message (Option.some_inj.mp (hresponse'.symm.trans hresponse))
    rw [hmessage] at hsame
    exact ⟨hsame ▸ hrecords, receipts, previousRav, signed', hsigned, hsame⟩
  | graphTallyAggregator request response signed hresult hresponse hmessage =>
    obtain ⟨receipts, previousRav, signed', -, -, hsigned, hresponse', hrecords⟩ :=
      GraphTallyAggregator.aggregateReceipts_ok hresult
    have hsame : signed'.message = signed.message :=
      Grpc.SignedRav.of_message (Option.some_inj.mp (hresponse'.symm.trans hresponse))
    rw [hmessage] at hsame
    exact ⟨hsame ▸ hrecords, receipts, previousRav, signed', hsigned, hsame⟩

end Returns

end GraphTally
