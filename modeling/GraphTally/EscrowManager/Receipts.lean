import GraphTally.Eip712Message
import GraphTally.Theory.Interleaving
import GraphTally.Theory.Loop
import GraphTally.Theory.MachineWord
import GraphTally.Theory.Text
import Mathlib.Data.List.AList

/-!
# The receipts consumer

`receipts`: the loop over the aggregated topic that fills the DB before the realtime topic is read.
-/

open GraphTally.Theory

namespace GraphTally.EscrowManager

/-! ## The records -/

/-- The bits of an `f64`. -/
abbrev F64 := BitVec 64

/-- Both addresses are 20 bytes. -/
structure IndexerFeesProtobuf where
  signer : List UInt8
  receiver : List UInt8
  feeGrt : F64
  deriving DecidableEq

structure IndexerFeesHourlyProtobuf where
  timestamp : Int
  aggregations : List IndexerFeesProtobuf
  deriving DecidableEq

structure Update (DateTime : Type) where
  timestamp : DateTime
  indexer : Address
  fee : U128
  deriving DecidableEq

/-- A message of a topic, as far as the consumer reads it. -/
structure TopicMessage where
  topic : String
  partition : Int
  offset : Int
  payload : Option (List UInt8)
  deriving DecidableEq

def TopicMessage.partitionKey (msg : TopicMessage) : String :=
  msg.topic ++ "/" ++ toString msg.partition

/-- The functions of `prost` and `chrono` the consumer calls, and its conversion of a fee to wei. -/
class FeeFormat (DateTime : outParam Type) where
  decode : List UInt8 → Except String IndexerFeesHourlyProtobuf
  fromTimestampMillis : Int → Option DateTime
  toWei : F64 → U128

/-- `from_slice`, with no result where it panics. -/
def fromSlice (bytes : List UInt8) : Option Address :=
  if h : bytes.length = 20 then some ⟨bytes, h⟩ else none

/-! ## The loop -/

structure Bootstrap (DateTime : Type) where
  latestAggregatedOffsets : AList fun _ : String ↦ Int
  latestAggregatedTimestamp : Int
  sent : List (Update DateTime)

/-- The key of each latest message with its offset, collected into a map. -/
def latestOffsets (latestAggregatedMessages : List TopicMessage) : AList fun _ : String ↦ Int :=
  latestAggregatedMessages.foldl (fun offsets msg ↦ offsets.insert msg.partitionKey msg.offset) ∅

/-- The configured cutoff is later than the timestamp. -/
def isIgnored (aggregatedCutoffTimestamp : Option Int) (timestamp : Int) : Bool :=
  match aggregatedCutoffTimestamp with
  | none => false
  | some cutoff => timestamp < cutoff

/-- The exit bookkeeping at the end of the body. -/
def checkOffset {DateTime : Type} (msg : TopicMessage) (self : Bootstrap DateTime) :
    Outcome String (Bootstrap DateTime ⊕ Bootstrap DateTime) :=
  match self.latestAggregatedOffsets.lookup msg.partitionKey with
  | none => .error .panic
  | some latest =>
    if latest = msg.offset then
      let offsets := self.latestAggregatedOffsets.erase msg.partitionKey
      if offsets.entries.isEmpty then .ok (.inr { self with latestAggregatedOffsets := offsets })
      else .ok (.inl { self with latestAggregatedOffsets := offsets })
    else .ok (.inl self)

variable {DateTime : Type} [FeeFormat DateTime]

/-- The inner loop: a fee of another signer is skipped.  Sending cannot fail: the task that keeps
the debts, and holds the other end of the channel, is taken to be alive. -/
def sendFees (signers : List Address) (timestamp : Int) (sent : List (Update DateTime)) :
    List IndexerFeesProtobuf → Outcome String (List (Update DateTime))
  | [] => .ok sent
  | aggregation :: aggregations =>
    match fromSlice aggregation.signer with
    | none => .error .panic
    | some signer =>
      if signers.contains signer then
        match FeeFormat.fromTimestampMillis timestamp with
        | none => .error (.error "timestamp out of range")
        | some time =>
          match fromSlice aggregation.receiver with
          | none => .error .panic
          | some indexer =>
            sendFees signers timestamp
              (sent ++ [⟨time, indexer, FeeFormat.toWei aggregation.feeGrt⟩]) aggregations
      else sendFees signers timestamp sent aggregations

/-- The body of the loop. -/
def aggregatedTurn (aggregatedCutoffTimestamp : Option Int) (signers : List Address)
    (self : Bootstrap DateTime) (item : Except String TopicMessage) :
    Outcome String (Bootstrap DateTime ⊕ Bootstrap DateTime) :=
  match item with
  | .error e => .error (.error e)
  | .ok msg =>
    match msg.payload with
    | none => .error (.error
        ("missing payload at " ++ msg.partitionKey ++ " " ++ toString msg.offset))
    | some payload =>
      match FeeFormat.decode payload with
      | .error e => .error (.error e)
      | .ok fees =>
        let latest := max self.latestAggregatedTimestamp fees.timestamp
        -- this `continue` goes past the bookkeeping
        if isIgnored aggregatedCutoffTimestamp fees.timestamp then
          .ok (.inl { self with latestAggregatedTimestamp := latest })
        else
          match sendFees signers fees.timestamp self.sent fees.aggregations with
          | .error e => .error e
          | .ok sent => checkOffset msg { self with latestAggregatedTimestamp := latest, sent }

/-- The loop, for the items the stream has delivered so far. -/
def aggregatedLoop (aggregatedCutoffTimestamp : Option Int) (signers : List Address)
    (latestAggregatedMessages : List TopicMessage) (stream : List (Except String TopicMessage)) :
    Outcome String (Standing (Bootstrap DateTime) (Except String TopicMessage)) :=
  streamLoop (aggregatedTurn aggregatedCutoffTimestamp signers)
    ⟨latestOffsets latestAggregatedMessages, 0, []⟩ stream

/-! ## The topic -/

/-- A partition's messages in the order of their offsets. -/
structure Partition (topic : String) where
  number : Int
  messages : List TopicMessage
  origin : ∀ msg ∈ messages, msg.topic = topic ∧ msg.partition = number
  ordered : messages.Pairwise fun a b ↦ a.offset < b.offset

theorem Partition.le_last {topic : String} (partition : Partition topic) {msg last : TopicMessage}
    (hlast : partition.messages.getLast? = some last) (hmsg : msg ∈ partition.messages) :
    msg.offset ≤ last.offset := by
  rcases List.getLast?_eq_some_iff.mp hlast with ⟨before, hbefore⟩
  have hordered := partition.ordered
  rw [hbefore, List.pairwise_append] at hordered
  rw [hbefore, List.mem_append] at hmsg
  rcases hmsg with hmsg | hmsg
  · exact (hordered.2.2 msg hmsg last List.mem_cons_self).le
  · rw [List.mem_singleton.mp hmsg]

structure Topic where
  name : String
  partitions : List (Partition name)
  distinct : (partitions.map (·.number)).Nodup

namespace Topic

/-- The last message of each partition that has one, in any order. -/
def ReportsLatest (topic : Topic) (latest : List TopicMessage) : Prop :=
  ∀ msg, msg ∈ latest ↔ ∃ partition ∈ topic.partitions, partition.messages.getLast? = some msg

theorem reportsLatest_lasts (topic : Topic) :
    topic.ReportsLatest (topic.partitions.filterMap (·.messages.getLast?)) :=
  fun _ ↦ List.mem_filterMap

def queues (topic : Topic) : List (Int × List TopicMessage) :=
  topic.partitions.map fun partition ↦ (partition.number, partition.messages)

/-- Each partition's messages arrive in offset order, and nothing beyond its latest offset. -/
def Delivers (topic : Topic) (arrivals : List TopicMessage) : Prop :=
  Interleaves (·.partition) topic.queues arrivals

end Topic

/-! ## What the loop is for -/

def TopicMessage.hourly (msg : TopicMessage) : Option IndexerFeesHourlyProtobuf :=
  match msg.payload with
  | none => none
  | some payload => (FeeFormat.decode payload).toOption

/-- The message decodes to a timestamp in range and to addresses of 20 bytes. -/
structure Decodes (msg : TopicMessage) (fees : IndexerFeesHourlyProtobuf) : Prop where
  hourly : msg.hourly = some fees
  timestamp : (FeeFormat.fromTimestampMillis fees.timestamp).isSome
  addresses : ∀ aggregation ∈ fees.aggregations,
    aggregation.signer.length = 20 ∧ aggregation.receiver.length = 20

/-- The message is older than the cutoff. -/
def Ignored (cutoff : Option Int) (msg : TopicMessage) : Prop :=
  ∃ fees, msg.hourly = some fees ∧ isIgnored cutoff fees.timestamp = true

/-- The update for a fee, unless its signer is not accepted. -/
def feeUpdate (signers : List Address) (timestamp : Int) (aggregation : IndexerFeesProtobuf) :
    Option (Update DateTime) :=
  match fromSlice aggregation.signer, FeeFormat.fromTimestampMillis timestamp,
      fromSlice aggregation.receiver with
  | some signer, some time, some indexer =>
    if signers.contains signer then some ⟨time, indexer, FeeFormat.toWei aggregation.feeGrt⟩
    else none
  | _, _, _ => none

/-- The fees of accepted signers in a message, none when it is older than the cutoff. -/
def acceptedFees (cutoff : Option Int) (signers : List Address) (msg : TopicMessage) :
    List (Update DateTime) :=
  match msg.hourly with
  | none => []
  | some fees =>
    if isIgnored cutoff fees.timestamp then []
    else fees.aggregations.filterMap (feeUpdate signers fees.timestamp)

def Topic.acceptedFees (topic : Topic) (cutoff : Option Int) (signers : List Address) :
    List (Update DateTime) :=
  topic.partitions.flatMap fun partition ↦
    partition.messages.flatMap (EscrowManager.acceptedFees cutoff signers)

/-- The loop leaves at the last of the arrivals, and each accepted fee was sent once. -/
def Finishes (cutoff : Option Int) (signers : List Address) (latest : List TopicMessage)
    (topic : Topic) (arrivals : List TopicMessage) : Prop :=
  ∃ after, aggregatedLoop cutoff signers latest (arrivals.map .ok) = .ok (.left after []) ∧
    after.sent.Perm (topic.acceptedFees cutoff signers)

/-! ## One message -/

theorem fromSlice_of_length {bytes : List UInt8} (h : bytes.length = 20) :
    fromSlice bytes = some ⟨bytes, h⟩ := dif_pos h

theorem sendFees_eq {signers : List Address} {timestamp : Int}
    (htime : (FeeFormat.fromTimestampMillis timestamp).isSome)
    {aggregations : List IndexerFeesProtobuf}
    (haddresses : ∀ aggregation ∈ aggregations,
      aggregation.signer.length = 20 ∧ aggregation.receiver.length = 20)
    (sent : List (Update DateTime)) :
    sendFees signers timestamp sent aggregations =
      .ok (sent ++ aggregations.filterMap (feeUpdate signers timestamp)) := by
  rcases Option.isSome_iff_exists.mp htime with ⟨time, htime⟩
  induction aggregations generalizing sent with
  | nil => rw [List.filterMap_nil, List.append_nil, sendFees]
  | cons aggregation aggregations ih =>
    rcases List.forall_mem_cons.mp haddresses with ⟨⟨hsigner, hreceiver⟩, hrest⟩
    rw [sendFees, fromSlice_of_length hsigner, htime, fromSlice_of_length hreceiver]
    dsimp only
    by_cases haccepted : signers.contains ⟨aggregation.signer, hsigner⟩ = true
    · have hupdate : feeUpdate signers timestamp aggregation =
          some ⟨time, ⟨aggregation.receiver, hreceiver⟩,
            FeeFormat.toWei aggregation.feeGrt⟩ := by
        rw [feeUpdate, fromSlice_of_length hsigner, htime, fromSlice_of_length hreceiver]
        exact if_pos haccepted
      rw [if_pos haccepted, ih hrest, List.filterMap_cons_some hupdate, List.append_assoc,
        List.singleton_append]
    · have hskipped :
          (feeUpdate signers timestamp aggregation : Option (Update DateTime)) = none := by
        rw [feeUpdate, fromSlice_of_length hsigner, htime, fromSlice_of_length hreceiver]
        exact if_neg haccepted
      rw [if_neg haccepted, ih hrest, List.filterMap_cons_none hskipped]

theorem hourly_eq_some {msg : TopicMessage} {fees : IndexerFeesHourlyProtobuf}
    (h : msg.hourly = some fees) :
    ∃ payload, msg.payload = some payload ∧ FeeFormat.decode payload = .ok fees := by
  unfold TopicMessage.hourly at h
  cases hpayload : msg.payload with
  | none =>
    rw [hpayload] at h
    cases h
  | some payload =>
    rw [hpayload] at h
    dsimp only at h
    cases hdecode : FeeFormat.decode payload with
    | error e =>
      rw [hdecode] at h
      cases h
    | ok decoded =>
      rw [hdecode] at h
      refine ⟨payload, rfl, ?_⟩
      rw [hdecode, Option.some_inj.mp h]

/-- The body of the loop, for a message that decodes. -/
theorem aggregatedTurn_hourly {msg : TopicMessage} {fees : IndexerFeesHourlyProtobuf}
    (hfees : msg.hourly = some fees) (cutoff : Option Int) (signers : List Address)
    (self : Bootstrap DateTime) :
    aggregatedTurn cutoff signers self (.ok msg) =
      if isIgnored cutoff fees.timestamp then
        .ok (.inl { self with
          latestAggregatedTimestamp := max self.latestAggregatedTimestamp fees.timestamp })
      else sendFees signers fees.timestamp self.sent fees.aggregations >>= fun sent ↦
        checkOffset msg { self with
          latestAggregatedTimestamp := max self.latestAggregatedTimestamp fees.timestamp
          sent } := by
  rcases hourly_eq_some hfees with ⟨payload, hpayload, hdecode⟩
  unfold aggregatedTurn
  dsimp only
  rw [hpayload]
  dsimp only
  rw [hdecode]
  dsimp only
  congr 1
  cases sendFees signers fees.timestamp self.sent fees.aggregations with
  | error e => rfl
  | ok sent => rfl

/-- An older message only moves the timestamp. -/
theorem aggregatedTurn_ignored {cutoff : Option Int} {msg : TopicMessage}
    (hignored : Ignored cutoff msg) (signers : List Address) (self : Bootstrap DateTime) :
    ∃ latest, aggregatedTurn cutoff signers self (.ok msg) =
      .ok (.inl { self with latestAggregatedTimestamp := latest }) := by
  rcases hignored with ⟨fees, hfees, hold⟩
  refine ⟨max self.latestAggregatedTimestamp fees.timestamp, ?_⟩
  rw [aggregatedTurn_hourly hfees, if_pos hold]

/-- Any other message is sent before the bookkeeping. -/
theorem aggregatedTurn_counted {cutoff : Option Int} {msg : TopicMessage}
    {fees : IndexerFeesHourlyProtobuf} (hdecodes : Decodes msg fees) (hnew : ¬Ignored cutoff msg)
    (signers : List Address) (self : Bootstrap DateTime) :
    ∃ latest, aggregatedTurn cutoff signers self (.ok msg) =
      checkOffset msg { self with
        latestAggregatedTimestamp := latest
        sent := self.sent ++ acceptedFees cutoff signers msg } := by
  have hcounted : ¬isIgnored cutoff fees.timestamp = true :=
    fun hold ↦ hnew ⟨fees, hdecodes.hourly, hold⟩
  refine ⟨max self.latestAggregatedTimestamp fees.timestamp, ?_⟩
  rw [aggregatedTurn_hourly hdecodes.hourly, if_neg hcounted,
    sendFees_eq hdecodes.timestamp hdecodes.addresses]
  unfold acceptedFees
  rw [hdecodes.hourly]
  dsimp only
  rw [if_neg hcounted]
  rfl

theorem acceptedFees_ignored {cutoff : Option Int} {msg : TopicMessage}
    (hignored : Ignored cutoff msg) (signers : List Address) :
    (acceptedFees cutoff signers msg : List (Update DateTime)) = [] := by
  rcases hignored with ⟨fees, hfees, hold⟩
  unfold acceptedFees
  rw [hfees]
  exact if_pos hold

end GraphTally.EscrowManager
