import GraphTally.EscrowManager.Bootstrap
import GraphTally.Theory.Concurrent

/-!
# The realtime consumer

`receipts::process_messages`: the queries of the realtime topic, sixteen messages at a time, and
the fields of a message that end the task.
-/

open GraphTally.Theory

namespace GraphTally.EscrowManager

/-! ## The records -/

/-- The indexer is 20 bytes. -/
structure IndexerQueryProtobuf where
  indexer : List UInt8
  feeGrt : F64
  deriving DecidableEq

/-- The signer is 20 bytes. -/
structure ClientQueryProtobuf where
  receiptSigner : List UInt8
  indexerQueries : List IndexerQueryProtobuf
  deriving DecidableEq

/-- The functions of `prost` and `chrono` that are called for a query. -/
class QueryFormat (DateTime : outParam Type) where
  decodeQuery : List UInt8 → Except String ClientQueryProtobuf
  fromTimestamp : (seconds : Int) → (nanoseconds : U32) → Option DateTime

/-- A message of the realtime topic: its timestamp in milliseconds, if the broker gave it one. -/
structure RealtimeMessage where
  timestamp : Option Int
  payload : Option (List UInt8)
  deriving DecidableEq

/-- What the stream yields, with the clock as it is when that is handled. -/
structure Received (DateTime : Type) where
  message : Except String RealtimeMessage
  now : DateTime

/-! ## The timestamp -/

section Timestamp

variable {DateTime : Type} [QueryFormat DateTime]

/-- The milliseconds of a negative timestamp are cast to a large number. -/
def messageTimestamp (profile : Profile) (timestamp : Option Int) (now : DateTime) :
    Outcome Empty DateTime :=
  match timestamp with
  | none => .ok now
  | some t =>
    match (plainMul profile (BitVec.ofInt 32 (t.tmod 1000)) 1000 : Outcome Empty U32) with
    | .error e => .error e
    | .ok nanoseconds => .ok ((QueryFormat.fromTimestamp (t.tdiv 1000) nanoseconds).getD now)

/-- A debug build traps the cast milliseconds of a timestamp before 1970. -/
def TimestampFits (profile : Profile) (timestamp : Option Int) : Prop :=
  profile = .debug → ∀ t ∈ timestamp, 0 ≤ t ∨ t.tmod 1000 = 0

-- The cast of a negative number of milliseconds is too large for the product to fit.
theorem millis_overflow_iff (t : Int) :
    2 ^ 32 ≤ (BitVec.ofInt 32 (t.tmod 1000)).toNat * (1000 : U32).toNat ↔
      t < 0 ∧ t.tmod 1000 ≠ 0 := by
  have hthousand : (1000 : U32).toNat = 1000 := rfl
  have hless : t.tmod 1000 < 1000 := Int.tmod_lt_of_pos t (by decide)
  have hmore : -1000 < t.tmod 1000 := Int.lt_tmod_of_pos t (by decide)
  rw [BitVec.toNat_ofInt, hthousand]
  by_cases hnonneg : 0 ≤ t
  · have hrest : 0 ≤ t.tmod 1000 := Int.tmod_nonneg 1000 hnonneg
    omega
  · have hrest : t.tmod 1000 ≤ 0 := by
      have hneg := Int.tmod_nonneg 1000 (show 0 ≤ -t by omega)
      rw [Int.neg_tmod] at hneg
      omega
    omega

theorem messageTimestamp_cases (profile : Profile) (timestamp : Option Int) (now : DateTime) :
    (TimestampFits profile timestamp ∧
        ∃ time, messageTimestamp profile timestamp now = .ok time) ∨
      (¬TimestampFits profile timestamp ∧
        messageTimestamp profile timestamp now = .error .panic) := by
  cases timestamp with
  | none =>
    refine .inl ⟨?_, now, rfl⟩
    rintro - t ⟨⟩
  | some t =>
    unfold TimestampFits messageTimestamp
    simp only [Option.mem_some_iff, forall_eq']
    cases hmul : (plainMul profile (BitVec.ofInt 32 (t.tmod 1000)) 1000 : Outcome Empty U32) with
    | ok nanoseconds =>
      refine .inl ⟨?_, _, rfl⟩
      intro hdebug
      have hfits : ¬(t < 0 ∧ t.tmod 1000 ≠ 0) := by
        rw [← millis_overflow_iff]
        intro hoverflow
        rw [plainMul_eq_panic.mpr ⟨hdebug, hoverflow⟩] at hmul
        cases hmul
      omega
    | error failure =>
      rcases failure with ⟨⟨⟩⟩ | _
      rcases plainMul_eq_panic.mp hmul with ⟨hdebug, hoverflow⟩
      rw [millis_overflow_iff] at hoverflow
      refine .inr ⟨?_, rfl⟩
      intro hfits
      have hmillis := hfits hdebug
      omega

end Timestamp

/-! ## A decoded query -/

section Query

variable {DateTime : Type} [FeeFormat DateTime]

/-- One turn of the loop over the indexer queries. -/
def queryUpdate (timestamp : DateTime) (query : IndexerQueryProtobuf) :
    Outcome Empty (Update DateTime) :=
  match fromSlice query.indexer with
  | none => .error .panic
  | some indexer => .ok ⟨timestamp, indexer, FeeFormat.toWei query.feeGrt⟩

/-- What is sent for a decoded query. -/
def sendQuery (signers : List Address) (timestamp : DateTime) (query : ClientQueryProtobuf) :
    List (Outcome Empty (Update DateTime)) :=
  match fromSlice query.receiptSigner with
  | none => [.error .panic]
  | some signer =>
    if signers.contains signer then query.indexerQueries.map (queryUpdate timestamp) else []

/-- The update for an indexer query. -/
def IsUpdateOf (update : Update DateTime) (query : IndexerQueryProtobuf) : Prop :=
  update.indexer.bytes = query.indexer ∧ update.fee = FeeFormat.toWei query.feeGrt

def FromAccepted (signers : List Address) (query : ClientQueryProtobuf) : Prop :=
  ∃ signer ∈ signers, signer.bytes = query.receiptSigner

/-- The addresses that the handler converts are 20 bytes long. -/
def HasAddresses (signers : List Address) (query : ClientQueryProtobuf) : Prop :=
  query.receiptSigner.length = 20 ∧
    (FromAccepted signers query →
      ∀ indexerQuery ∈ query.indexerQueries, indexerQuery.indexer.length = 20)

theorem fromSlice_of_length_ne {bytes : List UInt8} (h : bytes.length ≠ 20) :
    fromSlice bytes = none := dif_neg h

theorem fromAccepted_iff {signers : List Address} {query : ClientQueryProtobuf}
    (h : query.receiptSigner.length = 20) :
    FromAccepted signers query ↔ signers.contains ⟨query.receiptSigner, h⟩ = true := by
  rw [List.contains_iff_mem]
  constructor
  · rintro ⟨signer, hsigner, hbytes⟩
    have hsame : signer = ⟨query.receiptSigner, h⟩ := FixedBytes.ext hbytes
    rwa [← hsame]
  · intro hsigner
    exact ⟨_, hsigner, rfl⟩

/-- The loop over the indexer queries sends an update for each, or panics at some. -/
theorem queryUpdates_cases (timestamp : DateTime) (queries : List IndexerQueryProtobuf) :
    ((∀ query ∈ queries, query.indexer.length = 20) ∧ ∃ updates,
        queries.map (queryUpdate timestamp) = updates.map .ok ∧
          List.Forall₂ IsUpdateOf updates queries) ∨
      ((∃ query ∈ queries, query.indexer.length ≠ 20) ∧
        .error .panic ∈ queries.map (queryUpdate timestamp)) := by
  induction queries with
  | nil => exact .inl ⟨fun _ h ↦ absurd h List.not_mem_nil, [], rfl, .nil⟩
  | cons query queries ih =>
    by_cases hlength : query.indexer.length = 20
    · let update : Update DateTime :=
        ⟨timestamp, ⟨query.indexer, hlength⟩, FeeFormat.toWei query.feeGrt⟩
      have hupdate : queryUpdate timestamp query = .ok update := by
        rw [queryUpdate, fromSlice_of_length hlength]
      rcases ih with ⟨hlengths, updates, hmap, hupdates⟩ | ⟨⟨other, hother, hwrong⟩, hpanic⟩
      · refine .inl ⟨List.forall_mem_cons.mpr ⟨hlength, hlengths⟩, update :: updates, ?_, ?_⟩
        · rw [List.map_cons, List.map_cons, hupdate, hmap]
        · exact .cons ⟨rfl, rfl⟩ hupdates
      · exact .inr ⟨⟨other, List.mem_cons_of_mem _ hother, hwrong⟩,
          List.mem_cons_of_mem _ hpanic⟩
    · refine .inr ⟨⟨query, List.mem_cons_self, hlength⟩, ?_⟩
      have hpanic : queryUpdate timestamp query = .error .panic := by
        rw [queryUpdate, fromSlice_of_length_ne hlength]
      rw [List.map_cons, hpanic]
      exact List.mem_cons_self

/-- A decoded query is ignored or answered in full, or it makes the handler panic. -/
theorem sendQuery_cases (signers : List Address) (timestamp : DateTime)
    (query : ClientQueryProtobuf) :
    (HasAddresses signers query ∧ ∃ updates, sendQuery signers timestamp query = updates.map .ok ∧
        ((updates = [] ∧ ¬FromAccepted signers query) ∨
          List.Forall₂ IsUpdateOf updates query.indexerQueries)) ∨
      (¬HasAddresses signers query ∧ .error .panic ∈ sendQuery signers timestamp query) := by
  unfold sendQuery HasAddresses
  by_cases hlength : query.receiptSigner.length = 20
  · rw [fromSlice_of_length hlength]
    dsimp only
    rw [fromAccepted_iff hlength]
    by_cases haccepted : signers.contains ⟨query.receiptSigner, hlength⟩ = true
    · rw [if_pos haccepted]
      rcases queryUpdates_cases timestamp query.indexerQueries with
        ⟨hlengths, updates, hmap, hupdates⟩ | ⟨⟨other, hother, hwrong⟩, hpanic⟩
      · exact .inl ⟨⟨hlength, fun _ ↦ hlengths⟩, updates, hmap, .inr hupdates⟩
      · exact .inr ⟨fun h ↦ hwrong (h.2 haccepted other hother), hpanic⟩
    · rw [if_neg haccepted]
      exact .inl ⟨⟨hlength, fun h ↦ absurd h haccepted⟩, [], rfl, .inl ⟨rfl, haccepted⟩⟩
  · rw [fromSlice_of_length_ne hlength]
    exact .inr ⟨fun h ↦ hlength h.1, List.mem_cons_self⟩

end Query

/-! ## What a message may look like -/

section Message

variable {DateTime : Type} [QueryFormat DateTime]

/-- The query a message carries. -/
def Received.query (received : Received DateTime) : Option ClientQueryProtobuf :=
  match received.message with
  | .error _ => none
  | .ok msg => msg.payload.bind fun payload ↦ (QueryFormat.decodeQuery payload).toOption

/-- The fields of the message are as its comments say, as far as the handler reads them. -/
def WellFormed (profile : Profile) (signers : List Address) (received : Received DateTime) :
    Prop :=
  ∀ msg, received.message = .ok msg → msg.payload ≠ none →
    TimestampFits profile msg.timestamp ∧
      ∀ query, received.query = some query → HasAddresses signers query

theorem wellFormed_payload_iff {profile : Profile} {signers : List Address}
    {timestamp : Option Int} {payload : List UInt8} {now : DateTime} :
    WellFormed profile signers ⟨.ok ⟨timestamp, some payload⟩, now⟩ ↔
      TimestampFits profile timestamp ∧
        ∀ query, (QueryFormat.decodeQuery payload).toOption = some query →
          HasAddresses signers query := by
  constructor
  · intro h
    exact h _ rfl (Option.some_ne_none payload)
  · rintro h msg ⟨⟩ -
    exact h

end Message

/-! ## The handler -/

variable {DateTime : Type} [FeeFormat DateTime] [QueryFormat DateTime]

/-- What the handler sends for a message, up to where it panics.  The loop awaits each send, so
other messages may be handled in between. -/
def queryActions (profile : Profile) (signers : List Address) (received : Received DateTime) :
    List (Outcome Empty (Update DateTime)) :=
  match received.message with
  | .error _ => []
  | .ok msg =>
    match msg.payload with
    | none => []
    | some payload =>
      match messageTimestamp profile msg.timestamp received.now with
      | .error e => [.error e]
      | .ok timestamp =>
        match QueryFormat.decodeQuery payload with
        | .error _ => []
        | .ok query => sendQuery signers timestamp query

/-- The channel to the DB takes the updates in the order they are sent. -/
def realtimeConsumer (profile : Profile) (signers : List Address) :
    Handler (Received DateTime) (Outcome Empty (Update DateTime)) (List (Update DateTime)) where
  limit := 16
  actions := queryActions profile signers
  act sent action := action.map fun update ↦ sent ++ [update]

/-! ## What becomes of a message -/

/-- The message carries a query of an accepted signer, and each indexer in it is an address. -/
def Countable (signers : List Address) (received : Received DateTime)
    (query : ClientQueryProtobuf) : Prop :=
  received.query = some query ∧ FromAccepted signers query ∧
    ∀ indexerQuery ∈ query.indexerQueries, indexerQuery.indexer.length = 20

/-- The handler ignores a message that is not to be counted, or it sends one update for each of the
message's indexer queries. -/
def HandlesQuery (profile : Profile) (signers : List Address) (received : Received DateTime) :
    Prop :=
  ∃ updates : List (Update DateTime),
    queryActions profile signers received = updates.map .ok ∧
      ((updates = [] ∧ ∀ query, ¬Countable signers received query) ∨
        ∃ query, received.query = some query ∧
          List.Forall₂ IsUpdateOf updates query.indexerQueries)

/-! ## One message -/

/-- A message without a query is ignored. -/
theorem handlesQuery_of_none {profile : Profile} {signers : List Address}
    {received : Received DateTime} (hquery : received.query = none)
    (hactions : queryActions profile signers received = []) :
    HandlesQuery profile signers received := by
  refine ⟨[], hactions, .inl ⟨rfl, ?_⟩⟩
  rintro query ⟨hsome, -⟩
  rw [hquery] at hsome
  cases hsome

/-- A message is handled, or it makes the handler panic. -/
theorem queryActions_cases (profile : Profile) (signers : List Address)
    (received : Received DateTime) :
    (WellFormed profile signers received ∧ HandlesQuery profile signers received) ∨
      (¬WellFormed profile signers received ∧
        .error .panic ∈ queryActions profile signers received) := by
  rcases received with ⟨e | ⟨timestamp, _ | payload⟩, now⟩
  · refine .inl ⟨?_, handlesQuery_of_none rfl rfl⟩
    rintro msg ⟨⟩
  · refine .inl ⟨?_, handlesQuery_of_none rfl rfl⟩
    rintro msg ⟨⟩ hpayload
    exact absurd rfl hpayload
  · rw [wellFormed_payload_iff]
    rcases messageTimestamp_cases profile timestamp now with ⟨hfits, time, htime⟩ | ⟨hfits, htime⟩
    · cases hdecode : QueryFormat.decodeQuery payload with
      | error e =>
        refine .inl ⟨⟨hfits, ?_⟩, handlesQuery_of_none ?_ ?_⟩
        · rintro query ⟨⟩
        · show (QueryFormat.decodeQuery payload).toOption = none
          rw [hdecode]
          rfl
        · unfold queryActions
          dsimp only
          rw [htime, hdecode]
      | ok query =>
        have hactions : queryActions profile signers ⟨.ok ⟨timestamp, some payload⟩, now⟩ =
            sendQuery signers time query := by
          unfold queryActions
          dsimp only
          rw [htime, hdecode]
        have hquery : (⟨.ok ⟨timestamp, some payload⟩, now⟩ : Received DateTime).query =
            some query := by
          show (QueryFormat.decodeQuery payload).toOption = some query
          rw [hdecode]
          rfl
        unfold HandlesQuery Countable
        rw [hactions, hquery]
        rcases sendQuery_cases signers time query with
          ⟨haddresses, updates, hsent, hupdates⟩ | ⟨hwrong, hpanic⟩
        · refine .inl ⟨⟨hfits, ?_⟩, updates, hsent, ?_⟩
          · rintro other ⟨⟩
            exact haddresses
          · rcases hupdates with ⟨hnone, hforeign⟩ | hupdates
            · refine .inl ⟨hnone, ?_⟩
              rintro other ⟨⟨⟩, haccepted, -⟩
              exact hforeign haccepted
            · exact .inr ⟨query, rfl, hupdates⟩
        · exact .inr ⟨fun h ↦ hwrong (h.2 query rfl), hpanic⟩
    · unfold queryActions
      dsimp only
      rw [htime]
      exact .inr ⟨fun h ↦ hfits h.1, List.mem_cons_self⟩

theorem handlesQuery_iff (profile : Profile) (signers : List Address)
    (received : Received DateTime) :
    HandlesQuery profile signers received ↔ WellFormed profile signers received := by
  rcases queryActions_cases profile signers received with ⟨hwell, hhandles⟩ | ⟨hill, hpanic⟩
  · exact iff_of_true hhandles hwell
  · refine iff_of_false ?_ hill
    rintro ⟨updates, hupdates, -⟩
    rw [hupdates] at hpanic
    rcases List.mem_map.mp hpanic with ⟨update, -, ⟨⟩⟩

/-! ## Every run of the consumer -/

/-- From wherever the consumer gets to, it can handle the messages that are left, and then it has
sent what the messages are to be counted with and nothing else. -/
def KeepsCounting (profile : Profile) (signers : List Address)
    (stream : List (Received DateTime)) : Prop :=
  ∀ pool, Pool.Run (realtimeConsumer profile signers) (.start stream []) pool →
    pool.alive = true ∧ ∃ pool', Pool.Run (realtimeConsumer profile signers) pool pool' ∧
      pool'.Done ∧ (pool'.state.map .ok).Perm (stream.flatMap (queryActions profile signers))

variable {profile : Profile} {signers : List Address} {stream : List (Received DateTime)}
  {pool : Pool (Received DateTime) (Outcome Empty (Update DateTime)) (List (Update DateTime))}

/-- What was performed is what was sent, so no panic was. -/
theorem performed_eq_sent
    (hrun : Pool.Run (realtimeConsumer profile signers) (.start stream []) pool) :
    pool.performed = pool.state.map .ok := by
  apply hrun.invariant (fun performed sent ↦ performed = sent.map .ok)
  · intro performed sent action sent' hperformed hact
    cases action with
    | error failure => cases hact
    | ok update =>
      obtain rfl : sent ++ [update] = sent' := Except.ok.inj hact
      rw [hperformed, List.map_append]
      rfl
  · rfl

theorem sent_of_done
    (hrun : Pool.Run (realtimeConsumer profile signers) (.start stream []) pool)
    (hdone : pool.Done) :
    (pool.state.map .ok).Perm (stream.flatMap (queryActions profile signers)) := by
  rw [← performed_eq_sent hrun]
  exact hrun.performed_of_done hdone

theorem realtimeConsumer_alive (hwell : ∀ received ∈ stream, WellFormed profile signers received)
    (hrun : Pool.Run (realtimeConsumer profile signers) (.start stream []) pool) :
    pool.alive = true := by
  apply hrun.alive
  intro received hreceived action haction sent hpanic
  rcases (handlesQuery_iff profile signers received).mpr (hwell received hreceived) with
    ⟨updates, hupdates, -⟩
  have hmem : action ∈ updates.map .ok := hupdates ▸ haction
  rcases List.mem_map.mp hmem with ⟨update, -, rfl⟩
  cases hpanic

end GraphTally.EscrowManager

/-! ## A message without fields -/

namespace GraphTally.Known

open EscrowManager

/-- A query of one signer for one indexer and one GRT. -/
def queryBytes : List UInt8 :=
  [0x12, 20] ++ List.replicate 20 0x01 ++ [0x52, 31, 0x0a, 20] ++ List.replicate 20 0x02 ++
    [0x31, 0, 0, 0, 0, 0, 0, 0xf0, 0x3f]

def clientQuery : ClientQueryProtobuf :=
  ⟨List.replicate 20 0x01, [⟨List.replicate 20 0x02, 0x3ff0000000000000⟩]⟩

/-- An absent field is empty. -/
scoped instance : QueryFormat Int where
  decodeQuery payload :=
    if payload = [] then .ok ⟨[], []⟩
    else if payload = queryBytes then .ok clientQuery
    else .error "failed to decode Protobuf message"
  fromTimestamp seconds nanoseconds :=
    if nanoseconds.toNat < 2000000000 then some (seconds * 1000000000 + nanoseconds.toNat) else none

def querySigner : Address := ⟨List.replicate 20 0x01, rfl⟩

def emptyQuery : Received Int := ⟨.ok ⟨some 1700000000000, some []⟩, 0⟩

def laterQuery : Received Int := ⟨.ok ⟨some 1700000001000, some queryBytes⟩, 0⟩

end GraphTally.Known

namespace GraphTally.EscrowManager

open Known

end GraphTally.EscrowManager
