import GraphTally.Aggregator.Endpoints

/-!
# The counter of values

Every handler sums the values of a batch for its metrics with the plain operator, before any
signature is checked.  All later additions are checked ones.
-/

open GraphTally.Theory

namespace GraphTally

namespace RpcImpl

variable {Domain Key : Type} [Alloy Key] [AlloyText] [SolStruct Domain Receipt]
  [SolStruct Domain ReceiptAggregateVoucher] [Grpc.SignatureFormat]

inductive Request where
  | rpc (apiVersion : String) (receipts : List SignedReceipt) (previousRav : Option SignedRav)
  | tapAggregator (request : Grpc.V2.RavRequest)
  | graphTallyAggregator (request : Grpc.RavRequest)

/-- The receipts of a request that the handler can decode. -/
def Request.receipts : Request → Option (List SignedReceipt)
  | .rpc _ receipts _ => some receipts
  | .tapAggregator request => do
    let receipts ← request.receipts.mapM Grpc.V2.SignedReceipt.tryInto
    let _ ← request.previousRav.mapM Grpc.V2.SignedRav.tryInto
    return receipts
  | .graphTallyAggregator request => do
    let receipts ← request.receipts.mapM Grpc.SignedReceipt.tryInto
    let _ ← request.previousRav.mapM Grpc.SignedRav.tryInto
    return receipts

def Request.Panics (profile : Profile) (self : RpcImpl Domain Key) : Request → Prop
  | .rpc apiVersion receipts previousRav =>
    (self.aggregateReceipts profile apiVersion receipts previousRav).1 = .error .panic
  | .tapAggregator request =>
    (TapAggregator.aggregateReceipts profile self request).1 = .error .panic
  | .graphTallyAggregator request =>
    (GraphTallyAggregator.aggregateReceipts profile self request).1 = .error .panic

/-- The answer is an aggregation error. -/
def Request.Refused (profile : Profile) (self : RpcImpl Domain Key) : Request → Prop
  | .rpc apiVersion receipts previousRav => ∃ message data,
    (self.aggregateReceipts profile apiVersion receipts previousRav).1 =
      .error (.error ⟨JsonRpcErrorCode.aggregation.toInt, message, data⟩)
  | .tapAggregator request => ∃ message,
    (TapAggregator.aggregateReceipts profile self request).1 =
      .error (.error ⟨.failedPrecondition, message⟩)
  | .graphTallyAggregator request => ∃ message,
    (GraphTallyAggregator.aggregateReceipts profile self request).1 =
      .error (.error ⟨.failedPrecondition, message⟩)

/-- The arithmetic of a handler on the receipts it decoded: every plain addition fits, the counter
holds the exact sum, and a batch whose values do not fit is refused instead of a panic. -/
structure Request.Counts (profile : Profile) (server : RpcImpl Domain Key) (request : Request)
    (receipts : List SignedReceipt) : Prop where
  additions : ∀ addition ∈ additionsFrom profile 0 (receipts.map fun r ↦ r.message.value),
    addition.1.toNat + addition.2.toNat < 2 ^ 128
  counter : ∀ total, (receiptsGrt profile receipts : Outcome Empty U128) = .ok total →
    total.toNat = exactTotal receipts
  answers : ¬request.Panics profile server
  refuses : 2 ^ 128 ≤ exactTotal receipts → request.Refused profile server

end RpcImpl

theorem receiptsGrt_eq {ε : Type} (profile : Profile) (receipts : List SignedReceipt) :
    (receiptsGrt profile receipts : Outcome ε U128) =
      plainSum profile (receipts.map fun r ↦ r.message.value) := by
  rw [receiptsGrt, plainSum, List.foldlM_map]

theorem exactTotal_eq (receipts : List SignedReceipt) :
    exactTotal receipts = ((receipts.map fun r ↦ r.message.value).map BitVec.toNat).sum := by
  rw [List.map_map]
  rfl

theorem receiptsGrt_of_fits {ε : Type} (profile : Profile) {receipts : List SignedReceipt}
    (h : exactTotal receipts < 2 ^ 128) : ∃ total : U128,
      (receiptsGrt profile receipts : Outcome ε U128) = .ok total ∧
        total.toNat = exactTotal receipts := by
  rw [exactTotal_eq] at h ⊢
  rcases plainSum_of_fits h with ⟨total, htotal, hvalue⟩
  rw [receiptsGrt_eq]
  exact ⟨total, htotal profile, hvalue⟩

theorem receiptsGrt_eq_panic {ε : Type} {profile : Profile} {receipts : List SignedReceipt} :
    (receiptsGrt profile receipts : Outcome ε U128) = .error .panic ↔
      profile = .debug ∧ 2 ^ 128 ≤ exactTotal receipts := by
  rw [receiptsGrt_eq, exactTotal_eq]
  exact plainSum_eq_panic

/-! ## Which requests make a handler panic -/

section Panics

variable {Domain Key : Type} [Alloy Key] [AlloyText] [SolStruct Domain Receipt]
  [SolStruct Domain ReceiptAggregateVoucher] {profile : Profile} {self : RpcImpl Domain Key}
  {receipts : List SignedReceipt}

theorem RpcImpl.aggregateReceipts_panics_iff {apiVersion : String}
    {previousRav : Option SignedRav} :
    (self.aggregateReceipts profile apiVersion receipts previousRav).1 = .error .panic ↔
      profile = .debug ∧ 2 ^ 128 ≤ exactTotal receipts := by
  rw [← receiptsGrt_eq_panic (ε := JsonRpcError), aggregateReceipts]
  rcases (receiptsGrt profile receipts : Outcome JsonRpcError U128) with (e | _) | total
  · simp
  · simp
  · dsimp only
    split <;> simp

variable [Grpc.SignatureFormat]

-- Past the conversions, the sum is the only thing that can panic.
theorem GraphTallyAggregator.aggregateReceipts_panics_iff {request : Grpc.RavRequest}
    {previousRav : Option SignedRav}
    (hreceipts : request.receipts.mapM Grpc.SignedReceipt.tryInto = some receipts)
    (hprevious : request.previousRav.mapM Grpc.SignedRav.tryInto = some previousRav) :
    (GraphTallyAggregator.aggregateReceipts profile self request).1 = .error .panic ↔
      profile = .debug ∧ 2 ^ 128 ≤ exactTotal receipts := by
  rw [← receiptsGrt_eq_panic (ε := Status), aggregateReceipts, hreceipts, hprevious]
  dsimp only
  rcases (receiptsGrt profile receipts : Outcome Status U128) with (e | _) | total
  · simp
  · simp
  · dsimp only
    split <;> simp

theorem TapAggregator.aggregateReceipts_panics_iff {request : Grpc.V2.RavRequest}
    {previousRav : Option SignedRav}
    (hreceipts : request.receipts.mapM Grpc.V2.SignedReceipt.tryInto = some receipts)
    (hprevious : request.previousRav.mapM Grpc.V2.SignedRav.tryInto = some previousRav) :
    (TapAggregator.aggregateReceipts profile self request).1 = .error .panic ↔
      profile = .debug ∧ 2 ^ 128 ≤ exactTotal receipts := by
  rw [request.receipts_current] at hreceipts
  rw [request.previousRav_current] at hprevious
  have hcurrent : (GraphTallyAggregator.aggregateReceipts profile self request.current).1 =
      .error .panic ↔ profile = .debug ∧ 2 ^ 128 ≤ exactTotal receipts :=
    GraphTallyAggregator.aggregateReceipts_panics_iff hreceipts hprevious
  rw [← hcurrent, TapAggregator.aggregateReceipts_current]
  rcases (TapAggregator.aggregateReceipts profile self request).1 with (e | _) | response <;>
    simp [Except.map]

theorem RpcImpl.Request.panics_iff {request : Request} (h : request.receipts = some receipts) :
    request.Panics profile self ↔ profile = .debug ∧ 2 ^ 128 ≤ exactTotal receipts := by
  cases request with
  | rpc apiVersion found previousRav =>
    obtain rfl := Option.some_inj.mp h
    exact RpcImpl.aggregateReceipts_panics_iff
  | tapAggregator wire =>
    rcases Option.bind_eq_some_iff.mp h with ⟨decoded, hreceipts, hrest⟩
    rcases Option.bind_eq_some_iff.mp hrest with ⟨previousRav, hprevious, hsame⟩
    obtain rfl := Option.some_inj.mp hsame
    exact TapAggregator.aggregateReceipts_panics_iff hreceipts hprevious
  | graphTallyAggregator wire =>
    rcases Option.bind_eq_some_iff.mp h with ⟨decoded, hreceipts, hrest⟩
    rcases Option.bind_eq_some_iff.mp hrest with ⟨previousRav, hprevious, hsame⟩
    obtain rfl := Option.some_inj.mp hsame
    exact GraphTallyAggregator.aggregateReceipts_panics_iff hreceipts hprevious

/-- The arithmetic of a handler is safe exactly when the values of the batch add up to a word. -/
theorem RpcImpl.requestCounts_iff (profile : Profile) (self : RpcImpl Domain Key)
    (request : Request) (receipts : List SignedReceipt)
    (hdecoded : request.receipts = some receipts) :
    request.Counts profile self receipts ↔ exactTotal receipts < 2 ^ 128 := by
  constructor
  · intro h
    by_contra hover
    cases profile with
    | debug => exact h.answers ((Request.panics_iff hdecoded).mpr ⟨rfl, Nat.le_of_not_lt hover⟩)
    | release =>
      rcases receiptsGrt_release (ε := Empty) receipts with ⟨total, htotal⟩
      have hvalue := h.counter total htotal
      omega
  · intro h
    constructor
    · apply (additionsFrom_fit_iff profile _ _).mpr
      rw [← exactTotal_eq]
      simpa using h
    · intro total htotal
      rcases receiptsGrt_of_fits (ε := Empty) profile h with ⟨exactly, hexactly, hvalue⟩
      rw [← Except.ok.inj (hexactly.symm.trans htotal)]
      exact hvalue
    · intro hpanics
      have hover := ((Request.panics_iff hdecoded).mp hpanics).2
      omega
    · intro hover
      omega

end Panics

open Known in
theorem RpcImpl.requestCounts_iff_known :
    (RpcImpl.Request.rpc "0.0" batch none).Counts .debug
      (⟨registry, domain, true⟩ : RpcImpl Eip712Domain Key) batch :=
  (RpcImpl.requestCounts_iff .debug _ _ batch rfl).mpr (by decide +kernel)

open Known in
def RpcImpl.overflowing : List SignedReceipt :=
  [signed .one (receipt 10 1 (BitVec.allOnes 128)), signed .one (receipt 20 2 1)]

open Known in
/-- Two receipts of anyone's make every handler panic in a debug build.  In a release build their
sum wraps to zero, and the batch is then refused for its signatures or its checked sum. -/
theorem RpcImpl.counts_overflow :
    let self : RpcImpl Eip712Domain Key := ⟨registry, domain, true⟩
    (self.aggregateReceipts .debug "0.0" overflowing none).1 = .error .panic ∧
      (TapAggregator.aggregateReceipts .debug self
        (Grpc.V2.RavRequest.new overflowing none)).1 = .error .panic ∧
      (GraphTallyAggregator.aggregateReceipts .debug self
        (Grpc.RavRequest.new overflowing none)).1 = .error .panic ∧
      (receiptsGrt .release overflowing : Outcome Empty U128) = .ok 0 ∧
      exactTotal overflowing = 2 ^ 128 := by
  have hread := Grpc.RavRequest.new_read readsWritten overflowing none
  have hread' := hread
  rw [← Grpc.V2.RavRequest.current_new, ← Grpc.V2.RavRequest.receipts_current,
    ← Grpc.V2.RavRequest.previousRav_current] at hread'
  have hover : Profile.debug = .debug ∧ 2 ^ 128 ≤ exactTotal overflowing := ⟨rfl, by decide +kernel⟩
  exact ⟨RpcImpl.aggregateReceipts_panics_iff.mpr hover,
    (TapAggregator.aggregateReceipts_panics_iff hread'.1 hread'.2).mpr hover,
    (GraphTallyAggregator.aggregateReceipts_panics_iff hread.1 hread.2).mpr hover, rfl, rfl⟩

end GraphTally
