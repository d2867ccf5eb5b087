import GraphTally.Core.Accounts
import GraphTally.Core.Memory

/-!
# Sessions

Runs of one manager over the in-memory context: receipts are stored, requests made, their
expected RAVs committed and obsolete receipts removed, in any order.  A session remembers every
request and every commit, which the code does not.
-/

open GraphTally.Theory

namespace GraphTally

/-! ## Sessions -/

/-- What one call finds around it: an order of the hash table, a sort, and the state the checks
read outside the context. -/
structure Surroundings (ω : Type) where
  enumeration : Enumeration
  unstable : UnstableSort
  world : ω

/-- What stays fixed over a session. -/
structure Indexer (ω Domain : Type) where
  profile : Profile
  checks : InMemoryContext → CheckList ω SignedReceipt
  domainSeparator : Domain

def Indexer.manager {ω Domain : Type} (indexer : Indexer ω Domain) (around : Surroundings ω) :
    Manager InMemoryContext ω SignedReceipt ReceiptAggregateVoucher Domain :=
  InMemoryContext.manager indexer.profile around.enumeration around.unstable indexer.checks
    indexer.domainSeparator

theorem Indexer.readsInRange {ω Domain : Type} (indexer : Indexer ω Domain)
    (around : Surroundings ω) : (indexer.manager around).context.ReadsInRange :=
  (InMemoryContext.readContract indexer.profile around.enumeration around.unstable).readsInRange

-- All or nothing: the RAV is stored whole, or the context is as before.
theorem Indexer.verifyAndStoreRav_cases {ω Domain Key : Type} [Alloy Key] [AlloyText]
    [SolStruct Domain ReceiptAggregateVoucher] (indexer : Indexer ω Domain)
    (around : Surroundings ω) (expectedRav : ReceiptAggregateVoucher) (signedRav : SignedRav)
    (context : InMemoryContext) :
    (∃ e, (indexer.manager around).verifyAndStoreRav expectedRav signedRav context =
        (.error e, context)) ∨
      (signedRav.message = expectedRav ∧
        (indexer.manager around).verifyAndStoreRav expectedRav signedRav context =
          (.ok (), context.updateLastRav signedRav)) :=
  InMemoryContext.verifyAndStoreRav_cases expectedRav signedRav

inductive Event where
  | verifyAndStoreReceipt (receipt : SignedReceipt)
  | createRavRequest (clock : SystemTime) (timestampBufferNs : U64) (limit : Option U64)
  | verifyAndStoreRav (signedRav : SignedRav)
  | removeObsoleteReceipts

/-- A request, with the storage as it was when the request was made. -/
structure RequestRecord where
  request : RavRequest SignedReceipt ReceiptAggregateVoucher
  storage : ReceiptStorage

/-- A request whose expected RAV was stored. -/
structure Commit where
  record : RequestRecord
  rav : ReceiptAggregateVoucher

/-- `fresh` says that the latest request has not been committed yet. -/
structure Session where
  context : InMemoryContext
  requests : List RequestRecord
  committed : List Commit
  fresh : Bool

def Session.start (context : InMemoryContext) : Session := ⟨context, [], [], true⟩

section Step

variable {ω Domain Key : Type} [Alloy Key] [AlloyText] [SolStruct Domain ReceiptAggregateVoucher]

/-- One call.  A RAV is always stored against the latest request's expected RAV; storing it again
is a second commit of the same request, which is not counted twice. -/
def Session.step (indexer : Indexer ω Domain) (around : Surroundings ω) (session : Session) :
    Event → Session
  | .verifyAndStoreReceipt receipt =>
    { session with context := ((indexer.manager around).verifyAndStoreReceipt receipt
        session.context around.world).2.1 }
  | .createRavRequest clock timestampBufferNs limit =>
    match (indexer.manager around).createRavRequest indexer.profile clock timestampBufferNs limit
        session.context around.world with
    | (.error _, context, _) => { session with context }
    | (.ok request, context, _) =>
      { session with
        context
        requests := session.requests ++ [⟨request, session.context.receiptStorage⟩]
        fresh := true }
  | .verifyAndStoreRav signedRav =>
    match session.requests.getLast? with
    | none => session
    | some record =>
      match record.request.expectedRav with
      | .error _ => session
      | .ok expectedRav =>
        match (indexer.manager around).verifyAndStoreRav expectedRav signedRav session.context with
        | (.error _, context) => { session with context }
        | (.ok (), context) =>
          { session with
            context
            committed := if session.fresh then session.committed ++ [⟨record, expectedRav⟩]
              else session.committed
            fresh := false }
  | .removeObsoleteReceipts =>
    { session with
      context := ((indexer.manager around).removeObsoleteReceipts session.context).2 }

/-- The sessions a context without a RAV can lead to. -/
inductive Session.Reachable (indexer : Indexer ω Domain) : Session → Prop
  | start {context : InMemoryContext} :
      context.ravStorage = none → Reachable indexer (.start context)
  | step {session : Session} (around : Surroundings ω) (event : Event) :
      Reachable indexer session → Reachable indexer (session.step indexer around event)

/-- Everything one call can do to a session. -/
inductive Session.Moves (indexer : Indexer ω Domain) (around : Surroundings ω)
    (session : Session) : Event → Session → Prop
  | idle {event : Event} : Moves indexer around session event session
  | stored {receipt : SignedReceipt} {context : InMemoryContext} :
      (∀ e, ((indexer.manager around).verifyAndStoreReceipt receipt session.context
        around.world).1 ≠ .error (.error e)) →
      context.ravStorage = session.context.ravStorage →
      context.receiptStorage =
        session.context.receiptStorage.insert session.context.uniqueId (.new receipt) →
      Moves indexer around session (.verifyAndStoreReceipt receipt) { session with context }
  | requested {clock : SystemTime} {timestampBufferNs : U64} {limit : Option U64}
      {request : RavRequest SignedReceipt ReceiptAggregateVoucher} {min now max : U64}
      {retrieved : List (ReceiptWithState Checking SignedReceipt)} {cut : Nat} :
      (indexer.manager around).Requested indexer.profile clock timestampBufferNs limit
        session.context.ravStorage session.context request min now max retrieved →
      (receiptsOf request.validReceipts ++ receiptsOf request.invalidReceipts).Perm
        ((session.context.receiptStorage.entries.filter fun e ↦
          TimestampRange.contains (.halfOpen min max) e.2.timestampNs &&
            e.2.timestampNs.toNat < cut).map (·.2.receipt)) →
      Moves indexer around session (.createRavRequest clock timestampBufferNs limit)
        { session with
          requests := session.requests ++ [⟨request, session.context.receiptStorage⟩]
          fresh := true }
  | committed {signedRav : SignedRav} {record : RequestRecord} :
      session.requests.getLast? = some record →
      record.request.expectedRav = .ok signedRav.message →
      Moves indexer around session (.verifyAndStoreRav signedRav)
        { session with
          context := session.context.updateLastRav signedRav
          committed := if session.fresh then session.committed ++ [⟨record, signedRav.message⟩]
            else session.committed
          fresh := false }
  | cleaned {context : InMemoryContext} :
      context.ravStorage = session.context.ravStorage →
      (∀ id entry, context.receiptStorage.lookup id = some entry ↔
        session.context.receiptStorage.lookup id = some entry ∧
          ∀ rav ∈ session.context.ravStorage,
            rav.message.timestampNs.toNat < entry.timestampNs.toNat) →
      Moves indexer around session .removeObsoleteReceipts { session with context }

variable {indexer : Indexer ω Domain} {around : Surroundings ω} {session : Session}

-- The adapters only read here, so a failed request leaves no trace.
theorem Session.step_createRavRequest (clock : SystemTime) (timestampBufferNs : U64)
    (limit : Option U64) : session.Moves indexer around
      (.createRavRequest clock timestampBufferNs limit)
      (session.step indexer around (.createRavRequest clock timestampBufferNs limit)) := by
  have hreadOnly : ((indexer.manager around).createRavRequest indexer.profile clock
      timestampBufferNs limit session.context around.world).2.1 = session.context :=
    Manager.createRavRequest_readOnly (fun _ ↦ rfl) (fun _ _ _ ↦ rfl)
  unfold Session.step
  dsimp only
  split
  · rename_i e context world hresult
    -- a failed request leaves the session as it was
    rw [hresult] at hreadOnly
    obtain rfl : context = session.context := hreadOnly
    exact .idle
  · rename_i request context world hresult
    rw [hresult] at hreadOnly
    obtain rfl : context = session.context := hreadOnly
    obtain ⟨hprevious, min, now, max, retrieved, hrequested, cut, hserved⟩ :=
      InMemoryContext.createRavRequest_serves (congrArg Prod.fst hresult)
    rw [hprevious] at hrequested
    exact .requested hrequested hserved

-- A RAV that passes is the latest request's expected one.
theorem Session.step_verifyAndStoreRav (signedRav : SignedRav) :
    session.Moves indexer around (.verifyAndStoreRav signedRav)
      (session.step indexer around (.verifyAndStoreRav signedRav)) := by
  unfold Session.step
  dsimp only
  split
  · exact .idle
  · rename_i record hlatest
    split
    · exact .idle
    · rename_i expectedRav hexpected
      rcases indexer.verifyAndStoreRav_cases around expectedRav signedRav session.context with
        ⟨e, hrefused⟩ | ⟨rfl, hstored⟩
      · rw [hrefused]
        exact .idle
      · rw [hstored]
        exact .committed hlatest hexpected

/-- The step relation is all the step function can do. -/
theorem Session.step_moves (indexer : Indexer ω Domain) (around : Surroundings ω)
    (session : Session) (event : Event) :
    session.Moves indexer around event (session.step indexer around event) := by
  cases event with
  | verifyAndStoreReceipt receipt =>
    rcases hstore : (indexer.manager around).verifyAndStoreReceipt receipt session.context
      around.world with ⟨outcome, context, world⟩
    have hstep : session.step indexer around (.verifyAndStoreReceipt receipt) =
        { session with context } := by
      simp only [Session.step, hstore]
    rw [hstep]
    rcases InMemoryContext.verifyAndStoreReceipt_cases hstore with ⟨-, rfl⟩ | ⟨hok, hrav, hinsert⟩
    · exact .idle
    · exact .stored (by rw [hstore]; exact hok) hrav hinsert
  | createRavRequest clock timestampBufferNs limit =>
    exact step_createRavRequest clock timestampBufferNs limit
  | verifyAndStoreRav signedRav => exact step_verifyAndStoreRav signedRav
  | removeObsoleteReceipts =>
    obtain ⟨hrav, hkept⟩ := InMemoryContext.removeObsoleteReceipts_effect
    exact .cleaned hrav hkept

end Step

/-! ## Value conservation -/

def Commit.valid (commit : Commit) : List SignedReceipt :=
  receiptsOf commit.record.request.validReceipts

/-- The entry was in the storage of a committed request and its receipt was returned as valid. -/
def Commit.Counts (commit : Commit) (id : U64) (entry : ReceiptWithState Checking SignedReceipt) :
    Prop :=
  commit.record.storage.lookup id = some entry ∧ entry.receipt ∈ commit.valid

/-- The commits of a session as the steps of a chain of vouchers. -/
def Session.steps (session : Session) : Steps SignedReceipt Nat Nat :=
  session.committed.map fun commit ↦ (commit.valid, commit.rav.voucher)

/-- The stored RAV is the last voucher of the chain of commits, and the latest request is either
the next step of that chain or its last one. -/
structure Session.Conserved (session : Session) : Prop where
  chain : session.steps.Chain SignedReceipt.mark SignedReceipt.amount
  stored : session.context.ravStorage.map (·.message.voucher) = session.steps.last
  fits : ∀ rav ∈ session.context.ravStorage, rav.message.timestampNs.toNat + 1 < 2 ^ 64
  latest : ∀ record ∈ session.requests.getLast?, ∀ rav, record.request.expectedRav = .ok rav →
    rav.timestampNs.toNat + 1 < 2 ^ 64 ∧
      (session.fresh = true → Voucher.Extends SignedReceipt.mark SignedReceipt.amount
        session.steps.last (receiptsOf record.request.validReceipts) rav.voucher) ∧
      (session.fresh = false → session.steps.last = some rav.voucher)

section Conservation

/-- What an operation leaves alone, when it changes neither the RAV nor the requests. -/
theorem Session.Conserved.frame {session : Session} (h : session.Conserved)
    {context : InMemoryContext}
    (hrav : context.ravStorage = session.context.ravStorage) :
    ({ session with context } : Session).Conserved where
  chain := h.chain
  stored := by rw [hrav]; exact h.stored
  fits := by rw [hrav]; exact h.fits
  latest := h.latest

variable {ω Domain Key : Type} [Alloy Key] {indexer : Indexer ω Domain}
  {around : Surroundings ω} {session session' : Session}

/-- A new request may become the next step of the chain. -/
theorem Session.Conserved.requested (h : session.Conserved) {clock : SystemTime}
    {timestampBufferNs : U64} {limit : Option U64}
    {request : RavRequest SignedReceipt ReceiptAggregateVoucher} {min now max : U64}
    {retrieved : List (ReceiptWithState Checking SignedReceipt)}
    (hrequested : (indexer.manager around).Requested indexer.profile clock timestampBufferNs limit
      session.context.ravStorage session.context request min now max retrieved) :
    ({ session with
      requests := session.requests ++ [⟨request, session.context.receiptStorage⟩]
      fresh := true } : Session).Conserved := by
  have hread : (indexer.manager around).context.ReadsInRange := indexer.readsInRange around
  refine ⟨h.chain, h.stored, h.fits, ?_⟩
  intro record hrecord rav hexpected
  obtain rfl : _ = record := by simpa using hrecord
  refine ⟨?_, fun _ ↦ ?_, fun hstale ↦ absurd hstale (by simp)⟩
  · have hlt := hrequested.expected_lt_max hread h.fits hexpected
    have hmax := max.isLt
    omega
  · have hextends := hrequested.expected_extends hread h.fits hexpected
    rw [h.stored] at hextends
    exact hextends

/-- A commit makes the latest request the last step of the chain, if it is not already. -/
theorem Session.Conserved.committed (h : session.Conserved) {signedRav : SignedRav}
    {record : RequestRecord} (hlatest : session.requests.getLast? = some record)
    (hexpected : record.request.expectedRav = .ok signedRav.message) :
    ({ session with
      context := session.context.updateLastRav signedRav
      committed := if session.fresh then session.committed ++ [⟨record, signedRav.message⟩]
        else session.committed
      fresh := false } : Session).Conserved := by
  obtain ⟨hfits, hfresh, hstale⟩ := h.latest record hlatest signedRav.message hexpected
  have hfits' : ∀ rav ∈ (session.context.updateLastRav signedRav).ravStorage,
      rav.message.timestampNs.toNat + 1 < 2 ^ 64 := by
    intro rav hrav
    obtain rfl := Option.some_inj.mp hrav
    exact hfits
  have hlatest' : ∀ other ∈ session.requests.getLast?, ∀ rav,
      other.request.expectedRav = .ok rav → rav = signedRav.message := by
    intro other hother rav hrav
    obtain rfl := Option.some_inj.mp (hlatest.symm.trans hother)
    exact Except.ok.inj (hrav.symm.trans hexpected)
  cases hcase : session.fresh with
  | true =>
    -- the first commit of this request: the chain grows by its valid receipts
    have hsteps : Session.steps { session with
          context := session.context.updateLastRav signedRav
          committed := session.committed ++ [⟨record, signedRav.message⟩]
          fresh := false } =
        session.steps ++
          [(receiptsOf record.request.validReceipts, signedRav.message.voucher)] := by
      simp [Session.steps, Commit.valid]
    rw [if_pos rfl]
    refine ⟨?_, ?_, hfits', ?_⟩
    · rw [hsteps]
      exact h.chain.snoc (hfresh hcase)
    · rw [hsteps, Steps.last_snoc]
      rfl
    · intro other hother rav hrav
      obtain rfl := hlatest' other hother rav hrav
      refine ⟨hfits, fun h ↦ absurd h (by simp), fun _ ↦ ?_⟩
      rw [hsteps, Steps.last_snoc]
  | false =>
    -- a repeated commit: the RAV is stored again and nothing new is counted
    rw [if_neg (by simp)]
    refine ⟨h.chain, (hstale hcase).symm, hfits', ?_⟩
    intro other hother rav hrav
    obtain rfl := hlatest' other hother rav hrav
    exact ⟨hfits, fun h ↦ absurd h (by simp), fun _ ↦ hstale hcase⟩

-- One call of any operation.
theorem Session.Conserved.of_moves (h : session.Conserved) {event : Event}
    (hmoves : session.Moves indexer around event session') : session'.Conserved := by
  cases hmoves with
  | idle => exact h
  | stored _ hrav _ => exact h.frame hrav
  | requested hrequested _ => exact h.requested hrequested
  | committed hlatest hexpected => exact h.committed hlatest hexpected
  | cleaned hrav _ => exact h.frame hrav

variable [AlloyText] [SolStruct Domain ReceiptAggregateVoucher]

theorem Session.Reachable.conserved (h : Session.Reachable indexer session) :
    session.Conserved := by
  induction h with
  | start hnone =>
    refine ⟨.nil, ?_, ?_, fun record hrecord ↦ by cases hrecord⟩
    · rw [Session.start, hnone]
      rfl
    · rw [Session.start, hnone]
      rintro rav ⟨⟩
  | step around event _ ih => exact ih.of_moves (step_moves _ around _ event)

/-- The stored RAV carries exactly the value of the receipts of the committed requests and their
latest timestamp, and no stored receipt is counted by two of them. -/
theorem Session.conserves_value (indexer : Indexer ω Domain) (session : Session)
    (h : Session.Reachable indexer session) :
    previousValue session.context.ravStorage =
        (session.committed.map fun commit ↦ exactTotal commit.valid).sum ∧
      (∀ rav ∈ session.context.ravStorage,
        (∀ commit ∈ session.committed, ∀ receipt ∈ commit.valid,
          receipt.message.timestampNs.toNat ≤ rav.message.timestampNs.toNat) ∧
        ∃ commit ∈ session.committed, ∃ receipt ∈ commit.valid,
          receipt.message.timestampNs.toNat = rav.message.timestampNs.toNat) ∧
      session.committed.Pairwise fun earlier later ↦
        ∀ id entry, ¬(earlier.Counts id entry ∧ later.Counts id entry) := by
  have hinv := h.conserved
  have hbatches : session.steps.batches = session.committed.map Commit.valid := by
    simp [Steps.batches, Session.steps]
  refine ⟨?value, ?timestamp, ?once⟩
  case value =>
    have htotal := hinv.chain.total
    rw [← hinv.stored, hbatches] at htotal
    calc previousValue session.context.ravStorage
        = (session.context.ravStorage.map (·.message.voucher)).elim 0 (·.total) := by
          cases session.context.ravStorage <;> rfl
      _ = exactTotal (session.committed.map Commit.valid).flatten := htotal
      _ = (session.committed.map fun commit ↦ exactTotal commit.valid).sum := by
        rw [exactTotal_flatten, List.map_map]
        rfl
  case timestamp =>
    intro rav hrav
    have hlast : session.steps.last = some rav.message.voucher := by
      rw [← hinv.stored, Option.mem_def.mp hrav]
      rfl
    have hcounted : ∀ receipt, receipt ∈ session.steps.batches.flatten ↔
        ∃ commit ∈ session.committed, receipt ∈ commit.valid := by
      intro receipt
      simp [hbatches]
    refine ⟨fun commit hcommit receipt hreceipt ↦ ?_, ?_⟩
    · exact hinv.chain.covers _ hlast receipt ((hcounted receipt).mpr ⟨commit, hcommit, hreceipt⟩)
    · obtain ⟨receipt, hreceipt, hmark⟩ := hinv.chain.attained _ hlast
      obtain ⟨commit, hcommit, hvalid⟩ := (hcounted receipt).mp hreceipt
      exact ⟨commit, hcommit, receipt, hvalid, hmark⟩
  case once =>
    have hincreasing := hinv.chain.batches_increasing
    rw [hbatches, List.pairwise_map] at hincreasing
    refine hincreasing.imp fun hlt id entry hboth ↦ ?_
    have hself := hlt _ hboth.1.2 _ hboth.2.2
    exact lt_irrefl _ hself

end Conservation

/-! ## A session with two commits -/

namespace Known

def indexer : Indexer (Finset B256) Eip712Domain :=
  ⟨.debug, fun _ ↦ getFullListOfChecks domain {Key.one.address} id, domain⟩

def surroundings : Surroundings (Finset B256) := ⟨.insertionOrder, .merge, collections⟩

def run (events : List Event) : Session :=
  events.foldl (fun session event ↦ session.step indexer surroundings event)
    (.start (store batch))

theorem run_reachable (events : List Event) : Session.Reachable indexer (run events) :=
  List.foldlRecOn _ _ (.start (by decide +kernel)) fun _ h event _ ↦ h.step surroundings event

/-- Two receipts are aggregated and cleaned up, a third arrives and is aggregated on top. -/
def session : Session := run [
  .createRavRequest (.ok 100) 0 none,
  .verifyAndStoreRav (signed .one (rav 20 12)),
  .removeObsoleteReceipts,
  .verifyAndStoreReceipt (signed .one (receipt 30 3 9)),
  .createRavRequest (.ok 100) 0 none,
  .verifyAndStoreRav (signed .one (rav 30 21))]

end Known

open Known in
theorem Session.conserves_value_known :
    session.committed.length = 2 ∧ previousValue session.context.ravStorage = 21 ∧
      previousValue session.context.ravStorage =
        (session.committed.map fun commit ↦ exactTotal commit.valid).sum :=
  ⟨by decide +kernel, by decide +kernel,
    (Session.conserves_value indexer session (run_reachable _)).1⟩

end GraphTally
