import GraphTally.Core.Session

/-!
# Overlapping requests

Runs in which a request may read the previous RAV, select its receipts and be committed with any
number of other calls in between.
-/

open GraphTally.Theory

namespace GraphTally

/-! ## Calls that overlap -/

/-- The moments at which a call reads or writes the context.  `create_rav_request` has two, and
what its checks see of other calls meanwhile is part of their outside state. -/
inductive Moment where
  | readPreviousRav
  | selectReceipts (begun : Nat) (clock : SystemTime) (timestampBufferNs : U64)
      (limit : Option U64)
  | verifyAndStoreRav (request : Nat) (signedRav : SignedRav)
  | otherCall (receiptStorage : ReceiptStorage) (uniqueId : U64)

/-- `begun` has the previous RAV of every request that was begun, and `requests` every request
that was returned. -/
structure Overlap where
  context : InMemoryContext
  begun : List (Option SignedRav)
  requests : List (RavRequest SignedReceipt ReceiptAggregateVoucher)

def Overlap.start (context : InMemoryContext) : Overlap := ⟨context, [], []⟩

section Step

variable {ω Domain Key : Type} [Alloy Key] [AlloyText] [SolStruct Domain ReceiptAggregateVoucher]

def Overlap.step (indexer : Indexer ω Domain) (around : Surroundings ω) (run : Overlap) :
    Moment → Overlap
  | .readPreviousRav =>
    match (indexer.manager around).getPreviousRav run.context with
    | (.error _, context) => { run with context }
    | (.ok previousRav, context) => { run with context, begun := run.begun ++ [previousRav] }
  | .selectReceipts begun clock timestampBufferNs limit =>
    match run.begun[begun]? with
    | none => run
    | some previousRav =>
      match (indexer.manager around).createRavRequestFrom indexer.profile clock timestampBufferNs
          limit previousRav run.context around.world with
      | (.error _, context, _) => { run with context }
      | (.ok request, context, _) => { run with context, requests := run.requests ++ [request] }
  | .verifyAndStoreRav request signedRav =>
    match run.requests[request]? with
    | none => run
    | some request =>
      match request.expectedRav with
      | .error _ => run
      | .ok expectedRav =>
        { run with context := ((indexer.manager around).verifyAndStoreRav expectedRav signedRav
            run.context).2 }
  | .otherCall receiptStorage uniqueId =>
    { run with context := { run.context with receiptStorage, uniqueId } }

inductive Overlap.Reachable (indexer : Indexer ω Domain) : Overlap → Prop
  | start (context : InMemoryContext) : Reachable indexer (.start context)
  | step {run : Overlap} (around : Surroundings ω) (moment : Moment) :
      Reachable indexer run → Reachable indexer (run.step indexer around moment)

end Step

/-! ## What a request builds on -/

/-- At least as late, and worth at least as much. -/
def ReceiptAggregateVoucher.AtLeast (newer older : ReceiptAggregateVoucher) : Prop :=
  older.timestampNs.toNat ≤ newer.timestampNs.toNat ∧
    older.valueAggregate.toNat ≤ newer.valueAggregate.toNat

/-- Some request expects the one RAV after having read the other. -/
def BuildsOn (requests : List (RavRequest SignedReceipt ReceiptAggregateVoucher))
    (newer older : ReceiptAggregateVoucher) : Prop :=
  ∃ request ∈ requests, request.expectedRav = .ok newer ∧
    ∃ prev ∈ request.previousRav, prev.message = older

/-- The RAV itself, what its request read, what the request of that one read, and so on. -/
abbrev DescendsFrom (requests : List (RavRequest SignedReceipt ReceiptAggregateVoucher)) :
    ReceiptAggregateVoucher → ReceiptAggregateVoucher → Prop :=
  Relation.ReflTransGen (BuildsOn requests)

theorem ReceiptAggregateVoucher.AtLeast.refl (rav : ReceiptAggregateVoucher) : rav.AtLeast rav :=
  ⟨le_rfl, le_rfl⟩

theorem ReceiptAggregateVoucher.AtLeast.trans {newer middle older : ReceiptAggregateVoucher}
    (h : newer.AtLeast middle) (h' : middle.AtLeast older) : newer.AtLeast older :=
  ⟨h'.1.trans h.1, h'.2.trans h.2⟩

/-- An aggregate never falls below the previous RAV, whatever the receipts. -/
theorem ReceiptAggregateVoucher.aggregate_atLeast
    {receipts : List (ReceiptWithState Checked SignedReceipt)} {previousRav : Option SignedRav}
    {rav : ReceiptAggregateVoucher}
    (h : Aggregate.aggregateReceipts receipts previousRav = .ok rav) :
    ∀ prev ∈ previousRav, rav.AtLeast prev.message := by
  rintro prev rfl
  obtain ⟨first, -, haggregate⟩ := aggregate_eq_ok.mp h
  obtain ⟨-, -, hvalue, htimestamp⟩ := aggregateReceipts_eq_ok.mp haggregate
  change rav.valueAggregate.toNat = prev.message.valueAggregate.toNat + _ at hvalue
  have hlatest := le_latest prev.message.timestampNs.toNat (receiptsOf receipts)
  change rav.timestampNs.toNat = latest prev.message.timestampNs.toNat _ at htimestamp
  exact ⟨by omega, by omega⟩

/-! ## The invariant -/

/-- Every returned request expects the aggregate of its receipts on top of what it read. -/
def Overlap.Aggregated (run : Overlap) : Prop :=
  ∀ request ∈ run.requests,
    request.expectedRav = Aggregate.aggregateReceipts request.validReceipts request.previousRav

section Overlap

variable {ω Domain Key : Type} {run : Overlap}

-- Along the requests a RAV descends from, timestamp and value only grow.
theorem Overlap.Aggregated.descends_atLeast (h : run.Aggregated)
    {newer older : ReceiptAggregateVoucher} (hdescends : DescendsFrom run.requests newer older) :
    newer.AtLeast older := by
  induction hdescends with
  | refl => exact .refl _
  | tail _ hbuilds ih =>
    obtain ⟨request, hrequest, hexpected, prev, hprev, rfl⟩ := hbuilds
    rw [h request hrequest] at hexpected
    exact ih.trans (ReceiptAggregateVoucher.aggregate_atLeast hexpected prev hprev)

variable [Alloy Key] [AlloyText] [SolStruct Domain ReceiptAggregateVoucher]
  {indexer : Indexer ω Domain}

-- Only `selectReceipts` adds a request, and it adds an aggregate.
theorem Overlap.Aggregated.of_step (h : run.Aggregated) (around : Surroundings ω)
    (moment : Moment) : (run.step indexer around moment).Aggregated := by
  cases moment with
  | readPreviousRav => exact h
  | selectReceipts begun clock timestampBufferNs limit =>
    unfold Overlap.step
    dsimp only
    split
    · exact h
    · rename_i previousRav _
      split
      · exact h
      · rename_i request context world hresult
        obtain ⟨min, now, max, retrieved, hrequested⟩ :=
          Manager.createRavRequestFrom_ok (congrArg Prod.fst hresult)
        intro other hother
        rcases List.mem_append.mp hother with hold | hnew
        · exact h other hold
        · obtain rfl := List.mem_singleton.mp hnew
          rw [hrequested.expected, hrequested.based]
  | verifyAndStoreRav request signedRav =>
    unfold Overlap.step
    dsimp only
    split
    · exact h
    · split
      · exact h
      · exact h
  | otherCall receiptStorage uniqueId => exact h

theorem Overlap.Reachable.aggregated (h : Overlap.Reachable indexer run) : run.Aggregated := by
  induction h with
  | start context => exact fun request hrequest ↦ by cases hrequest
  | step around moment _ ih => exact ih.of_step around moment

/-- Storing the RAV of a request never falls below what that request read, nor below a stored RAV
that the request descends from. -/
theorem Overlap.verifyAndStoreRav_atLeast (indexer : Indexer ω Domain) (run : Overlap)
    (h : Overlap.Reachable indexer run) (around : Surroundings ω) (index : Nat)
    (request : RavRequest SignedReceipt ReceiptAggregateVoucher)
    (expectedRav : ReceiptAggregateVoucher) (signedRav : SignedRav)
    (hrequest : run.requests[index]? = some request)
    (hexpected : request.expectedRav = .ok expectedRav)
    (hstored : ((indexer.manager around).verifyAndStoreRav expectedRav signedRav run.context).1 =
      .ok ()) :
    (run.step indexer around (.verifyAndStoreRav index signedRav)).context.ravStorage =
        some signedRav ∧
      (∀ prev ∈ request.previousRav, signedRav.message.AtLeast prev.message) ∧
      ∀ before ∈ run.context.ravStorage,
        DescendsFrom run.requests signedRav.message before.message →
          signedRav.message.AtLeast before.message := by
  have hinv := h.aggregated
  have hmem : request ∈ run.requests := List.mem_of_getElem? hrequest
  rcases indexer.verifyAndStoreRav_cases around expectedRav signedRav run.context with
    ⟨e, hrefused⟩ | ⟨rfl, hok⟩
  · rw [hrefused] at hstored
    cases hstored
  · refine ⟨?_, fun prev hprev ↦ ?_, fun before _ hdescends ↦ hinv.descends_atLeast hdescends⟩
    · simp only [Overlap.step, hrequest, hexpected, hok]
      rfl
    · have hbuilds : BuildsOn run.requests signedRav.message prev.message :=
        ⟨request, hmem, hexpected, prev, hprev, rfl⟩
      exact hinv.descends_atLeast (Relation.ReflTransGen.single hbuilds)

end Overlap

/-! ## Two requests that overlap -/

namespace Known

/-- Both requests read that nothing is stored; the one for both receipts is committed first. -/
def overlap : Overlap :=
  let moments := [
    .readPreviousRav,
    .readPreviousRav,
    .selectReceipts 0 (.ok 15) 0 none,
    .selectReceipts 1 (.ok 30) 0 none,
    .verifyAndStoreRav 1 (signed .one (rav 20 12))]
  moments.foldl (fun run moment ↦ run.step indexer surroundings moment) (.start (store batch))

theorem overlap_reachable : Overlap.Reachable indexer overlap :=
  List.foldlRecOn _ _ (.start _) fun _ h moment _ ↦ h.step surroundings moment

end Known

open Known in
/-- Committing the other request takes the stored RAV from twelve back to five. -/
theorem Overlap.verifyAndStoreRav_moves_backwards :
    Overlap.Reachable indexer overlap ∧
      overlap.context.ravStorage = some (signed .one (rav 20 12)) ∧
      (overlap.requests[0]?.map (·.expectedRav)) = some (.ok (rav 10 5)) ∧
      ((indexer.manager surroundings).verifyAndStoreRav (rav 10 5) (signed .one (rav 10 5))
        overlap.context).1 = .ok () ∧
      (overlap.step indexer surroundings
        (.verifyAndStoreRav 0 (signed .one (rav 10 5)))).context.ravStorage =
          some (signed .one (rav 10 5)) ∧
      ¬(rav 10 5).AtLeast (rav 20 12) :=
  ⟨overlap_reachable, by decide +kernel, by decide +kernel, by decide +kernel, by decide +kernel,
    fun h ↦ absurd h.1 (by decide)⟩

open Known in
/-- Storing the larger RAV once more leaves it where it is. -/
theorem Overlap.verifyAndStoreRav_atLeast_known :
    overlap.context.ravStorage = some (signed .one (rav 20 12)) ∧
      (overlap.step indexer surroundings
        (.verifyAndStoreRav 1 (signed .one (rav 20 12)))).context.ravStorage =
          some (signed .one (rav 20 12)) ∧
      ∀ before ∈ overlap.context.ravStorage,
        DescendsFrom overlap.requests (rav 20 12) before.message →
          (rav 20 12).AtLeast before.message := by
  have hrequest : overlap.requests[1]? = some request := by decide +kernel
  have hatLeast := Overlap.verifyAndStoreRav_atLeast indexer overlap overlap_reachable surroundings
    1 request (rav 20 12) (signed .one (rav 20 12)) hrequest rfl (by decide +kernel)
  exact ⟨by decide +kernel, hatLeast.1, hatLeast.2.2⟩

end GraphTally
