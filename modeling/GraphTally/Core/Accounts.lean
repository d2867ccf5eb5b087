import GraphTally.Core.Selection

/-!
# Whose account an expected RAV speaks for

The ids of an expected RAV are those of the first valid receipt.  Whether they are everybody's is
up to what the store answers with and the checks let through.
-/

open GraphTally.Theory

namespace GraphTally

/-- An RAV is only ever expected for the account of all the receipts and of the previous RAV. -/
def SpeaksForItsAccount (receipts : List SignedReceipt) (previousRav : Option SignedRav)
    (expectedRav : Except AggregationError ReceiptAggregateVoucher) : Prop :=
  ∀ rav, expectedRav = .ok rav →
    (∀ receipt ∈ receipts, receipt.message.account = rav.account) ∧
      ∀ prev ∈ previousRav, prev.message.account = rav.account

/-- Some receipt is of another account than another receipt, or than the previous RAV. -/
def MixesAccounts (receipts : List SignedReceipt) (previousRav : Option SignedRav) : Prop :=
  ∃ receipt ∈ receipts, (∃ other ∈ receipts, other.message.account ≠ receipt.message.account) ∨
    ∃ prev ∈ previousRav, prev.message.account ≠ receipt.message.account

/-- No RAV can carry what the receipts add up to on top of the previous RAV. -/
def ExceedsRav (receipts : List SignedReceipt) (previousRav : Option SignedRav) : Prop :=
  2 ^ 128 ≤ previousValue previousRav + exactTotal receipts

/-! ## The aggregation -/

section Aggregation

variable {receipts : List (ReceiptWithState Checked SignedReceipt)}
  {previousRav : Option SignedRav} {rav : ReceiptAggregateVoucher}

-- The result takes its account from the first receipt, and is there only if the values fit.
theorem aggregate_account
    (h : Aggregate.aggregateReceipts receipts previousRav = .ok rav) :
    (∃ first ∈ receiptsOf receipts, first.message.account = rav.account) ∧
      ¬ExceedsRav (receiptsOf receipts) previousRav := by
  rcases ReceiptAggregateVoucher.aggregate_eq_ok.mp h with ⟨first, hfirst, hrav⟩
  have haccount := (ReceiptAggregateVoucher.aggregateReceipts_eq_ok.mp hrav).1
  have hfits := ReceiptAggregateVoucher.aggregateReceipts_isOk.mp ⟨rav, hrav⟩
  exact ⟨⟨first, List.mem_of_head? hfirst, haccount.symm⟩, Nat.not_le_of_lt hfits⟩

theorem aggregate_of_fits {receipt : SignedReceipt} (hmem : receipt ∈ receiptsOf receipts)
    (hfits : ¬ExceedsRav (receiptsOf receipts) previousRav) :
    ∃ rav, Aggregate.aggregateReceipts receipts previousRav = .ok rav := by
  cases hreceipts : receiptsOf receipts with
  | nil =>
    rw [hreceipts] at hmem
    cases hmem
  | cons first rest =>
    have hfits := Nat.lt_of_not_le hfits
    obtain ⟨rav, hrav⟩ : ∃ rav, ReceiptAggregateVoucher.aggregateFor first.message.account
        (receiptsOf receipts) previousRav = .ok rav :=
      ReceiptAggregateVoucher.aggregateReceipts_isOk.mpr hfits
    exact ⟨rav, ReceiptAggregateVoucher.aggregate_eq_ok.mpr ⟨first, by rw [hreceipts]; rfl, hrav⟩⟩

theorem aggregate_speaksForItsAccount_iff (receipts : List (ReceiptWithState Checked SignedReceipt))
    (previousRav : Option SignedRav) :
    SpeaksForItsAccount (receiptsOf receipts) previousRav
        (Aggregate.aggregateReceipts receipts previousRav) ↔
      (MixesAccounts (receiptsOf receipts) previousRav →
        ExceedsRav (receiptsOf receipts) previousRav) := by
  constructor
  · rintro hspeaks ⟨receipt, hreceipt, hmixes⟩
    by_contra hfits
    -- the batch aggregates, so one account must be everybody's
    rcases aggregate_of_fits hreceipt hfits with ⟨rav, hrav⟩
    rcases hspeaks rav hrav with ⟨hreceipts, hprevious⟩
    rcases hmixes with ⟨other, hother, hne⟩ | ⟨prev, hprev, hne⟩
    · exact hne ((hreceipts other hother).trans (hreceipts receipt hreceipt).symm)
    · exact hne ((hprevious prev hprev).trans (hreceipts receipt hreceipt).symm)
  · intro hmixes rav hrav
    rcases aggregate_account hrav with ⟨⟨first, hfirst, haccount⟩, hfits⟩
    have hunmixed := mt hmixes hfits
    simp only [MixesAccounts, not_exists, not_and, not_or, not_not] at hunmixed
    rw [← haccount]
    exact hunmixed first hfirst

end Aggregation

/-! ## What a request lets through -/

section Candidates

variable {ω Rcpt Id : Type}

/-- The receipts that pass all checks, asked of one after the other while what is outside changes
with each answer; none at all when a check puts its answer off. -/
def admitted (checks : CheckList ω Rcpt) : List Rcpt → ω → Option (List Rcpt)
  | [], _ => some []
  | receipt :: receipts, world =>
    match (ReceiptWithState.new receipt).performChecks checks world with
    | (.ok (), world) => (admitted checks receipts world).map (receipt :: ·)
    | (.error (.retryableCheck _), _) => none
    | (.error _, world) => admitted checks receipts world

-- The loop of checks keeps exactly those.
theorem finalizeReceipts_admitted (checks : CheckList ω Rcpt)
    (receipts : List (ReceiptWithState Checking Rcpt)) (world : ω) :
    (finalizeReceipts checks receipts world).1.toOption.map (receiptsOf ·.1) =
      admitted checks (receiptsOf receipts) world := by
  induction receipts generalizing world with
  | nil => rfl
  | cons receipt receipts ih =>
    have hnew : ReceiptWithState.new receipt.receipt = receipt := rfl
    rw [finalizeReceipts, receiptsOf_cons, admitted, hnew,
      ReceiptWithState.finalizeReceiptChecks]
    rcases receipt.performChecks checks world with ⟨error | _, world'⟩
    · cases error with
      | retryableCheck e => rfl
      | _ =>
        dsimp only
        rw [← ih world']
        rcases finalizeReceipts checks receipts world' with ⟨_ | _, _⟩ <;> rfl
    · dsimp only
      rw [← ih world']
      rcases finalizeReceipts checks receipts world' with ⟨_ | _, _⟩ <;> rfl

variable [DecidableEq Id] [WithUniqueId Rcpt Id]

/-- Of each unique id, the first receipt. -/
def firstOfIds : List Rcpt → List Rcpt
  | [] => []
  | receipt :: receipts =>
    receipt :: (firstOfIds receipts).filter fun other ↦ uniqueId other ≠ uniqueId receipt

-- The uniqueness check leaves out the ids it has seen before as well.
theorem UniqueCheck.checkFrom_firstOfIds (signatures : Finset Id)
    (receipts : List (ReceiptWithState Checking Rcpt)) :
    receiptsOf (UniqueCheck.checkFrom signatures receipts).1 =
      (firstOfIds (receiptsOf receipts)).filter (uniqueId · ∉ signatures) := by
  induction receipts generalizing signatures with
  | nil => rfl
  | cons receipt receipts ih =>
    have hrest : receiptsOf (UniqueCheck.checkFrom (insert (uniqueId receipt.receipt) signatures)
        receipts).1 = ((firstOfIds (receiptsOf receipts)).filter fun other ↦
          uniqueId other ≠ uniqueId receipt.receipt).filter (uniqueId · ∉ signatures) := by
      rw [ih, List.filter_filter]
      simp only [Finset.mem_insert, not_or, Bool.decide_and, Bool.and_comm]
    rw [UniqueCheck.checkFrom, receiptsOf_cons, firstOfIds]
    split
    · rename_i hseen
      rw [List.filter_cons_of_neg (by simpa using hseen)]
      exact hrest
    · rename_i hfresh
      rw [List.filter_cons_of_pos (by simpa using hfresh), receiptsOf_cons, hrest]

variable [WithValueAndTimestamp Rcpt]

theorem survivors_firstOfIds (min : U64) (retrieved : List (ReceiptWithState Checking Rcpt)) :
    receiptsOf (survivors min retrieved) =
      firstOfIds ((receiptsOf retrieved).filter fun receipt ↦
        min.toNat ≤ (timestampNs receipt).toNat) := by
  rw [survivors, UniqueCheck.checkBatch, UniqueCheck.checkFrom_firstOfIds,
    TimestampCheck.checkBatch_receiptsOf]
  exact List.filter_eq_self.mpr fun _ _ ↦ by simp

/-- The receipts of an answer that a request aggregates: those at or above the minimum, the first
of each id, that the checks let through. -/
def candidates (checks : CheckList ω Rcpt) (min : U64)
    (retrieved : List (ReceiptWithState Checking Rcpt)) (world : ω) : Option (List Rcpt) :=
  admitted checks (firstOfIds ((receiptsOf retrieved).filter fun receipt ↦
    min.toNat ≤ (timestampNs receipt).toNat)) world

end Candidates

/-! ## One call of `create_rav_request` -/

namespace Manager

section Finds

variable {σ ω Rcpt Rav Domain Id : Type} [WithValueAndTimestamp Rcpt] [DecidableEq Id]
  [WithUniqueId Rcpt Id] [WithValueAndTimestamp Rav] {manager : Manager σ ω Rcpt Rav Domain}
  {profile : Profile} {clock : SystemTime} {timestampBufferNs min max : U64} {limit : Option U64}
  {s s' : σ} {world : ω} {previousRav : Option (Eip712SignedMessage Rav)}
  {retrieved : List (ReceiptWithState Checking Rcpt)}

/-- What is stored when a request is made: the last RAV, and the receipts the store answers with
for the window above it. -/
structure Finds (manager : Manager σ ω Rcpt Rav Domain) (profile : Profile) (clock : SystemTime)
    (timestampBufferNs : U64) (limit : Option U64) (s : σ)
    (previousRav : Option (Eip712SignedMessage Rav)) (min max : U64)
    (retrieved : List (ReceiptWithState Checking Rcpt)) (s' : σ) : Prop where
  previous : (manager.getPreviousRav s).1 = .ok previousRav
  lowerEnd : minTimestampNs profile previousRav = .ok min
  retrieves : manager.Retrieves profile clock timestampBufferNs min limit
    (manager.getPreviousRav s).2 max retrieved s'

variable [Aggregate Rcpt Rav]

-- A request that is made has found something, and aggregates the candidates.
theorem createRavRequest_finds {request : RavRequest Rcpt Rav}
    (h : (manager.createRavRequest profile clock timestampBufferNs limit s world).1 =
      .ok request) :
    (∃ min max retrieved s', manager.Finds profile clock timestampBufferNs limit s
        request.previousRav min max retrieved s' ∧
      candidates (manager.checks s') min retrieved world =
        some (receiptsOf request.validReceipts)) ∧
      request.expectedRav =
        Aggregate.aggregateReceipts request.validReceipts request.previousRav := by
  unfold createRavRequest at h
  split at h
  · cases h
  · rename_i previousRav s₁ hprevious
    unfold createRavRequestFrom at h
    split at h
    · cases h
    · rename_i min hmin
      split at h
      · cases h
      · rename_i valid invalid s₂ world' hcollect
        cases h
        have hcollect := congrArg Prod.fst hcollect
        rcases collectReceipts_ok hcollect with ⟨now, max, retrieved, hcollected⟩
        have hupper : maxTimestampNs profile clock timestampBufferNs = .ok max :=
          except_bind_eq_ok.mpr ⟨now, hcollected.clockRead, hcollected.upperEnd⟩
        have hretrieves : manager.Retrieves profile clock timestampBufferNs min limit s₁ max
            retrieved _ := ⟨hupper, hcollected.window, Prod.ext hcollected.read rfl⟩
        have hfinds : manager.Finds profile clock timestampBufferNs limit s previousRav min max
            retrieved _ := ⟨by rw [hprevious], hmin, by rw [hprevious]; exact hretrieves⟩
        rcases hretrieves.finalized hcollect with ⟨failed, hfinalized, -⟩
        refine ⟨⟨min, max, retrieved, _, hfinds, ?_⟩, rfl⟩
        rw [candidates, ← survivors_firstOfIds, ← finalizeReceipts_admitted, hfinalized]
        rfl

-- And one is made as soon as they are known.
theorem Finds.createRavRequest (h : manager.Finds profile clock timestampBufferNs limit s
      previousRav min max retrieved s') {batch : List Rcpt}
    (hbatch : candidates (manager.checks s') min retrieved world = some batch) :
    ∃ request, (manager.createRavRequest profile clock timestampBufferNs limit s world).1 =
        .ok request ∧
      receiptsOf request.validReceipts = batch ∧ request.previousRav = previousRav := by
  rw [candidates, ← survivors_firstOfIds, ← finalizeReceipts_admitted] at hbatch
  have hcollect := h.retrieves.collectReceipts_eq world
  rcases hfinalized : (finalizeReceipts (manager.checks s') (survivors min retrieved) world).1
    with _ | finalized
  · rw [hfinalized] at hbatch
    cases hbatch
  · rw [hfinalized] at hbatch hcollect
    cases hbatch
    have hprevious := h.previous
    unfold Manager.createRavRequest createRavRequestFrom
    rcases hread : manager.getPreviousRav s with ⟨previous, s₁⟩
    rw [hread] at hprevious hcollect
    cases hprevious
    simp only [h.lowerEnd]
    rcases hresult : manager.collectReceipts profile clock timestampBufferNs min limit s₁ world
      with ⟨result, s₂, world'⟩
    rw [hresult] at hcollect
    cases hcollect
    exact ⟨_, rfl, rfl, rfl⟩

end Finds

end Manager

/-- An expected RAV speaks for its own account exactly when the receipts it is aggregated from do
not mix accounts, or are worth more than an RAV can carry; for a request, these are the receipts
that the store answers with for its window and the checks let through. -/
theorem expectedRav_speaksForItsAccount_iff {σ ω Domain Id : Type} [DecidableEq Id]
    [WithUniqueId SignedReceipt Id] :
    (∀ (receipts : List (ReceiptWithState Checked SignedReceipt)) (previousRav : Option SignedRav),
      SpeaksForItsAccount (receiptsOf receipts) previousRav
          (Aggregate.aggregateReceipts receipts previousRav) ↔
        (MixesAccounts (receiptsOf receipts) previousRav →
          ExceedsRav (receiptsOf receipts) previousRav)) ∧
    ∀ (manager : Manager σ ω SignedReceipt ReceiptAggregateVoucher Domain) (profile : Profile)
      (clock : SystemTime) (timestampBufferNs : U64) (limit : Option U64) (s : σ) (world : ω),
      (∀ request, (manager.createRavRequest profile clock timestampBufferNs limit s world).1 =
          .ok request →
        SpeaksForItsAccount (receiptsOf request.validReceipts) request.previousRav
          request.expectedRav) ↔
      ∀ previousRav min max retrieved s' batch,
        manager.Finds profile clock timestampBufferNs limit s previousRav min max retrieved s' →
        candidates (manager.checks s') min retrieved world = some batch →
        MixesAccounts batch previousRav → ExceedsRav batch previousRav := by
  refine ⟨aggregate_speaksForItsAccount_iff, ?_⟩
  intro manager profile clock timestampBufferNs limit s world
  constructor
  · intro hspeaks previousRav min max retrieved s' batch hfinds hbatch
    rcases hfinds.createRavRequest hbatch with ⟨request, hrequest, rfl, rfl⟩
    have hrequested := hspeaks request hrequest
    rw [(Manager.createRavRequest_finds hrequest).2] at hrequested
    exact (aggregate_speaksForItsAccount_iff _ _).mp hrequested
  · intro hmixes request hrequest
    rcases Manager.createRavRequest_finds hrequest with
      ⟨⟨min, max, retrieved, s', hfinds, hbatch⟩, hexpected⟩
    rw [hexpected]
    exact (aggregate_speaksForItsAccount_iff _ _).mpr
      (hmixes _ min max retrieved s' _ hfinds hbatch)

/-! ## A collection set with two collections in it -/

namespace Known

def mixedBatch : List SignedReceipt :=
  [signed .one (receipt 10 1 5), signed .one (receiptFor otherAccount 20 2 7)]

/-- The RAV is for the other collection and carries the value of both. -/
def mixedRequest : RavRequest SignedReceipt ReceiptAggregateVoucher where
  validReceipts := mixedBatch.reverse.map fun receipt ↦ ⟨receipt, ⟨⟩⟩
  previousRav := none
  invalidReceipts := []
  expectedRav := .ok { rav 20 12 with collectionId := otherAccount.collectionId }

-- Whatever the request finds is of one account.
theorem batch_unmixed {previousRav : Option SignedRav} {min max : U64}
    {retrieved : List (ReceiptWithState Checking SignedReceipt)} {s' : InMemoryContext}
    {receipts : List SignedReceipt}
    (h : manager.Finds .debug (.ok 100) 0 none (store batch) previousRav min max retrieved s')
    (hreceipts : candidates (manager.checks s') min retrieved collections = some receipts) :
    ¬MixesAccounts receipts previousRav := by
  cases h.previous
  cases h.lowerEnd
  cases h.retrieves.upperEnd
  cases h.retrieves.read
  have hfound : candidates (manager.checks (store batch)) 0
      ((store batch).retrieveReceiptsInTimestampRange .insertionOrder .merge (.halfOpen 0 100)
        none) collections = some batch.reverse := by decide +kernel
  obtain rfl := Option.some.inj (hreceipts.symm.trans hfound)
  have haccount : ∀ receipt ∈ batch.reverse, receipt.message.account = account := by
    decide +kernel
  rintro ⟨receipt, hreceipt, ⟨other, hother, hne⟩ | ⟨prev, hprev, -⟩⟩
  · exact hne ((haccount other hother).trans (haccount receipt hreceipt).symm)
  · cases hprev

end Known

open Known in
theorem expectedRav_mixes_accounts :
    (manager.createRavRequest .debug (.ok 100) 0 none (store mixedBatch) collections).1 =
        .ok mixedRequest ∧
      ¬SpeaksForItsAccount (receiptsOf mixedRequest.validReceipts) mixedRequest.previousRav
        mixedRequest.expectedRav := by
  refine ⟨by decide +kernel, fun hspeaks ↦ ?_⟩
  have hreceipt := (hspeaks _ rfl).1 (signed .one (receipt 10 1 5)) (by decide +kernel)
  exact absurd hreceipt (by decide +kernel)

open Known in
/-- Over one account the request speaks for it. -/
theorem expectedRav_speaksForItsAccount_iff_known :
    SpeaksForItsAccount (receiptsOf request.validReceipts) request.previousRav
      request.expectedRav :=
  (expectedRav_speaksForItsAccount_iff.2 manager .debug (.ok 100) 0 none (store batch)
    collections).mpr (fun _ _ _ _ _ _ hfinds hreceipts hmixes ↦
      absurd hmixes (batch_unmixed hfinds hreceipts)) request (by decide +kernel)

end GraphTally
