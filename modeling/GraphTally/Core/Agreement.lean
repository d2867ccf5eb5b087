import GraphTally.Aggregator.Acceptance
import GraphTally.Core.Accounts

/-!
# The indexer and the aggregator agree

The manager's expected RAV and the aggregator's signed one are computed by different code from
different types.  Over receipts the aggregator would accept they are the same RAV, or neither side
has one.
-/

open GraphTally.Theory

namespace GraphTally

section Agreement

variable {σ ω Domain Key : Type} [Alloy Key]

/-- The RAVs a manager's requests lead to: each was the expected RAV of a request made in some
state, on top of none or of another such RAV. -/
inductive FromRequest (manager : Manager σ ω SignedReceipt ReceiptAggregateVoucher Domain) :
    ReceiptAggregateVoucher → Prop
  | request {profile : Profile} {clock : SystemTime} {timestampBufferNs : U64}
      {limit : Option U64} {s : σ} {world : ω}
      {request : RavRequest SignedReceipt ReceiptAggregateVoucher}
      {rav : ReceiptAggregateVoucher} :
      (manager.createRavRequest profile clock timestampBufferNs limit s world).1 = .ok request →
      (∀ prev ∈ request.previousRav, FromRequest manager prev.message) →
      request.expectedRav = .ok rav → FromRequest manager rav

/-- The states whose stored RAV, if there is one, came from an earlier request. -/
def StoredFromRequest (manager : Manager σ ω SignedReceipt ReceiptAggregateVoucher Domain)
    (s : σ) : Prop :=
  ∀ prev s', manager.getPreviousRav s = (.ok (some prev), s') → FromRequest manager prev.message

variable {manager : Manager σ ω SignedReceipt ReceiptAggregateVoucher Domain}

/-- The timestamp of such a RAV can be incremented. -/
theorem FromRequest.timestamp_fits (hread : manager.context.ReadsInRange)
    {rav : ReceiptAggregateVoucher} (h : FromRequest manager rav) :
    rav.timestampNs.toNat + 1 < 2 ^ 64 := by
  induction h with
  | request hrequest _ hexpected ih =>
    obtain ⟨s', -, min, now, max, retrieved, hrequested⟩ := Manager.createRavRequest_ok hrequest
    have hlt := hrequested.expected_lt_max hread ih hexpected
    have hmax := max.isLt
    omega

theorem StoredFromRequest.previous_fits (hread : manager.context.ReadsInRange) {s s' : σ}
    (hfrom : StoredFromRequest manager s) {previousRav : Option SignedRav}
    (h : manager.getPreviousRav s = (.ok previousRav, s')) :
    ∀ prev ∈ previousRav, prev.message.timestampNs.toNat + 1 < 2 ^ 64 := by
  rintro prev rfl
  exact (hfrom prev s' h).timestamp_fits hread

variable [SolStruct Domain Receipt] [SolStruct Domain ReceiptAggregateVoucher]

/-- Signed by an address the registry accepts for `payer`. -/
def AcceptedFor {M : Type} [SolStruct Domain M] (signers : SignerRegistry Key)
    (domainSeparator : Domain) (payer : Address) (message : Eip712SignedMessage M) : Prop :=
  ∃ wallet accepted, signers.resolve payer = some (wallet, accepted) ∧
    SignedByOneOf domainSeparator accepted message

/-- A request's receipts pass every check of the aggregator's. -/
theorem acceptable_of_requested [AlloyText] {profile : Profile} {clock : SystemTime}
    {timestampBufferNs : U64} {limit : Option U64} {s : σ}
    {request : RavRequest SignedReceipt ReceiptAggregateVoucher} {min now max : U64}
    {retrieved : List (ReceiptWithState Checking SignedReceipt)} {signers : SignerRegistry Key}
    {account : Account} {first : SignedReceipt}
    (hrequested : manager.Requested profile clock timestampBufferNs limit request.previousRav s
      request min now max retrieved)
    (hread : manager.context.ReadsInRange)
    (hfits : ∀ prev ∈ request.previousRav, prev.message.timestampNs.toNat + 1 < 2 ^ 64)
    (hhead : (receiptsOf request.validReceipts).head? = some first)
    (hreceipts : ∀ receipt ∈ receiptsOf request.validReceipts,
      receipt.message.account = account ∧
        AcceptedFor signers manager.domainSeparator account.payer receipt)
    (hprevious : ∀ prev ∈ request.previousRav, prev.message.account = account ∧
      AcceptedFor signers manager.domainSeparator account.payer prev)
    (htotal : previousValue request.previousRav +
      exactTotal (receiptsOf request.validReceipts) < 2 ^ 128) :
    ∃ wallet accepted, Acceptable manager.domainSeparator (receiptsOf request.validReceipts)
      request.previousRav signers first wallet accepted := by
  obtain ⟨rfl, wallet, accepted, hresolve, -⟩ := hreceipts first (List.mem_of_head? hhead)
  -- the registry has one entry for the payer, so every acceptance is in the same set
  have hsame : ∀ {M : Type} [SolStruct Domain M] {message : Eip712SignedMessage M},
      AcceptedFor signers manager.domainSeparator first.message.account.payer message →
        SignedByOneOf manager.domainSeparator accepted message := by
    rintro M _ message ⟨wallet', accepted', hresolve', hsigned⟩
    obtain ⟨-, rfl⟩ : wallet = wallet' ∧ accepted = accepted' := by
      simpa using hresolve.symm.trans hresolve'
    exact hsigned
  exact ⟨wallet, accepted, {
    head := hhead
    unique := hrequested.unique
    resolves := hresolve
    receiptsSigned := fun receipt hreceipt ↦ hsame (hreceipts receipt hreceipt).2
    previousSigned := fun prev hprev ↦ hsame (hprevious prev hprev).2
    later := hrequested.above hread hfits
    sameAccount := fun receipt hreceipt ↦ (hreceipts receipt hreceipt).1
    previousAccount := fun prev hprev ↦ (hprevious prev hprev).1
    fits := htotal }⟩

/-- The RAV the aggregator returns for a request's receipts is the one the request expects. -/
theorem issued_iff_expected [AlloyText] (hsign : SignsRecoverably Key) {profile : Profile}
    {clock : SystemTime} {timestampBufferNs : U64} {limit : Option U64} {s : σ}
    {request : RavRequest SignedReceipt ReceiptAggregateVoucher} {min now max : U64}
    {retrieved : List (ReceiptWithState Checking SignedReceipt)} {signers : SignerRegistry Key}
    {account : Account}
    (hrequested : manager.Requested profile clock timestampBufferNs limit request.previousRav s
      request min now max retrieved)
    (hread : manager.context.ReadsInRange)
    (hfits : ∀ prev ∈ request.previousRav, prev.message.timestampNs.toNat + 1 < 2 ^ 64)
    (hreceipts : ∀ receipt ∈ receiptsOf request.validReceipts,
      receipt.message.account = account ∧
        AcceptedFor signers manager.domainSeparator account.payer receipt)
    (hprevious : ∀ prev ∈ request.previousRav, prev.message.account = account ∧
      AcceptedFor signers manager.domainSeparator account.payer prev)
    (message : ReceiptAggregateVoucher) :
    (∃ signed, checkAndAggregateReceipts manager.domainSeparator
        (receiptsOf request.validReceipts) request.previousRav signers = .ok signed ∧
          signed.message = message) ↔ request.expectedRav = .ok message := by
  rw [hrequested.expected, ReceiptAggregateVoucher.aggregate_eq_ok]
  constructor
  · rintro ⟨signed, hsigned, rfl⟩
    obtain ⟨first, wallet, accepted, hacceptable, haggregate, -⟩ :=
      checkAndAggregateReceipts_eq_ok.mp hsigned
    exact ⟨first, hacceptable.head, haggregate⟩
  · rintro ⟨first, hhead, haggregate⟩
    have htotal := ReceiptAggregateVoucher.aggregateReceipts_isOk.mp ⟨message, haggregate⟩
    obtain ⟨wallet, accepted, hacceptable⟩ := acceptable_of_requested hrequested hread hfits
      hhead hreceipts hprevious htotal
    obtain ⟨signature, hsignature⟩ := hsign.signs wallet
      (SolStruct.eip712SigningHash manager.domainSeparator message)
    exact ⟨⟨message, signature⟩, checkAndAggregateReceipts_eq_ok.mpr
      ⟨first, wallet, accepted, hacceptable, haggregate, hsignature⟩, rfl⟩

/-- Over receipts of one account that the aggregator's registry accepts, the aggregator returns
a RAV exactly when the request expects that RAV, and the signed RAV is then stored. -/
theorem request_agrees_with_aggregator [AlloyText] (hsign : SignsRecoverably Key)
    (manager : Manager σ ω SignedReceipt ReceiptAggregateVoucher Domain)
    (held : σ → List SignedReceipt) (hcontract : ReceiptReadContract manager.context held)
    (signers : SignerRegistry Key) (account : Account) (profile : Profile) (clock : SystemTime)
    (timestampBufferNs : U64) (limit : Option U64) (s : σ) (world : ω)
    (request : RavRequest SignedReceipt ReceiptAggregateVoucher)
    (hfrom : StoredFromRequest manager s)
    (hrequest : (manager.createRavRequest profile clock timestampBufferNs limit s world).1 =
      .ok request)
    (hreceipts : ∀ receipt ∈ receiptsOf request.validReceipts,
      receipt.message.account = account ∧
        AcceptedFor signers manager.domainSeparator account.payer receipt)
    (hprevious : ∀ prev ∈ request.previousRav, prev.message.account = account ∧
      AcceptedFor signers manager.domainSeparator account.payer prev) :
    (∀ message, (∃ signed, checkAndAggregateReceipts manager.domainSeparator
        (receiptsOf request.validReceipts) request.previousRav signers = .ok signed ∧
          signed.message = message) ↔ request.expectedRav = .ok message) ∧
    ∀ message signed, request.expectedRav = .ok message →
      checkAndAggregateReceipts manager.domainSeparator (receiptsOf request.validReceipts)
        request.previousRav signers = .ok signed →
      ∀ later, (∀ received expected, (manager.verifyAndStoreRav message signed later).1 ≠
          .error (.error (.invalidReceivedRav received expected))) ∧
        ∀ signer later', signed.recoverSigner manager.domainSeparator = .ok signer →
          manager.context.verifySigner signer later = (.ok true, later') →
            manager.verifyAndStoreRav message signed later =
              ((manager.context.updateLastRav signed later').1.mapError .adapterError,
                (manager.context.updateLastRav signed later').2) := by
  have hread : manager.context.ReadsInRange := hcontract.readsInRange
  obtain ⟨s', hprev, min, now, max, retrieved, hrequested⟩ := Manager.createRavRequest_ok hrequest
  have hfits := hfrom.previous_fits hread hprev
  have hagree := issued_iff_expected hsign hrequested hread hfits hreceipts hprevious
  refine ⟨hagree, fun message signed hexpected hsigned later ↦ ?_⟩
  obtain rfl : signed.message = message := by
    have hsame := (hagree signed.message).mp ⟨signed, hsigned, rfl⟩
    exact Except.ok.inj (hsame.symm.trans hexpected)
  exact ⟨Manager.verifyAndStoreRav_compares signed later,
    fun signer later' ↦ Manager.verifyAndStoreRav_stores⟩

end Agreement

/-! ## A second batch on a stored RAV -/

namespace Known

def firstRav : SignedRav := signed .one (rav 20 12)

/-- The RAV of the first request is stored, and so are later receipts. -/
def resumed : InMemoryContext :=
  laterBatch.foldl (fun context receipt ↦ (context.storeReceipt .debug (.new receipt)).2)
    ((store batch).updateLastRav firstRav)

def laterRequest : RavRequest SignedReceipt ReceiptAggregateVoucher where
  validReceipts := laterBatch.map fun receipt ↦ ⟨receipt, ⟨⟩⟩
  previousRav := some firstRav
  invalidReceipts := []
  expectedRav := .ok (rav 30 21)

theorem resumed_storedFromRequest : StoredFromRequest manager resumed := by
  intro prev s' hprev
  cases hprev
  have hrequest : (manager.createRavRequest .debug (.ok 100) 0 none (store batch)
      collections).1 = .ok request := by decide +kernel
  exact .request hrequest (fun _ hnone ↦ absurd hnone (Option.not_mem_none _)) rfl

theorem acceptedFor_one {M : Type} [SolStruct Eip712Domain M] {message : Eip712SignedMessage M}
    (h : message.recoverSigner domain = .ok Key.one.address) :
    AcceptedFor registry domain account.payer message :=
  ⟨.one, {Key.one.address}, by rfl, Key.one.address, by simp, h⟩

end Known

open Known in
/-- The aggregator returns the RAV the second request expects, and it can be stored. -/
theorem request_agrees_with_aggregator_known :
    ∃ issued, checkAndAggregateReceipts domain laterBatch (some firstRav) registry = .ok issued ∧
      issued.message = rav 30 21 ∧
      ∀ later, ∀ received expected, (manager.verifyAndStoreRav (rav 30 21) issued later).1 ≠
        .error (.error (.invalidReceivedRav received expected)) := by
  have hknown : ∀ receipt ∈ receiptsOf laterRequest.validReceipts,
      receipt.message.account = account ∧
        receipt.recoverSigner domain = .ok Key.one.address := by decide +kernel
  have hfirst : firstRav.message.account = account ∧
      firstRav.recoverSigner domain = .ok Key.one.address := by decide +kernel
  have hagrees := request_agrees_with_aggregator signsRecoverably manager InMemoryContext.held
    (InMemoryContext.readContract .debug .insertionOrder .merge) registry account .debug (.ok 100)
    0 none resumed collections laterRequest resumed_storedFromRequest (by decide +kernel)
    (fun receipt hreceipt ↦
      ⟨(hknown receipt hreceipt).1, acceptedFor_one (hknown receipt hreceipt).2⟩)
    (fun prev hprev ↦ by
      obtain rfl := Option.some_inj.mp hprev
      exact ⟨hfirst.1, acceptedFor_one hfirst.2⟩)
  obtain ⟨issued, hissued, hmessage⟩ := (hagrees.1 (rav 30 21)).mpr rfl
  exact ⟨issued, hissued, hmessage, fun later ↦ (hagrees.2 _ issued rfl hissued later).1⟩

end GraphTally
