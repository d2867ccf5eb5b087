import GraphTally.Core.Requests

/-!
# The in-memory context

`InMemoryContext`: the adapters over hash tables, and the checks that come with it.
-/

open GraphTally.Theory

namespace GraphTally

abbrev ReceiptStorage := HashTable U64 (ReceiptWithState Checking SignedReceipt)
abbrev EscrowStorage := HashTable Address U128

structure InMemoryContext where
  ravStorage : Option SignedRav
  receiptStorage : ReceiptStorage
  uniqueId : U64
  senderEscrowStorage : EscrowStorage
  timestampCheck : StatefulTimestampCheck
  senderAddress : Option Address

namespace InMemoryContext

def new (ravStorage : Option SignedRav) (receiptStorage : ReceiptStorage)
    (senderEscrowStorage : EscrowStorage) (timestampCheck : StatefulTimestampCheck) :
    InMemoryContext :=
  { ravStorage, receiptStorage, uniqueId := 0, senderEscrowStorage, timestampCheck,
    senderAddress := none }

def withSenderAddress (self : InMemoryContext) (senderAddress : Address) : InMemoryContext :=
  { self with senderAddress := some senderAddress }

/-! ## Receipts -/

/-- The counter is read, used as the key, and then incremented with a plain `+=`. -/
def storeReceipt (profile : Profile) (receipt : ReceiptWithState Checking SignedReceipt)
    (self : InMemoryContext) : Outcome String U64 × InMemoryContext :=
  let stored := { self with receiptStorage := self.receiptStorage.insert self.uniqueId receipt }
  match (plainAdd profile self.uniqueId 1 : Outcome String U64) with
  | .error e => (.error e, stored)
  | .ok next => (.ok self.uniqueId, { stored with uniqueId := next })

def retrieveReceiptById (receiptId : U64) (self : InMemoryContext) :
    Outcome String (ReceiptWithState Checking SignedReceipt) :=
  match self.receiptStorage.lookup receiptId with
  | some receipt => .ok receipt
  | none => .error (.error "something went wrong: No receipt found with ID")

def removeReceiptById (receiptId : U64) (self : InMemoryContext) :
    Outcome String Unit × InMemoryContext :=
  match self.receiptStorage.lookup receiptId with
  | some _ => (.ok (), { self with receiptStorage := self.receiptStorage.erase receiptId })
  | none => (.error (.error "something went wrong: No receipt found with ID"), self)

/-- The loop stops at the first missing id and keeps what it removed before. -/
def removeReceiptsByIds : List U64 → InMemoryContext → Outcome String Unit × InMemoryContext
  | [], self => (.ok (), self)
  | receiptId :: receiptIds, self =>
    match self.removeReceiptById receiptId with
    | (.error e, self) => (.error e, self)
    | (.ok (), self) => removeReceiptsByIds receiptIds self

def removeReceiptsInTimestampRange (range : TimestampRange) (self : InMemoryContext) :
    Outcome String Unit × InMemoryContext :=
  (.ok (), { self with
    receiptStorage := HashTable.retain (fun _ rx ↦ !range.contains rx.timestampNs)
      self.receiptStorage })

def retrieveReceiptsInTimestampRange (enumeration : Enumeration) (unstable : UnstableSort)
    (range : TimestampRange) (limit : Option U64) (self : InMemoryContext) :
    List (ReceiptWithState Checking SignedReceipt) :=
  let receiptsInRange := HashTable.valuesWhere enumeration
    (fun _ rx ↦ range.contains rx.timestampNs) self.receiptStorage
  match limit with
  | none => receiptsInRange
  | some limit =>
    if limit.toNat < receiptsInRange.length then
      safeTruncateReceipts unstable receiptsInRange limit
    else receiptsInRange

/-! ## RAVs, signers and escrow -/

def updateLastRav (rav : SignedRav) (self : InMemoryContext) : InMemoryContext :=
  { self with
    ravStorage := some rav
    timestampCheck := self.timestampCheck.updateMinTimestampNs rav.message.timestampNs }

def verifySigner (signerAddress : Address) (self : InMemoryContext) : Bool :=
  self.senderAddress.elim false (signerAddress = ·)

def escrow (senderId : Address) (self : InMemoryContext) : Outcome String U128 :=
  match self.senderEscrowStorage.lookup senderId with
  | some escrow => .ok escrow
  | none => .error (.error "something went wrong: No escrow exists for provided sender ID.")

def reduceEscrow (senderId : Address) (value : U128) (self : InMemoryContext) :
    Outcome String Unit × InMemoryContext :=
  let refused : Outcome String Unit × InMemoryContext :=
    (.error (.error "something went wrong: Provided value is greater than existing escrow."), self)
  match self.senderEscrowStorage.lookup senderId with
  | none => refused
  | some current =>
    if current.toNat < value.toNat then refused
    else (.ok (), { self with
      senderEscrowStorage := self.senderEscrowStorage.insert senderId (current - value) })

/-- The context as a manager's adapters.  Which order the storage is listed in, and where the
sort puts equal timestamps, is up to the run. -/
def adapters (profile : Profile) (enumeration : Enumeration) (unstable : UnstableSort) :
    Adapters InMemoryContext SignedReceipt ReceiptAggregateVoucher where
  updateLastRav rav self := (.ok (), self.updateLastRav rav)
  lastRav self := (.ok self.ravStorage, self)
  storeReceipt := storeReceipt profile
  removeReceiptsInTimestampRange := removeReceiptsInTimestampRange
  retrieveReceiptsInTimestampRange range limit self :=
    (.ok (self.retrieveReceiptsInTimestampRange enumeration unstable range limit), self)
  verifySigner signer self := (.ok (self.verifySigner signer), self)

/-- A manager over the context. -/
def manager {ω Domain : Type} (profile : Profile) (enumeration : Enumeration)
    (unstable : UnstableSort) (checks : InMemoryContext → CheckList ω SignedReceipt)
    (domainSeparator : Domain) :
    Manager InMemoryContext ω SignedReceipt ReceiptAggregateVoucher Domain :=
  ⟨adapters profile enumeration unstable, checks, domainSeparator⟩

end InMemoryContext

/-! ## Checks -/

section Checks

variable {ω Domain Key : Type} [AlloyText]

/-- `collectionIds` reads the shared set out of the outside state. -/
def CollectionIdCheck.check (collectionIds : ω → Finset B256) : Check ω SignedReceipt :=
  fun receipt world ↦
    let received := receipt.receipt.message.collectionId
    if received ∈ collectionIds world then (.ok (), world)
    else (.error (.failed (ReceiptError.invalidCollectionID received).text), world)

def SignatureCheck.check [Alloy Key] [SolStruct Domain Receipt] (domainSeparator : Domain)
    (validSigners : Finset Address) : Check ω SignedReceipt := fun receipt world ↦
  match receipt.receipt.recoverSigner domainSeparator with
  | .error e => (.error (.failed (ReceiptError.invalidSignature e.text).text), world)
  | .ok recovered =>
    if recovered ∉ validSigners then
      (.error (.failed (ReceiptError.invalidSignature "Invalid signer").text), world)
    else (.ok (), world)

/-- The query appraisals the source also takes are read by no check. -/
def getFullListOfChecks [Alloy Key] [SolStruct Domain Receipt] (domainSeparator : Domain)
    (validSigners : Finset Address) (collectionIds : ω → Finset B256) :
    CheckList ω SignedReceipt :=
  [CollectionIdCheck.check collectionIds, SignatureCheck.check domainSeparator validSigners]

end Checks

/-! ## The context meets the contract -/

namespace InMemoryContext

/-- The receipts the context holds. -/
def held (self : InMemoryContext) : List SignedReceipt :=
  self.receiptStorage.entries.map (·.2.receipt)

/-- A retrieval is everything in range and below some timestamp, in some order. -/
theorem retrieve_cut (enumeration : Enumeration) (unstable : UnstableSort)
    (range : TimestampRange) (limit : Option U64) (self : InMemoryContext) :
    ∃ cut : Nat, (self.retrieveReceiptsInTimestampRange enumeration unstable range limit).Perm
      ((self.receiptStorage.entries.filter fun e ↦ range.contains e.2.timestampNs &&
        e.2.timestampNs.toNat < cut).map (·.2)) := by
  have hall := HashTable.valuesWhere_perm enumeration (fun _ rx ↦ range.contains rx.timestampNs)
    self.receiptStorage
  have huncut : ((self.receiptStorage.entries.filter fun e ↦
      range.contains e.2.timestampNs && e.2.timestampNs.toNat < 2 ^ 64).map (·.2)) =
      (self.receiptStorage.entries.filter fun e ↦ range.contains e.2.timestampNs).map (·.2) := by
    congr 1
    exact List.filter_congr fun e _ ↦ by simp [e.2.timestampNs.isLt]
  unfold retrieveReceiptsInTimestampRange
  cases limit with
  | none => exact ⟨2 ^ 64, huncut ▸ hall⟩
  | some limit =>
    dsimp only
    split
    · obtain ⟨cut, hcut⟩ := safeTruncateReceipts_cut unstable (HashTable.valuesWhere enumeration
        (fun _ rx ↦ range.contains rx.timestampNs) self.receiptStorage) limit
      refine ⟨cut, hcut.trans ((hall.filter _).trans (List.Perm.of_eq ?_))⟩
      rw [List.filter_map, List.filter_filter]
      congr 2
      funext e
      exact Bool.and_comm _ _
    · exact ⟨2 ^ 64, huncut ▸ hall⟩

theorem held_filter (self : InMemoryContext) (keep : U64 → Bool) :
    self.held.filter (keep <| timestampNs ·) =
      (self.receiptStorage.entries.filter fun e ↦ keep e.2.timestampNs).map (·.2.receipt) := by
  rw [held, List.filter_map]
  rfl

/-- `retrieve_cut` in terms of the receipts alone. -/
theorem retrieve_held_cut (enumeration : Enumeration) (unstable : UnstableSort)
    (range : TimestampRange) (limit : Option U64) (self : InMemoryContext) :
    ∃ cut : Nat,
      (receiptsOf (self.retrieveReceiptsInTimestampRange enumeration unstable range limit)).Perm
        (self.held.filter fun receipt ↦ range.contains (timestampNs receipt) &&
          (timestampNs receipt).toNat < cut) := by
  obtain ⟨cut, hcut⟩ := retrieve_cut enumeration unstable range limit self
  refine ⟨cut, (receiptsOf_perm hcut).trans (List.Perm.of_eq ?_)⟩
  rw [held_filter self fun t ↦ range.contains t && t.toNat < cut, receiptsOf, List.map_map]
  rfl

theorem retrieve_unlimited (enumeration : Enumeration) (unstable : UnstableSort)
    (range : TimestampRange) (self : InMemoryContext) :
    (receiptsOf (self.retrieveReceiptsInTimestampRange enumeration unstable range none)).Perm
      (self.held.filter (range.contains <| timestampNs ·)) := by
  have hall := HashTable.valuesWhere_perm enumeration (fun _ rx ↦ range.contains rx.timestampNs)
    self.receiptStorage
  rw [held_filter self range.contains]
  refine (receiptsOf_perm hall).trans (List.Perm.of_eq ?_)
  rw [receiptsOf, List.map_map]
  rfl

-- Without truncation the receipts in range already number at most the limit.
theorem retrieve_limited (enumeration : Enumeration) (unstable : UnstableSort)
    (range : TimestampRange) (limit : U64) (self : InMemoryContext) :
    (self.retrieveReceiptsInTimestampRange enumeration unstable range (some limit)).length ≤
      limit.toNat := by
  unfold retrieveReceiptsInTimestampRange
  dsimp only
  split
  · exact safeTruncateReceipts_length unstable _ limit
  · omega

-- The hash table and the unstable sort stay within what the adapters' documentation asks.
theorem readContract (profile : Profile) (enumeration : Enumeration) (unstable : UnstableSort) :
    ReceiptReadContract (adapters profile enumeration unstable) held where
  inRange := by
    intro range limit self receipts h
    obtain rfl := Except.ok.inj h
    obtain ⟨cut, hcut⟩ := retrieve_held_cut enumeration unstable range limit self
    refine hcut.subperm.trans (List.Sublist.subperm ?_)
    exact List.monotone_filter_right _ fun receipt hkeep ↦ (Bool.and_eq_true_iff.mp hkeep).1
  limited := by
    intro range limit self receipts h
    obtain rfl := Except.ok.inj h
    exact retrieve_limited enumeration unstable range limit self
  unlimited := by
    intro range self receipts h
    obtain rfl := Except.ok.inj h
    exact retrieve_unlimited enumeration unstable range self
  wholeTimestamps := by
    intro range limit self receipts h receipt hreceipt
    obtain rfl := Except.ok.inj h
    obtain ⟨cut, hcut⟩ := retrieve_held_cut enumeration unstable range limit self
    have hmem := hcut.subset (mem_receiptsOf.mpr ⟨receipt, hreceipt, rfl⟩)
    obtain ⟨-, hkeep⟩ := List.mem_filter.mp hmem
    refine (hcut.filter _).trans (List.Perm.of_eq ?_)
    rw [List.filter_filter]
    refine List.filter_congr fun other _ ↦ ?_
    -- a receipt with the returned timestamp is in range and below the cut with it
    by_cases hsame : timestampNs other = receipt.timestampNs
    · rw [hsame]
      exact (congrArg (decide _ && ·) hkeep).trans (Bool.and_true _)
    · simp [hsame]

/-! ## What each operation of a manager does to the context -/

section Effects

variable {ω Domain : Type} {profile : Profile} {enumeration : Enumeration}
  {unstable : UnstableSort} {checks : InMemoryContext → CheckList ω SignedReceipt}
  {domainSeparator : Domain} {context context' : InMemoryContext} {world world' : ω}

/-- The insertion comes before the increment, so it happens even when the increment panics. -/
theorem storeReceipt_effect (profile : Profile) (receipt : ReceiptWithState Checking SignedReceipt)
    (self : InMemoryContext) : (∀ e, (self.storeReceipt profile receipt).1 ≠ .error (.error e)) ∧
      (self.storeReceipt profile receipt).2.ravStorage = self.ravStorage ∧
      (self.storeReceipt profile receipt).2.receiptStorage =
        self.receiptStorage.insert self.uniqueId receipt := by
  have hnext : (plainAdd profile self.uniqueId 1 : Outcome String U64) =
      .ok (self.uniqueId + 1) ∨
        (plainAdd profile self.uniqueId 1 : Outcome String U64) = .error .panic :=
    plainResult_cases _ _ _
  unfold storeReceipt
  -- the counter wraps or panics; the receipt is in the table either way
  rcases hnext with hnext | hnext <;> rw [hnext] <;> exact ⟨by simp, rfl, rfl⟩

/-- A receipt is refused by its checks, or inserted under the counter. -/
theorem verifyAndStoreReceipt_cases {receipt : SignedReceipt} {outcome : Outcome Error Unit}
    (h : (manager profile enumeration unstable checks domainSeparator).verifyAndStoreReceipt
      receipt context world = (outcome, context', world')) :
    ((∃ e, outcome = .error (.error e)) ∧ context' = context) ∨
      ((∀ e, outcome ≠ .error (.error e)) ∧ context'.ravStorage = context.ravStorage ∧
        context'.receiptStorage =
          context.receiptStorage.insert context.uniqueId (.new receipt)) := by
  unfold Manager.verifyAndStoreReceipt at h
  dsimp only at h
  split at h
  · rename_i e world'' _
    obtain ⟨rfl, rfl, -⟩ := by simpa using h
    exact .inl ⟨⟨_, rfl⟩, rfl⟩
  · obtain ⟨rfl, rfl, -⟩ := by simpa using h
    obtain ⟨hnext, heffect⟩ := storeReceipt_effect profile (.new receipt) context
    refine .inr ⟨fun e ↦ ?_, heffect⟩
    simp only [manager, adapters]
    rcases hstore : (storeReceipt profile (.new receipt) context).1 with (e' | _) | next
    · exact absurd hstore (hnext e')
    · simp [Outcome.mapError, Except.map]
    · simp [Outcome.mapError, Except.map]

theorem getPreviousRav_eq :
    (manager profile enumeration unstable checks domainSeparator).getPreviousRav context =
      (.ok context.ravStorage, context) := rfl

/-- Cleanup keeps exactly the receipts above the stored RAV. -/
theorem removeObsoleteReceipts_effect :
    ((manager profile enumeration unstable checks domainSeparator).removeObsoleteReceipts
        context).2.ravStorage = context.ravStorage ∧
      ∀ id entry, ((manager profile enumeration unstable checks
          domainSeparator).removeObsoleteReceipts context).2.receiptStorage.lookup id = some entry ↔
        context.receiptStorage.lookup id = some entry ∧ ∀ rav ∈ context.ravStorage,
          rav.message.timestampNs.toNat < entry.timestampNs.toNat := by
  unfold Manager.removeObsoleteReceipts
  rw [getPreviousRav_eq]
  cases hrav : context.ravStorage with
  | none => simp [hrav]
  | some rav =>
    refine ⟨hrav, fun id entry ↦ ?_⟩
    refine HashTable.lookup_retain_eq_some.trans (and_congr_right fun _ ↦ ?_)
    simp only [← Bool.not_eq_true, Bool.not_eq_eq_eq_not, Bool.not_true,
      TimestampRange.contains_upTo, not_le, Option.mem_some_iff, forall_eq']
    exact Iff.rfl

/-- A request read the stored RAV, and returned everything in its window below some timestamp. -/
theorem createRavRequest_serves {Id : Type} [DecidableEq Id] [WithUniqueId SignedReceipt Id]
    {clock : SystemTime} {timestampBufferNs : U64}
    {limit : Option U64} {request : RavRequest SignedReceipt ReceiptAggregateVoucher}
    (h : ((manager profile enumeration unstable checks domainSeparator).createRavRequest profile
      clock timestampBufferNs limit context world).1 = .ok request) :
    request.previousRav = context.ravStorage ∧
      ∃ min now max retrieved, (manager profile enumeration unstable checks
          domainSeparator).Requested profile clock timestampBufferNs limit request.previousRav
          context request min now max retrieved ∧
        ∃ cut : Nat, (receiptsOf request.validReceipts ++
          receiptsOf request.invalidReceipts).Perm
            ((context.receiptStorage.entries.filter fun e ↦
              TimestampRange.contains (.halfOpen min max) e.2.timestampNs &&
                e.2.timestampNs.toNat < cut).map (·.2.receipt)) := by
  obtain ⟨context', hprevious, min, now, max, retrieved, hrequested⟩ :=
    Manager.createRavRequest_ok h
  obtain ⟨hrav, rfl⟩ := Prod.mk.inj hprevious
  refine ⟨?_, min, now, max, retrieved, hrequested, ?_⟩
  · exact (Except.ok.inj (Outcome.mapError_eq_ok.mp hrav)).symm
  · obtain rfl := Except.ok.inj hrequested.read
    obtain ⟨cut, hcut⟩ := retrieve_cut enumeration unstable (.halfOpen min max) limit context
    refine ⟨cut, hrequested.partition.trans ((receiptsOf_perm hcut).trans ?_)⟩
    rw [receiptsOf, List.map_map]
    rfl

-- The context answers `verify_signer` without writing.
theorem checkSignature_state {Key : Type} [Alloy Key] [SolStruct Domain ReceiptAggregateVoucher]
    (signedRav : SignedRav) :
    ((manager profile enumeration unstable checks domainSeparator).checkSignature signedRav
      context).2 = context := by
  unfold Manager.checkSignature
  split
  · rfl
  · split <;> rename_i h <;> exact ((Prod.mk.inj h).2).symm

/-- A RAV is refused and changes nothing, or is the expected one and replaces the stored one. -/
theorem verifyAndStoreRav_cases {Key : Type} [Alloy Key] [AlloyText]
    [SolStruct Domain ReceiptAggregateVoucher] (expectedRav : ReceiptAggregateVoucher)
    (signedRav : SignedRav) :
    (∃ e, (manager profile enumeration unstable checks domainSeparator).verifyAndStoreRav
        expectedRav signedRav context = (.error e, context)) ∨
      (signedRav.message = expectedRav ∧
        (manager profile enumeration unstable checks domainSeparator).verifyAndStoreRav
          expectedRav signedRav context = (.ok (), context.updateLastRav signedRav)) := by
  have hstate : ((manager profile enumeration unstable checks domainSeparator).checkSignature
    signedRav context).2 = context := checkSignature_state signedRav
  unfold Manager.verifyAndStoreRav
  split
  · rename_i e context' hcheck
    rw [hcheck] at hstate
    exact .inl ⟨e, by rw [← hstate]⟩
  · rename_i context' hcheck
    rw [hcheck] at hstate
    obtain rfl : context' = context := hstate
    by_cases hmessage : signedRav.message = expectedRav
    · rw [if_neg (not_not.mpr hmessage)]
      exact .inr ⟨hmessage, rfl⟩
    · rw [if_pos hmessage]
      exact .inl ⟨_, rfl⟩

end Effects

end InMemoryContext

end GraphTally
