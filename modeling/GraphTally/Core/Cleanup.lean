import GraphTally.Core.Session

/-!
# What cleanup deletes

Sessions with a clock.  The buffer of a request leaves room for receipts that arrive late, so that
nothing can still arrive below a RAV once it is expected.
-/

open GraphTally.Theory

namespace GraphTally

/-! ## Sessions with a clock -/

/-- The receipts a request returned, valid or not. -/
def RequestRecord.returned (record : RequestRecord) : List SignedReceipt :=
  receiptsOf record.request.validReceipts ++ receiptsOf record.request.invalidReceipts

/-- The entry was in the storage of the request, and every stored copy of its receipt was
returned. -/
structure RequestRecord.Returned (record : RequestRecord) (id : U64)
    (entry : ReceiptWithState Checking SignedReceipt) : Prop where
  held : record.storage.lookup id = some entry
  mem : entry.receipt ∈ record.returned
  everyCopy : record.returned.count entry.receipt =
    (record.storage.entries.map (·.2.receipt)).count entry.receipt

section Timed

variable {ω Domain Key : Type} [Alloy Key] [AlloyText] [SolStruct Domain ReceiptAggregateVoucher]

/-- A receipt that is stored arrives at most the buffer after its timestamp, and a request reads
the clock and uses the buffer. -/
def Session.Timely (indexer : Indexer ω Domain) (around : Surroundings ω) (session : Session)
    (timestampBufferNs now : U64) : Event → Prop
  | .verifyAndStoreReceipt receipt =>
    (∀ e, ((indexer.manager around).verifyAndStoreReceipt receipt session.context
        around.world).1 ≠ .error (.error e)) →
      now.toNat ≤ receipt.message.timestampNs.toNat + timestampBufferNs.toNat
  | .createRavRequest clock buffer _ =>
    buffer = timestampBufferNs ∧ ∀ reading, getCurrentTimestampU64Ns clock = .ok reading →
      reading = now
  | .verifyAndStoreRav _ => True
  | .removeObsoleteReceipts => True

/-- The sessions that can be reached by the clock time `now`. -/
inductive Session.Timed (indexer : Indexer ω Domain) (timestampBufferNs : U64) :
    U64 → Session → Prop
  | start {context : InMemoryContext} {now : U64} :
      context.ravStorage = none → Timed indexer timestampBufferNs now (.start context)
  | step {session : Session} {earlier now : U64} (around : Surroundings ω) (event : Event) :
      Timed indexer timestampBufferNs earlier session →
      earlier.toNat ≤ now.toNat → timestampBufferNs.toNat ≤ now.toNat →
      session.Timely indexer around timestampBufferNs now event →
      Timed indexer timestampBufferNs now (session.step indexer around event)

end Timed

/-! ## The invariant -/

/-- By `now` no receipt can arrive at or below `timestamp`, and those stored were returned. -/
structure Session.Covered (session : Session) (timestampBufferNs now : U64) (timestamp : Nat) :
    Prop where
  closed : timestamp + timestampBufferNs.toNat < now.toNat
  returned : ∀ id entry, session.context.receiptStorage.lookup id = some entry →
    entry.timestampNs.toNat ≤ timestamp → ∃ record ∈ session.requests, record.Returned id entry

/-- The stored RAV, and the one that could be stored next, are covered. -/
structure Session.Swept (session : Session) (timestampBufferNs now : U64) : Prop where
  stored : ∀ rav ∈ session.context.ravStorage,
    session.Covered timestampBufferNs now rav.message.timestampNs.toNat
  latest : ∀ record ∈ session.requests.getLast?, ∀ rav, record.request.expectedRav = .ok rav →
    session.Covered timestampBufferNs now rav.timestampNs.toNat

section Sweep

variable {session session' : Session} {timestampBufferNs earlier now : U64} {timestamp : Nat}

-- Time only helps, and so do further requests; only a late arrival could break it.
theorem Session.Covered.mono (h : session.Covered timestampBufferNs earlier timestamp)
    (hclock : earlier.toNat ≤ now.toNat) (hrequests : session.requests ⊆ session'.requests)
    (hstorage : ∀ id entry, session'.context.receiptStorage.lookup id = some entry →
      entry.timestampNs.toNat ≤ timestamp →
        session.context.receiptStorage.lookup id = some entry) :
    session'.Covered timestampBufferNs now timestamp := by
  refine ⟨lt_of_lt_of_le h.closed hclock, fun id entry hentry hle ↦ ?_⟩
  obtain ⟨record, hrecord, hreturned⟩ := h.returned id entry (hstorage id entry hentry hle) hle
  exact ⟨record, hrequests hrecord, hreturned⟩

/-- A step that changes neither the RAV nor the requests, and stores nothing late. -/
theorem Session.Swept.frame (h : session.Swept timestampBufferNs earlier)
    (hclock : earlier.toNat ≤ now.toNat) {context : InMemoryContext}
    (hrav : context.ravStorage = session.context.ravStorage)
    (hstorage : ∀ id entry, context.receiptStorage.lookup id = some entry →
      entry.timestampNs.toNat + timestampBufferNs.toNat < now.toNat →
        session.context.receiptStorage.lookup id = some entry) :
    ({ session with context } : Session).Swept timestampBufferNs now := by
  have hcovered : ∀ {timestamp}, session.Covered timestampBufferNs earlier timestamp →
      ({ session with context } : Session).Covered timestampBufferNs now timestamp := by
    intro timestamp hcover
    refine hcover.mono hclock (List.Subset.refl _) fun id entry hentry hle ↦ ?_
    have hclosed := hcover.closed
    exact hstorage id entry hentry (by omega)
  exact ⟨fun rav hmem ↦ hcovered (h.stored rav (hrav ▸ hmem)),
    fun record hrecord rav hexpected ↦ hcovered (h.latest record hrecord rav hexpected)⟩

/-- What a request returned, entry by entry. -/
theorem RequestRecord.returned_of_selected {record : RequestRecord} {id : U64}
    {entry : ReceiptWithState Checking SignedReceipt} (keep : U64 → Bool)
    (hperm : record.returned.Perm
      ((record.storage.entries.filter fun e ↦ keep e.2.timestampNs).map (·.2.receipt)))
    (hentry : record.storage.lookup id = some entry) (hkeep : keep entry.timestampNs = true) :
    record.Returned id entry := by
  have hmem : ⟨id, entry⟩ ∈ record.storage.entries.filter fun e ↦ keep e.2.timestampNs :=
    List.mem_filter.mpr ⟨HashTable.mem_entries.mpr hentry, hkeep⟩
  refine ⟨hentry, hperm.symm.subset (List.mem_map_of_mem hmem), ?_⟩
  -- the selection looks at the receipt only, so it takes all the copies or none
  have hall : (record.storage.entries.filter fun e ↦ keep e.2.timestampNs).map (·.2.receipt) =
      (record.storage.entries.map (·.2.receipt)).filter (keep <| timestampNs ·) := by
    rw [List.filter_map]
    rfl
  rw [hperm.count_eq, hall]
  exact List.count_filter hkeep

variable {ω Domain Key : Type} [Alloy Key] {indexer : Indexer ω Domain} {around : Surroundings ω}

/-- The expected RAV of a new request is covered: what lies above the previous RAV was just
returned, and what lies below was returned before. -/
theorem Session.Swept.covers_expected [AlloyText] (h : session.Swept timestampBufferNs earlier)
    (hbuffer : timestampBufferNs.toNat ≤ now.toNat) {clock : SystemTime} {limit : Option U64}
    {request : RavRequest SignedReceipt ReceiptAggregateVoucher} {min max : U64}
    {retrieved : List (ReceiptWithState Checking SignedReceipt)} {cut : Nat}
    (hrequested : (indexer.manager around).Requested indexer.profile clock timestampBufferNs limit
      session.context.ravStorage session.context request min now max retrieved)
    (hserved : (receiptsOf request.validReceipts ++ receiptsOf request.invalidReceipts).Perm
      ((session.context.receiptStorage.entries.filter fun e ↦
        TimestampRange.contains (.halfOpen min max) e.2.timestampNs &&
          e.2.timestampNs.toNat < cut).map (·.2.receipt)))
    {rav : ReceiptAggregateVoucher} (hexpected : request.expectedRav = .ok rav) :
    ({ session with
      requests := session.requests ++ [⟨request, session.context.receiptStorage⟩]
      fresh := true } : Session).Covered timestampBufferNs now rav.timestampNs.toNat := by
  have hread : (indexer.manager around).context.ReadsInRange := indexer.readsInRange around
  have hfits : ∀ prev ∈ session.context.ravStorage,
      prev.message.timestampNs.toNat + 1 < 2 ^ 64 := by
    intro prev hprev
    have hclosed := (h.stored prev hprev).closed
    have hlt := earlier.isLt
    omega
  have hmax := hrequested.max_toNat hbuffer
  have hlt := hrequested.expected_lt_max hread hfits hexpected
  refine ⟨by omega, fun id entry hentry hle ↦ ?_⟩
  by_cases hold : ∃ prev ∈ session.context.ravStorage,
      entry.timestampNs.toNat ≤ prev.message.timestampNs.toNat
  · obtain ⟨prev, hprev, hbelow⟩ := hold
    obtain ⟨record, hrecord, hreturned⟩ := (h.stored prev hprev).returned id entry hentry hbelow
    exact ⟨record, List.mem_append_left _ hrecord, hreturned⟩
  · refine ⟨_, List.mem_append_right _ (List.mem_singleton_self _), ?_⟩
    have hmin : min.toNat ≤ entry.timestampNs.toNat := by
      apply hrequested.min_le hfits
      intro prev hprev
      exact not_le.mp fun hbelow ↦ hold ⟨prev, hprev, hbelow⟩
    have hcut : entry.timestampNs.toNat < cut := by
      -- the RAV's timestamp is that of a returned receipt, which the cut lets through
      obtain ⟨receipt, hreceipt, hmark⟩ := hrequested.expected_attained hread hfits hexpected
      obtain ⟨e, he, rfl⟩ :=
        List.mem_map.mp (hserved.subset (List.mem_append_left _ hreceipt))
      have hkept := (List.mem_filter.mp he).2
      rw [Bool.and_eq_true, decide_eq_true_eq] at hkept
      change e.2.timestampNs.toNat = rav.timestampNs.toNat at hmark
      omega
    refine RequestRecord.returned_of_selected
      (fun t ↦ TimestampRange.contains (.halfOpen min max) t && t.toNat < cut) hserved hentry ?_
    rw [Bool.and_eq_true, decide_eq_true_eq, TimestampRange.contains_halfOpen]
    exact ⟨⟨hmin, by omega⟩, hcut⟩

-- One call: the buffer keeps new receipts above every RAV that is stored or expected.
theorem Session.Swept.of_step [AlloyText] [SolStruct Domain ReceiptAggregateVoucher]
    (h : session.Swept timestampBufferNs earlier) (hclock : earlier.toNat ≤ now.toNat)
    (hbuffer : timestampBufferNs.toNat ≤ now.toNat) {event : Event}
    (htimely : session.Timely indexer around timestampBufferNs now event) :
    (session.step indexer around event).Swept timestampBufferNs now := by
  have hmoves := Session.step_moves indexer around session event
  generalize session.step indexer around event = session' at hmoves ⊢
  cases hmoves with
  | idle => exact h.frame hclock rfl fun _ _ hentry _ ↦ hentry
  | @stored receipt context hnotRefused hrav hinsert =>
    refine h.frame hclock hrav fun id entry hentry hlate ↦ ?_
    have hintime := htimely hnotRefused
    rw [hinsert] at hentry
    -- the new entry is too young to be covered, and every other one was there before
    by_cases hid : id = session.context.uniqueId
    · rw [hid, AList.lookup_insert] at hentry
      obtain rfl := Option.some_inj.mp hentry
      change receipt.message.timestampNs.toNat + timestampBufferNs.toNat < now.toNat at hlate
      omega
    · rwa [AList.lookup_insert_ne hid] at hentry
  | @requested clock buffer limit request min reading max retrieved cut hrequested hserved =>
    obtain ⟨rfl, hreading⟩ := htimely
    obtain rfl := hreading reading hrequested.clockRead
    refine ⟨fun rav hrav ↦ ?_, fun record hrecord rav hexpected ↦ ?_⟩
    · exact (h.stored rav hrav).mono hclock (List.subset_append_left _ _) fun _ _ hentry _ ↦ hentry
    · obtain rfl : _ = record := by simpa using hrecord
      exact h.covers_expected hbuffer hrequested hserved hexpected
  | @committed signedRav record hlatest hexpected =>
    refine ⟨fun rav hrav ↦ ?_, fun other hother rav hrav ↦ ?_⟩
    · obtain rfl := Option.some_inj.mp hrav
      exact (h.latest record hlatest _ hexpected).mono hclock (List.Subset.refl _)
        fun _ _ hentry _ ↦ hentry
    · exact (h.latest other hother rav hrav).mono hclock (List.Subset.refl _)
        fun _ _ hentry _ ↦ hentry
  | cleaned hrav hkept =>
    exact h.frame hclock hrav fun id entry hentry _ ↦ ((hkept id entry).mp hentry).1

end Sweep

section Cleanup

variable {ω Domain Key : Type} [Alloy Key] [AlloyText] [SolStruct Domain ReceiptAggregateVoucher]

theorem Session.Timed.swept {indexer : Indexer ω Domain} {timestampBufferNs now : U64}
    {session : Session} (h : Session.Timed indexer timestampBufferNs now session) :
    session.Swept timestampBufferNs now := by
  induction h with
  | start hnone =>
    refine ⟨?_, fun record hrecord ↦ by cases hrecord⟩
    rw [Session.start, hnone]
    rintro rav ⟨⟩
  | step around event _ hclock hbuffer htimely ih => exact ih.of_step hclock hbuffer htimely

/-- Every receipt that cleanup deletes had been returned by an earlier request. -/
theorem Session.cleanup_deletes_returned (indexer : Indexer ω Domain) (timestampBufferNs now : U64)
    (session : Session) (h : Session.Timed indexer timestampBufferNs now session)
    (around : Surroundings ω) (id : U64) (entry : ReceiptWithState Checking SignedReceipt)
    (hbefore : session.context.receiptStorage.lookup id = some entry)
    (hafter : (session.step indexer around .removeObsoleteReceipts).context.receiptStorage.lookup
      id ≠ some entry) :
    ∃ record ∈ session.requests, record.Returned id entry := by
  have hkept : ∀ id entry, (session.step indexer around
      .removeObsoleteReceipts).context.receiptStorage.lookup id = some entry ↔
        session.context.receiptStorage.lookup id = some entry ∧
          ∀ rav ∈ session.context.ravStorage,
            rav.message.timestampNs.toNat < entry.timestampNs.toNat :=
    InMemoryContext.removeObsoleteReceipts_effect.2
  obtain ⟨rav, hrav, hle⟩ : ∃ rav ∈ session.context.ravStorage,
      entry.timestampNs.toNat ≤ rav.message.timestampNs.toNat := by
    by_contra hnone
    refine hafter ((hkept id entry).mpr ⟨hbefore, fun rav hrav ↦ ?_⟩)
    exact not_le.mp fun hle ↦ hnone ⟨rav, hrav, hle⟩
  exact (h.swept.stored rav hrav).returned id entry hbefore hle

end Cleanup

/-! ## A session with a buffer of ten nanoseconds -/

namespace Known

/-- Both receipts arrive late, within the buffer. -/
def lateSession : Session :=
  let events := [
    .verifyAndStoreReceipt (signed .one (receipt 10 1 5)),
    .verifyAndStoreReceipt (signed .one (receipt 20 2 7)),
    .createRavRequest (.ok 31) 10 none,
    .verifyAndStoreRav (signed .one (rav 20 12))]
  events.foldl (fun session event ↦ session.step indexer surroundings event) (.start (store []))

theorem lateSession_timed : Session.Timed indexer 10 31 lateSession := by
  have hstart : Session.Timed indexer 10 20 (.start (store [])) := .start rfl
  have hfirst : Session.Timed indexer 10 20 _ := hstart.step surroundings
    (.verifyAndStoreReceipt (signed .one (receipt 10 1 5))) (by decide) (by decide)
    fun _ ↦ by decide
  have hsecond : Session.Timed indexer 10 30 _ := hfirst.step surroundings
    (.verifyAndStoreReceipt (signed .one (receipt 20 2 7))) (by decide) (by decide)
    fun _ ↦ by decide
  have hrequested : Session.Timed indexer 10 31 _ := hsecond.step surroundings
    (.createRavRequest (.ok 31) 10 none) (by decide) (by decide)
    ⟨rfl, fun _ hreading ↦ (Except.ok.inj hreading).symm⟩
  exact hrequested.step surroundings (.verifyAndStoreRav (signed .one (rav 20 12))) (by decide)
    (by decide) trivial

end Known

open Known in
theorem Session.cleanup_deletes_returned_known :
    lateSession.context.receiptStorage.lookup 0 = some (.new (signed .one (receipt 10 1 5))) ∧
      ∃ record ∈ lateSession.requests,
        record.Returned 0 (.new (signed .one (receipt 10 1 5))) :=
  ⟨by decide +kernel, Session.cleanup_deletes_returned indexer 10 31 lateSession lateSession_timed
    surroundings 0 _ (by decide +kernel) (by decide +kernel)⟩

end GraphTally
