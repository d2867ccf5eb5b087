import GraphTally.Core.Manager
import GraphTally.Theory.Fallible

/-!
# What a request selects

The facts about `collect_receipts` and `create_rav_request` that hold over every context.
-/

open GraphTally.Theory

namespace GraphTally

/-! ## The loop of checks -/

section Finalize

variable {ω Rcpt : Type} {checks : CheckList ω Rcpt}

-- A successful turn of the loop: the receipt goes to one of the two lists.
theorem finalizeReceipts_cons_ok {receipt : ReceiptWithState Checking Rcpt}
    {receipts : List (ReceiptWithState Checking Rcpt)} {world : ω}
    {result : List (ReceiptWithState Checked Rcpt) × List (ReceiptWithState Failed Rcpt)}
    (h : (finalizeReceipts checks (receipt :: receipts) world).1 = .ok result) :
    ∃ finalized rest world', (receipt.finalizeReceiptChecks checks world).1 = .ok finalized ∧
      (finalizeReceipts checks receipts world').1 = .ok rest ∧
      result = finalized.elim (fun checked ↦ (checked :: rest.1, rest.2))
        (fun failed ↦ (rest.1, failed :: rest.2)) := by
  rw [finalizeReceipts] at h
  split at h
  · cases h
  · rename_i finalized world' hfinalized
    split at h
    · cases h
    · rename_i rest world'' hrest
      refine ⟨finalized, rest, world', by rw [hfinalized], by rw [hrest], ?_⟩
      cases finalized <;> exact (Except.ok.inj h).symm

/-- Every receipt ends up on exactly one of the two sides, in the order it came. -/
theorem finalizeReceipts_partition {receipts : List (ReceiptWithState Checking Rcpt)} {world : ω}
    {result : List (ReceiptWithState Checked Rcpt) × List (ReceiptWithState Failed Rcpt)}
    (h : (finalizeReceipts checks receipts world).1 = .ok result) :
    (receiptsOf result.1).Sublist (receiptsOf receipts) ∧
      (receiptsOf result.1 ++ receiptsOf result.2).Perm (receiptsOf receipts) := by
  induction receipts generalizing world result with
  | nil =>
    obtain rfl := Except.ok.inj h
    exact ⟨List.Sublist.refl _, List.Perm.refl _⟩
  | cons receipt receipts ih =>
    obtain ⟨finalized, rest, world', hfinalized, hrest, rfl⟩ := finalizeReceipts_cons_ok h
    obtain ⟨hsublist, hperm⟩ := ih hrest
    have hreceipt := receipt.finalizeReceiptChecks_receipt checks world hfinalized
    cases finalized with
    | inl checked =>
      change checked.receipt = receipt.receipt at hreceipt
      simp only [Sum.elim_inl, receiptsOf_cons, hreceipt, List.cons_append]
      exact ⟨hsublist.cons_cons _, hperm.cons _⟩
    | inr failed =>
      change failed.receipt = receipt.receipt at hreceipt
      simp only [Sum.elim_inr, receiptsOf_cons, hreceipt]
      exact ⟨hsublist.cons _, List.perm_middle.trans (hperm.cons _)⟩

end Finalize

namespace Manager

variable {σ ω Rcpt Rav Domain Id : Type} {manager : Manager σ ω Rcpt Rav Domain} {s : σ}

/-! ## One call of `verify_and_store_rav` -/

section Store

variable {Key : Type} [Alloy Key] [SolStruct Domain Rav] [DecidableEq Rav] [DebugText Rav]

/-- Storing an RAV under its own message gets past the comparison. -/
theorem verifyAndStoreRav_compares (signedRav : Eip712SignedMessage Rav) (s : σ)
    (received expected : String) : (manager.verifyAndStoreRav signedRav.message signedRav s).1 ≠
      .error (.error (.invalidReceivedRav received expected)) := by
  unfold verifyAndStoreRav
  split
  · rename_i e s' hcheck
    -- the signature check has errors of its own only
    intro h
    obtain rfl := Except.error.inj h
    unfold checkSignature at hcheck
    split at hcheck
    · cases hcheck
    · split at hcheck <;> cases hcheck
  · rw [if_neg (not_not.mpr rfl)]
    dsimp only
    rcases (manager.context.updateLastRav signedRav _).1 with (e | _) | _ <;>
      simp [Outcome.mapError]

/-- It is stored as soon as the context knows the signer. -/
theorem verifyAndStoreRav_stores {signedRav : Eip712SignedMessage Rav} {signer : Address}
    {s s' : σ} (hsigner : signedRav.recoverSigner manager.domainSeparator = .ok signer)
    (hknown : manager.context.verifySigner signer s = (.ok true, s')) :
    manager.verifyAndStoreRav signedRav.message signedRav s =
      ((manager.context.updateLastRav signedRav s').1.mapError .adapterError,
        (manager.context.updateLastRav signedRav s').2) := by
  have hcheck : manager.checkSignature signedRav s = (.ok (), s') := by
    unfold checkSignature
    simp only [hsigner, hknown]
  unfold verifyAndStoreRav
  rw [hcheck]
  simp only [ne_eq, not_true_eq_false, ↓reduceIte]

end Store

/-! ## One call of `collect_receipts` -/

variable [WithValueAndTimestamp Rcpt] [DecidableEq Id] [WithUniqueId Rcpt Id] {profile : Profile}
  {clock : SystemTime} {timestampBufferNs : U64} {limit : Option U64} {world : ω}

/-- A successful call: the window it read, what the context returned for it, and how that was
split. -/
structure Collected (manager : Manager σ ω Rcpt Rav Domain) (profile : Profile) (clock : SystemTime)
    (timestampBufferNs min : U64) (limit : Option U64) (s : σ)
    (valid : List (ReceiptWithState Checked Rcpt)) (invalid : List (ReceiptWithState Failed Rcpt))
    (now max : U64) (retrieved : List (ReceiptWithState Checking Rcpt)) : Prop where
  clockRead : getCurrentTimestampU64Ns clock = .ok now
  upperEnd : (plainSub profile now timestampBufferNs : Outcome Error U64) = .ok max
  window : min.toNat ≤ max.toNat
  read : (manager.context.retrieveReceiptsInTimestampRange (.halfOpen min max) limit s).1 =
    .ok retrieved
  partition : (receiptsOf valid ++ receiptsOf invalid).Perm (receiptsOf retrieved)
  unique : ((receiptsOf valid).map uniqueId).Nodup

-- The three failure lists are concatenated in another order than they were split off.
theorem perm_of_splits {α : Type} {valid failed unique repeated stamped early all : List α}
    (hchecks : (valid ++ failed).Perm unique) (hunique : (unique ++ repeated).Perm stamped)
    (hstamped : (stamped ++ early).Perm all) :
    (valid ++ (early ++ repeated ++ failed)).Perm all := by
  have hswap : (early ++ repeated ++ failed).Perm (failed ++ (repeated ++ early)) :=
    List.perm_append_comm.trans (List.Perm.append_left failed List.perm_append_comm)
  calc (valid ++ (early ++ repeated ++ failed)).Perm
        (valid ++ (failed ++ (repeated ++ early))) := hswap.append_left valid
    _ = valid ++ failed ++ repeated ++ early := by simp only [List.append_assoc]
    List.Perm _ (unique ++ repeated ++ early) := (hchecks.append_right _).append_right _
    List.Perm _ (stamped ++ early) := hunique.append_right _
    List.Perm _ all := hstamped

-- Every early return is an error, so success means that every stage was passed.
theorem collectReceipts_ok {min : U64} {valid : List (ReceiptWithState Checked Rcpt)}
    {invalid : List (ReceiptWithState Failed Rcpt)}
    (h : (manager.collectReceipts profile clock timestampBufferNs min limit s world).1 =
      .ok (valid, invalid)) :
    ∃ now max retrieved, Collected manager profile clock timestampBufferNs min limit s valid invalid
      now max retrieved := by
  unfold collectReceipts at h
  split at h
  · cases h
  · rename_i max hmax
    obtain ⟨now, hnow, hmax⟩ := except_bind_eq_ok.mp hmax
    split at h
    · cases h
    · rename_i hwindow
      split at h
      · rename_i e _ _
        cases e <;> cases h
      · rename_i retrieved s' hretrieved
        dsimp only at h
        split at h
        · cases h
        · rename_i finalized world' hfinalized
          obtain ⟨rfl, rfl⟩ := Prod.mk.inj (Except.ok.inj h)
          obtain ⟨hsublist, hchecks⟩ :=
            finalizeReceipts_partition (congrArg Prod.fst hfinalized)
          -- the three stages split the batch, and the last one keeps the order of the ids
          refine ⟨now, max, retrieved, hnow, hmax, by omega, by rw [hretrieved], ?_, ?_⟩
          · rw [receiptsOf_append, receiptsOf_append]
            exact perm_of_splits hchecks (UniqueCheck.checkFrom_perm ∅ _)
              (TimestampCheck.checkBatch_perm min retrieved)
          · exact (UniqueCheck.checkFrom_nodup ∅ _).sublist (hsublist.map uniqueId)

/-! ## One call of `create_rav_request` -/

section Request

variable [WithValueAndTimestamp Rav] [Aggregate Rcpt Rav]

/-- A successful call that read `previousRav`. -/
structure Requested (manager : Manager σ ω Rcpt Rav Domain) (profile : Profile) (clock : SystemTime)
    (timestampBufferNs : U64) (limit : Option U64)
    (previousRav : Option (Eip712SignedMessage Rav)) (s : σ) (request : RavRequest Rcpt Rav)
    (min now max : U64) (retrieved : List (ReceiptWithState Checking Rcpt)) : Prop extends
    Collected manager profile clock timestampBufferNs min limit s request.validReceipts
      request.invalidReceipts now max retrieved where
  based : request.previousRav = previousRav
  lowerEnd : minTimestampNs profile previousRav = .ok min
  expected : request.expectedRav =
    Aggregate.aggregateReceipts request.validReceipts previousRav

-- The request remembers the RAV it was made from.
theorem createRavRequestFrom_ok {previousRav : Option (Eip712SignedMessage Rav)}
    {request : RavRequest Rcpt Rav}
    (h : (manager.createRavRequestFrom profile clock timestampBufferNs limit previousRav s
      world).1 = .ok request) :
    ∃ min now max retrieved, Requested manager profile clock timestampBufferNs limit previousRav s
      request min now max retrieved := by
  unfold createRavRequestFrom at h
  split at h
  · cases h
  · rename_i min hmin
    split at h
    · cases h
    · rename_i valid invalid s' world' hcollect
      obtain rfl := Except.ok.inj h
      obtain ⟨now, max, retrieved, hcollected⟩ := collectReceipts_ok (congrArg Prod.fst hcollect)
      exact ⟨min, now, max, retrieved, hcollected, rfl, hmin, rfl⟩

theorem createRavRequest_ok {request : RavRequest Rcpt Rav}
    (h : (manager.createRavRequest profile clock timestampBufferNs limit s world).1 = .ok request) :
    ∃ s', manager.getPreviousRav s = (.ok request.previousRav, s') ∧
      ∃ min now max retrieved, Requested manager profile clock timestampBufferNs limit
        request.previousRav s' request min now max retrieved := by
  unfold createRavRequest at h
  split at h
  · cases h
  · rename_i previousRav s' hprevious
    obtain ⟨min, now, max, retrieved, hrequested⟩ := createRavRequestFrom_ok h
    obtain rfl := hrequested.based
    exact ⟨s', hprevious, min, now, max, retrieved, hrequested⟩

/-- Over adapters that only read, a request changes nothing. -/
theorem createRavRequestFrom_readOnly {previousRav : Option (Eip712SignedMessage Rav)}
    (hread : ∀ range limit s,
      (manager.context.retrieveReceiptsInTimestampRange range limit s).2 = s) :
    (manager.createRavRequestFrom profile clock timestampBufferNs limit previousRav s
      world).2.1 = s := by
  have hcollect : ∀ min, (manager.collectReceipts profile clock timestampBufferNs min limit s
      world).2.1 = s := by
    intro min
    unfold collectReceipts
    split
    · rfl
    · rename_i max hmax
      have hs := hread (.halfOpen min max) limit s
      split
      · rfl
      · split
        · rename_i hretrieve
          rw [hretrieve] at hs
          exact hs
        · rename_i hretrieve
          rw [hretrieve] at hs
          dsimp only
          split <;> exact hs
  unfold createRavRequestFrom
  split
  · rfl
  · rename_i min hmin
    have hs := hcollect min
    split <;> rename_i hresult <;> rw [hresult] at hs <;> exact hs

theorem createRavRequest_readOnly (hlast : ∀ s, (manager.context.lastRav s).2 = s)
    (hread : ∀ range limit s,
      (manager.context.retrieveReceiptsInTimestampRange range limit s).2 = s) :
    (manager.createRavRequest profile clock timestampBufferNs limit s world).2.1 = s := by
  have hs := hlast s
  unfold createRavRequest
  split <;> rename_i hprevious
  · rw [getPreviousRav] at hprevious
    exact ((Prod.mk.inj hprevious).2).symm.trans hs
  · rw [createRavRequestFrom_readOnly hread]
    rw [getPreviousRav] at hprevious
    exact ((Prod.mk.inj hprevious).2).symm.trans hs

-- Where the increment fits, debug and release builds agree on it.
theorem minTimestampNs_toNat {previousRav : Option (Eip712SignedMessage Rav)} {min : U64}
    (h : minTimestampNs profile previousRav = .ok min)
    (hfits : ∀ prev ∈ previousRav, (timestampNs prev.message).toNat + 1 < 2 ^ 64) :
    ∀ prev ∈ previousRav, min.toNat = (timestampNs prev.message).toNat + 1 := by
  rintro prev rfl
  have hone : (timestampNs prev.message).toNat + (1 : U64).toNat < 2 ^ 64 := hfits prev rfl
  rw [minTimestampNs, plainAdd_of_fits profile hone] at h
  obtain rfl := Except.ok.inj h
  exact toNat_add_of_fits hone

end Request

end Manager

/-! ## Requests over receipts and RAVs -/

section Graph

variable {σ ω Domain Id : Type} [WithUniqueId SignedReceipt Id]
  {manager : Manager σ ω SignedReceipt ReceiptAggregateVoucher Domain} {profile : Profile}
  {clock : SystemTime} {timestampBufferNs : U64} {limit : Option U64} {s : σ}
  {previousRav : Option SignedRav} {request : RavRequest SignedReceipt ReceiptAggregateVoucher}
  {min now max : U64} {retrieved : List (ReceiptWithState Checking SignedReceipt)}

/-- The adapter returns nothing out of the range it was asked for. -/
def Adapters.ReadsInRange {Rcpt Rav : Type} [WithValueAndTimestamp Rcpt]
    (adapters : Adapters σ Rcpt Rav) : Prop :=
  ∀ {range limit s receipts},
    (adapters.retrieveReceiptsInTimestampRange range limit s).1 = .ok receipts →
      ∀ receipt ∈ receiptsOf receipts, range.contains (timestampNs receipt) = true

theorem ReceiptReadContract.readsInRange {Rcpt Rav : Type} [WithValueAndTimestamp Rcpt]
    {adapters : Adapters σ Rcpt Rav} {held : σ → List Rcpt}
    (h : ReceiptReadContract adapters held) : adapters.ReadsInRange := by
  intro range limit s receipts hread receipt hreceipt
  have hmem := (h.inRange hread).subset hreceipt
  exact (List.mem_filter.mp hmem).2

namespace Manager.Requested

/-- Whatever a request returns, valid or not, lies in its window. -/
theorem inWindow (h : Requested manager profile clock timestampBufferNs limit previousRav s request
      min now max retrieved) (hread : manager.context.ReadsInRange) {receipt : SignedReceipt}
    (hreceipt : receipt ∈ receiptsOf request.validReceipts ++
      receiptsOf request.invalidReceipts) :
    min.toNat ≤ receipt.message.timestampNs.toNat ∧
      receipt.message.timestampNs.toNat < max.toNat := by
  have hmem := h.partition.subset hreceipt
  exact (TimestampRange.contains_halfOpen _ _ _).mp (hread h.read receipt hmem)

/-- The window starts right above the previous RAV, or at zero. -/
theorem min_le (h : Requested manager profile clock timestampBufferNs limit previousRav s request
      min now max retrieved)
    (hfits : ∀ prev ∈ previousRav, prev.message.timestampNs.toNat + 1 < 2 ^ 64) {timestamp : Nat}
    (habove : ∀ prev ∈ previousRav, prev.message.timestampNs.toNat < timestamp) :
    min.toNat ≤ timestamp := by
  have hlower := h.lowerEnd
  cases previousRav with
  | none =>
    obtain rfl := Except.ok.inj hlower
    exact Nat.zero_le _
  | some prev =>
    have hmin := minTimestampNs_toNat hlower hfits prev rfl
    change min.toNat = prev.message.timestampNs.toNat + 1 at hmin
    have hlt := habove prev rfl
    omega

/-- It ends the buffer before the clock. -/
theorem max_toNat (h : Requested manager profile clock timestampBufferNs limit previousRav s request
      min now max retrieved) (hbuffer : timestampBufferNs.toNat ≤ now.toNat) :
    max.toNat = now.toNat - timestampBufferNs.toNat := by
  have hupper := h.upperEnd
  rw [plainSub_of_fits _ hbuffer] at hupper
  obtain rfl := Except.ok.inj hupper
  exact BitVec.toNat_sub_of_le (by rwa [BitVec.le_def])

/-- The valid receipts lie strictly above the previous RAV. -/
theorem above (h : Requested manager profile clock timestampBufferNs limit previousRav s request
      min now max retrieved) (hread : manager.context.ReadsInRange)
    (hfits : ∀ prev ∈ previousRav, prev.message.timestampNs.toNat + 1 < 2 ^ 64) :
    ∀ prev ∈ previousRav, ∀ receipt ∈ receiptsOf request.validReceipts,
      prev.message.timestampNs.toNat < receipt.message.timestampNs.toNat := by
  intro prev hprev receipt hreceipt
  have hmin := minTimestampNs_toNat h.lowerEnd hfits prev hprev
  have hwindow := h.inWindow hread (List.mem_append_left _ hreceipt)
  change min.toNat = prev.message.timestampNs.toNat + 1 at hmin
  omega

/-- The expected RAV extends the previous one by exactly the valid receipts. -/
theorem expected_extends (h : Requested manager profile clock timestampBufferNs limit previousRav s
      request min now max retrieved) (hread : manager.context.ReadsInRange)
    (hfits : ∀ prev ∈ previousRav, prev.message.timestampNs.toNat + 1 < 2 ^ 64)
    {rav : ReceiptAggregateVoucher} (hexpected : request.expectedRav = .ok rav) :
    Voucher.Extends SignedReceipt.mark SignedReceipt.amount
      (previousRav.map (·.message.voucher)) (receiptsOf request.validReceipts) rav.voucher := by
  rw [h.expected] at hexpected
  obtain ⟨first, hfirst, haggregate⟩ := ReceiptAggregateVoucher.aggregate_eq_ok.mp hexpected
  have hne : receiptsOf request.validReceipts ≠ [] := by
    intro hnil
    rw [hnil] at hfirst
    cases hfirst
  exact ReceiptAggregateVoucher.aggregateReceipts_extends haggregate hne (h.above hread hfits)

/-- Its timestamp is that of a receipt the request returned as valid. -/
theorem expected_attained (h : Requested manager profile clock timestampBufferNs limit previousRav s
      request min now max retrieved) (hread : manager.context.ReadsInRange)
    (hfits : ∀ prev ∈ previousRav, prev.message.timestampNs.toNat + 1 < 2 ^ 64)
    {rav : ReceiptAggregateVoucher} (hexpected : request.expectedRav = .ok rav) :
    ∃ receipt ∈ receiptsOf request.validReceipts,
      receipt.message.timestampNs.toNat = rav.timestampNs.toNat :=
  (h.expected_extends hread hfits hexpected).attained

/-- An expected RAV ends below the window's upper end, so one past it is still a timestamp. -/
theorem expected_lt_max (h : Requested manager profile clock timestampBufferNs limit previousRav s
      request min now max retrieved) (hread : manager.context.ReadsInRange)
    (hfits : ∀ prev ∈ previousRav, prev.message.timestampNs.toNat + 1 < 2 ^ 64)
    {rav : ReceiptAggregateVoucher} (hexpected : request.expectedRav = .ok rav) :
    rav.timestampNs.toNat < max.toNat := by
  obtain ⟨receipt, hreceipt, hmark⟩ := h.expected_attained hread hfits hexpected
  have hwindow := h.inWindow hread (List.mem_append_left _ hreceipt)
  omega

end Manager.Requested

end Graph

end GraphTally
