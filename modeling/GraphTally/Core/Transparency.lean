import GraphTally.Core.Listing
import GraphTally.Core.Session
import GraphTally.Core.Window

/-!
# Requests after a cleanup

What `remove_obsolete_receipts` deletes lies below the window of every request made while the same
RAV is stored, so a request cannot tell whether it ran.
-/

open GraphTally.Theory

namespace GraphTally

namespace InMemoryContext

/-- Later than the stored RAV, if there is one. -/
def aboveRav (rav : Option SignedRav) (entry : ReceiptWithState Checking SignedReceipt) : Bool :=
  rav.all (·.message.timestampNs.toNat < entry.timestampNs.toNat)

def cleaned (self : InMemoryContext) : InMemoryContext :=
  { self with
    receiptStorage := HashTable.retain (fun _ entry ↦ aboveRav self.ravStorage entry)
      self.receiptStorage }

section Cleanup

variable {ω Domain : Type} {profile : Profile} {enumeration : Enumeration}
  {unstable : UnstableSort} {checks : InMemoryContext → CheckList ω SignedReceipt}
  {domainSeparator : Domain} {context : InMemoryContext}

theorem cleaned_cleaned : context.cleaned.cleaned = context.cleaned := by
  show { context with receiptStorage := _ } = { context with receiptStorage := _ }
  congr 1
  apply AList.ext
  exact List.filter_filter.trans (List.filter_congr fun e _ ↦ Bool.and_self _)

/-- One cleanup, whether there is a RAV or not. -/
theorem removeObsoleteReceipts_eq :
    ((manager profile enumeration unstable checks domainSeparator).removeObsoleteReceipts
      context).2 = context.cleaned := by
  unfold Manager.removeObsoleteReceipts
  rw [getPreviousRav_eq]
  rcases context with ⟨_ | rav, receiptStorage, _⟩
  · have hall : HashTable.retain (fun _ entry ↦ aboveRav none entry) receiptStorage =
        receiptStorage := AList.ext (List.filter_eq_self.mpr fun _ _ ↦ rfl)
    show InMemoryContext.mk none receiptStorage _ _ _ _ =
      InMemoryContext.mk none (HashTable.retain (fun _ entry ↦ aboveRav none entry) _) _ _ _ _
    rw [hall]
  · have hkeep : (fun (_ : U64) (entry : ReceiptWithState Checking SignedReceipt) ↦
        !(TimestampRange.upTo (timestampNs rav.message)).contains entry.timestampNs) =
        fun _ entry ↦ aboveRav (some rav) entry := by
      funext _ entry
      rw [Bool.eq_iff_iff, Bool.not_eq_true', ← Bool.not_eq_true, TimestampRange.contains_upTo]
      simp only [not_le, aboveRav, Option.all_some, decide_eq_true_eq]
      exact Iff.rfl
    show InMemoryContext.mk (some rav) (HashTable.retain (fun _ entry ↦
        !(TimestampRange.upTo (timestampNs rav.message)).contains entry.timestampNs) _) _ _ _ _ = _
    rw [hkeep]
    rfl

end Cleanup

/-! ## The window loses nothing -/

section Window

variable {context : InMemoryContext} {min max : U64}

-- The window starts above the stored RAV.
theorem contains_and_aboveRav {rav : Option SignedRav}
    (hmin : min.toNat = rav.elim 0 (·.message.timestampNs.toNat + 1))
    (entry : ReceiptWithState Checking SignedReceipt) :
    ((TimestampRange.halfOpen min max).contains entry.timestampNs && aboveRav rav entry) =
      (TimestampRange.halfOpen min max).contains entry.timestampNs := by
  rw [Bool.and_eq_left_iff_imp, TimestampRange.contains_halfOpen]
  intro hin
  cases rav with
  | none => rfl
  | some rav =>
    rw [Option.elim_some] at hmin
    apply decide_eq_true
    omega

theorem inRange_cleaned
    (hmin : min.toNat = context.ravStorage.elim 0 (·.message.timestampNs.toNat + 1)) :
    context.cleaned.inRange (.halfOpen min max) = context.inRange (.halfOpen min max) := by
  show ((context.receiptStorage.entries.filter _).filter _).map _ = _
  rw [List.filter_filter, inRange]
  congr 1
  exact List.filter_congr fun e _ ↦ contains_and_aboveRav hmin e.2

end Window

/-! ## The results a request can have -/

section Results

variable {ω Domain Id : Type} [DecidableEq Id] [WithUniqueId SignedReceipt Id]

/-- One result for each listing of the storage and each outcome of the sort. -/
def Results (profile : Profile) (checks : CheckList ω SignedReceipt) (domainSeparator : Domain)
    (clock : SystemTime) (timestampBufferNs : U64) (limit : Option U64) (world : ω)
    (context : InMemoryContext) (result : Outcome Error (RavRequest SignedReceipt
      ReceiptAggregateVoucher)) : Prop :=
  ∃ enumeration unstable, ((manager profile enumeration unstable (fun _ ↦ checks)
    domainSeparator).createRavRequest profile clock timestampBufferNs limit context world).1 =
      result

variable {profile : Profile} {enumeration enumeration' : Enumeration} {unstable : UnstableSort}
  {checks : CheckList ω SignedReceipt} {domainSeparator : Domain} {clock : SystemTime}
  {timestampBufferNs : U64} {limit : Option U64} {world : ω} {context context' : InMemoryContext}

-- A request reads the context in two places: the stored RAV, and the receipts above it.
theorem createRavRequest_of_retrieve (hrav : context'.ravStorage = context.ravStorage)
    (h : ∀ min max, Manager.minTimestampNs profile context.ravStorage = .ok min →
      context'.retrieveReceiptsInTimestampRange enumeration' unstable (.halfOpen min max) limit =
        context.retrieveReceiptsInTimestampRange enumeration unstable (.halfOpen min max) limit) :
    ((manager profile enumeration' unstable (fun _ ↦ checks) domainSeparator).createRavRequest
        profile clock timestampBufferNs limit context' world).1 =
      ((manager profile enumeration unstable (fun _ ↦ checks) domainSeparator).createRavRequest
        profile clock timestampBufferNs limit context world).1 := by
  rw [createRavRequest_eq, createRavRequest_eq, hrav]
  cases hmin : Manager.minTimestampNs profile context.ravStorage with
  | error failure => rfl
  | ok min =>
    have hcollect : ((manager profile enumeration' unstable (fun _ ↦ checks)
          domainSeparator).collectReceipts profile clock timestampBufferNs min limit context'
            world).1 =
        ((manager profile enumeration unstable (fun _ ↦ checks) domainSeparator).collectReceipts
          profile clock timestampBufferNs min limit context world).1 := by
      unfold Manager.collectReceipts
      split
      · rfl
      · rename_i max _
        split
        · rfl
        · simp only [manager, adapters, h min max hmin]
          split <;> rfl
    dsimp only [Except.bind]
    rw [hcollect]

/-- The listing after a cleanup is the one before it, less what was deleted. -/
theorem createRavRequest_cleaned
    (hfits : ∀ prev ∈ context.ravStorage, prev.message.timestampNs.toNat + 1 < 2 ^ 64)
    (horder : enumeration'.order context.cleaned.receiptStorage.entries =
      (enumeration.order context.receiptStorage.entries).filter fun e ↦
        aboveRav context.ravStorage e.2) :
    ((manager profile enumeration' unstable (fun _ ↦ checks) domainSeparator).createRavRequest
        profile clock timestampBufferNs limit context.cleaned world).1 =
      ((manager profile enumeration unstable (fun _ ↦ checks) domainSeparator).createRavRequest
        profile clock timestampBufferNs limit context world).1 := by
  have hrav : context.cleaned.ravStorage = context.ravStorage := rfl
  apply createRavRequest_of_retrieve hrav
  intro min max hminEq
  rcases minTimestampNs_of_fits profile hfits with ⟨min', hminEq', hmin⟩
  obtain rfl : min' = min := Except.ok.inj (hminEq'.symm.trans hminEq)
  have hvalues : HashTable.valuesWhere enumeration'
        (fun _ rx ↦ TimestampRange.contains (.halfOpen min' max) rx.timestampNs)
        context.cleaned.receiptStorage =
      HashTable.valuesWhere enumeration
        (fun _ rx ↦ TimestampRange.contains (.halfOpen min' max) rx.timestampNs)
        context.receiptStorage := by
    unfold HashTable.valuesWhere
    rw [horder, List.filter_filter]
    congr 1
    -- what the window holds was not deleted
    exact List.filter_congr fun e _ ↦ contains_and_aboveRav hmin e.2
  unfold retrieveReceiptsInTimestampRange
  rw [hvalues]

/-- Each listing of the storage before a cleanup has one after it that a request cannot tell from
it, and the other way round. -/
theorem results_cleaned
    (hfits : ∀ prev ∈ context.ravStorage, prev.message.timestampNs.toNat + 1 < 2 ^ 64)
    (result : Outcome Error (RavRequest SignedReceipt ReceiptAggregateVoucher)) :
    Results profile checks domainSeparator clock timestampBufferNs limit world context.cleaned
        result ↔
      Results profile checks domainSeparator clock timestampBufferNs limit world context
        result := by
  have hentries : context.cleaned.receiptStorage.entries =
      context.receiptStorage.entries.filter fun e ↦ aboveRav context.ravStorage e.2 := rfl
  constructor
  · rintro ⟨enumeration', unstable, hresult⟩
    -- the deleted entries are listed last
    have hperm : (enumeration'.order context.cleaned.receiptStorage.entries ++
        context.receiptStorage.entries.filter fun e ↦ !aboveRav context.ravStorage e.2).Perm
          context.receiptStorage.entries :=
      ((enumeration'.perm _).append_right _).trans (List.filter_append_perm _ _)
    rcases Enumeration.exists_order hperm with ⟨enumeration, horder⟩
    refine ⟨enumeration, unstable, ?_⟩
    rw [← hresult]
    symm
    apply createRavRequest_cleaned hfits
    rw [horder, List.filter_append]
    have hkept : (enumeration'.order context.cleaned.receiptStorage.entries).filter
        (fun e ↦ aboveRav context.ravStorage e.2) =
          enumeration'.order context.cleaned.receiptStorage.entries := by
      apply List.filter_eq_self.mpr
      intro e he
      have hmem := (enumeration'.perm _).subset he
      rw [hentries] at hmem
      have hkeep := (List.mem_filter.mp hmem).2
      exact hkeep
    have hdeleted : (context.receiptStorage.entries.filter fun e ↦
        !aboveRav context.ravStorage e.2).filter
          (fun e ↦ aboveRav context.ravStorage e.2) = [] := by
      apply List.filter_eq_nil_iff.mpr
      intro e he
      have hbelow := (List.mem_filter.mp he).2
      simpa using hbelow
    rw [hkept, hdeleted, List.append_nil]
  · rintro ⟨enumeration, unstable, hresult⟩
    have hperm : ((enumeration.order context.receiptStorage.entries).filter fun e ↦
        aboveRav context.ravStorage e.2).Perm context.cleaned.receiptStorage.entries :=
      (enumeration.perm _).filter _
    rcases Enumeration.exists_order hperm with ⟨enumeration', horder⟩
    refine ⟨enumeration', unstable, ?_⟩
    rw [← hresult]
    exact createRavRequest_cleaned hfits horder

theorem inWindow_cleaned
    (hfits : ∀ prev ∈ context.ravStorage, prev.message.timestampNs.toNat + 1 < 2 ^ 64) :
    context.cleaned.inWindow profile clock timestampBufferNs =
      context.inWindow profile clock timestampBufferNs := by
  rcases minTimestampNs_of_fits profile hfits with ⟨min, hminEq, hmin⟩
  have hcleaned : Manager.minTimestampNs profile context.cleaned.ravStorage = .ok min := hminEq
  unfold inWindow
  rw [hcleaned, hminEq]
  cases Manager.maxTimestampNs profile clock timestampBufferNs with
  | error failure => rfl
  | ok max => exact inRange_cleaned hmin

end Results

end InMemoryContext

section Transparency

variable {ω Domain Key : Type}

/-- The same manager with another check list. -/
def Indexer.withChecks (indexer : Indexer ω Domain) (checks : CheckList ω SignedReceipt) :
    Indexer ω Domain :=
  { indexer with checks := fun _ ↦ checks }

/-- `remove_obsolete_receipts`, once in each of the surroundings. -/
def Indexer.cleanUp (indexer : Indexer ω Domain) (arounds : List (Surroundings ω))
    (context : InMemoryContext) : InMemoryContext :=
  arounds.foldl (fun context around ↦ ((indexer.manager around).removeObsoleteReceipts context).2)
    context

theorem Indexer.cleanUp_cons (indexer : Indexer ω Domain) (around : Surroundings ω)
    (arounds : List (Surroundings ω)) (context : InMemoryContext) :
    indexer.cleanUp (around :: arounds) context = context.cleaned := by
  have hstep : ∀ (around : Surroundings ω) (context : InMemoryContext),
      ((indexer.manager around).removeObsoleteReceipts context).2 = context.cleaned :=
    fun _ _ ↦ InMemoryContext.removeObsoleteReceipts_eq
  unfold cleanUp
  rw [List.foldl_cons, hstep]
  -- the further cleanups find nothing to delete
  induction arounds with
  | nil => rfl
  | cons next arounds ih => rw [List.foldl_cons, hstep, InMemoryContext.cleaned_cleaned, ih]

variable [Alloy Key]

/-- What can be seen of a number of cleanups. -/
structure CleanupTransparent (indexer : Indexer ω Domain) (arounds : List (Surroundings ω))
    (before after : InMemoryContext) : Prop where
  /-- The next request can have the results it could have without them, and no others. -/
  results : ∀ (checks : CheckList ω SignedReceipt) clock timestampBufferNs limit (world : ω) result,
    after.Results indexer.profile checks indexer.domainSeparator clock timestampBufferNs limit
        world result ↔
      before.Results indexer.profile checks indexer.domainSeparator clock timestampBufferNs limit
        world result
  /-- Where the order of the storage does not matter, any two of them are the same up to order. -/
  upToOrder : ∀ (checks : CheckList ω SignedReceipt) answers clock timestampBufferNs limit,
    AnswersBy checks answers →
    OneReceiptPerId (receiptsOf (before.inWindow indexer.profile clock timestampBufferNs)) →
    ∀ around around' : Surroundings ω,
      SameOutcome (fun a b ↦ a.SameReceipts b ∧
          ((∃ account, ∀ receipt ∈ receiptsOf (before.inWindow indexer.profile clock
            timestampBufferNs), receipt.message.account = account) → a.expectedRav = b.expectedRav))
        (((indexer.withChecks checks).manager around).createRavRequest indexer.profile clock
          timestampBufferNs limit before around.world).1
        (((indexer.withChecks checks).manager around').createRavRequest indexer.profile clock
          timestampBufferNs limit after around'.world).1
  /-- They delete what lies below the lower end of the window, which no request returns. -/
  removed : arounds ≠ [] → ∃ min,
    Manager.minTimestampNs indexer.profile before.ravStorage = .ok min ∧
      (∀ id entry, after.receiptStorage.lookup id = some entry ↔
        before.receiptStorage.lookup id = some entry ∧ min.toNat ≤ entry.timestampNs.toNat) ∧
      ∀ (checks : CheckList ω SignedReceipt) (later : InMemoryContext) (around : Surroundings ω)
        clock timestampBufferNs limit request, later.ravStorage = before.ravStorage →
        (((indexer.withChecks checks).manager around).createRavRequest indexer.profile clock
          timestampBufferNs limit later around.world).1 = .ok request →
        ∀ receipt ∈ receiptsOf request.validReceipts ++ receiptsOf request.invalidReceipts,
          min.toNat ≤ (timestampNs receipt).toNat

variable {indexer : Indexer ω Domain} {context : InMemoryContext}

theorem cleanupTransparent_cleaned (arounds : List (Surroundings ω))
    (hfits : ∀ prev ∈ context.ravStorage, prev.message.timestampNs.toNat + 1 < 2 ^ 64) :
    CleanupTransparent indexer arounds context context.cleaned := by
  refine ⟨?results, ?upToOrder, ?removed⟩
  case results =>
    intro checks clock timestampBufferNs limit world result
    exact InMemoryContext.results_cleaned hfits result
  case upToOrder =>
    intro checks answers clock timestampBufferNs limit hchecks hids around around'
    have hbefore : AnswersBy ((indexer.withChecks checks).checks context) answers := hchecks
    have hafter : AnswersBy ((indexer.withChecks checks).checks context.cleaned) answers := hchecks
    have hwindow : (context.inWindow indexer.profile clock timestampBufferNs).Perm
        (context.cleaned.inWindow indexer.profile clock timestampBufferNs) := by
      rw [InMemoryContext.inWindow_cleaned hfits]
    have hrav : context.cleaned.ravStorage = context.ravStorage := rfl
    exact InMemoryContext.createRavRequest_congr hrav hwindow hids hbefore hafter
  case removed =>
    intro _
    rcases InMemoryContext.minTimestampNs_of_fits indexer.profile hfits with ⟨min, hminEq, hmin⟩
    refine ⟨min, hminEq, ?_, ?_⟩
    · intro id entry
      refine HashTable.lookup_retain_eq_some.trans (and_congr_right fun _ ↦ ?_)
      rw [hmin]
      cases context.ravStorage with
      | none => simp [InMemoryContext.aboveRav]
      | some rav =>
        unfold InMemoryContext.aboveRav
        rw [Option.all_some, decide_eq_true_eq]
        exact Nat.lt_iff_add_one_le
    · intro checks later around clock timestampBufferNs limit request hrav hrequest
      rcases InMemoryContext.createRavRequest_serves hrequest with
        ⟨hprevious, min', now, max, retrieved, hrequested, -⟩
      have hsame : Manager.minTimestampNs indexer.profile request.previousRav = .ok min := by
        rw [hprevious, hrav]
        exact hminEq
      obtain rfl : min = min' := Except.ok.inj (hsame.symm.trans hrequested.lowerEnd)
      intro receipt hreceipt
      exact (hrequested.inWindow ((indexer.withChecks checks).readsInRange around) hreceipt).1

theorem cleanupTransparent_refl : CleanupTransparent indexer [] context context where
  results _ _ _ _ _ _ := Iff.rfl
  upToOrder _ _ _ _ _ hchecks hids _ _ :=
    InMemoryContext.createRavRequest_congr rfl (List.Perm.refl _) hids hchecks hchecks
  removed hne := absurd rfl hne

/-- However often a reachable context is cleaned up, the next request is as if it had not been,
and what is gone lies below the window of every request over the same RAV. -/
theorem Session.cleanup_transparent [AlloyText] [SolStruct Domain ReceiptAggregateVoucher]
    (indexer : Indexer ω Domain) (session : Session) (h : Session.Reachable indexer session)
    (arounds : List (Surroundings ω)) :
    CleanupTransparent indexer arounds session.context
      (indexer.cleanUp arounds session.context) := by
  have hfits := h.conserved.fits
  cases arounds with
  | nil => exact cleanupTransparent_refl
  | cons around arounds =>
    rw [indexer.cleanUp_cons]
    exact cleanupTransparent_cleaned _ hfits

end Transparency

/-! ## Two cleanups after a commit -/

open Known in
theorem Session.cleanup_transparent_known :
    session.context.ravStorage.isSome = true ∧
      CleanupTransparent indexer [surroundings, surroundings] session.context
        (indexer.cleanUp [surroundings, surroundings] session.context) :=
  ⟨by decide +kernel, Session.cleanup_transparent indexer session (run_reachable _)
    [surroundings, surroundings]⟩

end GraphTally
