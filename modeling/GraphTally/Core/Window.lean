import GraphTally.Core.Selection

/-!
# The request window

Which stored receipts a request without a limit returns, and the arithmetic the window's two ends
come from.
-/

open GraphTally.Theory

namespace GraphTally

/-- Above the previous RAV, and by more than the buffer before now. -/
def inRequestWindow (previousRav : Option SignedRav) (now timestampBufferNs : U64)
    (receipt : SignedReceipt) : Bool :=
  previousRav.all (fun prev ↦ prev.message.timestampNs.toNat < receipt.message.timestampNs.toNat) &&
    decide (receipt.message.timestampNs.toNat + timestampBufferNs.toNat < now.toNat)

/-- Neither end of the window leaves the machine's integers. -/
def WindowFits (previousRav : Option SignedRav) (now timestampBufferNs : U64) : Prop :=
  timestampBufferNs.toNat ≤ now.toNat ∧
    ∀ prev ∈ previousRav, prev.message.timestampNs.toNat + 1 < 2 ^ 64

namespace InMemoryContext

variable {ω Domain Id : Type} [DecidableEq Id] [WithUniqueId SignedReceipt Id]

/-- A request without a limit, run with the overflow checks on and off. -/
structure RequestsExactWindow (enumeration : Enumeration) (unstable : UnstableSort)
    (checks : InMemoryContext → CheckList ω SignedReceipt) (domainSeparator : Domain)
    (clock : SystemTime) (now timestampBufferNs : U64) (context : InMemoryContext) (world : ω) :
    Prop where
  /-- A build that traps every overflow does not trap. -/
  noOverflow : ((manager .debug enumeration unstable checks domainSeparator).createRavRequest
    .debug clock timestampBufferNs none context world).1 ≠ .error .panic
  exact : ∀ profile request, ((manager profile enumeration unstable checks
      domainSeparator).createRavRequest profile clock timestampBufferNs none context world).1 =
        .ok request →
    (receiptsOf request.validReceipts ++ receiptsOf request.invalidReceipts).Perm
      (context.held.filter (inRequestWindow context.ravStorage now timestampBufferNs))
  refuses : now.toNat < timestampBufferNs.toNat ∨ (∃ prev ∈ context.ravStorage,
      now.toNat < prev.message.timestampNs.toNat + 1 + timestampBufferNs.toNat) →
    ∀ profile, ∃ e, ((manager profile enumeration unstable checks
      domainSeparator).createRavRequest profile clock timestampBufferNs none context world).1 =
        .error (.error e)

variable {profile : Profile} {enumeration : Enumeration} {unstable : UnstableSort}
  {checks : InMemoryContext → CheckList ω SignedReceipt} {domainSeparator : Domain}
  {clock : SystemTime} {now timestampBufferNs : U64} {context : InMemoryContext} {world : ω}

/-! ## When both ends fit -/

-- The two ends, without a wrap.
theorem maxTimestampNs_of_fits (profile : Profile)
    (hclock : getCurrentTimestampU64Ns clock = .ok now)
    (hbuffer : timestampBufferNs.toNat ≤ now.toNat) :
    Manager.maxTimestampNs profile clock timestampBufferNs = .ok (now - timestampBufferNs) ∧
      (now - timestampBufferNs).toNat = now.toNat - timestampBufferNs.toNat := by
  constructor
  · apply except_bind_eq_ok.mpr
    exact ⟨now, hclock, plainSub_of_fits profile hbuffer⟩
  · exact BitVec.toNat_sub_of_le (by rwa [BitVec.le_def])

theorem minTimestampNs_of_fits (profile : Profile) {previousRav : Option SignedRav}
    (hfits : ∀ prev ∈ previousRav, prev.message.timestampNs.toNat + 1 < 2 ^ 64) :
    ∃ min, Manager.minTimestampNs profile previousRav = .ok min ∧
      min.toNat = previousRav.elim 0 (·.message.timestampNs.toNat + 1) := by
  cases previousRav with
  | none => exact ⟨0, rfl, rfl⟩
  | some prev =>
    have hone : prev.message.timestampNs.toNat + (1 : U64).toNat < 2 ^ 64 := hfits prev rfl
    exact ⟨prev.message.timestampNs + 1, plainAdd_of_fits profile hone, toNat_add_of_fits hone⟩

/-- The half-open range between the two ends is the window. -/
theorem contains_iff_inRequestWindow {previousRav : Option SignedRav} {min max : U64}
    (hmin : min.toNat = previousRav.elim 0 (·.message.timestampNs.toNat + 1))
    (hbuffer : timestampBufferNs.toNat ≤ now.toNat)
    (hmax : max.toNat = now.toNat - timestampBufferNs.toNat) (receipt : SignedReceipt) :
    (TimestampRange.halfOpen min max).contains (timestampNs receipt) =
      inRequestWindow previousRav now timestampBufferNs receipt := by
  rw [Bool.eq_iff_iff, TimestampRange.contains_halfOpen, inRequestWindow]
  change min.toNat ≤ receipt.message.timestampNs.toNat ∧
    receipt.message.timestampNs.toNat < max.toNat ↔ _
  rw [hmin, hmax]
  cases previousRav with
  | none =>
    simp only [Option.elim_none, Option.all_none, Bool.true_and, decide_eq_true_eq]
    omega
  | some prev =>
    simp only [Option.elim_some, Option.all_some, Bool.and_eq_true, decide_eq_true_eq]
    omega

-- Between two ends in order, the loop of checks gives up or the window is served.
theorem collectReceipts_of_window (profile : Profile) (enumeration : Enumeration)
    (unstable : UnstableSort) (checks : InMemoryContext → CheckList ω SignedReceipt)
    (domainSeparator : Domain) (world : ω) {min : U64}
    (hupper : Manager.maxTimestampNs profile clock timestampBufferNs =
      .ok (now - timestampBufferNs))
    (hmin : min.toNat = context.ravStorage.elim 0 (·.message.timestampNs.toNat + 1))
    (hbuffer : timestampBufferNs.toNat ≤ now.toNat)
    (hmax : (now - timestampBufferNs).toNat = now.toNat - timestampBufferNs.toNat)
    (hwindow : min.toNat ≤ (now - timestampBufferNs).toNat) :
    (∃ e, ((manager profile enumeration unstable checks domainSeparator).collectReceipts profile
        clock timestampBufferNs min none context world).1 = .error (.error e)) ∨
      ∃ valid invalid,
        ((manager profile enumeration unstable checks domainSeparator).collectReceipts profile
          clock timestampBufferNs min none context world).1 = .ok (valid, invalid) ∧
        (receiptsOf valid ++ receiptsOf invalid).Perm
          (context.held.filter (inRequestWindow context.ravStorage now timestampBufferNs)) := by
  have hretrieves : (manager profile enumeration unstable checks domainSeparator).Retrieves
      profile clock timestampBufferNs min none context (now - timestampBufferNs)
      (context.retrieveReceiptsInTimestampRange enumeration unstable
        (.halfOpen min (now - timestampBufferNs)) none) context := ⟨hupper, hwindow, rfl⟩
  cases hcollect : ((manager profile enumeration unstable checks domainSeparator).collectReceipts
      profile clock timestampBufferNs min none context world).1 with
  | error failure =>
    rw [hretrieves.collectReceipts_eq world] at hcollect
    split at hcollect
    · exact .inl ⟨_, hcollect.symm⟩
    · cases hcollect
  | ok collected =>
    rcases hretrieves.collected hcollect with ⟨now', hcollected⟩
    have hheld := retrieve_unlimited enumeration unstable
      (.halfOpen min (now - timestampBufferNs)) context
    simp only [contains_iff_inRequestWindow hmin hbuffer hmax] at hheld
    exact .inr ⟨collected.1, collected.2, rfl, hcollected.partition.trans hheld⟩

-- With both ends in range, a request is refused with an error value or serves the window.
theorem createRavRequest_of_fits (profile : Profile) (enumeration : Enumeration)
    (unstable : UnstableSort) (checks : InMemoryContext → CheckList ω SignedReceipt)
    (domainSeparator : Domain) (world : ω) (hclock : getCurrentTimestampU64Ns clock = .ok now)
    (hfits : WindowFits context.ravStorage now timestampBufferNs) :
    (∃ e, ((manager profile enumeration unstable checks domainSeparator).createRavRequest profile
        clock timestampBufferNs none context world).1 = .error (.error e)) ∨
      (context.ravStorage.elim 0 (·.message.timestampNs.toNat + 1) + timestampBufferNs.toNat ≤
          now.toNat ∧
        ∃ request,
          ((manager profile enumeration unstable checks domainSeparator).createRavRequest profile
            clock timestampBufferNs none context world).1 = .ok request ∧
          (receiptsOf request.validReceipts ++ receiptsOf request.invalidReceipts).Perm
            (context.held.filter
              (inRequestWindow context.ravStorage now timestampBufferNs))) := by
  rcases hfits with ⟨hbuffer, hprevious⟩
  rcases maxTimestampNs_of_fits profile hclock hbuffer with ⟨hmaxEq, hmax⟩
  rcases minTimestampNs_of_fits profile hprevious with ⟨min, hminEq, hmin⟩
  unfold Manager.createRavRequest
  rw [getPreviousRav_eq]
  unfold Manager.createRavRequestFrom
  simp only [hminEq]
  by_cases hwindow : min.toNat ≤ (now - timestampBufferNs).toNat
  · have hcases := collectReceipts_of_window profile enumeration unstable checks domainSeparator
      world hmaxEq hmin hbuffer hmax hwindow
    rcases hcollect : (manager profile enumeration unstable checks
      domainSeparator).collectReceipts profile clock timestampBufferNs min none context world with
      ⟨outcome, context', world'⟩
    rw [hcollect] at hcases
    rcases hcases with ⟨e, herror⟩ | ⟨valid, invalid, hok, hperm⟩
    · cases herror
      exact .inl ⟨_, rfl⟩
    · cases hok
      exact .inr ⟨by omega, _, rfl, hperm⟩
  · left
    unfold Manager.collectReceipts
    simp only [hmaxEq, if_pos (Nat.lt_of_not_le hwindow)]
    exact ⟨_, rfl⟩

/-! ## When one of them does not -/

-- A build that traps overflows stops at the first end that does not fit.
theorem createRavRequest_panics (hclock : getCurrentTimestampU64Ns clock = .ok now)
    (hfits : ¬WindowFits context.ravStorage now timestampBufferNs) :
    ((manager .debug enumeration unstable checks domainSeparator).createRavRequest .debug clock
      timestampBufferNs none context world).1 = .error .panic := by
  unfold Manager.createRavRequest
  rw [getPreviousRav_eq]
  unfold Manager.createRavRequestFrom
  by_cases hprevious : ∀ prev ∈ context.ravStorage, prev.message.timestampNs.toNat + 1 < 2 ^ 64
  · rcases minTimestampNs_of_fits .debug hprevious with ⟨min, hmin, -⟩
    have hbuffer : now.toNat < timestampBufferNs.toNat := by
      by_contra hle
      exact hfits ⟨Nat.le_of_not_lt hle, hprevious⟩
    have hmax : Manager.maxTimestampNs .debug clock timestampBufferNs = .error .panic := by
      rw [Manager.maxTimestampNs, hclock]
      exact plainSub_debug_of_underflow hbuffer
    unfold Manager.collectReceipts
    simp only [hmin, hmax]
  · push Not at hprevious
    rcases hprevious with ⟨prev, hprev, hoverflow⟩
    have hmin : Manager.minTimestampNs .debug context.ravStorage = .error .panic := by
      rw [Option.mem_def.mp hprev]
      exact plainAdd_debug_of_overflow hoverflow
    simp only [hmin]

/-- The window is exact, and computed without an overflow, exactly when the buffer is at most the
clock's reading and the previous RAV is not at the last timestamp. -/
theorem requestsExactWindow_iff (hclock : getCurrentTimestampU64Ns clock = .ok now) :
    RequestsExactWindow enumeration unstable checks domainSeparator clock now timestampBufferNs
        context world ↔
      WindowFits context.ravStorage now timestampBufferNs := by
  constructor
  · intro hexact
    by_contra hfits
    exact hexact.noOverflow (createRavRequest_panics hclock hfits)
  · intro hfits
    have hcases := fun profile ↦ createRavRequest_of_fits profile enumeration unstable checks
      domainSeparator world hclock hfits
    refine ⟨?_, ?_, ?_⟩
    · intro hpanic
      rcases hcases .debug with ⟨e, herror⟩ | ⟨-, request, hrequest, -⟩
      · rw [herror] at hpanic
        cases hpanic
      · rw [hrequest] at hpanic
        cases hpanic
    · intro profile request hok
      rcases hcases profile with ⟨e, herror⟩ | ⟨-, request', hrequest, hperm⟩
      · rw [herror] at hok
        cases hok
      · rw [hrequest] at hok
        obtain rfl := Except.ok.inj hok
        exact hperm
    · intro hrefuse profile
      rcases hcases profile with herror | ⟨hwindow, -⟩
      · exact herror
      · exfalso
        rcases hrefuse with hbuffer | ⟨prev, hprev, hlate⟩
        · omega
        · rw [Option.mem_def.mp hprev, Option.elim_some] at hwindow
          omega

end InMemoryContext

/-! ## A buffer longer than the clock's reading -/

namespace Known

def windowManager (profile : Profile) : Manager InMemoryContext (Finset B256) SignedReceipt
    ReceiptAggregateVoucher Eip712Domain :=
  InMemoryContext.manager profile .insertionOrder .merge
    (fun _ ↦ getFullListOfChecks domain {Key.one.address} id) domain

end Known

open Known InMemoryContext in
theorem requestsExactWindow_iff_known :
    RequestsExactWindow (ω := Finset B256) .insertionOrder .merge
        (fun _ ↦ getFullListOfChecks domain {Key.one.address} id) domain (.ok 100) 100 50
        (store batch) collections ↔
      WindowFits (store batch).ravStorage 100 50 :=
  requestsExactWindow_iff (by decide)

open Known InMemoryContext in
/-- At 15, with a buffer of 16, one build stops and the other serves a receipt from 20. -/
theorem requestsExactWindow_fails :
    (¬RequestsExactWindow (ω := Finset B256) .insertionOrder .merge
        (fun _ ↦ getFullListOfChecks domain {Key.one.address} id) domain (.ok 15) 15 16
        (store batch) collections) ∧
      ((windowManager .debug).createRavRequest .debug (.ok 15) 16 none (store batch)
        collections).1 = .error .panic ∧
      ((windowManager .release).createRavRequest .release (.ok 15) 16 none (store batch)
        collections).1 = .ok request := by
  have hpanic : ((windowManager .debug).createRavRequest .debug (.ok 15) 16 none (store batch)
      collections).1 = .error .panic := by decide +kernel
  exact ⟨fun hexact ↦ hexact.noOverflow hpanic, hpanic, by decide +kernel⟩

end GraphTally
