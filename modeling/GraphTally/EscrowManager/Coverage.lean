import GraphTally.EscrowManager.Funding
import GraphTally.EscrowManager.RavDebts

/-!
# RAVs that are covered

The RAV consumer beside the cycles: when the escrow holds what an indexer can redeem.
-/

open GraphTally.Theory

namespace GraphTally.EscrowManager

/-! ## What can be redeemed -/

section Values

variable {map map' map'' : RavMap} {indexer : Address}

-- Distinct allocations of an indexer, among all that are active.
theorem sum_le_ravSum {active : List Allocation} {allocations : List Address}
    (hnodup : allocations.Nodup)
    (hactive : ∀ allocation ∈ allocations, ⟨allocation, indexer⟩ ∈ active) :
    (allocations.map fun allocation ↦ ((map.lookup allocation).getD 0).toNat).sum ≤
      ravSum map active indexer := by
  have hinjective : Function.Injective fun id : Address ↦ Allocation.mk id indexer :=
    fun a b hsame ↦ congrArg Allocation.id hsame
  have hsubset : allocations.map (Allocation.mk · indexer) ⊆
      active.filter (·.indexer = indexer) := by
    intro allocation hmem
    obtain ⟨id, hid, rfl⟩ := List.mem_map.mp hmem
    exact List.mem_filter.mpr ⟨hactive id hid, by simp⟩
  obtain ⟨listed, hperm, hsublist⟩ :=
    List.subperm_of_subset (hnodup.map hinjective) hsubset
  calc (allocations.map fun allocation ↦ ((map.lookup allocation).getD 0).toNat).sum
      = ((allocations.map (Allocation.mk · indexer)).map fun allocation ↦
          ((map.lookup allocation.id).getD 0).toNat).sum := by
        rw [List.map_map]
        rfl
    _ = (listed.map fun allocation ↦ ((map.lookup allocation.id).getD 0).toNat).sum :=
        (hperm.map _).sum_eq.symm
    _ ≤ ravSum map active indexer :=
        (hsublist.map _).sum_le_sum fun _ _ ↦ Nat.zero_le _

theorem Grows.trans (h : Grows map map') (h' : Grows map' map'') :
    Grows map map'' := by
  intro allocation value hvalue
  obtain ⟨value', hvalue', hle⟩ := h allocation value hvalue
  obtain ⟨value'', hvalue'', hle'⟩ := h' allocation value' hvalue'
  exact ⟨value'', hvalue'', hle.trans hle'⟩

theorem Grows.lookup_le (h : Grows map map') (allocation : Address) :
    ((map.lookup allocation).getD 0).toNat ≤ ((map'.lookup allocation).getD 0).toNat := by
  cases hlookup : map.lookup allocation with
  | none => exact Nat.zero_le _
  | some value =>
    obtain ⟨value', hvalue', hle⟩ := h allocation value hlookup
    rw [hvalue']
    exact hle

end Values

section Claims

variable [AlloyText] {signers : List Address} {stream : List (Except String Message)}
  {map : RavMap}

/-- One of the counted values of an allocation, or nothing. -/
def Claims (signers : List Address) (stream : List (Except String Message))
    (claimed : Address → Nat) : Prop :=
  ∀ allocation, claimed allocation = 0 ∨ claimed allocation ∈ valuesFor signers stream allocation

theorem HoldsMaxima.claimed_le (h : HoldsMaxima signers stream map) {claimed : Address → Nat}
    (hclaims : Claims signers stream claimed) (allocation : Address) :
    claimed allocation ≤ ((map.lookup allocation).getD 0).toNat := by
  rcases hclaims allocation with hzero | hvalue
  · rw [hzero]
    exact Nat.zero_le _
  · cases hlookup : map.lookup allocation with
    | none =>
      rw [h.absent allocation hlookup] at hvalue
      cases hvalue
    | some value => exact (h.present allocation value hlookup).2 hvalue

/-- While the consumer goes on. -/
theorem grows_run {pool pool' : Pool (Except String Message) (Except String Message) RavMap}
    (h : Pool.Run (ravConsumer signers) pool pool') : Grows pool.state pool'.state := by
  induction h with
  | refl => exact Grows.refl _
  | tail _ hstep ih => exact ih.trans (hstep.related Grows.refl grows_processReceived)

end Claims

/-! ## Two cycles -/

/-- The debt of an indexer is at least what its RAVs come to. -/
theorem Snapshot.exists_debt {snapshot : Snapshot} (profile : Profile) (settings : Settings)
    (hfits : ∀ indexer, ravSum snapshot.ravs snapshot.allocations indexer < 2 ^ 128)
    {allocation : Allocation} (hactive : allocation ∈ snapshot.allocations) :
    ∃ debt, snapshot.debtFor profile settings allocation.indexer = .ok debt ∧
      ravSum snapshot.ravs snapshot.allocations allocation.indexer ≤ debt.toNat := by
  obtain ⟨table, htable, hvalue⟩ := addRavs_of_fits snapshot .empty snapshot.allocations
    fun indexer ↦ by simpa [tokensFor] using hfits indexer
  obtain ⟨debt, hdebt, hmax⟩ := receiverDebt_eq
    (((snapshot.debts table).lookup allocation.indexer).getD 0)
    ((settings.debts.lookup allocation.indexer).getD 0)
  refine ⟨debt, except_bind_eq_ok.mpr ⟨table, htable profile, hdebt profile⟩, ?_⟩
  have hravs : tokensFor table allocation.indexer =
      ravSum snapshot.ravs snapshot.allocations allocation.indexer := by
    simpa [tokensFor] using hvalue allocation.indexer
  rw [lookup_debts (.inl ⟨allocation, hactive, rfl⟩), Option.getD_some, toNat_wordMax] at hmax
  rw [← hravs]
  show ((table.lookup allocation.indexer).getD 0).toNat ≤ debt.toNat
  omega

section Cycles

variable {cut : Prop} {target target' : Nat} {before middle after : Holding}

-- What is withdrawn or not, no more is thawing than there is.
theorem Served.thawing_le (h : Served cut target before after) (hpos : 0 < target)
    (hheld : before.thawing ≤ before.balance) : after.thawing ≤ after.balance := by
  cases h with
  | covered hnet =>
    unfold Holding.net at hnet
    omega
  | withdrawn _ hidle _ =>
    rw [hidle]
    exact Nat.zero_le _
  | raised _ _ _ hafter =>
    rw [hafter]
    show before.thawing ≤ before.balance + _
    omega

/-- Without a cut, a deposit reaches the target at once. -/
theorem Served.reaches (h : Served cut target before after) (huncut : ¬cut)
    (hheld : before.thawing ≤ before.balance) :
    target ≤ after.net ∨ before.thawing ≠ 0 ∧ after.thawing = 0 ∧ after.net = before.net := by
  cases h with
  | covered hnet => exact .inl hnet
  | withdrawn hthawing hidle hnet => exact .inr ⟨hthawing, hidle, hnet⟩
  | raised hshort _ hexact hafter =>
    left
    rw [hafter, hexact huncut]
    unfold Holding.net at hshort ⊢
    dsimp only
    omega

/-- Of two cycles in a row at most one withdraws. -/
theorem Served.reaches_twice {cut' : Prop} (h : Served cut target before middle)
    (h' : Served cut' target' middle after) (huncut : ¬cut) (huncut' : ¬cut') (hpos : 0 < target)
    (hheld : before.thawing ≤ before.balance) : min target target' ≤ after.net := by
  have hmiddle := h.thawing_le hpos hheld
  rcases h'.reaches huncut' hmiddle with hreached | ⟨hthawing, -, hnet⟩
  · exact (Nat.min_le_right _ _).trans hreached
  · rcases h.reaches huncut hheld with hreached | ⟨-, hidle, -⟩
    · rw [hnet]
      exact (Nat.min_le_left _ _).trans hreached
    · exact absurd hidle hthawing

end Cycles

/-- While the RAV consumer runs beside the cycles, nothing disturbs them and no deposit is cut down:
whatever an indexer's allocations can redeem of the RAVs that were handled before one cycle read
them, the escrow holds more after the next. -/
theorem ravs_covered [AlloyText] (rounding : Rounding) (profile : Profile) (settings : Settings)
    (hmargin : settings.withdrawMarginBps.toNat ≤ 10000) (hpos : 0 < settings.balanceFillFactor)
    (hone : settings.balanceFillFactor ≤ 1) (signers : List Address)
    (stream : List (Except String Message)) (cycles : Nat)
    (pools : Nat → Pool (Except String Message) (Except String Message) RavMap)
    (hstart : Pool.Run (ravConsumer signers) (.start stream ∅) (pools 0))
    (hconsumes : ∀ k < cycles, Pool.Run (ravConsumer signers) (pools k) (pools (k + 1)))
    (snapshots : Nat → Snapshot) (hreads : ∀ k < cycles, (snapshots k).ravs = (pools k).state)
    (hfits : ∀ k < cycles, ∀ indexer,
      ravSum (snapshots k).ravs (snapshots k).allocations indexer < 2 ^ 128)
    (plans : Nat → CyclePlan)
    (huncut : ∀ k < cycles, totalOf (plans k).adjustments ≤ maxAdjustment.toNat)
    (ledgers : Nat → Ledger)
    (hcycles : ∀ k < cycles, Undisturbed rounding profile settings (snapshots k) (plans k)
      (ledgers k) (ledgers (k + 1)))
    (indexer : Address) (hheld : (ledgers 0 indexer).thawing ≤ (ledgers 0 indexer).balance)
    (allocations : List Address) (hsome : allocations ≠ []) (hnodup : allocations.Nodup)
    (hactive : ∀ k < cycles, ∀ allocation ∈ allocations,
      ⟨allocation, indexer⟩ ∈ (snapshots k).allocations)
    (k : Nat) (hk : k + 2 ≤ cycles) (claimed : Address → Nat)
    (hclaims : Claims signers (pools k).performed claimed) :
    (allocations.map claimed).sum < (ledgers (k + 2) indexer).net := by
  obtain ⟨allocation, hallocation⟩ := List.exists_mem_of_ne_nil _ hsome
  have hrun : ∀ k ≤ cycles, Pool.Run (ravConsumer signers) (.start stream ∅) (pools k) := by
    intro k
    induction k with
    | zero => exact fun _ ↦ hstart
    | succ k ih => exact fun hk ↦ (ih (by omega)).trans (hconsumes k hk)
  -- what a cycle does for the indexer, by a target above its RAVs
  have hserved : ∀ k < cycles, ∃ target,
      ravSum (snapshots k).ravs (snapshots k).allocations indexer < target ∧
        Served (maxAdjustment.toNat < totalOf (plans k).adjustments) target (ledgers k indexer)
          (ledgers (k + 1) indexer) := by
    intro k hk
    have hmem := hactive k hk allocation hallocation
    obtain ⟨debt, hdebt, hravs⟩ := Snapshot.exists_debt profile settings (hfits k hk) hmem
    obtain ⟨target, fuel, htarget, hserved⟩ :=
      (hcycles k hk).served hmargin (.inl ⟨_, hmem, rfl⟩) hdebt
    have hlt := (nextBalance_isTarget htarget).debt_lt hpos hone
    exact ⟨target.toNat, Nat.lt_of_le_of_lt hravs hlt, hserved⟩
  have hthawing : ∀ k ≤ cycles, (ledgers k indexer).thawing ≤ (ledgers k indexer).balance := by
    intro k
    induction k with
    | zero => exact fun _ ↦ hheld
    | succ k ih =>
      intro hk
      obtain ⟨target, hlt, hserved⟩ := hserved k hk
      exact hserved.thawing_le (by omega) (ih (by omega))
  -- what the first of the two cycles read, the second still reads
  have hclaimed : ∀ j < cycles, Grows (pools k).state (pools j).state →
      (allocations.map claimed).sum ≤
        ravSum (snapshots j).ravs (snapshots j).allocations indexer := by
    intro j hj hgrows
    have hmaxima := holdsMaxima_run (hrun k (by omega))
    rw [hreads j hj]
    refine le_trans ?_ (sum_le_ravSum hnodup (hactive j hj))
    exact List.sum_le_sum fun allocation _ ↦
      (hmaxima.claimed_le hclaims allocation).trans (hgrows.lookup_le allocation)
  obtain ⟨target, hlt, hfirst⟩ := hserved k (by omega)
  obtain ⟨target', hlt', hsecond⟩ := hserved (k + 1) (by omega)
  have hreached := hfirst.reaches_twice hsecond (not_lt.mpr (huncut k (by omega)))
    (not_lt.mpr (huncut (k + 1) (by omega))) (by omega) (hthawing k (by omega))
  have hclaim := hclaimed k (by omega) (Grows.refl _)
  have hclaim' := hclaimed (k + 1) (by omega) (grows_run (hconsumes k (by omega)))
  show (allocations.map claimed).sum < (ledgers (k + 1 + 1) indexer).net
  omega

end GraphTally.EscrowManager

/-! ## A RAV of thirty GRT -/

namespace GraphTally.Known

open EscrowManager

def thirtyGrt : List (Except String Message) := [.ok (messageUnder padding (30 * 10 ^ 18))]

/-- The message has been handled and its handler not been dropped yet. -/
def thirtyHandled : Pool (Except String Message) (Except String Message) RavMap where
  waiting := []
  inFlight := [[]]
  performed := thirtyGrt
  state := AList.insert (.repeatByte 20 0xab) (30 * grt) ∅
  alive := true

theorem thirtyGrt_parses : parseRecord (messageUnder padding (30 * 10 ^ 18)) =
    .ok (.v2 ⟨Key.one.address, .repeatByte 20 0xab, 30 * grt⟩) := by
  decide +kernel

theorem thirty_run :
    Pool.Run (ravConsumer [Key.one.address]) (.start thirtyGrt ∅) thirtyHandled := by
  have hact : (ravConsumer [Key.one.address]).act ∅ (.ok (messageUnder padding (30 * 10 ^ 18))) =
      .ok thirtyHandled.state := by
    show processMessage [Key.one.address] ∅ (messageUnder padding (30 * 10 ^ 18)) = _
    rw [processMessage, thirtyGrt_parses]
    rfl
  have htake : Pool.Step (ravConsumer [Key.one.address]) (.start thirtyGrt ∅)
      ⟨[], [thirtyGrt], [], ∅, true⟩ := .take rfl (by decide) rfl
  have hperform : Pool.Step (ravConsumer [Key.one.address]) ⟨[], [thirtyGrt], [], ∅, true⟩
      thirtyHandled := @Pool.Step.act _ _ _ _ _ [] [] _ [] _ rfl rfl hact
  exact .head htake (.single hperform)

end GraphTally.Known

namespace GraphTally.EscrowManager

/-- Sixty-four GRT are deposited at once. -/
def thirtyFunds (k : Nat) : U128 := if k = 0 then 0 else 64 * grt

open Known in
theorem thirty_undisturbed : ∀ k < 2, Undisturbed .exact .debug quarterMargin
    (newSnapshots thirtyHandled.state thirtyFunds k) (newPlans (64 * grt) thirtyFunds k)
    (newLedgers thirtyHandled.state thirtyFunds k)
    (newLedgers thirtyHandled.state thirtyFunds (k + 1)) := by
  have hplans : ∀ k < 2, ((newSnapshots thirtyHandled.state thirtyFunds k).planCycle .exact .debug
      quarterMargin 10).run = some (.ok (newPlans (64 * grt) thirtyFunds k)) := by
    decide +kernel
  have hbatches : ∀ k < 2, depositBatch .debug (newPlans (64 * grt) thirtyFunds k).adjustments 10 =
      some (.ok (newDeposits thirtyFunds k)) := by
    decide +kernel
  have hgrows : ∀ k < 2, (thirtyFunds k).toNat ≤ (thirtyFunds (k + 1)).toNat := by decide
  exact fun k hk ↦ new_undisturbed (hplans k hk) (hbatches k hk) (hgrows k hk)

open Known in
theorem ravs_covered_thirty :
    30 * 10 ^ 18 < (newLedgers thirtyHandled.state thirtyFunds 2 newIndexer).net := by
  have hactive : ∀ k < 2, ∀ allocation ∈ [FixedBytes.repeatByte 20 0xab],
      ⟨allocation, newIndexer⟩ ∈ (newSnapshots thirtyHandled.state thirtyFunds k).allocations := by
    decide
  have hfits : ∀ k < 2, ∀ indexer,
      ravSum (newSnapshots thirtyHandled.state thirtyFunds k).ravs
        (newSnapshots thirtyHandled.state thirtyFunds k).allocations indexer < 2 ^ 128 := by
    intro k _ indexer
    show ravSum thirtyHandled.state [⟨.repeatByte 20 0xab, newIndexer⟩] indexer < 2 ^ 128
    rw [ravSum_cons]
    show (if newIndexer = indexer then _ else 0) + 0 < 2 ^ 128
    split
    · decide +kernel
    · decide
  have hclaims : Claims [Key.one.address] thirtyHandled.performed
      fun allocation ↦ if allocation = .repeatByte 20 0xab then 30 * 10 ^ 18 else 0 := by
    intro allocation
    by_cases hsame : allocation = .repeatByte 20 0xab
    · refine .inr ⟨_, List.mem_singleton.mpr rfl, _,
        isCounted_ok.mpr ⟨thirtyGrt_parses, List.mem_singleton.mpr rfl⟩, hsame.symm, ?_⟩
      show (30 * grt).toNat = if allocation = .repeatByte 20 0xab then 30 * 10 ^ 18 else 0
      rw [if_pos hsame]
      decide
    · exact .inl (if_neg hsame)
  exact ravs_covered .exact .debug quarterMargin (by decide) (by decide +kernel)
    (by decide +kernel) [Key.one.address] thirtyGrt 2 (fun _ ↦ thirtyHandled) thirty_run
    (fun _ _ ↦ .refl) (newSnapshots thirtyHandled.state thirtyFunds) (fun _ _ ↦ rfl) hfits
    (newPlans (64 * grt) thirtyFunds) (by decide +kernel)
    (newLedgers thirtyHandled.state thirtyFunds) thirty_undisturbed newIndexer (by decide)
    [.repeatByte 20 0xab] (by decide) (by decide) hactive 0 (Nat.le_refl 2) _ hclaims

end GraphTally.EscrowManager
