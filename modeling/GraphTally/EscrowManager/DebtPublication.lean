import GraphTally.EscrowManager.DebtHistory
import GraphTally.Theory.Throttle

/-!
# What the debts' readers see

The loop of `spawn` sends a snapshot only with a batch that comes a second after the last one, so
the end of a burst stays pending until another batch comes.
-/

open GraphTally.Theory

namespace GraphTally.EscrowManager.DB

/-- What the watch channel holds.  It starts with an empty map. -/
def Spawned.published (self : Spawned) : OrderedMap Address U128 := self.sent.getLast?.getD .empty

/-! ## Snapshots by their updates -/

/-- The indexer has an update in an hour that a prune at this time keeps. -/
def Kept (window now : Nanos) (updates : List (Update Nanos)) (indexer : Address) : Prop :=
  ∃ update ∈ updates, update.indexer = indexer ∧
    hourlyTimestamp (now - window) < hourlyTimestamp update.timestamp

instance (window now : Nanos) (updates : List (Update Nanos)) (indexer : Address) :
    Decidable (Kept window now updates indexer) := by
  unfold Kept
  infer_instance

/-- What the snapshot of these updates, pruned at this time, holds for an indexer. -/
def snapshotOf (window now : Nanos) (updates : List (Update Nanos)) (indexer : Address) :
    Option U128 :=
  if Kept window now updates indexer then
    some (BitVec.ofNat 128 (laterFees (now - window) indexer updates))
  else none

/-- Two snapshots hold the same for an indexer. -/
def SameDebt (window : Nanos) (now : Nanos) (updates : List (Update Nanos)) (now' : Nanos)
    (updates' : List (Update Nanos)) (indexer : Address) : Prop :=
  (Kept window now updates indexer ↔ Kept window now' updates' indexer) ∧
    laterFees (now - window) indexer updates % 2 ^ 128 =
      laterFees (now' - window) indexer updates' % 2 ^ 128

variable {profile : Profile} {window started now now' : Nanos} {history : List Event} {db : DB}
  {totals : OrderedMap Address U128} {updates updates' : List (Update Nanos)} {indexer : Address}

theorem laterFees_of_not_kept (h : ¬Kept window now updates indexer) :
    laterFees (now - window) indexer updates = 0 := by
  unfold laterFees feesAt
  rw [List.sum_eq_zero_iff]
  intro fee hfee
  rcases List.mem_map.mp hfee with ⟨update, hupdate, rfl⟩
  rw [if_neg]
  intro hkept
  exact h ⟨update, hupdate, hkept⟩

theorem snapshotOf_eq_iff :
    snapshotOf window now updates indexer = snapshotOf window now' updates' indexer ↔
      SameDebt window now updates now' updates' indexer := by
  unfold snapshotOf SameDebt
  by_cases hkept : Kept window now updates indexer
  · by_cases hkept' : Kept window now' updates' indexer
    · rw [if_pos hkept, if_pos hkept', Option.some_inj, ← BitVec.toNat_inj]
      simp [hkept, hkept']
    · simp [hkept, hkept']
  · by_cases hkept' : Kept window now' updates' indexer
    · simp [hkept, hkept']
    · simp [hkept, hkept', laterFees_of_not_kept]

/-- A snapshot after a prune is that of the updates received, whatever the history. -/
theorem lookup_eq_snapshotOf (hordered : Ordered (history ++ [.prune now]))
    (hrun : run profile window history = .ok db)
    (hsnapshot : (db.prune now).snapshot profile = .ok totals) (indexer : Address) :
    totals.lookup indexer = snapshotOf window now (received history) indexer := by
  have hsome : (totals.lookup indexer).isSome ↔ Kept window now (received history) indexer :=
    lookup_totals_iff (refines_pruned hordered hrun) hsnapshot indexer
  have howed := owed_snapshot hordered hrun hsnapshot indexer
  unfold snapshotOf
  unfold owed at howed
  cases hlookup : totals.lookup indexer with
  | none =>
    rw [hlookup] at hsome
    rw [if_neg]
    intro hkept
    exact absurd (hsome.mpr hkept) (by decide)
  | some total =>
    rw [hlookup] at hsome howed
    rw [if_pos (hsome.mp rfl), Option.some_inj, ← BitVec.toNat_inj, BitVec.toNat_ofNat]
    exact howed

/-! ## Every run of the loop -/

/-- The loop's publications, by the times of its turns. -/
def throttle (started : Nanos) (turns : List (List (Update Nanos) × Nanos)) :
    Throttle Nanos (Update Nanos) :=
  Throttle.run 1000000000 started turns

variable {turns : List (List (Update Nanos) × Nanos)} {loop loop' : Spawned}

/-- The channel holds the snapshot of what the throttle let through. -/
def Follows (window : Nanos) (throttled : Throttle Nanos (Update Nanos)) (loop : Spawned) : Prop :=
  loop.lastSnapshot = throttled.last ∧
    ∀ indexer, loop.published.lookup indexer =
      snapshotOf window throttled.last throttled.published indexer

theorem Follows.turn {throttled : Throttle Nanos (Update Nanos)} {buffer : List (Update Nanos)}
    (h : Follows window throttled loop) (htells : Tells profile window turns loop history)
    (hreceived : throttled.published ++ throttled.pending = turns.flatMap Prod.fst)
    (hordered : Ordered history) (htimes : ∀ event ∈ history, event.time ≤ now)
    (hturn : DB.turn profile loop buffer now = .ok loop') :
    Follows window (throttled.turn 1000000000 (buffer, now)) loop' := by
  rcases turn_cases hturn with ⟨db, hdb, ⟨hwaits, rfl⟩ | ⟨hdue, snapshot, hsnapshot, rfl⟩⟩
  · rw [h.1] at hwaits
    rw [Throttle.turn_waits hwaits]
    exact h
  · rw [h.1] at hdue
    rw [Throttle.turn_due hdue]
    refine ⟨rfl, ?_⟩
    intro indexer
    let sent := buffer.map fun update ↦ Event.update update now
    have hsent : ∀ event ∈ sent ++ [.prune now], event.time = now := by
      intro event hevent
      rcases List.mem_append.mp hevent with hevent | hevent
      · rcases List.mem_map.mp hevent with ⟨update, -, rfl⟩
        rfl
      · rw [List.mem_singleton.mp hevent]
        rfl
    have hall : Ordered ((history ++ sent) ++ [.prune now]) := by
      rw [List.append_assoc]
      exact hordered.append htimes hsent
    have hupdates : DB.received (history ++ sent) =
        throttled.published ++ (throttled.pending ++ buffer) := by
      rw [← List.append_assoc, hreceived, ← htells.received]
      unfold DB.received sent
      rw [List.filterMap_append, List.filterMap_map]
      congr 1
      exact List.filterMap_some
    rw [run_updates htells.run] at hdb
    show ((loop.sent ++ [snapshot]).getLast?.getD .empty).lookup indexer = _
    rw [List.getLast?_concat, Option.getD_some, lookup_eq_snapshotOf hall hdb hsnapshot, hupdates]

theorem spawn_follows (hspawn : spawn profile window started turns = .ok loop)
    (hturns : turns.Pairwise fun a b ↦ a.2 ≤ b.2) :
    Follows window (throttle started turns) loop := by
  unfold throttle
  induction turns using List.reverseRecOn generalizing loop with
  | nil =>
    rw [← Except.ok.inj hspawn]
    refine ⟨rfl, ?_⟩
    intro indexer
    show OrderedMap.empty.lookup indexer = _
    rw [OrderedMap.lookup_empty]
    exact (if_neg (by simp [Kept, Throttle.run])).symm
  | append_singleton turns turn ih =>
    rcases List.pairwise_append.mp hturns with ⟨hbefore, -, hlast⟩
    unfold spawn at hspawn
    rw [List.foldlM_append, except_bind_eq_ok] at hspawn
    rcases hspawn with ⟨before, hrun, hturn⟩
    simp only [List.foldlM_cons, List.foldlM_nil, bind_pure] at hturn
    rcases spawn_history hrun with ⟨history, htells⟩
    rw [Throttle.run_append]
    apply (ih hrun hbefore).turn htells (Throttle.received _ _ _) (htells.ordered hbefore) _ hturn
    intro event hevent
    rcases List.mem_map.mp (htells.times event hevent) with ⟨earlier, hearlier, htime⟩
    rw [← htime]
    exact hlast earlier hearlier turn List.mem_cons_self

/-! ## When the channel is up to date -/

/-- After a batch at this time, the channel holds the snapshot of the updates received so far. -/
def IsCurrent (window now : Nanos) (updates : List (Update Nanos)) (loop : Spawned) : Prop :=
  ∀ indexer, loop.published.lookup indexer = snapshotOf window now updates indexer

variable {buffer : List (Update Nanos)}

/-- It is the snapshot that the DB itself would give then. -/
theorem isCurrent_iff (hspawn : spawn profile window started (turns ++ [(buffer, now)]) = .ok loop)
    (hturns : (turns ++ [(buffer, now)]).Pairwise fun a b ↦ a.2 ≤ b.2)
    (hsnapshot : (loop.db.prune now).snapshot profile = .ok totals) :
    IsCurrent window now (turns.flatMap Prod.fst ++ buffer) loop ↔ loop.published = totals := by
  rcases spawn_history hspawn with ⟨history, htells⟩
  have hordered : Ordered (history ++ [.prune now]) := by
    apply (htells.ordered hturns).append
    · intro event hevent
      have htime := htells.times event hevent
      rw [List.map_append, List.mem_append] at htime
      rcases htime with hearlier | hlast
      · rcases List.mem_map.mp hearlier with ⟨turn, hturn, htime⟩
        rw [← htime]
        exact (List.pairwise_append.mp hturns).2.2 turn hturn _ List.mem_cons_self
      · exact (List.mem_singleton.mp hlast).le
    · intro event hevent
      rw [List.mem_singleton.mp hevent]
      rfl
  have hupdates : received history = turns.flatMap Prod.fst ++ buffer := by
    rw [htells.received, List.flatMap_append]
    simp
  have hlookup := lookup_eq_snapshotOf hordered htells.run hsnapshot
  rw [hupdates] at hlookup
  unfold IsCurrent
  constructor
  · intro hcurrent
    apply OrderedMap.ext_lookup
    intro indexer
    rw [hcurrent, hlookup]
  · intro hsame indexer
    rw [hsame, hlookup]

/-- After any run, the channel is up to date exactly when the last batch came a second after the
last publication, or what came since then changes no debt. -/
theorem published_current_iff (profile : Profile) (window started now : Nanos)
    (turns : List (List (Update Nanos) × Nanos)) (buffer : List (Update Nanos)) (loop : Spawned)
    (hspawn : spawn profile window started (turns ++ [(buffer, now)]) = .ok loop)
    (hturns : (turns ++ [(buffer, now)]).Pairwise fun a b ↦ a.2 ≤ b.2) :
    IsCurrent window now (turns.flatMap Prod.fst ++ buffer) loop ↔
      1000000000 ≤ now - (throttle started turns).last ∨
        ∀ indexer, SameDebt window (throttle started turns).last (throttle started turns).published
          now (turns.flatMap Prod.fst ++ buffer) indexer := by
  have hfollows := (spawn_follows hspawn hturns).2
  unfold throttle at hfollows ⊢
  rw [Throttle.run_append] at hfollows
  unfold IsCurrent
  simp only [hfollows]
  by_cases hdue : 1000000000 ≤ now - (Throttle.run 1000000000 started turns).last
  · rw [Throttle.turn_due hdue, ← List.append_assoc, Throttle.received]
    simp only [hdue, true_or, implies_true]
  · rw [Throttle.turn_waits hdue]
    simp only [hdue, false_or, snapshotOf_eq_iff]

/-- Batches that are a second apart are all published at once. -/
theorem published_current_of_spaced
    (hspawn : spawn profile window started (turns ++ [(buffer, now)]) = .ok loop)
    (hturns : (turns ++ [(buffer, now)]).Pairwise fun a b ↦ a.2 ≤ b.2)
    (hspaced : Throttle.Spaced 1000000000 started (turns ++ [(buffer, now)])) :
    IsCurrent window now (turns.flatMap Prod.fst ++ buffer) loop := by
  have hfollows := (spawn_follows hspawn hturns).2
  have hpending := (Throttle.run_spaced hspaced).1
  have hlast := (Throttle.run_spaced hspaced).2
  have hreceived := Throttle.received 1000000000 started (turns ++ [(buffer, now)])
  rw [List.map_append, ← List.cons_append, List.map_singleton, List.getLast?_concat,
    Option.some_inj] at hlast
  rw [hpending, List.append_nil, List.flatMap_append, List.flatMap_singleton] at hreceived
  unfold throttle at hfollows
  rw [hreceived, hlast] at hfollows
  exact hfollows

end GraphTally.EscrowManager.DB

/-! ## The end of a burst -/

namespace GraphTally.Known

open EscrowManager DB

/-- A second after the loop starts. -/
def burst : List (List (Update Nanos) × Nanos) := [([laterUpdate], closingTime)]

/-- Half a second later. -/
def burstEnd : Nanos := closingTime + 500000000

end GraphTally.Known

namespace GraphTally.EscrowManager.DB

open Known

/-- The second update of a burst is received and not published, and nothing else will come. -/
theorem published_stale : ∃ loop totals,
    spawn .release debtWindow (closingTime - 1000000000) (burst ++ [([laterUpdate], burstEnd)]) =
      .ok loop ∧
    (burst ++ [([laterUpdate], burstEnd)]).Pairwise (fun a b ↦ a.2 ≤ b.2) ∧
    (loop.db.prune burstEnd).snapshot .release = .ok totals ∧
    owed loop.published indebted = 7 ∧ owed totals indebted = 14 ∧
    ¬IsCurrent debtWindow burstEnd [laterUpdate, laterUpdate] loop := by
  have hsnapshot : snapshotOf debtWindow burstEnd [laterUpdate, laterUpdate] indebted =
      some 14 := by decide +kernel
  refine ⟨_, _, rfl, ?_, rfl, rfl, rfl, ?_⟩
  · exact List.pairwise_pair.mpr (by decide)
  · intro hcurrent
    have hindebted := hcurrent indebted
    rw [hsnapshot] at hindebted
    exact absurd hindebted (by decide +kernel)

/-- The same two updates in batches that are a second apart. -/
theorem published_current_iff_known : ∃ loop,
    spawn .release debtWindow (closingTime - 1000000000)
      (burst ++ [([laterUpdate], closingTime + 1000000000)]) = .ok loop ∧
    IsCurrent debtWindow (closingTime + 1000000000) [laterUpdate, laterUpdate] loop := by
  have hturns : (burst ++ [([laterUpdate], closingTime + 1000000000)]).Pairwise
      (fun a b ↦ a.2 ≤ b.2) := List.pairwise_pair.mpr (by decide)
  exact ⟨_, rfl, (published_current_iff .release debtWindow (closingTime - 1000000000)
    (closingTime + 1000000000) burst [laterUpdate] _ rfl hturns).mpr (.inl (by decide))⟩

end GraphTally.EscrowManager.DB
