import GraphTally.EscrowManager.Debts

/-!
# The edge of the debt window

An update is accepted by its own time and pruned by its hour, so the hour in which the window starts
is never in a snapshot.
-/

open GraphTally.Theory

namespace GraphTally.EscrowManager.DB

/-! ## Sums of fees -/

/-- The fees for an indexer at the times that are picked. -/
def feesAt (picks : Nanos → Prop) [DecidablePred picks] (indexer : Address)
    (updates : List (Update Nanos)) : Nat :=
  (updates.map fun update ↦
    if update.indexer = indexer ∧ picks update.timestamp then update.fee.toNat else 0).sum

section Sums

variable {picks picks' picks'' : Nanos → Prop} [DecidablePred picks] [DecidablePred picks']
  [DecidablePred picks'']

theorem feesAt_mono (h : ∀ t, picks t → picks' t) (indexer : Address)
    (updates : List (Update Nanos)) :
    feesAt picks indexer updates ≤ feesAt picks' indexer updates := by
  unfold feesAt
  apply List.sum_le_sum
  intro update _
  by_cases hpicks : update.indexer = indexer ∧ picks update.timestamp
  · rw [if_pos hpicks, if_pos ⟨hpicks.1, h _ hpicks.2⟩]
  · rw [if_neg hpicks]
    exact Nat.zero_le _

/-- The fees at the times that either picks are the fees of both, when no time is picked twice. -/
theorem feesAt_add (h : ∀ t, picks'' t ↔ picks t ∨ picks' t) (hapart : ∀ t, picks t → ¬picks' t)
    (indexer : Address) (updates : List (Update Nanos)) :
    feesAt picks'' indexer updates =
      feesAt picks indexer updates + feesAt picks' indexer updates := by
  unfold feesAt
  rw [← List.sum_map_add]
  congr 1
  apply List.map_congr_left
  intro update _
  by_cases hindexer : update.indexer = indexer
  · by_cases hpicks : picks update.timestamp
    · simp [hindexer, h, hpicks, hapart _ hpicks]
    · simp [hindexer, h, hpicks]
  · simp [hindexer]

end Sums

/-- The fees from a time on. -/
def feesSince (start : Nanos) : Address → List (Update Nanos) → Nat := feesAt (start ≤ ·)

/-- The fees from a time on in the same hour. -/
def edgeFees (start : Nanos) : Address → List (Update Nanos) → Nat :=
  feesAt fun t ↦ start ≤ t ∧ hourlyTimestamp t = hourlyTimestamp start

/-- The fees in the hours after that of a time. -/
def laterFees (start : Nanos) : Address → List (Update Nanos) → Nat :=
  feesAt fun t ↦ hourlyTimestamp start < hourlyTimestamp t

theorem lt_of_later {start t : Nanos} (h : hourlyTimestamp start < hourlyTimestamp t) :
    start < t := by
  by_contra hle
  exact absurd h (not_lt.mpr (hourlyTimestamp_mono (not_lt.mp hle)))

theorem feesSince_eq (start : Nanos) (indexer : Address) (updates : List (Update Nanos)) :
    feesSince start indexer updates =
      edgeFees start indexer updates + laterFees start indexer updates := by
  apply feesAt_add
  · intro t
    constructor
    · intro hle
      rcases (hourlyTimestamp_mono hle).eq_or_lt with hsame | hlater
      · exact .inl ⟨hle, hsame.symm⟩
      · exact .inr hlater
    · rintro (⟨hle, -⟩ | hlater)
      · exact hle
      · exact (lt_of_later hlater).le
  · rintro t ⟨-, hsame⟩ hlater
    omega

theorem laterFees_le (start : Nanos) (indexer : Address) (updates : List (Update Nanos)) :
    laterFees start indexer updates ≤ feesSince (start - hour) indexer updates := by
  apply feesAt_mono
  intro t hlater
  have hhour : start - hour ≤ start := Int.sub_le_self start (by decide)
  exact hhour.trans (lt_of_later hlater).le

theorem ownerTotal_retained (window now : Nanos) (indexer : Address)
    (updates : List (Update Nanos)) :
    Buckets.ownerTotal ((retained window now updates).map item) indexer =
      laterFees (now - window) indexer updates := by
  unfold laterFees feesAt Buckets.ownerTotal retained
  induction updates with
  | nil => rfl
  | cons update updates ih =>
    rw [List.map_cons, List.sum_cons, ← ih]
    by_cases hlater : hourlyTimestamp (now - window) < hourlyTimestamp update.timestamp
    · by_cases hindexer : update.indexer = indexer
      · simp [hlater, hindexer, item]
      · simp [hlater, hindexer, item]
    · simp [hlater]

/-! ## What a snapshot covers -/

/-- The snapshot counts the fees of the window, and no more than those of one hour before it. -/
def CoversWindow (start : Nanos) (updates : List (Update Nanos))
    (totals : OrderedMap Address U128) (indexer : Address) : Prop :=
  feesSince start indexer updates ≤ owed totals indexer ∧
    owed totals indexer ≤ feesSince (start - hour) indexer updates

variable {profile : Profile} {window now : Nanos} {history : List Event} {db : DB}
  {totals : OrderedMap Address U128}

/-- A snapshot after a prune counts the hours after the one that the window starts in. -/
theorem owed_snapshot (hordered : Ordered (history ++ [.prune now]))
    (hrun : run profile window history = .ok db)
    (hsnapshot : (db.prune now).snapshot profile = .ok totals) (indexer : Address) :
    owed totals indexer = laterFees (now - window) indexer (received history) % 2 ^ 128 := by
  rw [owed_eq (refines_pruned hordered hrun) hsnapshot, ownerTotal_retained]

/-- A snapshot never counts too much, and it counts enough exactly when nothing is owed for what is
left of the hour that the window starts in and the fees of the window fit in a word. -/
theorem snapshot_covers_window_iff (profile : Profile) (window now : Nanos) (history : List Event)
    (db : DB) (totals : OrderedMap Address U128) (hordered : Ordered (history ++ [.prune now]))
    (hrun : run profile window history = .ok db)
    (hsnapshot : (db.prune now).snapshot profile = .ok totals) (indexer : Address) :
    CoversWindow (now - window) (received history) totals indexer ↔
      edgeFees (now - window) indexer (received history) = 0 ∧
        feesSince (now - window) indexer (received history) < 2 ^ 128 := by
  have howed := owed_snapshot hordered hrun hsnapshot indexer
  have hsince := feesSince_eq (now - window) indexer (received history)
  have hlater := laterFees_le (now - window) indexer (received history)
  unfold CoversWindow
  rw [howed, hsince]
  have hle : laterFees (now - window) indexer (received history) % 2 ^ 128 ≤
      laterFees (now - window) indexer (received history) := Nat.mod_le _ _
  constructor
  · rintro ⟨hlower, -⟩
    have hless : laterFees (now - window) indexer (received history) % 2 ^ 128 < 2 ^ 128 :=
      Nat.mod_lt _ (by decide)
    omega
  · rintro ⟨hedge, hfits⟩
    rw [hedge, Nat.zero_add] at hfits ⊢
    rw [Nat.mod_eq_of_lt hfits]
    exact ⟨Nat.le_refl _, hlater⟩

/-- Every snapshot that the loop sends is one after a prune. -/
theorem sent_covers_window_iff (profile : Profile) (window started : Nanos)
    (turns : List (List (Update Nanos) × Nanos)) (loop : Spawned)
    (hspawn : spawn profile window started turns = .ok loop)
    (hturns : turns.Pairwise fun a b ↦ a.2 ≤ b.2) (hsent : totals ∈ loop.sent)
    (indexer : Address) :
    ∃ before now, received before <+: turns.flatMap Prod.fst ∧ now ∈ turns.map Prod.snd ∧
      SentAfter profile window before now totals ∧
      (CoversWindow (now - window) (received before) totals indexer ↔
        edgeFees (now - window) indexer (received before) = 0 ∧
          feesSince (now - window) indexer (received before) < 2 ^ 128) := by
  rcases spawn_history hspawn with ⟨history, htells⟩
  rcases htells.sent totals hsent with ⟨before, now, hinitial, db, hrun, hsnapshot⟩
  have hordered : Ordered (before ++ [.prune now]) :=
    (htells.ordered hturns).sublist hinitial.sublist
  refine ⟨before, now, ?_, ?_, ⟨db, hrun, hsnapshot⟩, ?_⟩
  · rw [← htells.received]
    exact ((List.prefix_append _ _).trans hinitial).filterMap _
  · exact htells.times (.prune now) (hinitial.subset (List.mem_append_right _ List.mem_cons_self))
  · exact snapshot_covers_window_iff profile window now before db totals hordered hrun hsnapshot
      indexer

end GraphTally.EscrowManager.DB

/-! ## An update on either side of the edge -/

namespace GraphTally.Known

open EscrowManager DB

def indebted : Address := FixedBytes.repeatByte 20 0x03

/-- The window starts 800 seconds into an hour. -/
def windowStart : Nanos := 1700000000 * 1000000000

/-- Ten minutes after the window starts. -/
def edgeUpdate : Update Nanos := ⟨windowStart + 600 * 1000000000, indebted, 5⟩

/-- In the hour after. -/
def laterUpdate : Update Nanos := ⟨windowStart + 2900 * 1000000000, indebted, 7⟩

end GraphTally.Known

namespace GraphTally.EscrowManager.DB

open Known

/-- An update that is accepted and then pruned in the same turn, although it is in the window. -/
theorem snapshot_undercounts : ∃ db totals,
    Ordered ([.update edgeUpdate (windowStart + debtWindow)] ++
      [.prune (windowStart + debtWindow)]) ∧
    run .release debtWindow [.update edgeUpdate (windowStart + debtWindow)] = .ok db ∧
    db.entry indebted (hourlyTimestamp edgeUpdate.timestamp) = some 5 ∧
    (db.prune (windowStart + debtWindow)).snapshot .release = .ok totals ∧
    feesSince windowStart indebted [edgeUpdate] = 5 ∧ owed totals indebted = 0 ∧
    ¬CoversWindow windowStart [edgeUpdate] totals indebted := by
  have hfees : feesSince windowStart indebted [edgeUpdate] = 5 := rfl
  refine ⟨_, _, ?_, rfl, rfl, rfl, hfees, rfl, ?_⟩
  · exact List.pairwise_pair.mpr (Int.le_refl _)
  · rintro ⟨hlower, -⟩
    rw [hfees] at hlower
    exact absurd hlower (by decide)

/-- Two updates of the hour after, one of them received after an earlier prune. -/
theorem snapshot_covers_window_iff_known : ∃ totals,
    CoversWindow windowStart [laterUpdate, laterUpdate] totals indebted ∧
      owed totals indebted = 14 := by
  let now := windowStart + debtWindow
  have hordered : Ordered
      ([.update laterUpdate now, .prune now, .update laterUpdate now] ++ [.prune now]) := by
    unfold Ordered
    simp [Event.time]
  have hcovers := (snapshot_covers_window_iff .release debtWindow now
    [.update laterUpdate now, .prune now, .update laterUpdate now] _ _ hordered rfl rfl
    indebted).mpr ⟨rfl, by decide⟩
  exact ⟨_, hcovers, rfl⟩

end GraphTally.EscrowManager.DB
