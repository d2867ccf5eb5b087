import GraphTally.EscrowManager.DebtWindow

/-!
# Debts whatever the history

What is dropped early would be dropped by the last prune, so a snapshot after it depends on the
updates only.
-/

open GraphTally.Theory

namespace GraphTally.EscrowManager.DB

variable {profile : Profile} {self other : DB} {window now : Nanos} {history : List Event}
  {items : List (Buckets.Item Address Int Nat)}

/-! ## Nothing overflows -/

/-- The totals of the hours and of what is left at the end are words. -/
structure TotalsFit (window now : Nanos) (updates : List (Update Nanos)) : Prop where
  hours : ∀ indexer t, (Buckets.amounts (updates.map item) indexer t).sum < 2 ^ 128
  final : ∀ indexer, laterFees (now - window) indexer updates < 2 ^ 128

/-- It is enough that all fees together do. -/
theorem TotalsFit.of_sum {updates : List (Update Nanos)}
    (h : (updates.map (·.fee.toNat)).sum < 2 ^ 128) : TotalsFit window now updates := by
  constructor
  · intro indexer t
    apply lt_of_le_of_lt _ h
    have hsublist := (List.filter_sublist (l := updates.map item)
      (p := fun item ↦ item.owner = indexer ∧ item.bucket = t)).map (·.amount)
    rw [List.map_map] at hsublist
    exact hsublist.sum_le_sum fun _ _ ↦ Nat.zero_le _
  · intro indexer
    apply lt_of_le_of_lt _ h
    apply List.sum_le_sum
    intro update _
    split
    · exact Nat.le_refl _
    · exact Nat.zero_le _

theorem received_append (history : List Event) (event : Event) :
    received (history ++ [event]) = received history ++ received [event] :=
  List.filterMap_append ..

/-- An hour's total is never more than the fees that came for it. -/
theorem entry_le (hrun : run profile window history = .ok self) (indexer : Address) (t : Int) :
    ((self.entry indexer t).getD 0).toNat ≤
      (Buckets.amounts ((received history).map item) indexer t).sum := by
  have hentry := (refines_run hrun).2 indexer t
  rcases Buckets.Table.exists_sublist (history.map (Event.exact window)) indexer t with
    ⟨counted, hsublist, hsum⟩
  rw [received_exact] at hsublist
  have hle : counted.sum ≤ (Buckets.amounts ((received history).map item) indexer t).sum :=
    hsublist.sum_le_sum fun _ _ ↦ Nat.zero_le _
  rw [hentry]
  cases htotal : Buckets.Table.run (history.map (Event.exact window)) indexer t with
  | none => exact Nat.zero_le _
  | some total =>
    rw [htotal, Option.getD_some] at hsum
    rw [Option.map_some, Option.getD_some, BitVec.toNat_ofNat, hsum]
    exact (Nat.mod_le _ _).trans hle

/-- An update goes through when its hour's total stays a word. -/
theorem exists_update {sent : Update Nanos}
    (hfits : ((self.entry sent.indexer (hourlyTimestamp sent.timestamp)).getD 0).toNat +
      sent.fee.toNat < 2 ^ 128) (time : Nanos) :
    ∃ next, self.update profile sent time = .ok next := by
  unfold update
  by_cases hold : sent.timestamp < time - self.window
  · exact ⟨self, if_pos hold⟩
  · rw [if_neg hold]
    dsimp only
    rw [plainAdd_of_fits profile hfits]
    exact ⟨_, rfl⟩

theorem exists_run
    (hfits : ∀ indexer t,
      (Buckets.amounts ((received history).map item) indexer t).sum < 2 ^ 128) :
    ∃ db, run profile window history = .ok db := by
  induction history using List.reverseRecOn with
  | nil => exact ⟨_, rfl⟩
  | append_singleton history event ih =>
    have happend : ∀ indexer t,
        (Buckets.amounts ((received (history ++ [event])).map item) indexer t).sum =
          (Buckets.amounts ((received history).map item) indexer t).sum +
            (Buckets.amounts ((received [event]).map item) indexer t).sum := by
      intro indexer t
      rw [received_append, List.map_append]
      unfold Buckets.amounts
      rw [List.filter_append, List.map_append, List.sum_append]
    have hbefore := ih fun indexer t ↦ by
      have hless := hfits indexer t
      rw [happend] at hless
      omega
    rcases hbefore with ⟨db, hdb⟩
    rw [run_append, hdb]
    show ∃ next, db.step profile event = .ok next
    cases event with
    | prune time => exact ⟨_, rfl⟩
    | update sent time =>
      have hle := entry_le hdb sent.indexer (hourlyTimestamp sent.timestamp)
      have hless := hfits sent.indexer (hourlyTimestamp sent.timestamp)
      have hone : (Buckets.amounts ((received [.update sent time]).map item) sent.indexer
          (hourlyTimestamp sent.timestamp)).sum = sent.fee.toNat := by
        simp [received, Event.sent?, item, Buckets.amounts]
      rw [happend, hone] at hless
      apply exists_update
      omega

theorem exists_snapshot (h : Refines self (Buckets.totals items))
    (hfits : ∀ indexer, Buckets.ownerTotal items indexer < 2 ^ 128) :
    ∃ totals, self.snapshot profile = .ok totals := by
  have hsums : ∀ entry ∈ self.data.entries, ∃ result,
      (plainSum profile entry.2.values : Outcome Empty U128).map (fun sum ↦ (entry.1, sum)) =
        .ok result := by
    intro entry hentry
    have hlookup := OrderedMap.lookup_eq_some.mpr hentry
    have hless : (entry.2.values.map BitVec.toNat).sum < 2 ^ 128 := by
      apply lt_of_le_of_lt _ (hfits entry.1)
      rw [values_eq h hlookup, ← sum_values h hlookup]
      apply List.sum_le_sum
      intro t _
      exact Nat.mod_le _ _
    have hplain : ∃ sum : U128, (∀ profile, (plainSum profile entry.2.values :
        Outcome Empty U128) = .ok sum) ∧ _ := plainSum_of_fits hless
    rcases hplain with ⟨sum, hsum, -⟩
    rw [hsum profile]
    exact ⟨(entry.1, sum), rfl⟩
  rcases exists_mapM hsums with ⟨results, hresults⟩
  unfold snapshot
  rw [hresults]
  exact ⟨_, rfl⟩

/-! ## Nothing else is left -/

/-- No indexer is left without an entry. -/
theorem lookup_pruned_eq_none (self : DB) (now : Nanos) (indexer : Address) :
    (self.prune now).data.lookup indexer = none ↔
      ∀ t, (self.prune now).entry indexer t = none := by
  constructor
  · intro hnone t
    rw [entry, hnone, Option.bind_none]
  · intro hnone
    apply Option.eq_none_iff_forall_ne_some.mpr
    intro entries hentries
    have hempty : entries.entries.isEmpty = true := by
      rw [OrderedMap.isEmpty_iff]
      intro t
      rw [← entry_of_lookup hentries]
      exact hnone t
    unfold prune at hentries
    dsimp only at hentries
    rw [OrderedMap.lookup_filterMapVal, Option.bind_eq_some_iff] at hentries
    rcases hentries with ⟨held, -, hkept⟩
    split at hkept
    · cases hkept
    · rename_i hsome
      rw [Option.some_inj.mp hkept] at hsome
      exact hsome hempty

/-- Pruned DBs that follow one table are the same. -/
theorem data_eq {table : Buckets.Table Address Int Nat} (h : Refines (self.prune now) table)
    (hother : Refines (other.prune now) table) :
    (self.prune now).data = (other.prune now).data := by
  have hentries : ∀ indexer t,
      (self.prune now).entry indexer t = (other.prune now).entry indexer t := by
    intro indexer t
    rw [h, hother]
  apply OrderedMap.ext_lookup
  intro indexer
  have hnone : (self.prune now).data.lookup indexer = none ↔
      (other.prune now).data.lookup indexer = none := by
    rw [lookup_pruned_eq_none, lookup_pruned_eq_none]
    exact forall_congr' fun t ↦ by rw [hentries]
  cases hlookup : (self.prune now).data.lookup indexer with
  | none => exact (hnone.mp hlookup).symm
  | some entries =>
    cases hlookup' : (other.prune now).data.lookup indexer with
    | none =>
      rw [hnone.mpr hlookup'] at hlookup
      cases hlookup
    | some entries' =>
      congr 1
      apply OrderedMap.ext_lookup
      intro t
      rw [← entry_of_lookup hlookup, ← entry_of_lookup hlookup', hentries]

/-! ## Two histories -/

/-- An update is in an hour that the last prune keeps. -/
theorem lookup_totals_iff {totals : OrderedMap Address U128} {updates : List (Update Nanos)}
    (h : Refines (self.prune now) (Buckets.totals ((retained window now updates).map item)))
    (hsnapshot : (self.prune now).snapshot profile = .ok totals) (indexer : Address) :
    (totals.lookup indexer).isSome ↔ ∃ update ∈ updates, update.indexer = indexer ∧
      hourlyTimestamp (now - window) < hourlyTimestamp update.timestamp := by
  rw [Option.isSome_iff_ne_none, ne_eq, lookup_snapshot_eq_none hsnapshot, lookup_pruned_eq_none,
    not_forall]
  constructor
  · rintro ⟨t, hsome⟩
    have hamounts :
        Buckets.amounts ((retained window now updates).map item) indexer t ≠ [] := by
      intro hnil
      apply hsome
      rw [h indexer t, Buckets.totals, if_pos hnil]
      rfl
    rcases List.exists_mem_of_ne_nil _ hamounts with ⟨amount, hamount⟩
    rcases List.mem_map.mp hamount with ⟨kept, hkept, -⟩
    rw [List.mem_filter, decide_eq_true_eq] at hkept
    rcases hkept with ⟨hkept, hindexer, -⟩
    rcases List.mem_map.mp hkept with ⟨update, hupdate, rfl⟩
    rw [retained, List.mem_filter, decide_eq_true_eq] at hupdate
    exact ⟨update, hupdate.1, hindexer, hupdate.2⟩
  · rintro ⟨update, hupdate, rfl, hlater⟩
    have hitem : item update ∈ (retained window now updates).map item := by
      apply List.mem_map_of_mem
      rw [retained, List.mem_filter]
      exact ⟨hupdate, decide_eq_true hlater⟩
    rcases entry_of_item h hitem with ⟨fee, hfee⟩
    refine ⟨hourlyTimestamp update.timestamp, ?_⟩
    show ¬(self.prune now).entry (item update).owner (item update).bucket = none
    rw [hfee]
    exact Option.some_ne_none fee

/-- Two histories of the same updates, in any order and batches and with any prunes in between,
give the same snapshot after a prune at the same time, and an indexer is in it exactly when one of
its updates is kept. -/
theorem snapshot_historyFree (profile : Profile) (window now : Nanos)
    (history history' : List Event)
    (hordered : Ordered (history ++ [.prune now])) (hordered' : Ordered (history' ++ [.prune now]))
    (hperm : (received history).Perm (received history'))
    (hfits : TotalsFit window now (received history)) :
    ∃ db db' totals, run profile window history = .ok db ∧
      run profile window history' = .ok db' ∧
      (db.prune now).snapshot profile = .ok totals ∧
      (db'.prune now).snapshot profile = .ok totals ∧
      ∀ indexer, (totals.lookup indexer).isSome ↔ ∃ update ∈ received history,
        update.indexer = indexer ∧
          hourlyTimestamp (now - window) < hourlyTimestamp update.timestamp := by
  have hitems : ∀ indexer t, (Buckets.amounts ((received history).map item) indexer t).sum =
      (Buckets.amounts ((received history').map item) indexer t).sum :=
    fun indexer t ↦ (Buckets.amounts_perm (hperm.map item) indexer t).sum_eq
  have hretained : Buckets.totals ((retained window now (received history)).map item) =
      Buckets.totals ((retained window now (received history')).map item) :=
    Buckets.totals_perm ((hperm.filter _).map _)
  have hrun : ∃ db, run profile window history = .ok db := exists_run hfits.hours
  have hrun' : ∃ db, run profile window history' = .ok db := by
    apply exists_run
    intro indexer t
    rw [← hitems]
    exact hfits.hours indexer t
  rcases hrun with ⟨db, hrun⟩
  rcases hrun' with ⟨db', hrun'⟩
  have hpruned := refines_pruned hordered hrun
  have hpruned' := refines_pruned hordered' hrun'
  rw [← hretained] at hpruned'
  have hsnapshot : ∃ totals, (db.prune now).snapshot profile = .ok totals := by
    apply exists_snapshot hpruned
    intro indexer
    rw [ownerTotal_retained]
    exact hfits.final indexer
  rcases hsnapshot with ⟨totals, hsnapshot⟩
  refine ⟨db, db', totals, hrun, hrun', hsnapshot, ?_, lookup_totals_iff hpruned hsnapshot⟩
  unfold snapshot at hsnapshot ⊢
  rwa [← data_eq hpruned hpruned']

end GraphTally.EscrowManager.DB

namespace GraphTally.Known

open EscrowManager DB

/-- Half a minute after the window reaches back to `windowStart`. -/
def closingTime : Nanos := windowStart + debtWindow + 30 * 1000000000

def earlyPrune : List Event :=
  [.update edgeUpdate windowStart, .prune (windowStart + debtWindow),
    .update laterUpdate closingTime]

def lateUpdate : List Event := [.update laterUpdate windowStart, .update edgeUpdate closingTime]

end GraphTally.Known

namespace GraphTally.EscrowManager.DB

open Known in
/-- The update of the edge is dropped by an early prune in one history and comes late in the
other. -/
theorem snapshot_historyFree_known : ∃ db db' totals,
    run .debug debtWindow earlyPrune = .ok db ∧ run .debug debtWindow lateUpdate = .ok db' ∧
      (db.prune closingTime).snapshot .debug = .ok totals ∧
      (db'.prune closingTime).snapshot .debug = .ok totals := by
  have hfits : TotalsFit debtWindow closingTime (received earlyPrune) := .of_sum (by decide)
  have hordered : Ordered (earlyPrune ++ [.prune closingTime]) := by
    unfold Ordered
    decide +kernel
  have hordered' : Ordered (lateUpdate ++ [.prune closingTime]) := by
    unfold Ordered
    decide +kernel
  rcases snapshot_historyFree .debug debtWindow closingTime earlyPrune lateUpdate hordered hordered'
    (List.Perm.swap _ _ _) hfits with ⟨db, db', totals, hrun, hrun', hsnapshot, hsnapshot', -⟩
  exact ⟨db, db', totals, hrun, hrun', hsnapshot, hsnapshot'⟩

end GraphTally.EscrowManager.DB
