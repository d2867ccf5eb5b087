import GraphTally.EscrowManager.Deposits
import GraphTally.EscrowManager.Receipts
import GraphTally.Theory.Buckets
import GraphTally.Theory.Fallible

/-!
# The debts of the last days

`DB`: the fees of the receipts by indexer and hour, and how they follow the exact totals.
-/

open GraphTally.Theory

namespace GraphTally.EscrowManager

/-! ## Times -/

/-- A `DateTime<Utc>` or a `Duration`, in nanoseconds. -/
abbrev Nanos := Int

/-- Whole seconds, rounded down. -/
def timestamp (t : Nanos) : Int := t / 1000000000

def hour : Nanos := 3600 * 1000000000

/-- The window of `receipts`. -/
def debtWindow : Nanos := 28 * 24 * hour

/-- The `%` of the source rounds to zero. -/
def hourlyTimestamp (t : Nanos) : Int := timestamp t - (timestamp t).tmod 3600

theorem hourlyTimestamp_mono {t t' : Nanos} (h : t ≤ t') :
    hourlyTimestamp t ≤ hourlyTimestamp t' := by
  have hseconds : timestamp t ≤ timestamp t' := Int.ediv_le_ediv (by decide) h
  have htdiv : ∀ s : Int, s - s.tmod 3600 = 3600 * s.tdiv 3600 := by
    intro s
    have hsplit := Int.mul_tdiv_add_tmod s 3600
    omega
  unfold hourlyTimestamp
  rw [htdiv, htdiv]
  have hquotient := Int.tdiv_le_tdiv (show 0 < (3600 : Int) by decide) hseconds
  omega

/-! ## The database -/

structure DB where
  data : OrderedMap Address (OrderedMap Int U128)
  window : Nanos

namespace DB

/-- The DB that `spawn` starts with. -/
def new (window : Nanos) : DB := ⟨.empty, window⟩

/-- The entry of an indexer for an hour, if there is one. -/
def entry (self : DB) (indexer : Address) (t : Int) : Option U128 :=
  (self.data.lookup indexer).bind fun entries ↦ entries.lookup t

def setEntry (self : DB) (indexer : Address) (t : Int) (fee : U128) : DB :=
  let entries := (self.data.lookup indexer).getD .empty
  { self with data := self.data.insert indexer (entries.insert t fee) }

/-- A missing entry starts at zero. -/
def update (profile : Profile) (self : DB) (update : Update Nanos) (now : Nanos) :
    Outcome Empty DB :=
  if update.timestamp < now - self.window then .ok self
  else
    let t := hourlyTimestamp update.timestamp
    match plainAdd profile ((self.entry update.indexer t).getD 0) update.fee with
    | .error e => .error e
    | .ok fee => .ok (self.setEntry update.indexer t fee)

/-- What is kept of an indexer's entries. -/
def keep (minTimestamp : Int) (entries : OrderedMap Int U128) : OrderedMap Int U128 :=
  entries.filterMapVal fun t fee ↦ if minTimestamp < t then some fee else none

/-- An indexer whose last entry goes is removed. -/
def prune (self : DB) (now : Nanos) : DB :=
  let minTimestamp := hourlyTimestamp (now - self.window)
  { self with data := self.data.filterMapVal fun _ entries ↦
      let kept := keep minTimestamp entries
      if kept.entries.isEmpty then none else some kept }

def snapshot (profile : Profile) (self : DB) : Outcome Empty (OrderedMap Address U128) :=
  match self.data.entries.mapM fun entry ↦
      (plainSum profile entry.2.values : Outcome Empty U128).map fun sum ↦ (entry.1, sum) with
  | .error e => .error e
  | .ok totals => .ok (.ofList totals)

/-! ## Its histories -/

inductive Event where
  | update (sent : Update Nanos) (now : Nanos)
  | prune (now : Nanos)

def Event.time : Event → Nanos
  | .update _ now => now
  | .prune now => now

def step (profile : Profile) (self : DB) : Event → Outcome Empty DB
  | .update sent now => self.update profile sent now
  | .prune now => .ok (self.prune now)

def run (profile : Profile) (window : Nanos) (history : List Event) : Outcome Empty DB :=
  history.foldlM (step profile) (new window)

def Event.sent? : Event → Option (Update Nanos)
  | .update sent _ => some sent
  | .prune _ => none

/-- The updates that came, whether they were counted or not. -/
def received (history : List Event) : List (Update Nanos) := history.filterMap Event.sent?

/-- The times do not decrease. -/
def Ordered (history : List Event) : Prop := history.Pairwise fun a b ↦ a.time ≤ b.time

/-! ## The exact table -/

def item (update : Update Nanos) : Buckets.Item Address Int Nat :=
  ⟨update.indexer, hourlyTimestamp update.timestamp, update.fee.toNat⟩

/-- What an event does to exact totals. -/
def Event.exact (window : Nanos) : Event → Buckets.Event Address Int Nat
  | .update sent now =>
    if sent.timestamp < now - window then .skip (item sent) else .add (item sent)
  | .prune now => .cut (hourlyTimestamp (now - window))

/-- Each entry is the exact total, as a machine word. -/
def Refines (self : DB) (table : Buckets.Table Address Int Nat) : Prop :=
  ∀ indexer t, self.entry indexer t = (table indexer t).map (BitVec.ofNat 128)

variable {profile : Profile} {self next : DB} {window : Nanos}
  {table : Buckets.Table Address Int Nat}

theorem entry_setEntry (self : DB) (indexer : Address) (t : Int) (fee : U128) (other : Address)
    (t' : Int) :
    (self.setEntry indexer t fee).entry other t' =
      if indexer = other ∧ t = t' then some fee else self.entry other t' := by
  unfold entry setEntry
  dsimp only
  by_cases hindexer : indexer = other
  · subst hindexer
    rw [OrderedMap.lookup_insert, Option.bind_some]
    by_cases htime : t = t'
    · subst htime
      rw [OrderedMap.lookup_insert, if_pos ⟨rfl, rfl⟩]
    · rw [OrderedMap.lookup_insert_ne (Ne.symm htime), if_neg fun h ↦ htime h.2]
      cases self.data.lookup indexer with
      | none => rfl
      | some entries => rfl
  · rw [OrderedMap.lookup_insert_ne (Ne.symm hindexer), if_neg fun h ↦ hindexer h.1]

theorem lookup_keep (minTimestamp : Int) (entries : OrderedMap Int U128) (t : Int) :
    (keep minTimestamp entries).lookup t = if minTimestamp < t then entries.lookup t else none := by
  unfold keep
  rw [OrderedMap.lookup_filterMapVal]
  by_cases hkept : minTimestamp < t
  · simp [hkept]
  · simp [hkept]

/-- An accepted update adds its fee to its hour. -/
theorem refines_update (h : Refines self table) {sent : Update Nanos} {now : Nanos}
    (hupdate : self.update profile sent now = .ok next) :
    next.window = self.window ∧
      Refines next (table.step (Event.exact self.window (.update sent now))) := by
  unfold update at hupdate
  unfold Event.exact
  dsimp only at hupdate ⊢
  by_cases hold : sent.timestamp < now - self.window
  · rw [if_pos hold] at hupdate ⊢
    rw [← Except.ok.inj hupdate]
    exact ⟨rfl, h⟩
  · rw [if_neg hold] at hupdate ⊢
    split at hupdate
    · cases hupdate
    · rename_i fee hadd
      rw [← Except.ok.inj hupdate]
      refine ⟨rfl, ?_⟩
      intro indexer t
      rw [entry_setEntry, plainAdd_eq_ok hadd, h]
      show _ = (table.add (item sent) indexer t).map (BitVec.ofNat 128)
      unfold Buckets.Table.add item
      dsimp only
      by_cases hsame : sent.indexer = indexer ∧ hourlyTimestamp sent.timestamp = t
      · rcases hsame with ⟨rfl, rfl⟩
        rw [if_pos ⟨rfl, rfl⟩, if_pos ⟨rfl, rfl⟩, Option.map_some, BitVec.ofNat_add,
          BitVec.ofNat_toNat, BitVec.setWidth_eq]
        cases table sent.indexer (hourlyTimestamp sent.timestamp) with
        | none => rfl
        | some total => rfl
      · rw [if_neg hsame, if_neg hsame, h]

theorem entry_prune (self : DB) (now : Nanos) (indexer : Address) (t : Int) :
    (self.prune now).entry indexer t =
      if hourlyTimestamp (now - self.window) < t then self.entry indexer t else none := by
  unfold entry prune
  dsimp only
  rw [OrderedMap.lookup_filterMapVal]
  cases self.data.lookup indexer with
  | none => simp
  | some entries =>
    rw [Option.bind_some, Option.bind_some, ← lookup_keep]
    by_cases hempty : (keep (hourlyTimestamp (now - self.window)) entries).entries.isEmpty = true
    · rw [if_pos hempty, (OrderedMap.isEmpty_iff _).mp hempty]
      rfl
    · rw [if_neg hempty]
      rfl

/-- A prune drops the hours up to the one that the window starts in. -/
theorem refines_prune (h : Refines self table) (now : Nanos) :
    Refines (self.prune now) (table.cut (hourlyTimestamp (now - self.window))) := by
  intro indexer t
  rw [entry_prune, h]
  unfold Buckets.Table.cut
  by_cases hkept : hourlyTimestamp (now - self.window) < t
  · rw [if_pos hkept, if_pos hkept]
  · rw [if_neg hkept, if_neg hkept]
    rfl

theorem refines_step (h : Refines self table) {event : Event}
    (hstep : self.step profile event = .ok next) :
    next.window = self.window ∧ Refines next (table.step (event.exact self.window)) := by
  cases event with
  | update sent now => exact refines_update h hstep
  | prune now =>
    rw [← Except.ok.inj hstep]
    exact ⟨rfl, refines_prune h now⟩

theorem run_append {history : List Event} {event : Event} :
    run profile window (history ++ [event]) =
      run profile window history >>= fun db ↦ db.step profile event := by
  unfold run
  simp only [List.foldlM_append, List.foldlM_cons, List.foldlM_nil, bind_pure]

/-- After any history the entries are those of the exact table. -/
theorem refines_run {history : List Event} (hrun : run profile window history = .ok self) :
    self.window = window ∧ Refines self (Buckets.Table.run (history.map (Event.exact window))) := by
  induction history using List.reverseRecOn generalizing self with
  | nil =>
    rw [← Except.ok.inj hrun]
    exact ⟨rfl, fun _ _ ↦ rfl⟩
  | append_singleton history event ih =>
    rw [run_append] at hrun
    rcases except_bind_eq_ok.mp hrun with ⟨before, hbefore, hstep⟩
    rcases ih hbefore with ⟨hwindow, hrefines⟩
    rcases refines_step hrefines hstep with ⟨hkept, hnext⟩
    rw [hwindow] at hkept hnext
    rw [List.map_append, List.map_singleton, Buckets.Table.run_append]
    exact ⟨hkept, hnext⟩

theorem exact_update (window : Nanos) (sent : Update Nanos) (now : Nanos) :
    Event.exact window (.update sent now) =
      if sent.timestamp < now - window then .skip (item sent) else .add (item sent) := rfl

theorem received_exact (window : Nanos) (history : List Event) :
    Buckets.received (history.map (Event.exact window)) = (received history).map item := by
  unfold Buckets.received received
  rw [List.filterMap_map, List.map_filterMap]
  congr 1
  funext event
  cases event with
  | update sent now =>
    show (Event.exact window (.update sent now)).item? = some (item sent)
    rw [exact_update]
    by_cases hold : sent.timestamp < now - window
    · rw [if_pos hold]
      rfl
    · rw [if_neg hold]
      rfl
  | prune now => rfl

/-- What an update or a prune takes away at any time is gone with the prunes that follow. -/
theorem below_of_le {event : Event} {now : Nanos} (h : event.time ≤ now) :
    (event.exact window).Below (hourlyTimestamp (now - window)) := by
  have hwindow : event.time - window ≤ now - window := Int.sub_le_sub_right h window
  cases event with
  | update sent time =>
    rw [exact_update]
    by_cases hold : sent.timestamp < time - window
    · rw [if_pos hold]
      exact hourlyTimestamp_mono (hold.le.trans hwindow)
    · rw [if_neg hold]
      trivial
  | prune time => exact hourlyTimestamp_mono hwindow

/-- The updates whose hour a prune at this time keeps. -/
def retained (window now : Nanos) (updates : List (Update Nanos)) : List (Update Nanos) :=
  updates.filter fun update ↦
    hourlyTimestamp (now - window) < hourlyTimestamp update.timestamp

theorem above_items (window now : Nanos) (updates : List (Update Nanos)) :
    Buckets.above (hourlyTimestamp (now - window)) (updates.map item) =
      (retained window now updates).map item := by
  unfold Buckets.above retained
  rw [List.filter_map]
  rfl

/-- After a prune the entries are the totals of the updates in the hours that are kept, whatever
happened before. -/
theorem refines_pruned {history : List Event} {now : Nanos}
    (hordered : Ordered (history ++ [.prune now]))
    (hrun : run profile window history = .ok self) :
    Refines (self.prune now)
      (Buckets.totals ((retained window now (received history)).map item)) := by
  rcases refines_run hrun with ⟨hwindow, hrefines⟩
  have hbelow : ∀ event ∈ history.map (Event.exact window),
      event.Below (hourlyTimestamp (now - window)) := by
    intro event hevent
    rcases List.mem_map.mp hevent with ⟨source, hsource, rfl⟩
    apply below_of_le
    exact (List.pairwise_append.mp hordered).2.2 source hsource (.prune now) List.mem_cons_self
  have hpruned := refines_prune hrefines now
  rw [hwindow, Buckets.Table.run_cut hbelow, received_exact, above_items] at hpruned
  exact hpruned

/-! ## The snapshot -/

/-- The debt that a snapshot gives an indexer. -/
def owed (snapshot : OrderedMap Address U128) (indexer : Address) : Nat :=
  ((snapshot.lookup indexer).map BitVec.toNat).getD 0

theorem snapshot_eq_ok {totals : OrderedMap Address U128}
    (h : self.snapshot profile = .ok totals) :
    ∃ results : List (Address × U128), totals = .ofList results ∧
      self.data.entries.mapM (fun entry ↦
        (plainSum profile entry.2.values : Outcome Empty U128).map fun sum ↦ (entry.1, sum)) =
          .ok results := by
  unfold snapshot at h
  split at h
  · cases h
  · rename_i results hresults
    exact ⟨results, (Except.ok.inj h).symm, hresults⟩

theorem sum_eq_ok {entry : Address × OrderedMap Int U128} {result : Address × U128} :
    (plainSum profile entry.2.values : Outcome Empty U128).map (fun sum ↦ (entry.1, sum)) =
      .ok result ↔ entry.1 = result.1 ∧
        (plainSum profile entry.2.values : Outcome Empty U128) = .ok result.2 := by
  cases (plainSum profile entry.2.values : Outcome Empty U128) with
  | error e => simp [Except.map]
  | ok sum => simp [Except.map, Prod.ext_iff]

/-- A snapshot has the indexers of the data, each with the sum of its entries. -/
theorem lookup_snapshot {totals : OrderedMap Address U128}
    (h : self.snapshot profile = .ok totals) (indexer : Address) (sum : U128) :
    totals.lookup indexer = some sum ↔
      ∃ entries, self.data.lookup indexer = some entries ∧
        (plainSum profile entries.values : Outcome Empty U128) = .ok sum := by
  rcases snapshot_eq_ok h with ⟨results, rfl, hresults⟩
  have hkeys : results.map Prod.fst = self.data.entries.map Prod.fst := by
    have hforall := (mapM_eq_ok.mp hresults).imp fun _ _ hok ↦ (sum_eq_ok.mp hok).1
    have hmaps := List.forall₂_map_left_iff.mpr (List.forall₂_map_right_iff.mpr hforall)
    exact (List.forall₂_eq_eq_eq ▸ hmaps).symm
  rw [OrderedMap.lookup_ofList (hkeys ▸ self.data.keys_nodup)]
  constructor
  · intro hmem
    rcases (mem_of_mapM hresults).2 _ hmem with ⟨entry, hdata, hok⟩
    rcases sum_eq_ok.mp hok with ⟨rfl, hsum⟩
    exact ⟨entry.2, OrderedMap.lookup_eq_some.mpr hdata, hsum⟩
  · rintro ⟨entries, hlookup, hsum⟩
    rcases (mem_of_mapM hresults).1 _ (OrderedMap.lookup_eq_some.mp hlookup) with
      ⟨result, hmem, hok⟩
    rcases sum_eq_ok.mp hok with ⟨hkey, hresult⟩
    have hsame : result = (indexer, sum) := by
      rw [hsum] at hresult
      exact Prod.ext hkey.symm (Except.ok.inj hresult).symm
    rwa [← hsame]

theorem exists_lookup_snapshot {totals : OrderedMap Address U128}
    (h : self.snapshot profile = .ok totals) {indexer : Address} {entries : OrderedMap Int U128}
    (hlookup : self.data.lookup indexer = some entries) :
    ∃ sum, totals.lookup indexer = some sum ∧
      (plainSum profile entries.values : Outcome Empty U128) = .ok sum := by
  rcases snapshot_eq_ok h with ⟨results, -, hresults⟩
  rcases (mem_of_mapM hresults).1 _ (OrderedMap.lookup_eq_some.mp hlookup) with ⟨result, -, hok⟩
  have hsum := (sum_eq_ok.mp hok).2
  exact ⟨result.2, (lookup_snapshot h _ _).mpr ⟨entries, hlookup, hsum⟩, hsum⟩

/-- The indexers of a snapshot are those of the data. -/
theorem lookup_snapshot_eq_none {totals : OrderedMap Address U128}
    (h : self.snapshot profile = .ok totals) (indexer : Address) :
    totals.lookup indexer = none ↔ self.data.lookup indexer = none := by
  constructor
  · intro hnone
    apply Option.eq_none_iff_forall_ne_some.mpr
    intro entries hentries
    rcases exists_lookup_snapshot h hentries with ⟨sum, hsum, -⟩
    rw [hnone] at hsum
    cases hsum
  · intro hnone
    apply Option.eq_none_iff_forall_ne_some.mpr
    intro sum hsum
    rcases (lookup_snapshot h _ _).mp hsum with ⟨entries, hentries, -⟩
    rw [hnone] at hentries
    cases hentries

variable {items : List (Buckets.Item Address Int Nat)} {indexer : Address}
  {entries : OrderedMap Int U128}

theorem entry_of_lookup (hlookup : self.data.lookup indexer = some entries) (t : Int) :
    self.entry indexer t = entries.lookup t := by
  rw [entry, hlookup, Option.bind_some]

/-- The values of an indexer's entries are the exact amounts of its hours, as machine words. -/
theorem values_eq (h : Refines self (Buckets.totals items))
    (hlookup : self.data.lookup indexer = some entries) :
    entries.values.map BitVec.toNat = (entries.entries.map Prod.fst).map fun t ↦
      (Buckets.amounts items indexer t).sum % 2 ^ 128 := by
  unfold OrderedMap.values
  rw [List.map_map, List.map_map]
  apply List.map_congr_left
  intro entry hentry
  have hvalue := h indexer entry.1
  rw [entry_of_lookup hlookup, OrderedMap.lookup_eq_some.mpr hentry] at hvalue
  rcases Option.map_eq_some_iff.mp hvalue.symm with ⟨total, htotal, hword⟩
  show entry.2.toNat = (Buckets.amounts items indexer entry.1).sum % 2 ^ 128
  rw [← hword, BitVec.toNat_ofNat, ← Buckets.getD_totals, htotal, Option.getD_some]

/-- The hours of an indexer's items are those of its entries. -/
theorem entry_of_item (h : Refines self (Buckets.totals items))
    {item : Buckets.Item Address Int Nat} (hitem : item ∈ items) :
    ∃ fee, self.entry item.owner item.bucket = some fee := by
  have hsome : Buckets.amounts items item.owner item.bucket ≠ [] := by
    apply List.ne_nil_of_mem
    apply List.mem_map_of_mem
    rw [List.mem_filter]
    exact ⟨hitem, decide_eq_true ⟨rfl, rfl⟩⟩
  have hentry := h item.owner item.bucket
  rw [Buckets.totals, if_neg hsome] at hentry
  exact ⟨_, hentry⟩

theorem sum_values (h : Refines self (Buckets.totals items))
    (hlookup : self.data.lookup indexer = some entries) :
    ((entries.entries.map Prod.fst).map fun t ↦ (Buckets.amounts items indexer t).sum).sum =
      Buckets.ownerTotal items indexer := by
  apply Buckets.sum_amounts items indexer entries.keys_nodup
  rintro item hitem rfl
  rcases entry_of_item h hitem with ⟨fee, hfee⟩
  rw [entry_of_lookup hlookup] at hfee
  exact List.mem_map_of_mem (OrderedMap.lookup_eq_some.mp hfee)

/-- A snapshot gives each indexer its exact total, but for what wraps. -/
theorem owed_eq (h : Refines self (Buckets.totals items)) {totals : OrderedMap Address U128}
    (hsnapshot : self.snapshot profile = .ok totals) (indexer : Address) :
    owed totals indexer = Buckets.ownerTotal items indexer % 2 ^ 128 := by
  unfold owed
  cases hlookup : self.data.lookup indexer with
  | none =>
    have habsent := (lookup_snapshot_eq_none hsnapshot indexer).mpr hlookup
    have hzero : Buckets.ownerTotal items indexer = 0 := by
      have hnone : (items.filter fun item ↦ item.owner = indexer) = [] := by
        rw [List.filter_eq_nil_iff]
        rintro item hitem howner
        obtain rfl := of_decide_eq_true howner
        rcases entry_of_item h hitem with ⟨fee, hfee⟩
        rw [entry, hlookup] at hfee
        cases hfee
      rw [Buckets.ownerTotal, hnone]
      rfl
    rw [habsent, hzero]
    rfl
  | some entries =>
    rcases exists_lookup_snapshot hsnapshot hlookup with ⟨sum, hsum, hplain⟩
    rw [hsum, Option.map_some, Option.getD_some, plainSum_eq_ok hplain, values_eq h hlookup,
      ← sum_values h hlookup]
    conv_rhs => rw [List.sum_nat_mod, List.map_map]
    rfl

/-! ## The loop of `spawn` -/

/-- The loop, with the snapshots it has sent. -/
structure Spawned where
  db : DB
  lastSnapshot : Nanos
  sent : List (OrderedMap Address U128)

/-- One turn, for the updates in the buffer and the time after they were received. -/
def turn (profile : Profile) (self : Spawned) (buffer : List (Update Nanos)) (now : Nanos) :
    Outcome Empty Spawned := do
  let db ← buffer.foldlM (fun db update ↦ db.update profile update now) self.db
  if 1000000000 ≤ now - self.lastSnapshot then
    let db := db.prune now
    let snapshot ← db.snapshot profile
    return ⟨db, now, self.sent ++ [snapshot]⟩
  else return { self with db }

def spawn (profile : Profile) (window started : Nanos)
    (turns : List (List (Update Nanos) × Nanos)) : Outcome Empty Spawned :=
  turns.foldlM (fun self turn ↦ DB.turn profile self turn.1 turn.2) ⟨new window, started, []⟩

/-- The snapshot was taken after a prune, of a DB with this history. -/
def SentAfter (profile : Profile) (window : Nanos) (history : List Event) (now : Nanos)
    (snapshot : OrderedMap Address U128) : Prop :=
  ∃ db, run profile window history = .ok db ∧ (db.prune now).snapshot profile = .ok snapshot

theorem run_updates {history : List Event} (hrun : run profile window history = .ok self)
    (buffer : List (Update Nanos)) (now : Nanos) :
    buffer.foldlM (fun db update ↦ db.update profile update now) self =
      run profile window (history ++ buffer.map fun update ↦ .update update now) := by
  unfold run at hrun ⊢
  rw [List.foldlM_append, hrun]
  show _ = (buffer.map fun update ↦ Event.update update now).foldlM (step profile) self
  rw [List.foldlM_map]
  rfl

/-- A turn ends with the updates, or with a prune and a snapshot when one is due. -/
theorem turn_cases {loop loop' : Spawned} {buffer : List (Update Nanos)} {now : Nanos}
    (hturn : turn profile loop buffer now = .ok loop') :
    ∃ db, buffer.foldlM (fun db update ↦ db.update profile update now) loop.db = .ok db ∧
      ((¬1000000000 ≤ now - loop.lastSnapshot ∧ loop' = { loop with db }) ∨
        (1000000000 ≤ now - loop.lastSnapshot ∧
          ∃ snapshot, (db.prune now).snapshot profile = .ok snapshot ∧
            loop' = ⟨db.prune now, now, loop.sent ++ [snapshot]⟩)) := by
  unfold turn at hturn
  rcases except_bind_eq_ok.mp hturn with ⟨db, hdb, hrest⟩
  refine ⟨db, hdb, ?_⟩
  by_cases hdue : 1000000000 ≤ now - loop.lastSnapshot
  · rw [if_pos hdue] at hrest
    rcases except_bind_eq_ok.mp hrest with ⟨snapshot, hsnapshot, hloop⟩
    exact .inr ⟨hdue, snapshot, hsnapshot, (Except.ok.inj hloop).symm⟩
  · rw [if_neg hdue] at hrest
    exact .inl ⟨hdue, (Except.ok.inj hrest).symm⟩

/-- A history of the turns, with the snapshots that were sent on the way. -/
structure Tells (profile : Profile) (window : Nanos) (turns : List (List (Update Nanos) × Nanos))
    (loop : Spawned) (history : List Event) : Prop where
  run : run profile window history = .ok loop.db
  received : received history = turns.flatMap Prod.fst
  times : ∀ event ∈ history, event.time ∈ turns.map Prod.snd
  ordered : turns.Pairwise (fun a b ↦ a.2 ≤ b.2) → Ordered history
  sent : ∀ snapshot ∈ loop.sent, ∃ before now, before ++ [.prune now] <+: history ∧
    SentAfter profile window before now snapshot

-- More events at the time of one more turn.
theorem Ordered.append {history events : List Event} {now : Nanos} (h : Ordered history)
    (hbefore : ∀ event ∈ history, event.time ≤ now) (hevents : ∀ event ∈ events, event.time = now) :
    Ordered (history ++ events) := by
  apply List.pairwise_append.mpr
  refine ⟨h, ?_, ?_⟩
  · apply List.pairwise_of_forall_mem_list
    intro a ha b hb
    rw [hevents a ha, hevents b hb]
  · intro a ha b hb
    rw [hevents b hb]
    exact hbefore a ha

theorem Tells.append {turns : List (List (Update Nanos) × Nanos)} {loop loop' : Spawned}
    {history events : List Event} {buffer : List (Update Nanos)} {now : Nanos}
    (h : Tells profile window turns loop history)
    (htimes : ∀ event ∈ events, event.time = now) (hevents : DB.received events = buffer)
    (hrun : DB.run profile window (history ++ events) = .ok loop'.db)
    (hsent : ∀ snapshot ∈ loop'.sent, snapshot ∈ loop.sent ∨
      ∃ before now, before ++ [.prune now] <+: history ++ events ∧
        SentAfter profile window before now snapshot) :
    Tells profile window (turns ++ [(buffer, now)]) loop' (history ++ events) := by
  constructor
  · exact hrun
  · unfold DB.received at hevents ⊢
    rw [List.filterMap_append, hevents, List.flatMap_append]
    show DB.received history ++ buffer = _ ++ (buffer ++ [])
    rw [h.received, List.append_nil]
  · intro event hevent
    rw [List.map_append, List.mem_append]
    rcases List.mem_append.mp hevent with hbefore | hnew
    · exact .inl (h.times event hbefore)
    · exact .inr (List.mem_singleton.mpr (htimes event hnew))
  · intro hturns
    rcases List.pairwise_append.mp hturns with ⟨hbefore, -, hlast⟩
    apply (h.ordered hbefore).append _ htimes
    intro event hevent
    rcases List.mem_map.mp (h.times event hevent) with ⟨turn, hturn, htime⟩
    rw [← htime]
    exact hlast turn hturn _ List.mem_cons_self
  · intro snapshot hsnapshot
    rcases hsent snapshot hsnapshot with hearlier | hnew
    · rcases h.sent snapshot hearlier with ⟨before, time, hinitial, hafter⟩
      exact ⟨before, time, hinitial.trans (List.prefix_append _ _), hafter⟩
    · exact hnew

theorem Tells.turn {turns : List (List (Update Nanos) × Nanos)} {loop loop' : Spawned}
    {history : List Event} (h : Tells profile window turns loop history)
    {buffer : List (Update Nanos)} {now : Nanos}
    (hturn : DB.turn profile loop buffer now = .ok loop') :
    ∃ history', Tells profile window (turns ++ [(buffer, now)]) loop' history' := by
  rcases turn_cases hturn with ⟨db, hdb, hloop⟩
  let updates := buffer.map fun update ↦ Event.update update now
  have hupdates : DB.received updates = buffer := by
    unfold DB.received updates
    rw [List.filterMap_map]
    exact List.filterMap_some
  have htimes : ∀ event ∈ updates, event.time = now := by
    intro event hevent
    rcases List.mem_map.mp hevent with ⟨update, -, rfl⟩
    rfl
  rw [run_updates h.run] at hdb
  rcases hloop with ⟨-, rfl⟩ | ⟨-, snapshot, hsnapshot, rfl⟩
  · exact ⟨_, h.append htimes hupdates hdb fun _ hsent ↦ .inl hsent⟩
  · refine ⟨history ++ (updates ++ [.prune now]), h.append ?_ ?_ ?_ ?_⟩
    · intro event hevent
      rcases List.mem_append.mp hevent with hupdate | hprune
      · exact htimes event hupdate
      · rw [List.mem_singleton.mp hprune]
        rfl
    · unfold DB.received at hupdates ⊢
      rw [List.filterMap_append, hupdates]
      exact List.append_nil _
    · rw [← List.append_assoc, run_append, hdb]
      rfl
    · intro other hother
      rcases List.mem_append.mp hother with hearlier | hnew
      · exact .inl hearlier
      · obtain rfl := List.mem_singleton.mp hnew
        refine .inr ⟨history ++ updates, now, ?_, db, hdb, hsnapshot⟩
        rw [List.append_assoc]

/-- The loop goes through a history of updates and prunes at the times of its turns, and sends
snapshots after prunes of it. -/
theorem spawn_history {started : Nanos} {turns : List (List (Update Nanos) × Nanos)}
    {loop : Spawned} (hspawn : spawn profile window started turns = .ok loop) :
    ∃ history, Tells profile window turns loop history := by
  unfold spawn at hspawn
  induction turns using List.reverseRecOn generalizing loop with
  | nil =>
    rw [← Except.ok.inj hspawn]
    refine ⟨[], rfl, rfl, ?_, fun _ ↦ List.Pairwise.nil, ?_⟩
    · intro event hevent
      exact absurd hevent List.not_mem_nil
    · intro snapshot hsnapshot
      exact absurd hsnapshot List.not_mem_nil
  | append_singleton turns turn ih =>
    rw [List.foldlM_append, except_bind_eq_ok] at hspawn
    rcases hspawn with ⟨before, hbefore, hturn⟩
    rcases ih hbefore with ⟨history, htells⟩
    simp only [List.foldlM_cons, List.foldlM_nil, bind_pure] at hturn
    exact htells.turn hturn

end DB

end GraphTally.EscrowManager
