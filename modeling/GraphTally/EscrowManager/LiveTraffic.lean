import GraphTally.EscrowManager.Bootstrap

/-!
# The bootstrap on a live topic

Messages are appended to the aggregated topic while the loop reads it, and `latestOffsets` only
loses entries.  Which messages the loop looks up an entry for that is not there.
-/

open GraphTally.Theory

namespace GraphTally.EscrowManager

/-! ## The topic -/

/-- The first messages of each partition, as many as `present` says, were there when the latest
offsets were read. -/
structure LiveTopic extends Topic where
  present : Int → Nat

namespace LiveTopic

/-- The last message of each partition that had one, in any order. -/
def ReportsLatest (topic : LiveTopic) (latest : List TopicMessage) : Prop :=
  ∀ msg, msg ∈ latest ↔ ∃ partition ∈ topic.partitions,
    (partition.messages.take (topic.present partition.number)).getLast? = some msg

theorem reportsLatest_lasts (topic : LiveTopic) :
    topic.ReportsLatest (topic.partitions.filterMap fun partition ↦
      (partition.messages.take (topic.present partition.number)).getLast?) :=
  fun _ ↦ List.mem_filterMap

/-- Each partition is read in the order of its offsets, from the one that the start timestamp
selects, and as far as the stream has got. -/
structure Delivers (topic : LiveTopic) (arrivals : List TopicMessage) : Prop where
  inOrder : ∀ partition ∈ topic.partitions,
    (arrivals.filter fun msg ↦ msg.partition = partition.number) <:+: partition.messages
  noOther : ∀ msg ∈ arrivals, msg.partition ∈ topic.partitions.map (·.number)

end LiveTopic

variable {DateTime : Type} [FeeFormat DateTime]

/-! ## The lookup -/

/-- The loop gets past the payload and the fees of the message. -/
def Reads (cutoff : Option Int) (signers : List Address) (msg : TopicMessage) : Prop :=
  ∃ fees, msg.hourly = some fees ∧ (isIgnored cutoff fees.timestamp = false →
    ∃ sent : List (Update DateTime),
      sendFees signers fees.timestamp [] fees.aggregations = .ok sent)

/-- The addresses in the message are 20 bytes long. -/
def HasFeeAddresses (msg : TopicMessage) : Prop :=
  ∀ fees, msg.hourly = some fees → ∀ aggregation ∈ fees.aggregations,
    aggregation.signer.length = 20 ∧ aggregation.receiver.length = 20

/-- Some arrival is looked up, and its partition is not in the map. -/
def LookupFails (cutoff : Option Int) (signers : List Address)
    (latest arrivals : List TopicMessage) : Prop :=
  ∃ past msg later self, arrivals = past ++ msg :: later ∧
    aggregatedLoop cutoff signers latest (past.map .ok) = .ok (.waiting self) ∧
    Reads cutoff signers msg ∧ ¬Ignored cutoff msg ∧
    self.latestAggregatedOffsets.lookup msg.partitionKey = none

/-- All latest messages have come and counted, so the loop has left. -/
def Settled (cutoff : Option Int) (latest past : List TopicMessage) : Prop :=
  latest ≠ [] ∧ ∀ last ∈ latest, last ∈ past ∧ ¬Ignored cutoff last

/-- The latest message has not come, or it was ignored. -/
def IsPending (cutoff : Option Int) (past : List TopicMessage) (last : TopicMessage) : Prop :=
  last ∉ past ∨ Ignored cutoff last

/-- The latest message of the message's partition is pending. -/
def Expected (cutoff : Option Int) (latest past : List TopicMessage) (msg : TopicMessage) : Prop :=
  ∃ last ∈ latest, last.partitionKey = msg.partitionKey ∧ IsPending cutoff past last

/-- No arrival that counts is of a partition that was empty or is caught up, unless the loop has
ended before. -/
def AllExpected (cutoff : Option Int) (signers : List Address)
    (latest arrivals : List TopicMessage) : Prop :=
  ∀ past msg later, arrivals = past ++ msg :: later →
    (∀ other ∈ past ++ [msg], Reads cutoff signers other) → ¬Ignored cutoff msg →
    ¬Settled cutoff latest past → Expected cutoff latest past msg

/-! ## The offsets -/

/-- A message is told by its partition and its offset. -/
structure Tracks (latest arrivals : List TopicMessage) : Prop where
  distinct : ∀ a ∈ latest, ∀ b ∈ latest, a.partitionKey = b.partitionKey → a = b
  identified : ∀ last ∈ latest, ∀ msg ∈ arrivals, last.partitionKey = msg.partitionKey →
    last.offset = msg.offset → last = msg

variable {cutoff : Option Int} {signers : List Address} {latest past : List TopicMessage}
  {msg : TopicMessage} {self : Bootstrap DateTime}

theorem isPending_append_iff {last : TopicMessage} (hne : last ≠ msg) :
    IsPending cutoff past last ↔ IsPending cutoff (past ++ [msg]) last := by
  unfold IsPending
  rw [List.mem_append, List.mem_singleton, or_iff_left hne]

theorem isPending_append_self : IsPending cutoff (past ++ [msg]) msg ↔ Ignored cutoff msg := by
  apply or_iff_right
  intro hpast
  exact hpast (List.mem_append_right _ List.mem_cons_self)

/-- What is still awaited is none of it pending exactly when the loop has left. -/
theorem settled_iff (hlatest : latest ≠ []) :
    Settled cutoff latest past ↔ ∀ last ∈ latest, ¬IsPending cutoff past last := by
  unfold Settled IsPending
  rw [and_iff_right hlatest]
  refine forall₂_congr fun last _ ↦ ?_
  rw [not_or, not_not]

theorem Settled.append (h : Settled cutoff latest past) (later : List TopicMessage) :
    Settled cutoff latest (past ++ later) := by
  refine ⟨h.1, ?_⟩
  intro last hlast
  exact ⟨List.mem_append_left _ (h.2 last hlast).1, (h.2 last hlast).2⟩

-- A message that takes no offset away is not awaited after it has come.
theorem pending_keep
    (h : AwaitsPending (IsPending cutoff past) latest self.latestAggregatedOffsets)
    (hkeep : msg ∈ latest → Ignored cutoff msg) :
    AwaitsPending (IsPending cutoff (past ++ [msg])) latest self.latestAggregatedOffsets := by
  apply h.congr
  intro last hlast
  by_cases hsame : last = msg
  · subst hsame
    exact iff_of_true (.inr (hkeep hlast)) (.inr (hkeep hlast))
  · exact isPending_append_iff hsame

/-- The bookkeeping at a message that counts: it fails on a partition that is not awaited, and
otherwise takes the latest offset away, and leaves if it was the last one. -/
theorem checkOffset_cases (htracks : Tracks latest [msg])
    (h : AwaitsPending (IsPending cutoff past) latest self.latestAggregatedOffsets)
    (hnew : ¬Ignored cutoff msg) :
    (self.latestAggregatedOffsets.lookup msg.partitionKey = none ∧
        checkOffset msg self = .error .panic) ∨
      ∃ after, AwaitsPending (IsPending cutoff (past ++ [msg])) latest
          after.latestAggregatedOffsets ∧
        ((Settled cutoff latest (past ++ [msg]) ∧ checkOffset msg self = .ok (.inr after)) ∨
          (¬Settled cutoff latest (past ++ [msg]) ∧ checkOffset msg self = .ok (.inl after))) := by
  unfold checkOffset
  cases hlookup : self.latestAggregatedOffsets.lookup msg.partitionKey with
  | none => exact .inl ⟨rfl, rfl⟩
  | some offset =>
    rcases (h _ _).mp hlookup with ⟨last, hlast, hkey, hoffset, hpending⟩
    have hlatest : latest ≠ [] := List.ne_nil_of_mem hlast
    right
    dsimp only
    by_cases hsame : offset = msg.offset
    · obtain rfl : last = msg :=
        htracks.identified last hlast msg List.mem_cons_self hkey (hoffset.trans hsame)
      have hgone : ¬IsPending cutoff (past ++ [last]) last := by
        rw [isPending_append_self]
        exact hnew
      have herase := h.erase htracks.distinct hlast hgone fun _ hne ↦ isPending_append_iff hne
      let offsets := self.latestAggregatedOffsets.erase last.partitionKey
      rw [if_pos hsame, settled_iff hlatest, ← herase.isEmpty_iff]
      refine ⟨{ self with latestAggregatedOffsets := offsets }, herase, ?_⟩
      by_cases hempty : offsets.entries.isEmpty = true
      · exact .inl ⟨hempty, if_pos hempty⟩
      · exact .inr ⟨hempty, if_neg hempty⟩
    · have hne : last ≠ msg := by
        rintro rfl
        exact hsame hoffset.symm
      have hkeep : msg ∈ latest → Ignored cutoff msg := by
        intro hmsg
        exact absurd (htracks.distinct last hlast msg hmsg hkey) hne
      rw [if_neg hsame, settled_iff hlatest]
      refine ⟨self, pending_keep h hkeep, .inr ⟨?_, rfl⟩⟩
      intro hnone
      exact hnone last hlast ((isPending_append_iff hne).mp hpending)

/-! ## One message -/

-- The updates that were sent before do not matter.
theorem sendFees_sent (signers : List Address) (timestamp : Int)
    (aggregations : List IndexerFeesProtobuf) (sent : List (Update DateTime)) :
    sendFees signers timestamp sent aggregations =
      (sendFees signers timestamp [] aggregations).map (sent ++ ·) := by
  induction aggregations generalizing sent with
  | nil => simp [sendFees, Except.map]
  | cons aggregation aggregations ih =>
    unfold sendFees
    cases fromSlice aggregation.signer with
    | none => rfl
    | some signer =>
      dsimp only
      by_cases haccepted : signers.contains signer = true
      · rw [if_pos haccepted, if_pos haccepted]
        cases (FeeFormat.fromTimestampMillis timestamp : Option DateTime) with
        | none => rfl
        | some time =>
          dsimp only
          cases fromSlice aggregation.receiver with
          | none => rfl
          | some indexer =>
            dsimp only
            rw [ih, ih ([] ++ _)]
            cases (sendFees signers timestamp [] aggregations :
              Outcome String (List (Update DateTime))) with
            | error e => rfl
            | ok updates => simp [Except.map]
      · rw [if_neg haccepted, if_neg haccepted]
        exact ih sent

theorem sendFees_ne_panic {timestamp : Int} {aggregations : List IndexerFeesProtobuf}
    (haddresses : ∀ aggregation ∈ aggregations,
      aggregation.signer.length = 20 ∧ aggregation.receiver.length = 20)
    (sent : List (Update DateTime)) :
    sendFees signers timestamp sent aggregations ≠ .error .panic := by
  induction aggregations generalizing sent with
  | nil => simp [sendFees]
  | cons aggregation aggregations ih =>
    rcases List.forall_mem_cons.mp haddresses with ⟨⟨hsigner, hreceiver⟩, hrest⟩
    rw [sendFees, fromSlice_of_length hsigner, fromSlice_of_length hreceiver]
    dsimp only
    by_cases haccepted : signers.contains ⟨aggregation.signer, hsigner⟩ = true
    · rw [if_pos haccepted]
      cases (FeeFormat.fromTimestampMillis timestamp : Option DateTime) with
      | none => simp
      | some time => exact ih hrest _
    · rw [if_neg haccepted]
      exact ih hrest sent

theorem Ignored.reads (h : Ignored cutoff msg) (signers : List Address) :
    Reads cutoff signers msg := by
  rcases h with ⟨fees, hfees, hold⟩
  refine ⟨fees, hfees, ?_⟩
  rw [hold]
  intro hnew
  cases hnew

theorem reads_of_decodes {fees : IndexerFeesHourlyProtobuf} (h : Decodes msg fees) :
    Reads cutoff signers msg :=
  ⟨fees, h.hourly, fun _ ↦ ⟨_, sendFees_eq h.timestamp h.addresses []⟩⟩

theorem hasFeeAddresses_of_decodes {fees : IndexerFeesHourlyProtobuf} (h : Decodes msg fees) :
    HasFeeAddresses msg := by
  intro other hother
  rw [h.hourly] at hother
  rw [← Option.some_inj.mp hother]
  exact h.addresses

/-- A message that counts gets to the bookkeeping. -/
theorem aggregatedTurn_reads (hread : Reads cutoff signers msg) (hnew : ¬Ignored cutoff msg)
    (self : Bootstrap DateTime) :
    ∃ latestAggregatedTimestamp sent, aggregatedTurn cutoff signers self (.ok msg) =
      checkOffset msg { self with latestAggregatedTimestamp, sent } := by
  rcases hread with ⟨fees, hfees, hsent⟩
  have hcounted : ¬isIgnored cutoff fees.timestamp = true := fun hold ↦ hnew ⟨fees, hfees, hold⟩
  rcases hsent (Bool.eq_false_of_not_eq_true hcounted) with ⟨sent, hsent⟩
  refine ⟨max self.latestAggregatedTimestamp fees.timestamp, self.sent ++ sent, ?_⟩
  rw [aggregatedTurn_hourly hfees, if_neg hcounted, sendFees_sent, hsent]
  rfl

-- A message that does not decode is an error.
theorem aggregatedTurn_of_hourly_none (h : msg.hourly = none) (self : Bootstrap DateTime) :
    ∃ e, aggregatedTurn cutoff signers self (.ok msg) = .error (.error e) := by
  unfold TopicMessage.hourly at h
  unfold aggregatedTurn
  dsimp only
  cases hpayload : msg.payload with
  | none => exact ⟨_, rfl⟩
  | some payload =>
    rw [hpayload] at h
    dsimp only at h ⊢
    cases hdecode : FeeFormat.decode payload with
    | error e => exact ⟨e, rfl⟩
    | ok fees =>
      rw [hdecode] at h
      cases h

/-- Any other message ends the loop, with an error if its addresses are well formed. -/
theorem aggregatedTurn_unread (hunread : ¬Reads cutoff signers msg) (self : Bootstrap DateTime) :
    ∃ failure, aggregatedTurn cutoff signers self (.ok msg) = .error failure ∧
      (HasFeeAddresses msg → failure ≠ .panic) := by
  cases hfees : msg.hourly with
  | none =>
    rcases aggregatedTurn_of_hourly_none hfees self with ⟨e, hturn⟩
    exact ⟨_, hturn, fun _ ↦ nofun⟩
  | some fees =>
    have hcounted : ¬isIgnored cutoff fees.timestamp = true :=
      fun hold ↦ hunread (Ignored.reads ⟨fees, hfees, hold⟩ signers)
    rw [aggregatedTurn_hourly hfees, if_neg hcounted, sendFees_sent]
    cases hsent : (sendFees signers fees.timestamp [] fees.aggregations :
        Outcome String (List (Update DateTime))) with
    | error failure =>
      refine ⟨failure, rfl, ?_⟩
      rintro haddresses rfl
      exact sendFees_ne_panic (haddresses fees hfees) [] hsent
    | ok sent => exact absurd ⟨fees, hfees, fun _ ↦ ⟨sent, hsent⟩⟩ hunread

/-! ## The run -/

/-- How the loop stands after the arrivals. -/
inductive Stands (cutoff : Option Int) (signers : List Address)
    (latest arrivals : List TopicMessage) :
    Outcome String (Standing (Bootstrap DateTime) (Except String TopicMessage)) → Prop
  | waiting {self : Bootstrap DateTime} : (∀ msg ∈ arrivals, Reads cutoff signers msg) →
      ¬Settled cutoff latest arrivals →
      AwaitsPending (IsPending cutoff arrivals) latest self.latestAggregatedOffsets →
      Stands cutoff signers latest arrivals (.ok (.waiting self))
  | left {self : Bootstrap DateTime} {rest : List (Except String TopicMessage)} :
      Settled cutoff latest arrivals → Stands cutoff signers latest arrivals (.ok (.left self rest))
  | unread {failure : Failure String} : (∃ msg ∈ arrivals, ¬Reads cutoff signers msg) →
      ((∀ msg ∈ arrivals, HasFeeAddresses msg) → failure ≠ .panic) →
      Stands cutoff signers latest arrivals (.error failure)
  | unexpected : LookupFails cutoff signers latest arrivals →
      Stands cutoff signers latest arrivals (.error .panic)

variable {arrivals : List TopicMessage}

theorem LookupFails.append (h : LookupFails cutoff signers latest arrivals)
    (later : List TopicMessage) : LookupFails cutoff signers latest (arrivals ++ later) := by
  rcases h with ⟨past, msg, rest, self, rfl, hfails⟩
  refine ⟨past, msg, rest ++ later, self, ?_, hfails⟩
  rw [List.append_assoc, List.cons_append]

theorem aggregatedLoop_append (later : List TopicMessage) :
    aggregatedLoop cutoff signers latest ((arrivals ++ later).map .ok) =
      aggregatedLoop cutoff signers latest (arrivals.map .ok) >>=
        resume (aggregatedTurn cutoff signers) (later.map .ok) := by
  unfold aggregatedLoop
  rw [List.map_append, streamLoop_append]

-- An ignored message takes nothing away.
theorem not_settled_ignored (hgoing : ¬Settled cutoff latest past) (hignored : Ignored cutoff msg) :
    ¬Settled cutoff latest (past ++ [msg]) := by
  rintro ⟨hlatest, hcame⟩
  apply hgoing
  refine ⟨hlatest, ?_⟩
  intro last hlast
  rcases hcame last hlast with ⟨hmem, hcounted⟩
  rcases List.mem_append.mp hmem with hpast | hsame
  · exact ⟨hpast, hcounted⟩
  · rw [List.mem_singleton.mp hsame] at hcounted
    exact absurd hignored hcounted

/-- A message that counts, when the loop waits for it. -/
theorem Stands.count (htracks : Tracks latest [msg])
    (hrun : aggregatedLoop cutoff signers latest (past.map .ok) = .ok (.waiting self))
    (hread : ∀ other ∈ past ++ [msg], Reads cutoff signers other)
    (hawaits : AwaitsPending (IsPending cutoff past) latest self.latestAggregatedOffsets)
    (hnew : ¬Ignored cutoff msg) :
    Stands cutoff signers latest (past ++ [msg])
      (streamLoop (aggregatedTurn cutoff signers) self [.ok msg]) := by
  have hmsg : Reads cutoff signers msg := hread msg (List.mem_append_right _ List.mem_cons_self)
  rcases aggregatedTurn_reads hmsg hnew self with ⟨timestamp, sent, hturn⟩
  let counted : Bootstrap DateTime := { self with latestAggregatedTimestamp := timestamp, sent }
  have hawaits' : AwaitsPending (IsPending cutoff past) latest
      counted.latestAggregatedOffsets := hawaits
  rcases checkOffset_cases htracks hawaits' hnew with
    ⟨hlookup, hcheck⟩ | ⟨after, hafter, ⟨hsettled, hcheck⟩ | ⟨hsettled, hcheck⟩⟩
  · rw [streamLoop, hturn, hcheck]
    exact .unexpected ⟨past, msg, [], self, rfl, hrun, hmsg, hnew, hlookup⟩
  · rw [streamLoop_break (hturn.trans hcheck)]
    exact .left hsettled
  · rw [streamLoop_continue (hturn.trans hcheck)]
    exact .waiting hread hsettled hafter

/-- One more message, when the loop waits for it. -/
theorem Stands.turn (htracks : Tracks latest [msg])
    (hrun : aggregatedLoop cutoff signers latest (past.map .ok) = .ok (.waiting self))
    (hread : ∀ other ∈ past, Reads cutoff signers other) (hgoing : ¬Settled cutoff latest past)
    (hawaits : AwaitsPending (IsPending cutoff past) latest self.latestAggregatedOffsets) :
    Stands cutoff signers latest (past ++ [msg])
      (streamLoop (aggregatedTurn cutoff signers) self [.ok msg]) := by
  have hall : Reads cutoff signers msg → ∀ other ∈ past ++ [msg], Reads cutoff signers other :=
    fun hmsg ↦ List.forall_mem_append.mpr ⟨hread, List.forall_mem_singleton.mpr hmsg⟩
  by_cases hignored : Ignored cutoff msg
  · rcases aggregatedTurn_ignored hignored signers self with ⟨timestamp, hturn⟩
    rw [streamLoop_continue hturn]
    apply Stands.waiting (hall (hignored.reads signers)) (not_settled_ignored hgoing hignored)
    exact pending_keep hawaits fun _ ↦ hignored
  · by_cases hmsg : Reads cutoff signers msg
    · exact Stands.count htracks hrun (hall hmsg) hawaits hignored
    · rcases aggregatedTurn_unread hmsg self with ⟨failure, hturn, hpanic⟩
      have hmem : msg ∈ past ++ [msg] := List.mem_append_right _ List.mem_cons_self
      rw [streamLoop, hturn]
      apply Stands.unread ⟨msg, hmem, hmsg⟩
      intro haddresses
      exact hpanic (haddresses msg hmem)

/-- More messages change nothing when the loop does not wait. -/
theorem Stands.append {result : Outcome String (Standing (Bootstrap DateTime) _)}
    (h : Stands cutoff signers latest arrivals result) (later : List TopicMessage)
    (hover : ∀ self, result ≠ .ok (.waiting self)) :
    Stands cutoff signers latest (arrivals ++ later)
      (result >>= resume (aggregatedTurn cutoff signers) (later.map .ok)) := by
  cases h with
  | waiting => exact absurd rfl (hover _)
  | left hsettled => exact .left (hsettled.append later)
  | unread hunread hpanic =>
    rcases hunread with ⟨msg, hmsg, hunread⟩
    apply Stands.unread ⟨msg, List.mem_append_left _ hmsg, hunread⟩
    intro haddresses
    exact hpanic fun other hother ↦ haddresses other (List.mem_append_left _ hother)
  | unexpected hfails => exact .unexpected (hfails.append later)

theorem aggregatedLoop_stands (cutoff : Option Int) (signers : List Address)
    (htracks : Tracks latest arrivals) :
    Stands cutoff signers latest arrivals
      (aggregatedLoop cutoff signers latest (arrivals.map .ok)) := by
  induction arrivals using List.reverseRecOn with
  | nil =>
    apply Stands.waiting
    · intro msg hmsg
      exact absurd hmsg List.not_mem_nil
    · rintro ⟨hlatest, hcame⟩
      rcases List.exists_mem_of_ne_nil _ hlatest with ⟨last, hlast⟩
      exact List.not_mem_nil (hcame last hlast).1
    · intro key offset
      show (latestOffsets latest).lookup key = some offset ↔ _
      rw [lookup_latestOffsets htracks.distinct]
      refine exists_congr fun last ↦ and_congr_right fun _ ↦ and_congr_right fun _ ↦ ?_
      exact (and_iff_left (.inl List.not_mem_nil)).symm
  | append_singleton past msg ih =>
    have hpast : Tracks latest past :=
      ⟨htracks.distinct, fun last hlast other hother ↦
        htracks.identified last hlast other (List.mem_append_left _ hother)⟩
    have hmsg : Tracks latest [msg] :=
      ⟨htracks.distinct, fun last hlast other hother ↦
        htracks.identified last hlast other (List.mem_append_right _ hother)⟩
    have hstands := ih hpast
    rw [aggregatedLoop_append]
    cases hrun : aggregatedLoop cutoff signers latest (past.map .ok) with
    | error failure =>
      rw [hrun] at hstands
      exact hstands.append [msg] fun _ ↦ by simp
    | ok standing =>
      rw [hrun] at hstands
      cases standing with
      | left self rest => exact hstands.append [msg] fun _ ↦ by simp
      | waiting self =>
        cases hstands with
        | waiting hread hgoing hawaits => exact Stands.turn hmsg hrun hread hgoing hawaits

theorem Tracks.of_append {later : List TopicMessage} (h : Tracks latest (arrivals ++ later)) :
    Tracks latest arrivals :=
  ⟨h.distinct, fun last hlast msg hmsg ↦
    h.identified last hlast msg (List.mem_append_left _ hmsg)⟩

/-- A lookup fails exactly at an arrival that counts and is not expected. -/
theorem lookupFails_iff (htracks : Tracks latest arrivals) :
    LookupFails cutoff signers latest arrivals ↔ ¬AllExpected cutoff signers latest arrivals := by
  constructor
  · rintro ⟨past, msg, later, self, rfl, hrun, hmsg, hnew, hlookup⟩ hall
    have hstands := aggregatedLoop_stands cutoff signers htracks.of_append
    rw [hrun] at hstands
    cases hstands with
    | waiting hread hgoing hawaits =>
      have hexpected : Expected cutoff latest past msg := by
        apply hall past msg later rfl _ hnew hgoing
        exact List.forall_mem_append.mpr ⟨hread, List.forall_mem_singleton.mpr hmsg⟩
      exact (hawaits.lookup_none_iff _).mp hlookup hexpected
  · intro hall
    by_contra hnever
    apply hall
    rintro past msg later rfl hread hnew hgoing
    by_contra hunexpected
    have hstands := aggregatedLoop_stands cutoff signers htracks.of_append
    rcases List.forall_mem_append.mp hread with ⟨hpast, hmsg⟩
    rw [List.forall_mem_singleton] at hmsg
    cases hrun : aggregatedLoop cutoff signers latest (past.map .ok) with
    | error failure =>
      rw [hrun] at hstands
      cases hstands with
      | unread hunread _ =>
        rcases hunread with ⟨other, hother, hunread⟩
        exact hunread (hpast other hother)
      | unexpected hfails => exact hnever (hfails.append _)
    | ok standing =>
      rw [hrun] at hstands
      cases hstands with
      | waiting _ _ hawaits =>
        exact hnever ⟨past, msg, later, _, rfl, hrun, hmsg, hnew,
          (hawaits.lookup_none_iff _).mpr hunexpected⟩
      | left hsettled => exact hgoing hsettled

/-- A failed lookup panics, and nothing else does when the addresses are well formed. -/
theorem aggregatedLoop_eq_panic_iff (htracks : Tracks latest arrivals)
    (haddresses : ∀ msg ∈ arrivals, HasFeeAddresses msg) :
    aggregatedLoop cutoff signers latest (arrivals.map .ok) = .error .panic ↔
      LookupFails cutoff signers latest arrivals := by
  constructor
  · intro hpanic
    have hstands := aggregatedLoop_stands cutoff signers htracks
    rw [hpanic] at hstands
    cases hstands with
    | unread _ hother => exact absurd rfl (hother haddresses)
    | unexpected hfails => exact hfails
  · rintro ⟨past, msg, later, self, rfl, hrun, hmsg, hnew, hlookup⟩
    rcases aggregatedTurn_reads hmsg hnew self with ⟨timestamp, sent, hturn⟩
    rw [aggregatedLoop_append, hrun]
    show streamLoop (aggregatedTurn cutoff signers) self ((msg :: later).map .ok) = _
    rw [List.map_cons, streamLoop, hturn]
    unfold checkOffset
    dsimp only
    rw [hlookup]

namespace LiveTopic

variable {topic : LiveTopic}

theorem Delivers.exists_partition (h : topic.Delivers arrivals) (hmsg : msg ∈ arrivals) :
    ∃ partition ∈ topic.partitions, msg ∈ partition.messages := by
  rcases List.mem_map.mp (h.noOther msg hmsg) with ⟨partition, hpartition, hnumber⟩
  refine ⟨partition, hpartition, (h.inOrder partition hpartition).subset ?_⟩
  rw [List.mem_filter]
  exact ⟨hmsg, decide_eq_true hnumber.symm⟩

/-- Two messages of a partition do not share an offset. -/
theorem eq_of_offset {name : String} {partition : Partition name} {a b : TopicMessage}
    (ha : a ∈ partition.messages) (hb : b ∈ partition.messages) (h : a.offset = b.offset) :
    a = b := by
  have hdistinct : (partition.messages.map (·.offset)).Nodup :=
    List.pairwise_map.mpr (partition.ordered.imp fun hless ↦ hless.ne)
  exact List.inj_on_of_nodup_map hdistinct ha hb h

theorem Delivers.tracks (h : topic.Delivers arrivals) (hlatest : topic.ReportsLatest latest) :
    Tracks latest arrivals := by
  have hmem : ∀ {last : TopicMessage} {partition : Partition topic.name},
      (partition.messages.take (topic.present partition.number)).getLast? = some last →
      last ∈ partition.messages :=
    fun hlast ↦ List.mem_of_mem_take (List.mem_of_getLast? hlast)
  constructor
  · intro a ha b hb hkey
    rcases (hlatest a).mp ha with ⟨partition, hpartition, hlast⟩
    rcases (hlatest b).mp hb with ⟨other, hother, hlast'⟩
    obtain rfl :=
      (topic.partitionKey_eq_iff hpartition hother (hmem hlast) (hmem hlast')).mp hkey
    exact Option.some_inj.mp (hlast.symm.trans hlast')
  · intro last hlast msg hmsg hkey hoffset
    rcases (hlatest last).mp hlast with ⟨partition, hpartition, hlast⟩
    rcases h.exists_partition hmsg with ⟨other, hother, hmsg⟩
    obtain rfl := (topic.partitionKey_eq_iff hpartition hother (hmem hlast) hmsg).mp hkey
    exact eq_of_offset (hmem hlast) hmsg hoffset

end LiveTopic

/-- However the partitions interleave, a lookup fails exactly when a message that counts comes from
a partition that was empty at the start or is caught up, while the loop still waits for another.
Unless the addresses in some message are malformed, nothing else makes the loop panic. -/
theorem bootstrap_survives_iff (cutoff : Option Int) (signers : List Address) (topic : LiveTopic)
    (latest arrivals : List TopicMessage) (hlatest : topic.ReportsLatest latest)
    (hdelivers : topic.Delivers arrivals) :
    (¬LookupFails cutoff signers latest arrivals ↔ AllExpected cutoff signers latest arrivals) ∧
    ((∀ msg ∈ arrivals, HasFeeAddresses msg) →
      (aggregatedLoop cutoff signers latest (arrivals.map .ok) ≠ .error .panic ↔
        AllExpected cutoff signers latest arrivals)) := by
  have htracks := hdelivers.tracks hlatest
  have hiff : ¬LookupFails cutoff signers latest arrivals ↔
      AllExpected cutoff signers latest arrivals := by
    rw [lookupFails_iff htracks, not_not]
  refine ⟨hiff, ?_⟩
  intro haddresses
  rw [← hiff]
  exact not_congr (aggregatedLoop_eq_panic_iff htracks haddresses)

end GraphTally.EscrowManager

/-! ## Two partitions that grow -/

namespace GraphTally.Known

open EscrowManager

/-- One message of each partition was there at the start. -/
def growingTopic : LiveTopic := { recentTopic with present := fun _ ↦ 1 }

/-- The second partition was empty at the start. -/
def fillingTopic : LiveTopic :=
  { recentTopic with present := fun number ↦ if number = 0 then 1 else 0 }

theorem not_ignored (msg : TopicMessage) : ¬Ignored none msg := by
  rintro ⟨fees, -, ⟨⟩⟩

end GraphTally.Known

namespace GraphTally.EscrowManager

open Known

/-- A message behind the latest one of its partition, and one of a partition that was empty, while
another partition is not caught up. -/
theorem bootstrap_panics :
    (growingTopic.ReportsLatest [feesMessage 0 7 5, feesMessage 1 3 10] ∧
      growingTopic.Delivers [feesMessage 0 7 5, feesMessage 0 8 20] ∧
      LookupFails none [] [feesMessage 0 7 5, feesMessage 1 3 10]
        [feesMessage 0 7 5, feesMessage 0 8 20] ∧
      aggregatedLoop none [] [feesMessage 0 7 5, feesMessage 1 3 10]
        [.ok (feesMessage 0 7 5), .ok (feesMessage 0 8 20)] = .error .panic) ∧
    fillingTopic.ReportsLatest [feesMessage 0 7 5] ∧ fillingTopic.Delivers [feesMessage 1 3 10] ∧
      LookupFails none [] [feesMessage 0 7 5] [feesMessage 1 3 10] ∧
      aggregatedLoop none [] [feesMessage 0 7 5] [.ok (feesMessage 1 3 10)] = .error .panic := by
  refine ⟨⟨growingTopic.reportsLatest_lasts, ⟨by decide, by decide⟩, ?_, rfl⟩,
    fillingTopic.reportsLatest_lasts, ⟨by decide, by decide⟩, ?_, rfl⟩
  · have hread : Reads none [] (feesMessage 0 8 20) :=
      reads_of_decodes (feesMessage_decodes 0 8 (by decide))
    exact ⟨[feesMessage 0 7 5], _, [], _, rfl, rfl, hread, not_ignored _, rfl⟩
  · have hread : Reads none [] (feesMessage 1 3 10) :=
      reads_of_decodes (feesMessage_decodes 1 3 (by decide))
    exact ⟨[], _, [], _, rfl, rfl, hread, not_ignored _, rfl⟩

/-- Both partitions are caught up before anything else arrives. -/
theorem bootstrap_survives_iff_known :
    aggregatedLoop none [⟨List.replicate 20 0x01, rfl⟩] [feesMessage 0 7 5, feesMessage 1 3 10]
      ([feesMessage 0 7 5, feesMessage 1 3 10, feesMessage 0 8 20, feesMessage 1 4 30].map .ok) ≠
        .error .panic := by
  have hlatest : growingTopic.ReportsLatest [feesMessage 0 7 5, feesMessage 1 3 10] :=
    growingTopic.reportsLatest_lasts
  have hdelivers : growingTopic.Delivers
      [feesMessage 0 7 5, feesMessage 1 3 10, feesMessage 0 8 20, feesMessage 1 4 30] :=
    ⟨by decide, by decide⟩
  apply ((bootstrap_survives_iff none _ growingTopic _ _ hlatest hdelivers).2 ?_).mpr
  · rintro past msg later hsplit - - hgoing
    rcases past with _ | ⟨first, _ | ⟨second, past⟩⟩
    · obtain ⟨rfl, rfl⟩ := List.cons.inj hsplit
      exact ⟨feesMessage 0 7 5, by decide, rfl, .inl List.not_mem_nil⟩
    · obtain ⟨rfl, hrest⟩ := List.cons.inj hsplit
      obtain ⟨rfl, -⟩ := List.cons.inj hrest
      exact ⟨feesMessage 1 3 10, by decide, rfl, .inl (by decide)⟩
    · obtain ⟨rfl, hrest⟩ := List.cons.inj hsplit
      obtain ⟨rfl, -⟩ := List.cons.inj hrest
      exfalso
      apply hgoing
      refine ⟨List.cons_ne_nil _ _, ?_⟩
      intro last hlast
      refine ⟨?_, not_ignored last⟩
      rcases List.mem_pair.mp hlast with rfl | rfl
      · exact List.mem_cons_self
      · exact List.mem_cons_of_mem _ List.mem_cons_self
  · intro msg hmsg
    simp only [List.mem_cons, List.not_mem_nil, or_false] at hmsg
    rcases hmsg with rfl | rfl | rfl | rfl
    · exact hasFeeAddresses_of_decodes (feesMessage_decodes 0 7 (by decide))
    · exact hasFeeAddresses_of_decodes (feesMessage_decodes 1 3 (by decide))
    · exact hasFeeAddresses_of_decodes (feesMessage_decodes 0 8 (by decide))
    · exact hasFeeAddresses_of_decodes (feesMessage_decodes 1 4 (by decide))

end GraphTally.EscrowManager
