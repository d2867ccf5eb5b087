import GraphTally.EscrowManager.Receipts

/-!
# The end of the bootstrap

When the loop over the aggregated topic leaves, for every order the partitions can arrive in.
-/

open GraphTally.Theory

namespace GraphTally.EscrowManager

variable {DateTime : Type} [FeeFormat DateTime]

/-! ## The offsets that are awaited -/

/-- Each partition's latest message is the last of its messages among the items. -/
structure Closes (latest items : List TopicMessage) : Prop where
  distinct : ∀ a ∈ latest, ∀ b ∈ latest, a.partitionKey = b.partitionKey → a = b
  closed : ∀ msg ∈ items, ∃ last ∈ latest, last ∈ items ∧ last.partitionKey = msg.partitionKey
  bounded : ∀ last ∈ latest, ∀ msg ∈ items, last.partitionKey = msg.partitionKey →
    msg.offset ≤ last.offset
  ordered : items.Pairwise fun a b ↦ a.partitionKey = b.partitionKey → a.offset < b.offset

/-- The offsets are those of the latest messages that are pending. -/
def AwaitsPending (pending : TopicMessage → Prop) (latest : List TopicMessage)
    (offsets : AList fun _ : String ↦ Int) : Prop :=
  ∀ key offset, offsets.lookup key = some offset ↔ ∃ last ∈ latest,
    last.partitionKey = key ∧ last.offset = offset ∧ pending last

/-- The offsets are those of the latest messages that have not arrived, or that were ignored. -/
def Awaits (cutoff : Option Int) (latest items : List TopicMessage)
    (offsets : AList fun _ : String ↦ Int) : Prop :=
  ∀ key offset, offsets.lookup key = some offset ↔ ∃ last ∈ latest,
    last.partitionKey = key ∧ last.offset = offset ∧ (last ∈ items ∨ Ignored cutoff last)

variable {cutoff : Option Int} {latest items : List TopicMessage} {msg : TopicMessage}

theorem Closes.tail (h : Closes latest (msg :: items)) : Closes latest items := by
  rcases List.pairwise_cons.mp h.ordered with ⟨hfirst, hrest⟩
  refine ⟨h.distinct, ?_, ?_, hrest⟩
  · intro other hother
    rcases h.closed other (List.mem_cons_of_mem _ hother) with ⟨last, hlast, hitem, hkey⟩
    refine ⟨last, hlast, ?_, hkey⟩
    -- the head is before another message of its partition, so it is not the latest
    rcases List.mem_cons.mp hitem with rfl | hitem
    · have hless := hfirst other hother hkey
      have hle := h.bounded last hlast other (List.mem_cons_of_mem _ hother) hkey
      omega
    · exact hitem
  · intro last hlast other hother
    exact h.bounded last hlast other (List.mem_cons_of_mem _ hother)

/-- A message has its partition's latest offset exactly when it is the latest. -/
theorem Closes.offset_eq_iff (h : Closes latest (msg :: items)) {last : TopicMessage}
    (hitem : last ∈ msg :: items)
    (hkey : last.partitionKey = msg.partitionKey) : last.offset = msg.offset ↔ last = msg := by
  constructor
  · intro hoffset
    rcases List.mem_cons.mp hitem with hsame | hitem
    · exact hsame
    · have hless := (List.pairwise_cons.mp h.ordered).1 last hitem hkey.symm
      omega
  · intro hsame
    rw [hsame]

theorem Closes.not_mem_tail (h : Closes latest (msg :: items)) : msg ∉ items := by
  intro hmem
  have hless := (List.pairwise_cons.mp h.ordered).1 msg hmem rfl
  omega

variable {offsets : AList fun _ : String ↦ Int} {pending pending' : TopicMessage → Prop}

theorem offsets_isEmpty_iff :
    offsets.entries.isEmpty = true ↔ ∀ key, offsets.lookup key = none := by
  rw [List.isEmpty_iff]
  constructor
  · intro hempty key
    rw [AList.lookup_eq_none, AList.mem_keys, AList.keys, hempty]
    exact List.not_mem_nil
  · intro hnone
    apply List.eq_nil_iff_forall_not_mem.mpr
    intro entry hentry
    have hsome := AList.mem_lookup_iff.mpr hentry
    rw [Option.mem_def, hnone] at hsome
    cases hsome

theorem AwaitsPending.lookup_none_iff (h : AwaitsPending pending latest offsets) (key : String) :
    offsets.lookup key = none ↔ ¬∃ last ∈ latest, last.partitionKey = key ∧ pending last := by
  rw [Option.eq_none_iff_forall_ne_some]
  constructor
  · rintro hnone ⟨last, hlast, hkey, hpending⟩
    exact hnone last.offset ((h _ _).mpr ⟨last, hlast, hkey, rfl, hpending⟩)
  · intro hgone offset hsome
    rcases (h _ _).mp hsome with ⟨last, hlast, hkey, -, hpending⟩
    exact hgone ⟨last, hlast, hkey, hpending⟩

theorem AwaitsPending.isEmpty_iff (h : AwaitsPending pending latest offsets) :
    offsets.entries.isEmpty = true ↔ ∀ last ∈ latest, ¬pending last := by
  rw [offsets_isEmpty_iff]
  constructor
  · intro hnone last hlast hpending
    exact (h.lookup_none_iff _).mp (hnone _) ⟨last, hlast, rfl, hpending⟩
  · intro hgone key
    rw [h.lookup_none_iff]
    rintro ⟨last, hlast, -, hpending⟩
    exact hgone last hlast hpending

theorem AwaitsPending.congr (h : AwaitsPending pending latest offsets)
    (hsame : ∀ last ∈ latest, pending last ↔ pending' last) :
    AwaitsPending pending' latest offsets := by
  intro key offset
  rw [h key offset]
  exact exists_congr fun last ↦ and_congr_right fun hlast ↦ and_congr_right fun _ ↦
    and_congr_right fun _ ↦ hsame last hlast

/-- Erasing a key leaves the offsets of the other latest messages. -/
theorem AwaitsPending.erase
    (hdistinct : ∀ a ∈ latest, ∀ b ∈ latest, a.partitionKey = b.partitionKey → a = b)
    (h : AwaitsPending pending latest offsets) (hlast : msg ∈ latest) (hgone : ¬pending' msg)
    (hothers : ∀ last, last ≠ msg → (pending last ↔ pending' last)) :
    AwaitsPending pending' latest (offsets.erase msg.partitionKey) := by
  intro key offset
  by_cases hkey : key = msg.partitionKey
  · rw [hkey, AList.lookup_erase]
    constructor
    · intro hnone
      cases hnone
    · rintro ⟨last, hother, hsame, -, hpending⟩
      obtain rfl := hdistinct last hother msg hlast hsame
      exact absurd hpending hgone
  · rw [AList.lookup_erase_ne hkey, h key offset]
    refine exists_congr fun last ↦ and_congr_right fun _ ↦ and_congr_right fun hsame ↦
      and_congr_right fun _ ↦ hothers last ?_
    rintro rfl
    exact hkey hsame.symm

/-- Nothing is awaited when everything has arrived and no latest message was ignored. -/
theorem Awaits.isEmpty_iff (hcloses : Closes latest items)
    (h : Awaits cutoff latest items offsets) :
    offsets.entries.isEmpty = true ↔ items = [] ∧ ∀ last ∈ latest, ¬Ignored cutoff last := by
  have hempty : offsets.entries.isEmpty = true ↔
      ∀ last ∈ latest, ¬(last ∈ items ∨ Ignored cutoff last) := AwaitsPending.isEmpty_iff h
  rw [hempty]
  constructor
  · intro hgone
    constructor
    · apply List.eq_nil_iff_forall_not_mem.mpr
      intro other hother
      rcases hcloses.closed other hother with ⟨last, hlast, hitem, -⟩
      exact hgone last hlast (.inl hitem)
    · intro last hlast hignored
      exact hgone last hlast (.inr hignored)
  · rintro ⟨rfl, hcounted⟩ last hlast (hitem | hignored)
    · exact List.not_mem_nil hitem
    · exact hcounted last hlast hignored

-- The offset of an ignored message stays in the map.
theorem Awaits.ignore (h : Awaits cutoff latest (msg :: items) offsets)
    (hignored : Ignored cutoff msg) : Awaits cutoff latest items offsets := by
  apply AwaitsPending.congr h
  intro last _
  constructor
  · rintro (hitem | hold)
    · rcases List.mem_cons.mp hitem with rfl | hitem
      · exact .inr hignored
      · exact .inl hitem
    · exact .inr hold
  · intro hpending
    exact hpending.imp_left (List.mem_cons_of_mem _)

-- What is awaited of the other messages does not change with the first item.
theorem pending_tail_iff {last : TopicMessage} (hne : last ≠ msg) :
    (last ∈ msg :: items ∨ Ignored cutoff last) ↔ (last ∈ items ∨ Ignored cutoff last) := by
  rw [List.mem_cons, or_iff_right hne]

/-- A message that is not the latest of its partition leaves the map as it is. -/
theorem Awaits.pass (h : Awaits cutoff latest (msg :: items) offsets) (hpast : msg ∉ latest) :
    Awaits cutoff latest items offsets := by
  apply AwaitsPending.congr h
  intro last hlast
  apply pending_tail_iff
  rintro rfl
  exact hpast hlast

/-- The latest message of a partition takes its offset away. -/
theorem Awaits.remove (hcloses : Closes latest (msg :: items))
    (h : Awaits cutoff latest (msg :: items) offsets) (hlast : msg ∈ latest)
    (hnew : ¬Ignored cutoff msg) :
    Awaits cutoff latest items (offsets.erase msg.partitionKey) := by
  apply AwaitsPending.erase hcloses.distinct h hlast
  · rintro (hitem | hignored)
    · exact hcloses.not_mem_tail hitem
    · exact hnew hignored
  · intro last hne
    exact pending_tail_iff hne

/-- The bookkeeping keeps to the awaited offsets, and breaks when there are none. -/
theorem checkOffset_eq (hcloses : Closes latest (msg :: items)) {self : Bootstrap DateTime}
    (hawaits : Awaits cutoff latest (msg :: items) self.latestAggregatedOffsets)
    (hnew : ¬Ignored cutoff msg) :
    ∃ offsets, Awaits cutoff latest items offsets ∧
      checkOffset msg self =
        .ok (if offsets.entries.isEmpty then .inr { self with latestAggregatedOffsets := offsets }
          else .inl { self with latestAggregatedOffsets := offsets }) := by
  rcases hcloses.closed msg List.mem_cons_self with ⟨last, hlast, hitem, hkey⟩
  have hlookup : self.latestAggregatedOffsets.lookup msg.partitionKey = some last.offset :=
    (hawaits _ _).mpr ⟨last, hlast, hkey, rfl, .inl hitem⟩
  unfold checkOffset
  rw [hlookup]
  dsimp only
  by_cases hsame : last = msg
  · obtain rfl := hsame
    refine ⟨_, hawaits.remove hcloses hlast hnew, ?_⟩
    rw [if_pos rfl]
    exact (apply_ite Except.ok _ _ _).symm
  · have hpast : msg ∉ latest := fun hmsg ↦ hsame (hcloses.distinct last hlast msg hmsg hkey)
    have hfull : ¬self.latestAggregatedOffsets.entries.isEmpty = true := by
      intro hempty
      have hnone := (hawaits.isEmpty_iff hcloses).mp hempty
      exact List.cons_ne_nil _ _ hnone.1
    refine ⟨_, hawaits.pass hpast, ?_⟩
    rw [if_neg (fun hoffset ↦ hsame ((hcloses.offset_eq_iff hitem hkey).mp hoffset)),
      if_neg hfull]

/-! ## The run -/

/-- There is an item, and each partition's latest message counts. -/
def Counts (cutoff : Option Int) (latest items : List TopicMessage) : Prop :=
  items ≠ [] ∧ ∀ last ∈ latest, ¬Ignored cutoff last

-- After a message that is not the last to count, the question is the same for the rest.
theorem counts_cons (hlast : ¬(items = [] ∧ ∀ last ∈ latest, ¬Ignored cutoff last)) :
    Counts cutoff latest items ↔ Counts cutoff latest (msg :: items) := by
  constructor
  · intro hcounts
    exact ⟨List.cons_ne_nil _ _, hcounts.2⟩
  · intro hcounts
    exact ⟨fun hnil ↦ hlast ⟨hnil, hcounts.2⟩, hcounts.2⟩

/-- Everything accepted is sent, and the loop leaves at the last item or waits. -/
theorem aggregatedTurn_run (hcloses : Closes latest items) (self : Bootstrap DateTime)
    (hawaits : Awaits cutoff latest items self.latestAggregatedOffsets)
    (hdecodes : ∀ msg ∈ items, ∃ fees, Decodes msg fees) (signers : List Address) :
    ∃ after : Bootstrap DateTime,
      after.sent = self.sent ++ items.flatMap (acceptedFees cutoff signers) ∧
      ((Counts cutoff latest items ∧
          streamLoop (aggregatedTurn cutoff signers) self (items.map .ok) =
            .ok (.left after [])) ∨
        (¬Counts cutoff latest items ∧
          streamLoop (aggregatedTurn cutoff signers) self (items.map .ok) =
            .ok (.waiting after))) := by
  induction items generalizing self with
  | nil => exact ⟨self, (List.append_nil _).symm, .inr ⟨fun h ↦ h.1 rfl, rfl⟩⟩
  | cons msg items ih =>
    rcases List.forall_mem_cons.mp hdecodes with ⟨⟨fees, hfees⟩, hrest⟩
    rw [List.map_cons, List.flatMap_cons]
    by_cases hignored : Ignored cutoff msg
    · rcases aggregatedTurn_ignored hignored signers self with ⟨timestamp, hturn⟩
      -- an ignored message does not end its partition, or it is a latest message that is ignored
      have hlast : ¬(items = [] ∧ ∀ last ∈ latest, ¬Ignored cutoff last) := by
        rintro ⟨rfl, hcounted⟩
        rcases hcloses.closed msg List.mem_cons_self with ⟨last, hlast, hitem, -⟩
        obtain rfl := List.mem_singleton.mp hitem
        exact hcounted last hlast hignored
      rw [streamLoop_continue hturn, ← counts_cons hlast, acceptedFees_ignored hignored,
        List.nil_append]
      exact ih hcloses.tail { self with latestAggregatedTimestamp := timestamp }
        (hawaits.ignore hignored) hrest
    · rcases aggregatedTurn_counted hfees hignored signers self with ⟨timestamp, hturn⟩
      let counted : Bootstrap DateTime := { self with
        latestAggregatedTimestamp := timestamp
        sent := self.sent ++ acceptedFees cutoff signers msg }
      have hawaits' : Awaits cutoff latest (msg :: items) counted.latestAggregatedOffsets := hawaits
      rcases checkOffset_eq hcloses hawaits' hignored with ⟨offsets, hoffsets, hcheck⟩
      rw [hcheck] at hturn
      by_cases hempty : offsets.entries.isEmpty = true
      · rcases (hoffsets.isEmpty_iff hcloses.tail).mp hempty with ⟨rfl, hcounted⟩
        rw [if_pos hempty] at hturn
        refine ⟨_, ?_, .inl ⟨⟨List.cons_ne_nil _ _, hcounted⟩, streamLoop_break hturn⟩⟩
        rw [List.flatMap_nil, List.append_nil]
      · have hlast := mt (hoffsets.isEmpty_iff hcloses.tail).mpr hempty
        rw [if_neg hempty] at hturn
        rw [streamLoop_continue hturn, ← counts_cons hlast, ← List.append_assoc]
        exact ih hcloses.tail { counted with latestAggregatedOffsets := offsets } hoffsets hrest

/-! ## The start -/

/-- The map holds the offset of each latest message. -/
theorem lookup_latestOffsets
    (hdistinct : ∀ a ∈ latest, ∀ b ∈ latest, a.partitionKey = b.partitionKey → a = b)
    (key : String) (offset : Int) :
    (latestOffsets latest).lookup key = some offset ↔
      ∃ last ∈ latest, last.partitionKey = key ∧ last.offset = offset := by
  induction latest using List.reverseRecOn with
  | nil =>
    constructor
    · intro hnone
      cases hnone
    · rintro ⟨last, hlast, -⟩
      exact absurd hlast List.not_mem_nil
  | append_singleton latest msg ih =>
    have hearlier : ∀ a ∈ latest, ∀ b ∈ latest, a.partitionKey = b.partitionKey → a = b :=
      fun a ha b hb ↦ hdistinct a (List.mem_append_left _ ha) b (List.mem_append_left _ hb)
    have hmsg : msg ∈ latest ++ [msg] := List.mem_append_right _ List.mem_cons_self
    have hfold : latestOffsets (latest ++ [msg]) =
        (latestOffsets latest).insert msg.partitionKey msg.offset := List.foldl_concat ..
    rw [hfold]
    by_cases hkey : key = msg.partitionKey
    · rw [hkey, AList.lookup_insert]
      constructor
      · intro hoffset
        exact ⟨msg, hmsg, rfl, Option.some_inj.mp hoffset⟩
      · rintro ⟨last, hlast, hsame, rfl⟩
        rw [hdistinct last hlast msg hmsg hsame]
    · rw [AList.lookup_insert_ne hkey, ih hearlier]
      constructor
      · rintro ⟨last, hlast, hsame⟩
        exact ⟨last, List.mem_append_left _ hlast, hsame⟩
      · rintro ⟨last, hlast, hsame, hoffset⟩
        rcases List.mem_append.mp hlast with hlast | hlast
        · exact ⟨last, hlast, hsame, hoffset⟩
        · obtain rfl := List.mem_singleton.mp hlast
          exact absurd hsame.symm hkey

namespace Topic

variable {topic : Topic} {arrivals : List TopicMessage}

theorem partition_unique {a b : Partition topic.name} (ha : a ∈ topic.partitions)
    (hb : b ∈ topic.partitions) (h : a.number = b.number) : a = b :=
  List.inj_on_of_nodup_map topic.distinct ha hb h

theorem Delivers.exists_partition (h : topic.Delivers arrivals) (hmsg : msg ∈ arrivals) :
    ∃ partition ∈ topic.partitions, msg ∈ partition.messages := by
  rcases h.exists_queue hmsg with ⟨queue, hqueue, -, hmem⟩
  rcases List.mem_map.mp hqueue with ⟨partition, hpartition, rfl⟩
  exact ⟨partition, hpartition, hmem⟩

theorem Delivers.mem (h : topic.Delivers arrivals) {partition : Partition topic.name}
    (hpartition : partition ∈ topic.partitions) (hmsg : msg ∈ partition.messages) :
    msg ∈ arrivals :=
  (h.mem_of_queue (List.mem_map_of_mem hpartition) hmsg).1

/-- Within a topic the key tells the partitions apart. -/
theorem partitionKey_eq_iff {a b : Partition topic.name} (ha : a ∈ topic.partitions)
    (hb : b ∈ topic.partitions) {msg msg' : TopicMessage} (hmsg : msg ∈ a.messages)
    (hmsg' : msg' ∈ b.messages) : msg.partitionKey = msg'.partitionKey ↔ a = b := by
  rcases a.origin msg hmsg with ⟨htopic, hnumber⟩
  rcases b.origin msg' hmsg' with ⟨htopic', hnumber'⟩
  unfold TopicMessage.partitionKey
  rw [htopic, htopic', hnumber, hnumber', String.append_right_inj]
  constructor
  · intro htext
    exact topic.partition_unique ha hb (toString_int_injective htext)
  · rintro rfl
    rfl

/-- The latest messages that are reported close the arrivals. -/
theorem Delivers.closes (h : topic.Delivers arrivals) (hlatest : topic.ReportsLatest latest) :
    Closes latest arrivals := by
  -- messages with one key are of one partition
  have hsame : ∀ {msg msg' : TopicMessage} {partition : Partition topic.name},
      partition ∈ topic.partitions → msg ∈ partition.messages → msg' ∈ arrivals →
      msg.partitionKey = msg'.partitionKey → msg' ∈ partition.messages := by
    intro msg msg' partition hpartition hmsg hmsg' hkey
    rcases h.exists_partition hmsg' with ⟨other, hother, hmem⟩
    rw [(topic.partitionKey_eq_iff hpartition hother hmsg hmem).mp hkey]
    exact hmem
  constructor
  · intro a ha b hb hkey
    rcases (hlatest a).mp ha with ⟨partition, hpartition, hlast⟩
    rcases (hlatest b).mp hb with ⟨other, hother, hlast'⟩
    obtain rfl := (topic.partitionKey_eq_iff hpartition hother (List.mem_of_getLast? hlast)
      (List.mem_of_getLast? hlast')).mp hkey
    exact Option.some_inj.mp (hlast.symm.trans hlast')
  · intro msg hmsg
    rcases h.exists_partition hmsg with ⟨partition, hpartition, hmem⟩
    have hlast := List.getLast?_eq_some_getLast (List.ne_nil_of_mem hmem)
    have hmemLast := List.mem_of_getLast? hlast
    refine ⟨_, (hlatest _).mpr ⟨partition, hpartition, hlast⟩, h.mem hpartition hmemLast, ?_⟩
    exact (topic.partitionKey_eq_iff hpartition hpartition hmemLast hmem).mpr rfl
  · intro last hlast msg hmsg hkey
    rcases (hlatest last).mp hlast with ⟨partition, hpartition, hlast⟩
    exact partition.le_last hlast
      (hsame hpartition (List.mem_of_getLast? hlast) hmsg hkey)
  · have hqueues : ∀ queue ∈ topic.queues, queue.2.Pairwise fun a b ↦ a.offset < b.offset := by
      intro queue hqueue
      rcases List.mem_map.mp hqueue with ⟨partition, -, rfl⟩
      exact partition.ordered
    refine (h.pairwise hqueues).imp_of_mem ?_
    intro a b ha hb hless hkey
    rcases h.exists_partition ha with ⟨partition, hpartition, hmem⟩
    have hmem' := hsame hpartition hmem hb hkey
    rw [(partition.origin a hmem).2, (partition.origin b hmem').2] at hless
    exact hless rfl

/-- Every message of every partition arrives once, and so does every fee. -/
theorem Delivers.fees_perm (h : topic.Delivers arrivals) (cutoff : Option Int)
    (signers : List Address) :
    (arrivals.flatMap (EscrowManager.acceptedFees cutoff signers)).Perm
      (topic.acceptedFees cutoff signers : List (Update DateTime)) := by
  have hdistinct : (topic.queues.map Prod.fst).Nodup := by
    unfold queues
    rw [List.map_map]
    exact topic.distinct
  have hqueues : topic.queues.flatMap Prod.snd =
      topic.partitions.flatMap fun partition ↦ partition.messages := List.flatMap_map ..
  have hperm := h.perm hdistinct
  rw [hqueues] at hperm
  have hfees := hperm.flatMap_right
    (EscrowManager.acceptedFees cutoff signers : TopicMessage → List (Update DateTime))
  rw [List.flatMap_assoc] at hfees
  exact hfees

/-- Nothing has arrived at the start, so every latest offset is awaited. -/
theorem Delivers.awaits (h : topic.Delivers arrivals) (hlatest : topic.ReportsLatest latest)
    (cutoff : Option Int) : Awaits cutoff latest arrivals (latestOffsets latest) := by
  intro key offset
  rw [lookup_latestOffsets (h.closes hlatest).distinct]
  refine exists_congr fun last ↦ and_congr_right fun hlast ↦ and_congr_right fun _ ↦ ?_
  rcases (hlatest last).mp hlast with ⟨partition, hpartition, hlast⟩
  have harrives := h.mem hpartition (List.mem_of_getLast? hlast)
  exact (and_iff_left (.inl harrives)).symm

/-- Whether the arrivals count, in terms of the partitions. -/
theorem Delivers.counts_iff (h : topic.Delivers arrivals) (hlatest : topic.ReportsLatest latest) :
    Counts cutoff latest arrivals ↔
      (∃ partition ∈ topic.partitions, partition.messages ≠ []) ∧
      ∀ partition ∈ topic.partitions, ∀ last, partition.messages.getLast? = some last →
        ¬Ignored cutoff last := by
  refine and_congr ?_ ?_
  · constructor
    · intro hsome
      rcases List.exists_mem_of_ne_nil _ hsome with ⟨msg, hmsg⟩
      rcases h.exists_partition hmsg with ⟨partition, hpartition, hmem⟩
      exact ⟨partition, hpartition, List.ne_nil_of_mem hmem⟩
    · rintro ⟨partition, hpartition, hsome⟩
      rcases List.exists_mem_of_ne_nil _ hsome with ⟨msg, hmsg⟩
      exact List.ne_nil_of_mem (h.mem hpartition hmsg)
  · constructor
    · intro hnew partition hpartition last hlast
      exact hnew last ((hlatest last).mpr ⟨partition, hpartition, hlast⟩)
    · intro hnew last hlast
      rcases (hlatest last).mp hlast with ⟨partition, hpartition, hlast⟩
      exact hnew partition hpartition last hlast

end Topic

theorem not_finishes_of_waiting {signers : List Address} {topic : Topic}
    {arrivals : List TopicMessage} {after : Bootstrap DateTime}
    (h : aggregatedLoop cutoff signers latest (arrivals.map .ok) = .ok (.waiting after)) :
    ¬Finishes cutoff signers latest topic arrivals := by
  intro hfinishes
  rcases hfinishes with ⟨after', hleft, -⟩
  rw [h] at hleft
  cases hleft

/-- The loop leaves at the last message, having sent every accepted fee once, exactly when some
partition has a message and no partition ends in one that is older than the cutoff. -/
theorem aggregatedLoop_finishes_iff (cutoff : Option Int) (signers : List Address) (topic : Topic)
    (latest arrivals : List TopicMessage) (hlatest : topic.ReportsLatest latest)
    (hdelivers : topic.Delivers arrivals)
    (hdecodes : ∀ partition ∈ topic.partitions, ∀ msg ∈ partition.messages,
      ∃ fees, Decodes msg fees) :
    Finishes cutoff signers latest topic arrivals ↔
      (∃ partition ∈ topic.partitions, partition.messages ≠ []) ∧
      ∀ partition ∈ topic.partitions, ∀ last, partition.messages.getLast? = some last →
        ¬Ignored cutoff last := by
  have hcloses := hdelivers.closes hlatest
  have hawaits := hdelivers.awaits hlatest cutoff
  have hread : ∀ msg ∈ arrivals, ∃ fees, Decodes msg fees := by
    intro msg hmsg
    rcases hdelivers.exists_partition hmsg with ⟨partition, hpartition, hmem⟩
    exact hdecodes partition hpartition msg hmem
  rw [← hdelivers.counts_iff hlatest]
  rcases aggregatedTurn_run hcloses ⟨latestOffsets latest, 0, []⟩ hawaits hread signers with
    ⟨after, hsent, ⟨hcount, hrun⟩ | ⟨hcount, hrun⟩⟩
  · refine iff_of_true ⟨after, hrun, ?_⟩ hcount
    rw [hsent, List.nil_append]
    exact hdelivers.fees_perm cutoff signers
  · exact iff_of_false (not_finishes_of_waiting hrun) hcount

end GraphTally.EscrowManager

/-! ## Two topics that are waited on, and one that is not -/

namespace GraphTally.Known

open EscrowManager

/-- One fee of one GRT, as it is written: two 20-byte addresses and a double. -/
def aggregationBytes : List UInt8 :=
  [0x12, 53, 0x0a, 20] ++ List.replicate 20 0x01 ++ [0x12, 20] ++ List.replicate 20 0x02 ++
    [0x19, 0, 0, 0, 0, 0, 0, 0xf0, 0x3f]

def aggregation : IndexerFeesProtobuf :=
  ⟨List.replicate 20 0x01, List.replicate 20 0x02, 0x3ff0000000000000⟩

/-- Reads a timestamp of one byte and that fee, and converts its bits. -/
scoped instance : FeeFormat Int where
  decode
    | 0x08 :: timestamp :: rest =>
      if timestamp < 0x80 ∧ rest = aggregationBytes then .ok ⟨timestamp.toNat, [aggregation]⟩
      else .error "failed to decode Protobuf message"
    | _ => .error "failed to decode Protobuf message"
  fromTimestampMillis millis := some millis
  toWei bits := if bits = 0x3ff0000000000000 then 10 ^ 18 else 0

def feesMessage (partition offset : Int) (timestamp : UInt8) : TopicMessage :=
  ⟨"fees", partition, offset, some (0x08 :: timestamp :: aggregationBytes)⟩

theorem feesMessage_decodes (partition offset : Int) {timestamp : UInt8} (h : timestamp < 0x80) :
    Decodes (feesMessage partition offset timestamp) ⟨timestamp.toNat, [aggregation]⟩ := by
  refine ⟨?_, rfl, ?_⟩
  · have hdecode : FeeFormat.decode (0x08 :: timestamp :: aggregationBytes) =
        .ok ⟨timestamp.toNat, [aggregation]⟩ := if_pos ⟨h, rfl⟩
    unfold TopicMessage.hourly feesMessage
    dsimp only
    rw [hdecode]
    rfl
  · intro other hother
    rw [List.mem_singleton.mp hother]
    exact ⟨rfl, rfl⟩

theorem feesMessage_counts (partition offset : Int) {timestamp : UInt8} (h : timestamp < 0x80)
    (hcutoff : 10 ≤ timestamp.toNat) :
    ¬Ignored (some 10) (feesMessage partition offset timestamp) := by
  rintro ⟨fees, hfees, hold⟩
  rw [(feesMessage_decodes partition offset h).hourly] at hfees
  obtain rfl := Option.some_inj.mp hfees
  have hless : (timestamp.toNat : Int) < 10 := of_decide_eq_true hold
  omega

def emptyTopic : Topic := ⟨"fees", [], List.nodup_nil⟩

/-- One partition, and its only message is of millisecond 5. -/
def oldTopic : Topic :=
  ⟨"fees", [⟨0, [feesMessage 0 7 5], by decide, List.pairwise_singleton _ _⟩],
    List.nodup_singleton _⟩

def firstPartition : Partition "fees" :=
  ⟨0, [feesMessage 0 7 5, feesMessage 0 8 20], by decide, by decide⟩

def secondPartition : Partition "fees" :=
  ⟨1, [feesMessage 1 3 10, feesMessage 1 4 30], by decide, by decide⟩

/-- Its partitions end at the milliseconds 20 and 30. -/
def recentTopic : Topic := ⟨"fees", [firstPartition, secondPartition], by decide⟩

end GraphTally.Known

namespace GraphTally.EscrowManager

open Known

/-- A topic without messages, and one that ends before the cutoff: the loop never leaves. -/
theorem aggregatedLoop_waits :
    (emptyTopic.ReportsLatest [] ∧ emptyTopic.Delivers [] ∧
      (∃ after, aggregatedLoop none [] [] [] = .ok (.waiting after)) ∧
      ¬Finishes none [] [] emptyTopic []) ∧
    oldTopic.ReportsLatest [feesMessage 0 7 5] ∧ oldTopic.Delivers [feesMessage 0 7 5] ∧
      (∃ fees, Decodes (feesMessage 0 7 5) fees) ∧
      (∃ after, aggregatedLoop (some 10) [] [feesMessage 0 7 5] [.ok (feesMessage 0 7 5)] =
        .ok (.waiting after)) ∧
      ¬Finishes (some 10) [] [feesMessage 0 7 5] oldTopic [feesMessage 0 7 5] := by
  refine ⟨⟨emptyTopic.reportsLatest_lasts, ⟨by decide, by decide⟩, ⟨_, rfl⟩, ?_⟩,
    oldTopic.reportsLatest_lasts, ⟨by decide, by decide⟩,
    ⟨_, feesMessage_decodes 0 7 (by decide)⟩, ⟨_, rfl⟩, ?_⟩
  · apply not_finishes_of_waiting
    rfl
  · apply not_finishes_of_waiting
    rfl

theorem aggregatedLoop_finishes_iff_known :
    Finishes (some 10) [⟨List.replicate 20 0x01, rfl⟩]
      [feesMessage 0 8 20, feesMessage 1 4 30] recentTopic
      [feesMessage 0 7 5, feesMessage 1 3 10, feesMessage 1 4 30, feesMessage 0 8 20] := by
  have hlatest : recentTopic.ReportsLatest [feesMessage 0 8 20, feesMessage 1 4 30] :=
    recentTopic.reportsLatest_lasts
  have hdelivers : recentTopic.Delivers
      [feesMessage 0 7 5, feesMessage 1 3 10, feesMessage 1 4 30, feesMessage 0 8 20] :=
    ⟨by decide, by decide⟩
  have hdecodes : ∀ partition ∈ recentTopic.partitions, ∀ msg ∈ partition.messages,
      ∃ fees, Decodes msg fees := by
    intro partition hpartition msg hmsg
    rcases List.mem_pair.mp hpartition with rfl | rfl
    · rcases List.mem_pair.mp hmsg with rfl | rfl
      · exact ⟨_, feesMessage_decodes 0 7 (by decide)⟩
      · exact ⟨_, feesMessage_decodes 0 8 (by decide)⟩
    · rcases List.mem_pair.mp hmsg with rfl | rfl
      · exact ⟨_, feesMessage_decodes 1 3 (by decide)⟩
      · exact ⟨_, feesMessage_decodes 1 4 (by decide)⟩
  apply (aggregatedLoop_finishes_iff _ _ recentTopic _ _ hlatest hdelivers hdecodes).mpr
  refine ⟨⟨firstPartition, List.mem_cons_self, List.cons_ne_nil _ _⟩, ?_⟩
  intro partition hpartition last hlast
  rcases List.mem_pair.mp hpartition with rfl | rfl
  · obtain rfl : feesMessage 0 8 20 = last := Option.some_inj.mp hlast
    exact feesMessage_counts 0 8 (by decide) (by decide)
  · obtain rfl : feesMessage 1 4 30 = last := Option.some_inj.mp hlast
    exact feesMessage_counts 1 4 (by decide) (by decide)

end GraphTally.EscrowManager
