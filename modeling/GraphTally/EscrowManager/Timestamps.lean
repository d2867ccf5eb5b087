import GraphTally.EscrowManager.Debts
import GraphTally.EscrowManager.Realtime

/-!
# Two readings of one timestamp

The realtime path splits a Kafka timestamp into seconds and a rest, and the aggregated path leaves
that to `chrono`.  They agree on whole seconds.
-/

open GraphTally.Theory

namespace GraphTally.EscrowManager

/-- `from_timestamp` takes seconds and nanoseconds, and `from_timestamp_millis` takes milliseconds,
both as far as the seconds are in range. -/
structure ReadsTime (InRange : Int → Prop) [FeeFormat Nanos] [QueryFormat Nanos] : Prop where
  fromTimestamp : ∀ seconds (nanoseconds : U32), InRange seconds →
    nanoseconds.toNat < 1000000000 → QueryFormat.fromTimestamp seconds nanoseconds =
      some (seconds * 1000000000 + nanoseconds.toNat)
  fromTimestampMillis : ∀ millis, InRange (millis / 1000) →
    FeeFormat.fromTimestampMillis millis = some (millis * 1000000)

/-- The DB does the same with a fee at either time. -/
def TreatedAlike (realtime aggregated : Nanos) : Prop :=
  ∀ profile (db : DB) indexer fee now,
    db.update profile ⟨realtime, indexer, fee⟩ now =
      db.update profile ⟨aggregated, indexer, fee⟩ now

/-- The time of the realtime path: the rest of the milliseconds counts as microseconds. -/
def realtimeNanos (t : Int) : Nanos := t / 1000 * 1000000000 + t % 1000 * 1000

theorem realtimeNanos_eq_iff (t : Int) : realtimeNanos t = t * 1000000 ↔ t % 1000 = 0 := by
  show t / 1000 * 1000000000 + t % 1000 * 1000 = t * 1000000 ↔ t % 1000 = 0
  omega

/-- Both times are in one second, so they are in one hour. -/
theorem hourlyTimestamp_realtimeNanos (t : Int) :
    hourlyTimestamp (realtimeNanos t) = hourlyTimestamp (t * 1000000) := by
  have hseconds : timestamp (realtimeNanos t) = timestamp (t * 1000000) := by
    show (t / 1000 * 1000000000 + t % 1000 * 1000) / 1000000000 = t * 1000000 / 1000000000
    omega
  unfold hourlyTimestamp
  rw [hseconds]

/-- A window that starts at the later of two times tells them apart. -/
theorem not_treatedAlike {realtime aggregated : Nanos} (h : realtime < aggregated) :
    ¬TreatedAlike realtime aggregated := by
  intro halike
  let indexer : Address := .repeatByte 20 0
  have hskipped : (DB.new 0).update .release ⟨realtime, indexer, 0⟩ aggregated = .ok (DB.new 0) :=
    if_pos (by rwa [DB.new, Int.sub_zero])
  have hcounted : (DB.new 0).update .release ⟨aggregated, indexer, 0⟩ aggregated =
      .ok ((DB.new 0).setEntry indexer (hourlyTimestamp aggregated) 0) :=
    if_neg (by rw [DB.new, Int.sub_zero]; exact lt_irrefl aggregated)
  have hsame := halike .release (DB.new 0) indexer 0 aggregated
  rw [hskipped, hcounted] at hsame
  have hentry := congrArg (fun db ↦ db.entry indexer (hourlyTimestamp aggregated))
    (Except.ok.inj hsame)
  rw [DB.entry_setEntry, if_pos ⟨rfl, rfl⟩] at hentry
  cases hentry

variable {InRange : Int → Prop} [FeeFormat Nanos] [QueryFormat Nanos] {t : Int}

theorem messageTimestamp_eq (hreads : ReadsTime InRange) (ht : 0 ≤ t) (hrange : InRange (t / 1000))
    (profile : Profile) (now : Nanos) :
    messageTimestamp profile (some t) now = .ok (realtimeNanos t) := by
  have hrest : t.tmod 1000 = t % 1000 := Int.tmod_eq_emod_of_nonneg ht
  have hseconds : t.tdiv 1000 = t / 1000 := Int.tdiv_eq_ediv_of_nonneg ht
  have hthousand : (1000 : U32).toNat = 1000 := rfl
  have hcast : (BitVec.ofInt 32 (t % 1000)).toNat = (t % 1000).toNat := by
    rw [BitVec.toNat_ofInt]
    omega
  have hfits : (BitVec.ofInt 32 (t % 1000)).toNat * (1000 : U32).toNat < 2 ^ 32 := by
    rw [hcast, hthousand]
    omega
  have hproduct := toNat_mul_of_fits hfits
  rw [hcast, hthousand] at hproduct
  have hsmall : (BitVec.ofInt 32 (t % 1000) * 1000).toNat < 1000000000 := by omega
  unfold messageTimestamp realtimeNanos
  dsimp only
  rw [hrest, hseconds, plainMul_of_fits profile hfits]
  dsimp only
  rw [hreads.fromTimestamp _ _ hrange hsmall, Option.getD_some, hproduct]
  congr 1
  show t / 1000 * 1000000000 + (((t % 1000).toNat * 1000 : Nat) : Int) = _
  omega

/-- Both paths put a timestamp in the same hour, and they read the same time out of it, or one that
the DB treats alike, exactly when it is a whole number of seconds. -/
theorem timestamps_agree_iff (hreads : ReadsTime InRange) (t : Int) (ht : 0 ≤ t)
    (hrange : InRange (t / 1000)) (profile : Profile) (now : Nanos) :
    ∃ realtime aggregated, messageTimestamp profile (some t) now = .ok realtime ∧
      FeeFormat.fromTimestampMillis t = some aggregated ∧
      hourlyTimestamp realtime = hourlyTimestamp aggregated ∧
      (realtime = aggregated ↔ t % 1000 = 0) ∧
      (TreatedAlike realtime aggregated ↔ t % 1000 = 0) := by
  refine ⟨realtimeNanos t, t * 1000000, messageTimestamp_eq hreads ht hrange profile now,
    hreads.fromTimestampMillis t hrange, hourlyTimestamp_realtimeNanos t, realtimeNanos_eq_iff t,
    ?_⟩
  constructor
  · intro halike
    by_contra hrest
    apply not_treatedAlike _ halike
    show t / 1000 * 1000000000 + t % 1000 * 1000 < t * 1000000
    omega
  · intro hwhole
    rw [(realtimeNanos_eq_iff t).mpr hwhole]
    intro profile db indexer fee now
    rfl

end GraphTally.EscrowManager

/-! ## Half a second -/

namespace GraphTally.KnownTimes

open EscrowManager

/-- The seconds of the years that `chrono` represents. -/
def InRange (seconds : Int) : Prop := -8334601228800 ≤ seconds ∧ seconds ≤ 8210266876799

instance (seconds : Int) : Decidable (InRange seconds) := by
  unfold InRange
  infer_instance

scoped instance : FeeFormat Nanos where
  decode _ := .error "failed to decode Protobuf message"
  fromTimestampMillis millis :=
    if InRange (millis / 1000) then some (millis * 1000000) else none
  toWei _ := 0

scoped instance : QueryFormat Nanos where
  decodeQuery _ := .error "failed to decode Protobuf message"
  fromTimestamp seconds nanoseconds :=
    if InRange seconds ∧ nanoseconds.toNat < 1000000000 then
      some (seconds * 1000000000 + nanoseconds.toNat)
    else none

theorem readsTime : ReadsTime InRange where
  fromTimestamp _ _ hrange hnanos := if_pos ⟨hrange, hnanos⟩
  fromTimestampMillis _ hrange := if_pos hrange

end GraphTally.KnownTimes

namespace GraphTally.EscrowManager

open KnownTimes

/-- Half a second after a whole one becomes half a millisecond after it, and at the edge of the
window only the aggregated path's fee is counted. -/
theorem timestamps_disagree : ReadsTime InRange ∧
    messageTimestamp .release (some 1700000000500) 0 = .ok (1700000000000500000 : Nanos) ∧
    FeeFormat.fromTimestampMillis 1700000000500 = some (1700000000500000000 : Nanos) ∧
    ¬(1700000000000500000 : Nanos) = 1700000000500000000 ∧
    ¬TreatedAlike 1700000000000500000 1700000000500000000 :=
  ⟨readsTime, by decide, by decide, by decide, not_treatedAlike (by decide)⟩

theorem timestamps_agree_iff_known : ∃ realtime aggregated : Nanos,
    messageTimestamp .debug (some 1700000000000) 0 = .ok realtime ∧
      FeeFormat.fromTimestampMillis 1700000000000 = some aggregated ∧ realtime = aggregated := by
  rcases timestamps_agree_iff readsTime 1700000000000 (by decide) (by decide) .debug 0 with
    ⟨realtime, aggregated, hrealtime, haggregated, -, hsame, -⟩
  exact ⟨realtime, aggregated, hrealtime, haggregated, hsame.mpr (by decide)⟩

end GraphTally.EscrowManager
