import GraphTally.EscrowManager.RavKeys
import GraphTally.Theory.Concurrent
import Mathlib.Order.Bounds.Basic

/-!
# Debts from the RAV topic

The RAV consumer handles sixteen messages at a time.  Each updates the map at most once, and the
map keeps the largest value, so the order of the updates does not matter.
-/

open GraphTally.Theory

namespace GraphTally.EscrowManager

/-- No entry is lost or gets smaller. -/
def Grows (map map' : RavMap) : Prop :=
  ∀ allocation value, map.lookup allocation = some value →
    ∃ value', map'.lookup allocation = some value' ∧ value.toNat ≤ value'.toNat

theorem Grows.refl (map : RavMap) : Grows map map :=
  fun _ value hvalue ↦ ⟨value, hvalue, Nat.le_refl _⟩

theorem grows_updateRav (map : RavMap) (record : Record) : Grows map (updateRav map record) := by
  intro allocation held hheld
  by_cases hsame : record.allocation = allocation
  · subst hsame
    rcases lookup_updateRav map record with ⟨value, hvalue, ⟨hnone, -⟩ | ⟨held', hheld', hmax⟩⟩
    · rw [hheld] at hnone
      cases hnone
    · obtain rfl : held = held' := Option.some_inj.mp (hheld.symm.trans hheld')
      exact ⟨value, hvalue, by omega⟩
  · rw [lookup_updateRav_ne map hsame]
    exact ⟨held, hheld, Nat.le_refl _⟩

section Consumer

variable [AlloyText]

/-- The consumer's stream yields messages and receive errors, which are logged. -/
def processReceived (signers : List Address) (map : RavMap) :
    Except String Message → Outcome Empty RavMap
  | .error _ => .ok map
  | .ok message => processMessage signers map message

/-- `ravs::process_messages`: `send_if_modified` runs its closure under the lock of the channel. -/
def ravConsumer (signers : List Address) :
    Handler (Except String Message) (Except String Message) RavMap where
  limit := 16
  actions received := [received]
  act := processReceived signers

/-- The record of a message that is counted. -/
def IsCounted (signers : List Address) (received : Except String Message) (record : Record) :
    Prop :=
  ∃ message, received = .ok message ∧ parseRecord message = .ok (.v2 record) ∧
    record.signer ∈ signers

/-- The values the counted records carry for an allocation. -/
def valuesFor (signers : List Address) (stream : List (Except String Message))
    (allocation : Address) : Set Nat :=
  {n | ∃ received ∈ stream, ∃ record, IsCounted signers received record ∧
    record.allocation = allocation ∧ record.value.toNat = n}

/-- For each allocation with a counted record the map holds the largest value, and it holds nothing
else. -/
structure HoldsMaxima (signers : List Address) (stream : List (Except String Message))
    (map : RavMap) : Prop where
  absent : ∀ allocation, map.lookup allocation = none → valuesFor signers stream allocation = ∅
  present : ∀ allocation value, map.lookup allocation = some value →
    IsGreatest (valuesFor signers stream allocation) value.toNat

theorem isCounted_ok {signers : List Address} {message : Message} {record : Record} :
    IsCounted signers (.ok message) record ↔
      parseRecord message = .ok (.v2 record) ∧ record.signer ∈ signers := by
  simp [IsCounted]

/-! ## One message -/

variable {signers : List Address} {map map' : RavMap} {received : Except String Message}

/-- A message that is survived updates the map with its record, or counts for nothing. -/
theorem processReceived_cases (h : processReceived signers map received = .ok map') :
    (∃ record, IsCounted signers received record ∧ map' = updateRav map record) ∨
      ((∀ record, ¬IsCounted signers received record) ∧ map' = map) := by
  cases received with
  | error e =>
    refine .inr ⟨?_, (Except.ok.inj h).symm⟩
    rintro record ⟨message, hmessage, -⟩
    cases hmessage
  | ok message =>
    have h : processMessage signers map message = .ok map' := h
    simp only [isCounted_ok]
    unfold processMessage at h
    split at h
    · cases h
    · rename_i hparse
      exact .inr ⟨by simp [hparse], (Except.ok.inj h).symm⟩
    · rename_i hparse
      exact .inr ⟨by simp [hparse], (Except.ok.inj h).symm⟩
    · rename_i record hparse
      split at h
      · rename_i hsigner
        exact .inl ⟨record, ⟨hparse, hsigner⟩, (Except.ok.inj h).symm⟩
      · rename_i hforeign
        refine .inr ⟨?_, (Except.ok.inj h).symm⟩
        intro other hcounts
        rw [hparse] at hcounts
        cases hcounts.1
        exact hforeign hcounts.2

theorem grows_processReceived (h : processReceived signers map received = .ok map') :
    Grows map map' := by
  rcases processReceived_cases h with ⟨record, -, rfl⟩ | ⟨-, rfl⟩
  · exact grows_updateRav map record
  · exact Grows.refl _

/-! ## The maxima -/

variable {stream : List (Except String Message)}

theorem valuesFor_append_none (stream : List (Except String Message))
    (hnone : ∀ record, ¬IsCounted signers received record)
    (allocation : Address) :
    valuesFor signers (stream ++ [received]) allocation = valuesFor signers stream allocation := by
  ext n
  simp [valuesFor, or_and_right, exists_or, hnone]

theorem valuesFor_append (stream : List (Except String Message)) (record : Record)
    (hcounts : IsCounted signers received record) (allocation : Address) :
    valuesFor signers (stream ++ [received]) allocation =
      if record.allocation = allocation then
        insert record.value.toNat (valuesFor signers stream allocation)
      else valuesFor signers stream allocation := by
  have hunique : ∀ other, IsCounted signers received other ↔ other = record := by
    rcases hcounts with ⟨message, rfl, hparse, hsigner⟩
    intro other
    rw [isCounted_ok]
    constructor
    · rintro ⟨hother, -⟩
      rw [hparse] at hother
      cases hother
      rfl
    · rintro rfl
      exact ⟨hparse, hsigner⟩
  ext n
  split
  · rename_i hsame
    simp only [valuesFor, List.mem_append, List.mem_singleton, or_and_right, exists_or, hunique,
      exists_eq_left, hsame, true_and, Set.mem_ofPred_eq, Set.mem_insert_iff]
    rw [or_comm, eq_comm]
  · rename_i hother
    simp only [valuesFor, List.mem_append, List.mem_singleton, or_and_right, exists_or, hunique,
      exists_eq_left, hother, false_and, or_false]

/-- One more message keeps the map at the maxima of what has been handled. -/
theorem HoldsMaxima.processReceived (h : HoldsMaxima signers stream map)
    (hprocess : processReceived signers map received = .ok map') :
    HoldsMaxima signers (stream ++ [received]) map' := by
  rcases processReceived_cases hprocess with ⟨record, hcounts, rfl⟩ | ⟨hnone, rfl⟩
  · have hvalues := valuesFor_append stream record hcounts
    rcases lookup_updateRav map record with ⟨value, hvalue, hjoin⟩
    constructor
    · intro allocation hlookup
      by_cases hsame : record.allocation = allocation
      · subst hsame
        rw [hvalue] at hlookup
        cases hlookup
      · rw [hvalues, if_neg hsame]
        rw [lookup_updateRav_ne map hsame] at hlookup
        exact h.absent allocation hlookup
    · intro allocation held hlookup
      by_cases hsame : record.allocation = allocation
      · subst hsame
        obtain rfl : value = held := Option.some_inj.mp (hvalue.symm.trans hlookup)
        rw [hvalues, if_pos rfl]
        rcases hjoin with ⟨hnone, rfl⟩ | ⟨before, hbefore, hmax⟩
        · rw [h.absent _ hnone, insert_empty_eq]
          exact isGreatest_singleton
        · rw [hmax, max_comm]
          exact (h.present _ before hbefore).insert _
      · rw [hvalues, if_neg hsame]
        rw [lookup_updateRav_ne map hsame] at hlookup
        exact h.present allocation held hlookup
  · have hvalues := valuesFor_append_none stream hnone
    constructor
    · intro allocation hlookup
      rw [hvalues]
      exact h.absent allocation hlookup
    · intro allocation held hlookup
      rw [hvalues]
      exact h.present allocation held hlookup

theorem HoldsMaxima.of_perm {stream' : List (Except String Message)}
    (h : HoldsMaxima signers stream map) (hperm : stream.Perm stream') :
    HoldsMaxima signers stream' map := by
  have hvalues : valuesFor signers stream' = valuesFor signers stream := by
    funext allocation
    simp only [valuesFor, hperm.mem_iff]
  constructor
  · rw [hvalues]
    exact h.absent
  · rw [hvalues]
    exact h.present

theorem holdsMaxima_run {pool : Pool (Except String Message) (Except String Message) RavMap}
    (hrun : Pool.Run (ravConsumer signers) (.start stream ∅) pool) :
    HoldsMaxima signers pool.performed pool.state := by
  apply hrun.invariant (HoldsMaxima signers)
  · intro performed map received map' h hprocess
    exact h.processReceived hprocess
  · refine ⟨fun _ _ ↦ by simp [valuesFor, Pool.start], ?_⟩
    intro allocation value hvalue
    cases hvalue

/-! ## Every run of the consumer -/

theorem ravConsumer_safe
    (hcuts : ∀ message, Except.ok message ∈ stream → ¬CutsCharacter message)
    (hmem : received ∈ stream) : Pool.Safe (ravConsumer signers) received := by
  intro map hpanic
  cases received with
  | error e => cases hpanic
  | ok message =>
    have hparse := (processMessage_eq_panic signers map message).mp hpanic
    exact hcuts message hmem ((parseRecord_eq_panic message).mp hparse)

/-- However sixteen handlers at a time interleave, entries only grow, and when all messages are
handled the map holds the largest counted value of each allocation and nothing else.  Unless a
message panics, every run can be completed. -/
theorem ravs_converge (signers : List Address) (stream : List (Except String Message))
    (pool : Pool (Except String Message) (Except String Message) RavMap)
    (hrun : Pool.Run (ravConsumer signers) (.start stream ∅) pool) :
    (∀ pool', Pool.Step (ravConsumer signers) pool pool' → Grows pool.state pool'.state) ∧
      HoldsMaxima signers pool.performed pool.state ∧
      (pool.Done → HoldsMaxima signers stream pool.state) ∧
      ((∀ message, Except.ok message ∈ stream → ¬CutsCharacter message) →
        ∃ pool', Pool.Run (ravConsumer signers) pool pool' ∧ pool'.Done) := by
  have hmaxima := holdsMaxima_run hrun
  refine ⟨?grows, hmaxima, ?done, ?completes⟩
  case grows =>
    intro pool' hstep
    exact hstep.related Grows.refl grows_processReceived
  case done =>
    intro hdone
    have hperm := hrun.performed_of_done hdone
    have hitems : stream.flatMap (ravConsumer signers).actions = stream :=
      List.flatMap_singleton' stream
    rw [hitems] at hperm
    exact hmaxima.of_perm hperm
  case completes =>
    intro hcuts
    have hlimit : 0 < (ravConsumer signers).limit := Nat.succ_pos 15
    apply Pool.exists_done (ravConsumer signers) hlimit pool
    intro pool' hrest
    have hall : Pool.Run (ravConsumer signers) (.start stream ∅) pool' := hrun.trans hrest
    apply hall.alive
    intro received hreceived action haction
    obtain rfl := List.mem_singleton.mp haction
    exact ravConsumer_safe hcuts hreceived

end Consumer

end GraphTally.EscrowManager

namespace GraphTally.Known

open EscrowManager

def twoRecords : List (Except String Message) := [.ok padded, .ok unpadded]

theorem twoRecords_survive : ∀ message, Except.ok message ∈ twoRecords →
    ¬CutsCharacter message := by
  intro message hmem
  rw [← parseRecord_eq_panic]
  simp only [twoRecords, List.mem_cons, Except.ok.injEq, List.not_mem_nil, or_false] at hmem
  rcases hmem with rfl | rfl
  · decide +kernel
  · decide +kernel

end GraphTally.Known

namespace GraphTally.EscrowManager

open Known in
/-- Two records of one allocation, the larger value behind the smaller one. -/
theorem ravs_converge_known :
    ∃ pool, Pool.Run (ravConsumer [Key.one.address]) (.start twoRecords ∅) pool ∧
      pool.Done ∧ HoldsMaxima [Key.one.address] twoRecords pool.state := by
  have hconverge := ravs_converge [Key.one.address] twoRecords
  rcases (hconverge _ .refl).2.2.2 twoRecords_survive with ⟨pool, hrun, hdone⟩
  exact ⟨pool, hrun, hdone, (hconverge pool hrun).2.2.1 hdone⟩

end GraphTally.EscrowManager
