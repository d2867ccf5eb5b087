import GraphTally.Core.Memory
import GraphTally.Theory.Truncation

/-!
# What truncation leaves

A retrieval from the in-memory context is determined up to order: it is the whole timestamps that
fit, earliest first, whatever order the hash table and the sort chose.
-/

open GraphTally.Theory

namespace GraphTally

section Truncation

variable {S Rcpt : Type} [WithValueAndTimestamp Rcpt]

theorem safeTruncateReceipts_perm (unstable : UnstableSort)
    (receipts : List (ReceiptWithState S Rcpt)) (limit : U64) :
    (safeTruncateReceipts unstable receipts limit).Perm
      (wholeGroups (·.timestampNs.toNat) limit.toNat receipts) := by
  unfold safeTruncateReceipts
  split
  · rename_i hlen
    rw [wholeGroups_of_fits hlen]
  · rename_i hlen
    split
    · -- a limit of zero is the empty prefix
      rename_i hzero
      have hempty : wholeGroups (·.timestampNs.toNat) limit.toNat receipts = [] :=
        List.eq_nil_of_length_eq_zero (Nat.le_zero.mp (hzero ▸ wholeGroups_length_le))
      rw [hempty]
    · have hsorted := unstable.sorted (fun r ↦ r.timestampNs.toNat) receipts
      have hperm := unstable.perm (fun r ↦ r.timestampNs.toNat) receipts
      have hlimit : limit.toNat <
          (unstable.sortByKey (fun r ↦ r.timestampNs.toNat) receipts).length := by
        rw [hperm.length_eq]
        omega
      refine List.Perm.trans ?_ (wholeGroups_perm hperm)
      rw [← filter_lt_eq_wholeGroups hsorted hlimit]
      dsimp only
      split
      · rename_i hsame
        rw [take_filter_ne_eq_filter_lt hsorted hlimit hsame]
      · rename_i hcut
        rw [take_eq_filter_lt hsorted hlimit hcut]

/-- A timestamp of a receipt in range that no returned receipt has. -/
def LeftOut (inRange returned : List (ReceiptWithState S Rcpt)) (timestampNs : U64) : Prop :=
  (∃ receipt ∈ inRange, receipt.timestampNs = timestampNs) ∧
    ∀ receipt ∈ returned, receipt.timestampNs ≠ timestampNs

/-- What a retrieval may return of the receipts in range. -/
structure TruncatesWhole (limit : Option U64) (inRange returned : List (ReceiptWithState S Rcpt)) :
    Prop where
  stored : returned.Subperm inRange
  limited : ∀ n ∈ limit, returned.length ≤ n.toNat
  whole : ∀ t : U64, (returned.filter (·.timestampNs = t)).Perm
      (inRange.filter (·.timestampNs = t)) ∨
    returned.filter (·.timestampNs = t) = []
  earliest : ∀ receipt ∈ returned, ∀ t, LeftOut inRange returned t →
    receipt.timestampNs.toNat < t.toNat
  maximal : ∀ n ∈ limit, ∀ t, LeftOut inRange returned t →
    (∀ t', LeftOut inRange returned t' → t.toNat ≤ t'.toNat) →
    n.toNat < returned.length + (inRange.filter (·.timestampNs = t)).length
  complete : (∀ n ∈ limit, inRange.length ≤ n.toNat) → returned.Perm inRange

variable {inRange returned : List (ReceiptWithState S Rcpt)} {limit : U64}

-- All of a timestamp that is left out is dropped, and nothing else is.
theorem leftOut_iff (h : returned.Perm (wholeGroups (·.timestampNs.toNat) limit.toNat inRange))
    {t : U64} : LeftOut inRange returned t ↔ ∃ receipt ∈ inRange, receipt.timestampNs = t ∧
      receipt ∉ wholeGroups (·.timestampNs.toNat) limit.toNat inRange := by
  constructor
  · rintro ⟨⟨receipt, hreceipt, rfl⟩, hnone⟩
    exact ⟨receipt, hreceipt, rfl, fun hmem ↦ hnone receipt (h.mem_iff.mpr hmem) rfl⟩
  · rintro ⟨receipt, hreceipt, rfl, hdropped⟩
    refine ⟨⟨receipt, hreceipt, rfl⟩, ?_⟩
    intro other hother hsame
    have hlt := key_lt_of_notMem_wholeGroups (h.mem_iff.mp hother) hreceipt hdropped
    rw [hsame] at hlt
    exact Nat.lt_irrefl _ hlt

theorem TruncatesWhole.of_wholeGroups
    (h : returned.Perm (wholeGroups (·.timestampNs.toNat) limit.toNat inRange)) :
    TruncatesWhole (some limit) inRange returned := by
  have hlength : returned.length ≤ limit.toNat := by
    rw [h.length_eq]
    exact wholeGroups_length_le
  refine ⟨?stored, ?limited, ?whole, ?earliest, ?maximal, ?complete⟩
  case stored => exact h.subperm.trans List.filter_sublist.subperm
  case limited =>
    rintro n ⟨⟩
    exact hlength
  case whole =>
    intro t
    have hfilter := h.filter fun receipt ↦ receipt.timestampNs.toNat = t.toNat
    rw [wholeGroups_filter_key] at hfilter
    simp only [BitVec.toNat_inj] at hfilter
    split at hfilter
    · exact .inl hfilter
    · exact .inr hfilter.eq_nil
  case earliest =>
    intro receipt hreceipt t hleft
    obtain ⟨dropped, hmem, rfl, hdropped⟩ := (leftOut_iff h).mp hleft
    have hlt := key_lt_of_notMem_wholeGroups (h.mem_iff.mp hreceipt) hmem hdropped
    exact hlt
  case maximal =>
    rintro n ⟨⟩ t hleft hsmallest
    obtain ⟨dropped, hmem, rfl, hdropped⟩ := (leftOut_iff h).mp hleft
    have hnext := limit_lt_of_next ⟨dropped, hmem, rfl, hdropped⟩ fun other hother hout ↦
      hsmallest _ ((leftOut_iff h).mpr ⟨other, hother, rfl, hout⟩)
    simp only [BitVec.toNat_inj] at hnext
    rwa [h.length_eq]
  case complete =>
    intro hfits
    rwa [wholeGroups_of_fits (hfits limit rfl)] at h

theorem TruncatesWhole.of_all (h : returned.Perm inRange) :
    TruncatesWhole none inRange returned := by
  refine ⟨h.subperm, by simp, fun t ↦ .inl (h.filter _), ?_, by simp, fun _ ↦ h⟩
  intro receipt hreceipt t hleft
  obtain ⟨⟨dropped, hmem, rfl⟩, hnone⟩ := hleft
  exact absurd rfl (hnone dropped (h.mem_iff.mpr hmem))

end Truncation

namespace InMemoryContext

/-- The stored receipts in a range. -/
def inRange (range : TimestampRange) (self : InMemoryContext) :
    List (ReceiptWithState Checking SignedReceipt) :=
  (self.receiptStorage.entries.filter fun e ↦ range.contains e.2.timestampNs).map (·.2)

/-- A retrieval up to order, with no listing and no sort in sight. -/
theorem retrieve_perm (enumeration : Enumeration) (unstable : UnstableSort)
    (range : TimestampRange) (limit : Option U64) (self : InMemoryContext) :
    (self.retrieveReceiptsInTimestampRange enumeration unstable range limit).Perm
      (limit.elim (self.inRange range) fun n ↦
        wholeGroups (·.timestampNs.toNat) n.toNat (self.inRange range)) := by
  have hall : (HashTable.valuesWhere enumeration (fun _ rx ↦ range.contains rx.timestampNs)
      self.receiptStorage).Perm (self.inRange range) := HashTable.valuesWhere_perm ..
  unfold retrieveReceiptsInTimestampRange
  cases limit with
  | none => exact hall
  | some limit =>
    dsimp only [Option.elim_some]
    split
    · exact (safeTruncateReceipts_perm unstable _ limit).trans (wholeGroups_perm hall)
    · rename_i hfits
      rw [hall.length_eq] at hfits
      rw [wholeGroups_of_fits (Nat.le_of_not_lt hfits)]
      exact hall

theorem retrieve_subset (enumeration : Enumeration) (unstable : UnstableSort)
    (range : TimestampRange) (limit : Option U64) (self : InMemoryContext) :
    self.retrieveReceiptsInTimestampRange enumeration unstable range limit ⊆
      self.inRange range := by
  intro receipt hmem
  have hkept := (retrieve_perm enumeration unstable range limit self).subset hmem
  cases limit with
  | none => exact hkept
  | some limit => exact (mem_wholeGroups.mp hkept).1

/-- For every listing of the storage and every outcome of the sort, a retrieval returns whole
timestamps, earliest first, and as many of them as the limit admits. -/
theorem retrieveReceiptsInTimestampRange_truncatesWhole (enumeration : Enumeration)
    (unstable : UnstableSort) (range : TimestampRange) (limit : Option U64)
    (self : InMemoryContext) :
    TruncatesWhole limit (self.inRange range)
      (self.retrieveReceiptsInTimestampRange enumeration unstable range limit) := by
  have hperm := retrieve_perm enumeration unstable range limit self
  cases limit with
  | none => exact .of_all hperm
  | some limit => exact .of_wholeGroups hperm

end InMemoryContext

end GraphTally
