import Mathlib.Algebra.BigOperators.Group.List.Basic
import Mathlib.Algebra.Order.BigOperators.Group.List
import Mathlib.Data.List.Induction
import Mathlib.Order.Lattice

/-!
# Totals by bucket

Items are added to totals by owner and bucket.  Some items are skipped when they come and old
buckets are cut from time to time, so what a total counts depends on the history.  Above the last
cut it does not, as long as nothing above it was skipped or cut before.
-/

namespace GraphTally.Theory.Buckets

structure Item (κ β M : Type) where
  owner : κ
  bucket : β
  amount : M

inductive Event (κ β M : Type) where
  | add (item : Item κ β M)
  | skip (item : Item κ β M)
  /-- Drops every bucket up to the floor. -/
  | cut (floor : β)

abbrev Table (κ β M : Type) := κ → β → Option M

variable {κ β M : Type}

/-! ## The items that came -/

def Event.item? : Event κ β M → Option (Item κ β M)
  | .add item => some item
  | .skip item => some item
  | .cut _ => none

/-- The items of the events, whether they were skipped or not. -/
def received (events : List (Event κ β M)) : List (Item κ β M) :=
  events.filterMap Event.item?

theorem received_append (events : List (Event κ β M)) (event : Event κ β M) :
    received (events ++ [event]) = received events ++ received [event] :=
  List.filterMap_append ..

/-- The total of an owner over all buckets. -/
def ownerTotal [DecidableEq κ] [AddCommMonoid M] (items : List (Item κ β M)) (owner : κ) : M :=
  ((items.filter fun item ↦ item.owner = owner).map (·.amount)).sum

theorem ownerTotal_append [DecidableEq κ] [AddCommMonoid M] (items : List (Item κ β M))
    (item : Item κ β M) (owner : κ) :
    ownerTotal (items ++ [item]) owner =
      ownerTotal items owner + if item.owner = owner then item.amount else 0 := by
  unfold ownerTotal
  rw [List.filter_append, List.map_append, List.sum_append]
  by_cases howner : item.owner = owner
  · simp [howner]
  · simp [howner]

section Amounts

variable [DecidableEq κ] [LinearOrder β] {floor : β}

/-- The amounts of the items in a bucket. -/
def amounts (items : List (Item κ β M)) (owner : κ) (bucket : β) : List M :=
  (items.filter fun item ↦ item.owner = owner ∧ item.bucket = bucket).map (·.amount)

theorem amounts_append (items : List (Item κ β M)) (item : Item κ β M) (owner : κ) (bucket : β) :
    amounts (items ++ [item]) owner bucket =
      if item.owner = owner ∧ item.bucket = bucket then
        amounts items owner bucket ++ [item.amount]
      else amounts items owner bucket := by
  unfold amounts
  rw [List.filter_append, List.map_append]
  by_cases hsame : item.owner = owner ∧ item.bucket = bucket
  · simp [hsame]
  · have hnone : ([item].filter fun item ↦ item.owner = owner ∧ item.bucket = bucket) = [] :=
      List.filter_cons_of_neg (by simpa using hsame)
    rw [if_neg hsame, hnone]
    exact List.append_nil _

theorem amounts_sublist_append (items : List (Item κ β M)) (item : Item κ β M) (owner : κ)
    (bucket : β) :
    (amounts items owner bucket).Sublist (amounts (items ++ [item]) owner bucket) :=
  ((List.sublist_append_left items [item]).filter _).map _

theorem amounts_perm {items items' : List (Item κ β M)} (h : items.Perm items') (owner : κ)
    (bucket : β) : (amounts items owner bucket).Perm (amounts items' owner bucket) :=
  (h.filter _).map _

/-- The items in the buckets above the floor. -/
def above (floor : β) (items : List (Item κ β M)) : List (Item κ β M) :=
  items.filter fun item ↦ floor < item.bucket

theorem amounts_above (items : List (Item κ β M)) (owner : κ) (bucket : β) :
    amounts (above floor items) owner bucket =
      if floor < bucket then amounts items owner bucket else [] := by
  unfold amounts above
  rw [List.filter_filter]
  by_cases hbucket : floor < bucket
  · rw [if_pos hbucket]
    congr 1
    apply List.filter_congr
    intro item _
    by_cases hsame : item.bucket = bucket
    · simp [hsame, hbucket]
    · simp [hsame]
  · rw [if_neg hbucket, List.map_eq_nil_iff, List.filter_eq_nil_iff]
    rintro item - hitem
    simp only [Bool.and_eq_true, decide_eq_true_eq] at hitem
    rcases hitem with ⟨⟨-, rfl⟩, habove⟩
    exact hbucket habove

end Amounts

/-! ## The table -/

section Totals

variable [DecidableEq κ] [LinearOrder β] [AddCommMonoid M]

def Table.add (item : Item κ β M) (table : Table κ β M) : Table κ β M := fun owner bucket ↦
  if item.owner = owner ∧ item.bucket = bucket then
    some ((table owner bucket).getD 0 + item.amount)
  else table owner bucket

def Table.cut (floor : β) (table : Table κ β M) : Table κ β M := fun owner bucket ↦
  if floor < bucket then table owner bucket else none

def Table.step (table : Table κ β M) : Event κ β M → Table κ β M
  | .add item => table.add item
  | .skip _ => table
  | .cut floor => table.cut floor

def Table.run (events : List (Event κ β M)) : Table κ β M :=
  events.foldl Table.step fun _ _ ↦ none

theorem Table.run_append (events : List (Event κ β M)) (event : Event κ β M) :
    Table.run (events ++ [event]) = (Table.run events).step event :=
  List.foldl_concat ..

/-- The totals of the items, with none where there is no item. -/
def totals (items : List (Item κ β M)) : Table κ β M := fun owner bucket ↦
  if amounts items owner bucket = [] then none else some (amounts items owner bucket).sum

theorem getD_totals (items : List (Item κ β M)) (owner : κ) (bucket : β) :
    (totals items owner bucket).getD 0 = (amounts items owner bucket).sum := by
  unfold totals
  by_cases hnone : amounts items owner bucket = []
  · rw [if_pos hnone, hnone]
    rfl
  · rw [if_neg hnone]
    rfl

-- Another item is added to its total.
theorem totals_append (items : List (Item κ β M)) (item : Item κ β M) :
    totals (items ++ [item]) = (totals items).add item := by
  funext owner bucket
  unfold Table.add
  rw [getD_totals]
  by_cases hsame : item.owner = owner ∧ item.bucket = bucket
  · have hsome : amounts items owner bucket ++ [item.amount] ≠ [] := by simp
    rw [if_pos hsame, totals, amounts_append, if_pos hsame, if_neg hsome, List.sum_append,
      List.sum_singleton]
  · rw [if_neg hsame, totals, amounts_append, if_neg hsame, totals]

theorem totals_perm {items items' : List (Item κ β M)} (h : items.Perm items') :
    totals items = totals items' := by
  funext owner bucket
  have hperm := amounts_perm h owner bucket
  have hnil : amounts items owner bucket = [] ↔ amounts items' owner bucket = [] := by
    rw [← List.length_eq_zero_iff, hperm.length_eq, List.length_eq_zero_iff]
  unfold totals
  rw [hperm.sum_eq]
  exact if_congr hnil rfl rfl

/-! ## The history -/

/-- The event does not touch the buckets above the floor, but for adding to them. -/
def Event.Below (floor : β) : Event κ β M → Prop
  | .add _ => True
  | .skip item => item.bucket ≤ floor
  | .cut earlier => earlier ≤ floor

variable {events : List (Event κ β M)} {floor : β}

/-- Above the floor the history is forgotten. -/
theorem Table.run_above (h : ∀ event ∈ events, event.Below floor) (owner : κ) {bucket : β}
    (hbucket : floor < bucket) :
    Table.run events owner bucket = totals (received events) owner bucket := by
  induction events using List.reverseRecOn with
  | nil => rfl
  | append_singleton events event ih =>
    have hevent : event.Below floor := h event (List.mem_append_right _ List.mem_cons_self)
    have hrun := ih fun other hother ↦ h other (List.mem_append_left _ hother)
    rw [Table.run_append, received_append]
    cases event with
    | add item =>
      show (Table.run events).add item owner bucket =
        totals (received events ++ [item]) owner bucket
      rw [totals_append, Table.add, Table.add, hrun]
    | skip item =>
      show Table.run events owner bucket = totals (received events ++ [item]) owner bucket
      have hother : ¬(item.owner = owner ∧ item.bucket = bucket) := by
        rintro ⟨-, rfl⟩
        exact absurd hbucket (not_lt.mpr hevent)
      rw [totals_append, hrun, Table.add, if_neg hother]
    | cut earlier =>
      show (Table.run events).cut earlier owner bucket =
        totals (received events ++ []) owner bucket
      rw [Table.cut, if_pos (lt_of_le_of_lt hevent hbucket), hrun, List.append_nil]

/-- After a last cut the table holds the totals of the items above it. -/
theorem Table.run_cut (h : ∀ event ∈ events, event.Below floor) :
    (Table.run events).cut floor = totals (above floor (received events)) := by
  funext owner bucket
  unfold Table.cut
  by_cases hbucket : floor < bucket
  · rw [if_pos hbucket, Table.run_above h owner hbucket, totals, totals, amounts_above,
      if_pos hbucket]
  · rw [if_neg hbucket, totals, amounts_above, if_neg hbucket, if_pos rfl]

/-- At any time a total counts some of the amounts that came. -/
theorem Table.exists_sublist (events : List (Event κ β M)) (owner : κ) (bucket : β) :
    ∃ counted : List M, counted.Sublist (amounts (received events) owner bucket) ∧
      (Table.run events owner bucket).getD 0 = counted.sum := by
  induction events using List.reverseRecOn with
  | nil => exact ⟨[], List.Sublist.refl _, rfl⟩
  | append_singleton events event ih =>
    rcases ih with ⟨counted, hsublist, hsum⟩
    rw [Table.run_append, received_append]
    cases event with
    | add item =>
      show ∃ counted : List M,
        counted.Sublist (amounts (received events ++ [item]) owner bucket) ∧
          ((Table.run events).add item owner bucket).getD 0 = counted.sum
      rw [amounts_append, Table.add]
      by_cases hsame : item.owner = owner ∧ item.bucket = bucket
      · refine ⟨counted ++ [item.amount], ?_, ?_⟩
        · rw [if_pos hsame]
          exact hsublist.append_right _
        · rw [if_pos hsame, List.sum_append, List.sum_singleton, ← hsum]
          rfl
      · rw [if_neg hsame, if_neg hsame]
        exact ⟨counted, hsublist, hsum⟩
    | skip item =>
      show ∃ counted : List M,
        counted.Sublist (amounts (received events ++ [item]) owner bucket) ∧
          (Table.run events owner bucket).getD 0 = counted.sum
      exact ⟨counted, hsublist.trans (amounts_sublist_append _ item owner bucket), hsum⟩
    | cut earlier =>
      show ∃ counted : List M,
        counted.Sublist (amounts (received events ++ []) owner bucket) ∧
          ((Table.run events).cut earlier owner bucket).getD 0 = counted.sum
      rw [List.append_nil, Table.cut]
      by_cases hkept : earlier < bucket
      · rw [if_pos hkept]
        exact ⟨counted, hsublist, hsum⟩
      · rw [if_neg hkept]
        exact ⟨[], List.nil_sublist _, rfl⟩

/-! ## An owner's buckets -/

-- Exactly one of the buckets is the item's.
theorem sum_single {buckets : List β} (hdistinct : buckets.Nodup) {bucket : β}
    (hmem : bucket ∈ buckets) (amount : M) :
    (buckets.map fun other ↦ if bucket = other then amount else 0).sum = amount := by
  induction buckets with
  | nil => exact absurd hmem List.not_mem_nil
  | cons first buckets ih =>
    rcases List.nodup_cons.mp hdistinct with ⟨hfirst, hrest⟩
    rw [List.map_cons, List.sum_cons]
    by_cases hsame : bucket = first
    · have hzero : (buckets.map fun other ↦ if bucket = other then amount else 0).sum = 0 := by
        apply List.sum_eq_zero
        intro x hx
        rcases List.mem_map.mp hx with ⟨other, hother, rfl⟩
        apply if_neg
        rintro rfl
        exact hfirst (hsame ▸ hother)
      rw [if_pos hsame, hzero, add_zero]
    · rw [if_neg hsame, zero_add]
      exact ih hrest ((List.mem_cons.mp hmem).resolve_left hsame)

/-- The totals of an owner's buckets add up to the owner's total. -/
theorem sum_amounts (items : List (Item κ β M)) (owner : κ) {buckets : List β}
    (hdistinct : buckets.Nodup)
    (hcover : ∀ item ∈ items, item.owner = owner → item.bucket ∈ buckets) :
    (buckets.map fun bucket ↦ (amounts items owner bucket).sum).sum = ownerTotal items owner := by
  induction items using List.reverseRecOn with
  | nil => exact List.sum_eq_zero (by simp [amounts])
  | append_singleton items item ih =>
    have hearlier := ih fun other hother ↦ hcover other (List.mem_append_left _ hother)
    have hsplit : ∀ bucket, (amounts (items ++ [item]) owner bucket).sum =
        (amounts items owner bucket).sum +
          if item.bucket = bucket then if item.owner = owner then item.amount else 0 else 0 := by
      intro bucket
      rw [amounts_append]
      by_cases howner : item.owner = owner <;> by_cases hbucket : item.bucket = bucket <;>
        simp [howner, hbucket]
    rw [ownerTotal_append, ← hearlier, funext hsplit, List.sum_map_add]
    congr 1
    by_cases howner : item.owner = owner
    · have hmem := hcover item (List.mem_append_right _ List.mem_cons_self) howner
      exact sum_single hdistinct hmem _
    · simp [howner]

end Totals

end GraphTally.Theory.Buckets
