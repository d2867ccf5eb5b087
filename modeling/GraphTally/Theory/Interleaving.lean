import Mathlib.Data.List.Nodup
import Mathlib.Tactic.Common

/-!
# Interleavings

The arrivals from several sources: each source's queue arrives in its order, and nothing else does.
-/

namespace GraphTally.Theory

variable {K α : Type} [DecidableEq K]

structure Interleaves (source : α → K) (queues : List (K × List α)) (arrivals : List α) :
    Prop where
  inOrder : ∀ queue ∈ queues, (arrivals.filter fun item ↦ source item = queue.1) = queue.2
  noOther : ∀ item ∈ arrivals, source item ∈ queues.map Prod.fst

namespace Interleaves

variable {source : α → K} {queues : List (K × List α)} {arrivals : List α}

theorem mem_of_queue (h : Interleaves source queues arrivals) {queue : K × List α}
    (hqueue : queue ∈ queues) {item : α} (hitem : item ∈ queue.2) :
    item ∈ arrivals ∧ source item = queue.1 := by
  rw [← h.inOrder queue hqueue, List.mem_filter, decide_eq_true_eq] at hitem
  exact hitem

/-- Every arrival comes from its source's queue. -/
theorem exists_queue (h : Interleaves source queues arrivals) {item : α} (hitem : item ∈ arrivals) :
    ∃ queue ∈ queues, queue.1 = source item ∧ item ∈ queue.2 := by
  rcases List.mem_map.mp (h.noOther item hitem) with ⟨queue, hqueue, hkey⟩
  refine ⟨queue, hqueue, hkey, ?_⟩
  rw [← h.inOrder queue hqueue, List.mem_filter, decide_eq_true_eq]
  exact ⟨hitem, hkey.symm⟩

-- Two arrivals of one source are in its queue, in the same order.
theorem pairwise (h : Interleaves source queues arrivals) {r : α → α → Prop}
    (hqueues : ∀ queue ∈ queues, queue.2.Pairwise r) :
    arrivals.Pairwise fun a b ↦ source a = source b → r a b := by
  apply List.pairwise_iff_forall_sublist.mpr
  intro a b hsublist hsame
  have ha : a ∈ arrivals := hsublist.subset List.mem_cons_self
  rcases h.exists_queue ha with ⟨queue, hqueue, hkey, -⟩
  have hfilter := hsublist.filter fun item ↦ source item = queue.1
  have hboth : [a, b].filter (fun item ↦ source item = queue.1) = [a, b] := by
    rw [hkey, List.filter_cons_of_pos (by simp), List.filter_cons_of_pos (by simp [hsame])]
    rfl
  rw [hboth, h.inOrder queue hqueue] at hfilter
  exact List.pairwise_iff_forall_sublist.mp (hqueues queue hqueue) hfilter

-- The arrivals from the other sources interleave the other queues.
theorem others {queue : K × List α} (h : Interleaves source (queue :: queues) arrivals)
    (hnew : queue.1 ∉ queues.map Prod.fst) :
    Interleaves source queues (arrivals.filter fun item ↦ !decide (source item = queue.1)) := by
  constructor
  · intro other hother
    have hne : other.1 ≠ queue.1 := by
      intro hsame
      exact hnew (hsame ▸ List.mem_map_of_mem hother)
    rw [List.filter_filter, ← h.inOrder other (List.mem_cons_of_mem _ hother)]
    apply List.filter_congr
    intro item _
    by_cases hitem : source item = other.1
    · simp [hitem, hne]
    · simp [hitem]
  · intro item hitem
    rw [List.mem_filter] at hitem
    have hkey := h.noOther item hitem.1
    rw [List.map_cons, List.mem_cons] at hkey
    rcases hkey with hsame | hkey
    · simp [hsame] at hitem
    · exact hkey

/-- Each item of each queue arrives once. -/
theorem perm (h : Interleaves source queues arrivals) (hdistinct : (queues.map Prod.fst).Nodup) :
    arrivals.Perm (queues.flatMap Prod.snd) := by
  induction queues generalizing arrivals with
  | nil =>
    have hnone : arrivals = [] :=
      List.eq_nil_iff_forall_not_mem.mpr fun item hitem ↦ List.not_mem_nil (h.noOther item hitem)
    rw [hnone]
    exact List.Perm.refl _
  | cons queue queues ih =>
    rcases List.nodup_cons.mp hdistinct with ⟨hnew, hrest⟩
    calc arrivals.Perm
          (arrivals.filter (fun item ↦ source item = queue.1) ++
            arrivals.filter fun item ↦ !decide (source item = queue.1)) :=
          (List.filter_append_perm _ arrivals).symm
      _ = queue.2 ++ arrivals.filter fun item ↦ !decide (source item = queue.1) := by
          rw [h.inOrder queue List.mem_cons_self]
      List.Perm _ (queue.2 ++ queues.flatMap Prod.snd) := (ih (h.others hnew) hrest).append_left _
      _ = (queue :: queues).flatMap Prod.snd := List.flatMap_cons.symm

end Interleaves

end GraphTally.Theory
