import Mathlib.Algebra.BigOperators.Group.List.Basic
import Mathlib.Data.List.Forall2
import Mathlib.Data.List.Pairwise
import Mathlib.Data.List.Perm.Subperm
import Mathlib.Order.Lattice

/-!
# Watermarked vouchers

A voucher stands for every item counted so far by two numbers: a high-water mark on the items'
marks and a running total of their amounts.  A new voucher may only count items strictly above
the mark of the one before it, so a chain of vouchers counts no mark twice, however its batches
are chosen.
-/

namespace GraphTally.Theory

structure Voucher (κ M : Type*) where
  mark : κ
  total : M

section Steps

variable {ι κ M : Type*}

/-- The steps of a chain, oldest first: each batch with the voucher issued for it. -/
abbrev Steps (ι κ M : Type*) := List (List ι × Voucher κ M)

namespace Steps

def batches (steps : Steps ι κ M) : List (List ι) := steps.map (·.1)

def vouchers (steps : Steps ι κ M) : List (Voucher κ M) := steps.map (·.2)

def last (steps : Steps ι κ M) : Option (Voucher κ M) := steps.vouchers.getLast?

@[simp] theorem last_snoc (steps : Steps ι κ M) (batch : List ι) (next : Voucher κ M) :
    last (steps ++ [(batch, next)]) = some next := by
  simp [last, vouchers]

@[simp] theorem batches_snoc (steps : Steps ι κ M) (batch : List ι) (next : Voucher κ M) :
    batches (steps ++ [(batch, next)]) = batches steps ++ [batch] := by
  simp [batches]

@[simp] theorem vouchers_snoc (steps : Steps ι κ M) (batch : List ι) (next : Voucher κ M) :
    vouchers (steps ++ [(batch, next)]) = vouchers steps ++ [next] := by
  simp [vouchers]

theorem exists_last {steps : Steps ι κ M} (h : steps ≠ []) : ∃ v, steps.last = some v := by
  cases hlast : steps.last with
  | some v => exact ⟨v, rfl⟩
  | none =>
    rw [last, List.getLast?_eq_none_iff, vouchers, List.map_eq_nil_iff] at hlast
    exact absurd hlast h

theorem exists_last_of_counted {steps : Steps ι κ M} {x : ι} (h : x ∈ steps.batches.flatten) :
    ∃ v, steps.last = some v :=
  exists_last (by rintro rfl; cases h)

end Steps

end Steps

variable {ι κ M : Type*} [LinearOrder κ] [AddCommMonoid M]

/-- `next` counts the items of `batch` on top of `prev`. -/
structure Voucher.Extends (mark : ι → κ) (amount : ι → M) (prev : Option (Voucher κ M))
    (batch : List ι) (next : Voucher κ M) : Prop where
  above : ∀ v ∈ prev, ∀ x ∈ batch, v.mark < mark x
  covers : ∀ x ∈ batch, mark x ≤ next.mark
  attained : ∃ x ∈ batch, mark x = next.mark
  total : next.total = (prev.elim 0 (·.total)) + (batch.map amount).sum

inductive Steps.Chain (mark : ι → κ) (amount : ι → M) : Steps ι κ M → Prop
  | nil : Chain mark amount []
  | snoc {steps : Steps ι κ M} {batch : List ι} {next : Voucher κ M} :
      Chain mark amount steps → Voucher.Extends mark amount (Steps.last steps) batch next →
        Chain mark amount (steps ++ [(batch, next)])

namespace Steps.Chain

variable {mark : ι → κ} {amount : ι → M} {steps : Steps ι κ M}

/-- The last total is the exact sum over every batch. -/
theorem total (h : Chain mark amount steps) :
    steps.last.elim 0 (·.total) = (steps.batches.flatten.map amount).sum := by
  induction h with
  | nil => rfl
  | snoc _ hext ih =>
    rw [last_snoc, batches_snoc, List.flatten_append, List.map_append, List.sum_append, ← ih]
    simpa using hext.total

/-- The last mark bounds every item counted. -/
theorem covers (h : Chain mark amount steps) :
    ∀ v ∈ steps.last, ∀ x ∈ steps.batches.flatten, mark x ≤ v.mark := by
  induction h with
  | nil => intro v hv; cases hv
  | @snoc steps batch next _ hext ih =>
    intro v hv x hx
    rw [last_snoc, Option.mem_some_iff] at hv
    subst hv
    rw [batches_snoc, List.flatten_append, List.mem_append] at hx
    rcases hx with hx | hx
    · obtain ⟨w, hw⟩ := exists_last_of_counted hx
      obtain ⟨y, hy, hmark⟩ := hext.attained
      calc mark x ≤ w.mark := ih w hw x hx
        _ ≤ mark y := (hext.above w hw y hy).le
        _ = next.mark := hmark
    · exact hext.covers x (by simpa using hx)

/-- The last mark is the mark of an item counted. -/
theorem attained (h : Chain mark amount steps) :
    ∀ v ∈ steps.last, ∃ x ∈ steps.batches.flatten, mark x = v.mark := by
  intro v hv
  cases h with
  | nil => cases hv
  | snoc _ hext =>
    rw [last_snoc, Option.mem_some_iff] at hv
    subst hv
    obtain ⟨x, hx, hmark⟩ := hext.attained
    exact ⟨x, by simp [hx], hmark⟩

/-- Items of a later batch lie strictly above those of an earlier one. -/
theorem batches_increasing (h : Chain mark amount steps) :
    steps.batches.Pairwise (fun a b ↦ ∀ x ∈ a, ∀ y ∈ b, mark x < mark y) := by
  induction h with
  | nil => exact List.Pairwise.nil
  | @snoc steps batch next hchain hext ih =>
    rw [batches_snoc, List.pairwise_append]
    refine ⟨ih, List.pairwise_singleton _ _, fun a ha b hb x hx y hy ↦ ?_⟩
    rw [List.mem_singleton] at hb
    subst hb
    have hcounted : x ∈ (Steps.batches steps).flatten := List.mem_flatten.mpr ⟨a, ha, hx⟩
    obtain ⟨w, hw⟩ := exists_last_of_counted hcounted
    exact (hchain.covers w hw x hcounted).trans_lt (hext.above w hw y hy)

/-- The marks of the vouchers strictly increase. -/
theorem vouchers_increasing (h : Chain mark amount steps) :
    steps.vouchers.Pairwise (fun a b ↦ a.mark < b.mark) := by
  induction h with
  | nil => exact List.Pairwise.nil
  | @snoc steps batch next hchain hext ih =>
    rw [vouchers_snoc, List.pairwise_append]
    refine ⟨ih, List.pairwise_singleton _ _, fun a ha b hb ↦ ?_⟩
    rw [List.mem_singleton] at hb
    subst hb
    obtain ⟨y, hy, hmark⟩ := hext.attained
    have hne : Steps.vouchers steps ≠ [] := List.ne_nil_of_mem ha
    have hlast : Steps.last steps = some ((Steps.vouchers steps).getLast hne) :=
      List.getLast?_eq_some_getLast hne
    have hle : a.mark ≤ ((Steps.vouchers steps).getLast hne).mark :=
      (ih.imp fun hlt ↦ hlt.le : (Steps.vouchers steps).Pairwise
        (fun a b ↦ a.mark ≤ b.mark)).rel_getLast_of_rel_getLast_getLast ha le_rfl
    exact hle.trans_lt (hmark ▸ hext.above _ hlast y hy)

/-- A relation that holds between the items of each batch, and between any item and one above
it, holds between all items of the chain. -/
theorem pairwise_flatten (h : Chain mark amount steps) {R : ι → ι → Prop}
    (hwithin : ∀ batch ∈ steps.batches, batch.Pairwise R)
    (hacross : ∀ x y, mark x < mark y → R x y) : steps.batches.flatten.Pairwise R :=
  List.pairwise_flatten.mpr ⟨hwithin, h.batches_increasing.imp
    fun hlt x hx y hy ↦ hacross x y (hlt x hx y hy)⟩

end Steps.Chain

/-! ## Items that stand for others -/

section Matched

variable {ι σ : Type*} {R : ι → σ → Prop} {items : List ι} {matched pool : List σ}

theorem exists_item (h : List.Forall₂ R items matched) {x : σ} (hx : x ∈ matched) :
    ∃ item ∈ items, R item x := by
  induction h with
  | nil => cases hx
  | cons hmatch _ ih =>
    rcases List.mem_cons.mp hx with rfl | hx
    · exact ⟨_, List.mem_cons_self, hmatch⟩
    · obtain ⟨item, hitem, hmatch⟩ := ih hx
      exact ⟨item, List.mem_cons_of_mem _ hitem, hmatch⟩

/-- Items that share no match are matched with distinct items of a pool. -/
theorem exists_matched (hapart : items.Pairwise fun a b ↦ ∀ x, R a x → ¬R b x)
    (hmatched : ∀ item ∈ items, ∃ x ∈ pool, R item x) :
    ∃ matched : List σ, matched.Subperm pool ∧ List.Forall₂ R items matched := by
  suffices h : ∃ matched : List σ, matched.Nodup ∧ matched ⊆ pool ∧
      List.Forall₂ R items matched by
    obtain ⟨matched, hnodup, hsubset, hmatches⟩ := h
    exact ⟨matched, List.subperm_of_subset hnodup hsubset, hmatches⟩
  induction items with
  | nil => exact ⟨[], List.nodup_nil, List.nil_subset _, .nil⟩
  | cons item items ih =>
    obtain ⟨hhere, hrest⟩ := List.pairwise_cons.mp hapart
    obtain ⟨⟨x, hx, hmatch⟩, hothers⟩ := List.forall_mem_cons.mp hmatched
    obtain ⟨matched, hnodup, hsubset, hmatches⟩ := ih hrest hothers
    have hfresh : x ∉ matched := by
      intro hin
      obtain ⟨other, hother, hclash⟩ := exists_item hmatches hin
      exact hhere other hother x hmatch hclash
    exact ⟨x :: matched, List.nodup_cons.mpr ⟨hfresh, hnodup⟩,
      List.cons_subset.mpr ⟨hx, hsubset⟩, .cons hmatch hmatches⟩

end Matched

end GraphTally.Theory
