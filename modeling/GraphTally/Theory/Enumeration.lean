import Mathlib.Data.List.AList
import Mathlib.Data.Nat.Basic
import Mathlib.Tactic.Common

/-!
# Orders nobody promised

A hash table lists its entries in some order, and an unstable sort leaves equal keys in some
order.  A program may see any of them, so both are values that a result is quantified over.
-/

namespace GraphTally.Theory

structure Enumeration where
  order : {α : Type} → List α → List α
  perm : ∀ {α : Type} (l : List α), (order l).Perm l

structure UnstableSort where
  sortByKey : {α : Type} → (α → Nat) → List α → List α
  perm : ∀ {α : Type} (key : α → Nat) (l : List α), (sortByKey key l).Perm l
  sorted : ∀ {α : Type} (key : α → Nat) (l : List α),
    (sortByKey key l).Pairwise (fun a b ↦ key a ≤ key b)

def Enumeration.insertionOrder : Enumeration := ⟨fun l ↦ l, fun _ ↦ List.Perm.refl _⟩

-- Any order of one list is the order of some enumeration.
theorem Enumeration.exists_order {α : Type} {l target : List α} (h : target.Perm l) :
    ∃ enumeration : Enumeration, enumeration.order l = target := by
  classical
  let listing : {β : Type} → (m : List β) → {order : List β // order.Perm m} := fun {β} m ↦
    if heq : ∃ hβ : β = α, hβ ▸ m = l then
      ⟨heq.choose ▸ target, by
        obtain ⟨hβ, hm⟩ := heq
        subst hβ
        obtain rfl : m = l := hm
        exact h⟩
    else ⟨m, List.Perm.refl m⟩
  refine ⟨⟨fun m ↦ (listing m).1, fun m ↦ (listing m).2⟩, ?_⟩
  have hsame : ∃ hα : α = α, hα ▸ l = l := ⟨rfl, rfl⟩
  simp only [listing, dif_pos hsame]

def UnstableSort.merge : UnstableSort where
  sortByKey key l := l.mergeSort fun a b ↦ key a ≤ key b
  perm _ _ := List.mergeSort_perm _ _
  sorted key l := by
    have hsorted : (l.mergeSort fun a b ↦ key a ≤ key b).Pairwise
        (fun a b ↦ decide (key a ≤ key b) = true) := List.pairwise_mergeSort
      (fun _ _ _ hab hbc ↦ by simp only [decide_eq_true_eq] at *; omega)
      (fun a b ↦ by simp only [Bool.or_eq_true, decide_eq_true_eq]; omega) l
    exact hsorted.imp fun h ↦ by simpa using h

/-! ## Hash tables -/

abbrev HashTable (K V : Type) := AList fun _ : K ↦ V

namespace HashTable

variable {K V : Type}

/-- `retain`. -/
def retain (keep : K → V → Bool) (table : HashTable K V) : HashTable K V :=
  ⟨table.entries.filter fun e ↦ keep e.1 e.2,
    table.nodupKeys.sublist List.filter_sublist⟩

/-- The values of the entries `keep` selects, as an iteration over the table meets them. -/
def valuesWhere (enumeration : Enumeration) (keep : K → V → Bool) (table : HashTable K V) :
    List V :=
  ((enumeration.order table.entries).filter fun e ↦ keep e.1 e.2).map (·.2)

theorem mem_entries [DecidableEq K] {table : HashTable K V} {k : K} {v : V} :
    ⟨k, v⟩ ∈ table.entries ↔ table.lookup k = some v :=
  AList.mem_lookup_iff.symm

theorem lookup_retain_eq_some [DecidableEq K] {keep : K → V → Bool} {table : HashTable K V}
    {k : K} {v : V} :
    (table.retain keep).lookup k = some v ↔ table.lookup k = some v ∧ keep k v = true := by
  rw [← mem_entries, ← mem_entries, retain, List.mem_filter]

theorem valuesWhere_perm (enumeration : Enumeration) (keep : K → V → Bool)
    (table : HashTable K V) : (table.valuesWhere enumeration keep).Perm
      ((table.entries.filter fun e ↦ keep e.1 e.2).map (·.2)) :=
  ((enumeration.perm table.entries).filter _).map _

end HashTable

/-! ## Cutting a sorted list between two keys -/

variable {α : Type} {key : α → Nat} {l : List α}

-- In a sorted list the keys before a position are at most the key at it.
theorem key_le_of_mem_take (hsorted : l.Pairwise (fun a b ↦ key a ≤ key b)) {n : Nat}
    (hn : n - 1 < l.length) {a : α} (ha : a ∈ l.take n) : key a ≤ key l[n - 1] := by
  obtain ⟨i, hi, rfl⟩ := List.mem_take_iff_getElem.mp ha
  have hi' : i ≤ n - 1 := by omega
  rcases Nat.lt_or_eq_of_le hi' with hlt | rfl
  · exact List.pairwise_iff_getElem.mp hsorted _ _ _ _ hlt
  · exact Nat.le_refl _

theorem le_key_of_mem_drop (hsorted : l.Pairwise (fun a b ↦ key a ≤ key b)) {n : Nat}
    (hn : n < l.length) {a : α} (ha : a ∈ l.drop n) : key l[n] ≤ key a := by
  obtain ⟨i, hi, rfl⟩ := List.mem_drop_iff_getElem.mp ha
  rcases Nat.eq_zero_or_pos i with rfl | hpos
  · exact Nat.le_refl _
  · exact List.pairwise_iff_getElem.mp hsorted _ _ _ _ (by omega)

/-- Nothing past position `n` lies below the key there. -/
theorem filter_lt_take (hsorted : l.Pairwise (fun a b ↦ key a ≤ key b)) {n : Nat}
    (hn : n < l.length) :
    (l.take n).filter (fun a ↦ key a < key l[n]) = l.filter (fun a ↦ key a < key l[n]) := by
  have hdrop : (l.drop n).filter (fun a ↦ key a < key l[n]) = [] :=
    List.filter_eq_nil_iff.mpr fun a ha ↦ by simpa using le_key_of_mem_drop hsorted hn ha
  calc (l.take n).filter (fun a ↦ key a < key l[n])
      = (l.take n).filter (fun a ↦ key a < key l[n]) ++
        (l.drop n).filter (fun a ↦ key a < key l[n]) := by rw [hdrop, List.append_nil]
    _ = l.filter (fun a ↦ key a < key l[n]) := by
      rw [← List.filter_append, List.take_append_drop]

/-- A prefix that ends between two keys is everything below the next key. -/
theorem take_eq_filter_lt (hsorted : l.Pairwise (fun a b ↦ key a ≤ key b)) {n : Nat}
    (hn : n < l.length) (hcut : key l[n - 1] ≠ key l[n]) :
    l.take n = l.filter (fun a ↦ key a < key l[n]) := by
  rw [← filter_lt_take hsorted hn, eq_comm, List.filter_eq_self]
  intro a ha
  have hle := key_le_of_mem_take hsorted (by omega) ha
  have hnext : key l[n - 1] ≤ key l[n] := by
    rcases Nat.eq_zero_or_pos n with rfl | hpos
    · exact Nat.le_refl _
    · exact List.pairwise_iff_getElem.mp hsorted _ _ _ _ (by omega)
  exact decide_eq_true (by omega)

/-- A prefix that ends inside a key is everything below that key once the key is dropped. -/
theorem take_filter_ne_eq_filter_lt (hsorted : l.Pairwise (fun a b ↦ key a ≤ key b)) {n : Nat}
    (hn : n < l.length) (hsame : key l[n - 1] = key l[n]) :
    (l.take n).filter (fun a ↦ key a ≠ key l[n - 1]) =
      l.filter (fun a ↦ key a < key l[n]) := by
  rw [← filter_lt_take hsorted hn]
  refine List.filter_congr fun a ha ↦ ?_
  have hle := key_le_of_mem_take hsorted (by omega) ha
  rw [hsame] at hle ⊢
  exact decide_eq_decide.mpr (by omega)

end GraphTally.Theory
