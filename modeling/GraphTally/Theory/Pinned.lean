import Mathlib.Data.List.Basic

/-!
# Pinned reads

A store that keeps its versions.  A reader may be shown an old one, but none from before its own
last write.
-/

namespace GraphTally.Theory

structure Chain (σ : Type) where
  past : List σ
  head : σ
  pin : Nat

namespace Chain

variable {σ : Type}

def versions (chain : Chain σ) : List σ := chain.past ++ [chain.head]

/-- A write that does not move the pin. -/
def extend (chain : Chain σ) (version : σ) : Chain σ := ⟨chain.versions, version, chain.pin⟩

/-- A write that does: nothing before it is read any more. -/
def land (chain : Chain σ) (version : σ) : Chain σ :=
  ⟨chain.versions, version, chain.versions.length⟩

/-- A read may return this version. -/
def Visible (chain : Chain σ) (version : σ) : Prop :=
  ∃ n, chain.pin ≤ n ∧ chain.versions[n]? = some version

/-- Whatever a read returns leads to the head by the writes of others. -/
def Steady (others : σ → σ → Prop) (chain : Chain σ) : Prop :=
  ∀ version, chain.Visible version → others version chain.head

variable {others : σ → σ → Prop} {chain : Chain σ} {version : σ}

theorem visible_extend {seen : σ} (h : (chain.extend version).Visible seen) :
    chain.Visible seen ∨ seen = version := by
  obtain ⟨n, hpin, hget⟩ := h
  change (chain.versions ++ [version])[n]? = some seen at hget
  by_cases hlt : n < chain.versions.length
  · rw [List.getElem?_append_left hlt] at hget
    exact .inl ⟨n, hpin, hget⟩
  · rw [List.getElem?_append_right (Nat.not_lt.mp hlt)] at hget
    right
    exact (List.mem_singleton.mp (List.mem_of_getElem? hget))

theorem visible_land {seen : σ} (h : (chain.land version).Visible seen) : seen = version := by
  obtain ⟨n, hpin, hget⟩ := h
  change (chain.versions ++ [version])[n]? = some seen at hget
  change chain.versions.length ≤ n at hpin
  rw [List.getElem?_append_right hpin] at hget
  exact List.mem_singleton.mp (List.mem_of_getElem? hget)

section Steady

theorem steady_start (hrefl : ∀ s, others s s) (version : σ) : Steady others ⟨[], version, 0⟩ := by
  intro seen h
  obtain ⟨n, -, hget⟩ := h
  obtain rfl : seen = version := List.mem_singleton.mp (List.mem_of_getElem? hget)
  exact hrefl seen

/-- An own write may be anything. -/
theorem steady_land (hrefl : ∀ s, others s s) : Steady others (chain.land version) := by
  intro seen h
  obtain rfl := visible_land h
  exact hrefl seen

/-- Whatever else is written adds to what has happened since a read. -/
theorem Steady.extend {write others' : σ → σ → Prop} (hrefl : ∀ s, others' s s)
    (hcomp : ∀ s t u, others s t → write t u → others' s u) (h : Steady others chain)
    (hwrite : write chain.head version) : Steady others' (chain.extend version) := by
  intro seen hseen
  rcases visible_extend hseen with hold | rfl
  · exact hcomp _ _ _ (h seen hold) hwrite
  · exact hrefl seen

end Steady

end Chain

end GraphTally.Theory
