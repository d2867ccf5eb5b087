import Mathlib.Data.List.Basic
import Mathlib.Data.List.Chain
import Mathlib.Order.Basic
import Mathlib.Tactic.Common

/-!
# Throttled publication

What is received in timed batches is published as a whole, but only with a batch that comes some
gap after the last publication.  Until the next such batch the rest is pending.
-/

namespace GraphTally.Theory

structure Throttle (T ι : Type*) where
  last : T
  published : List ι
  pending : List ι

namespace Throttle

variable {T ι : Type*} [Sub T] [LE T] [DecidableLE T]

def turn (gap : T) (self : Throttle T ι) (batch : List ι × T) : Throttle T ι :=
  if gap ≤ batch.2 - self.last then ⟨batch.2, self.published ++ (self.pending ++ batch.1), []⟩
  else { self with pending := self.pending ++ batch.1 }

def run (gap started : T) (batches : List (List ι × T)) : Throttle T ι :=
  batches.foldl (turn gap) ⟨started, [], []⟩

variable {gap started : T} {batches : List (List ι × T)} {batch : List ι × T}

theorem turn_due {self : Throttle T ι} (h : gap ≤ batch.2 - self.last) :
    self.turn gap batch = ⟨batch.2, self.published ++ (self.pending ++ batch.1), []⟩ := if_pos h

theorem turn_waits {self : Throttle T ι} (h : ¬gap ≤ batch.2 - self.last) :
    self.turn gap batch = { self with pending := self.pending ++ batch.1 } := if_neg h

theorem run_append : run gap started (batches ++ [batch]) =
    (run gap started batches).turn gap batch := by
  unfold run
  rw [List.foldl_append]
  rfl

/-- Everything that was received is published or pending, in the order in which it came. -/
theorem received (gap started : T) (batches : List (List ι × T)) :
    (run gap started batches).published ++ (run gap started batches).pending =
      batches.flatMap Prod.fst := by
  induction batches using List.reverseRecOn with
  | nil => rfl
  | append_singleton batches batch ih =>
    rw [List.flatMap_append, ← ih, run_append]
    by_cases hdue : gap ≤ batch.2 - (run gap started batches).last
    · rw [turn_due hdue]
      simp
    · rw [turn_waits hdue]
      simp

/-- Each batch comes the gap after the one before. -/
def Spaced (gap started : T) (batches : List (List ι × T)) : Prop :=
  (started :: batches.map Prod.snd).IsChain fun a b ↦ gap ≤ b - a

/-- A spaced run publishes every batch at once. -/
theorem run_spaced (h : Spaced gap started batches) :
    (run gap started batches).pending = [] ∧
      some (run gap started batches).last = (started :: batches.map Prod.snd).getLast? := by
  induction batches using List.reverseRecOn with
  | nil => exact ⟨rfl, rfl⟩
  | append_singleton batches batch ih =>
    unfold Spaced at h
    rw [List.map_append, ← List.cons_append, List.map_singleton] at h ⊢
    have hbefore : Spaced gap started batches := h.left_of_append
    have hlast := (ih hbefore).2
    have hdue : gap ≤ batch.2 - (run gap started batches).last := by
      apply (List.isChain_append.mp h).2.2
      · rw [← hlast]
        rfl
      · rfl
    rw [run_append, turn_due hdue, List.getLast?_concat]
    exact ⟨rfl, rfl⟩

end Throttle

end GraphTally.Theory
