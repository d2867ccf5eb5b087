import Mathlib.Data.List.Basic
import Mathlib.Tactic.Common

/-!
# Machines with outputs

A machine reads an input, puts something out and changes its state.  What holds of one step, or
is paid for by one step out of a potential, adds up over every run.
-/

namespace GraphTally.Theory

section Machine

variable {σ ι α : Type} (step : σ → ι → α × σ)

/-- What a run puts out. -/
def outputs : σ → List ι → List α
  | _, [] => []
  | s, i :: is => (step s i).1 :: outputs (step s i).2 is

/-- Where a run ends. -/
def final (s : σ) (is : List ι) : σ := is.foldl (fun s i ↦ (step s i).2) s

variable {step}

/-- A step that is counted takes at least one from the potential, and no step adds to it. -/
theorem countP_outputs_le {potential : σ → Nat} {counted : α → Bool}
    (hstep : ∀ s i, potential (step s i).2 + (counted (step s i).1).toNat ≤ potential s)
    (s : σ) (is : List ι) : (outputs step s is).countP counted ≤ potential s := by
  induction is generalizing s with
  | nil => exact Nat.zero_le _
  | cons i is ih =>
    have hhere := hstep s i
    have hrest := ih (step s i).2
    rw [outputs, List.countP_cons]
    cases hcounted : counted (step s i).1 with
    | true =>
      rw [hcounted, Bool.toNat_true] at hhere
      simp only [if_true]
      omega
    | false =>
      rw [hcounted, Bool.toNat_false] at hhere
      simp only [Bool.false_eq_true, if_false]
      omega

/-- An invariant that every step keeps decides about every output. -/
theorem forall_outputs {inv : σ → Prop} {P : α → Prop}
    (hstep : ∀ s i, inv s → P (step s i).1 ∧ inv (step s i).2) {s : σ} (h : inv s)
    (is : List ι) : ∀ a ∈ outputs step s is, P a := by
  induction is generalizing s with
  | nil =>
    intro a ha
    cases ha
  | cons i is ih =>
    obtain ⟨hhere, hnext⟩ := hstep s i h
    intro a ha
    rcases List.mem_cons.mp ha with rfl | ha
    · exact hhere
    · exact ih hnext a ha

end Machine

end GraphTally.Theory
