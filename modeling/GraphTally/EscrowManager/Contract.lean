import Mathlib.Tactic.Common

/-!
# The escrow contract

What the manager relies on of the contract, whose code is not part of the repository: one payer's
escrow for one receiver, and the three calls that change it.  A call that reverts has no result.
The calls are those of a contract that is not paused and of a wallet that covers its deposits.
-/

namespace GraphTally.EscrowManager

structure Escrow where
  balance : Nat
  thawing : Nat
  thawEnd : Nat
  thawing_le : thawing ≤ balance
  thawEnd_ne_zero_iff : thawEnd ≠ 0 ↔ thawing ≠ 0

/-- The block a call lands in, and the end a thaw that starts in it gets. -/
structure Block where
  timestamp : Nat
  thawEnd : Nat
  future : timestamp < thawEnd

namespace Escrow

/-- What the receiver can count on. -/
def net (escrow : Escrow) : Nat := escrow.balance - escrow.thawing

def deposit (escrow : Escrow) (tokens : Nat) : Option Escrow :=
  if 0 < tokens then
    some { escrow with
      balance := escrow.balance + tokens
      thawing_le := Nat.le_trans escrow.thawing_le (Nat.le_add_right _ _) }
  else none

/-- Starts over when something is thawing already. -/
def thaw (escrow : Escrow) (block : Block) (tokens : Nat) : Option Escrow :=
  if h : 0 < tokens ∧ tokens ≤ escrow.balance then
    some {
      balance := escrow.balance
      thawing := tokens
      thawEnd := block.thawEnd
      thawing_le := h.2
      thawEnd_ne_zero_iff := by
        have hfuture := block.future
        omega }
  else none

def withdraw (escrow : Escrow) (block : Block) : Option Escrow :=
  if escrow.thawEnd ≠ 0 ∧ escrow.thawEnd < block.timestamp then
    some ⟨escrow.balance - escrow.thawing, 0, 0, Nat.zero_le _, by simp⟩
  else none

/-! ## What the calls do to the net balance -/

section Calls

variable {escrow : Escrow} {tokens : Nat}

theorem deposit_of_pos (h : 0 < tokens) : ∃ after, escrow.deposit tokens = some after ∧
    after.net = escrow.net + tokens ∧ after.thawing = escrow.thawing := by
  refine ⟨_, if_pos h, ?_, rfl⟩
  have hle := escrow.thawing_le
  show escrow.balance + tokens - escrow.thawing = escrow.balance - escrow.thawing + tokens
  omega

theorem thaw_of_le (block : Block) (h : 0 < tokens) (hle : tokens ≤ escrow.balance) :
    ∃ after, escrow.thaw block tokens = some after ∧ after.net = escrow.balance - tokens ∧
      after.thawing = tokens :=
  ⟨_, dif_pos ⟨h, hle⟩, rfl, rfl⟩

theorem withdraw_of_matured (block : Block) (hend : escrow.thawEnd ≠ 0)
    (hmatured : escrow.thawEnd < block.timestamp) : ∃ after, escrow.withdraw block = some after ∧
      after.net = escrow.net ∧ after.thawing = 0 :=
  ⟨_, if_pos ⟨hend, hmatured⟩, Nat.sub_zero _, rfl⟩

theorem net_of_idle (h : escrow.thawing = 0) : escrow.net = escrow.balance := by
  rw [net, h, Nat.sub_zero]

end Calls

end Escrow

end GraphTally.EscrowManager
