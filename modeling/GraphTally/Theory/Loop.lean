import Mathlib.Tactic.Common

/-!
# Loops

A `while` loop whose condition and body may fail, for a number of rounds that is given up front.
-/

namespace GraphTally.Theory

section Loop

variable {ε σ : Type}

/-- `turn` evaluates the condition and, when it holds, the body; it returns nothing at the exit.
There is no result when the fuel is used up before the exit. -/
def whileLoop (turn : σ → Except ε (Option σ)) : (fuel : Nat) → σ → Option (Except ε σ)
  | 0, _ => none
  | fuel + 1, s =>
    match turn s with
    | .error e => some (.error e)
    | .ok none => some (.ok s)
    | .ok (some s) => whileLoop turn fuel s

variable {turn : σ → Except ε (Option σ)}

/-- A loop that exits has kept its invariant, and its condition no longer holds. -/
theorem whileLoop_exits {inv : σ → Prop}
    (hturn : ∀ s s', inv s → turn s = .ok (some s') → inv s') {fuel : Nat} {s s' : σ} (hs : inv s)
    (h : whileLoop turn fuel s = some (.ok s')) : inv s' ∧ turn s' = .ok none := by
  induction fuel generalizing s with
  | zero => cases h
  | succ fuel ih =>
    rw [whileLoop] at h
    split at h
    · cases h
    · rename_i hexit
      obtain rfl := Except.ok.inj (Option.some_inj.mp h)
      exact ⟨hs, hexit⟩
    · rename_i next hnext
      exact ih (hturn s next hs hnext) h

/-- Rounds that are known are used up one unit of fuel each. -/
theorem whileLoop_advance {steps : Nat → σ} {n : Nat}
    (hsteps : ∀ k < n, turn (steps k) = .ok (some (steps (k + 1)))) (fuel : Nat) :
    whileLoop turn (n + fuel) (steps 0) = whileLoop turn fuel (steps n) := by
  induction n generalizing fuel with
  | zero => rw [Nat.zero_add]
  | succ n ih =>
    have hlast : whileLoop turn (fuel + 1) (steps n) = whileLoop turn fuel (steps (n + 1)) := by
      rw [whileLoop, hsteps n (Nat.lt_succ_self n)]
    calc whileLoop turn (n + 1 + fuel) (steps 0)
        = whileLoop turn (n + (fuel + 1)) (steps 0) := by rw [Nat.add_assoc, Nat.add_comm 1]
      _ = whileLoop turn (fuel + 1) (steps n) := ih (fun k hk ↦ hsteps k (by omega)) _
      _ = whileLoop turn fuel (steps (n + 1)) := hlast

/-- Fuel that is left over changes nothing. -/
theorem whileLoop_of_le {fuel fuel' : Nat} (hle : fuel ≤ fuel') {s : σ} {result : Except ε σ}
    (h : whileLoop turn fuel s = some result) : whileLoop turn fuel' s = some result := by
  induction fuel generalizing fuel' s with
  | zero => cases h
  | succ fuel ih =>
    cases fuel' with
    | zero => omega
    | succ fuel' =>
      rw [whileLoop] at h ⊢
      split at h
      · exact h
      · exact h
      · exact ih (by omega) h

/-- A loop whose turns agree with this one wherever it does not fail. -/
theorem whileLoop_of_agrees {turn' : σ → Except ε (Option σ)}
    (hagrees : ∀ s next, turn s = .ok next → turn' s = .ok next) {fuel : Nat} {s s' : σ}
    (h : whileLoop turn fuel s = some (.ok s')) : whileLoop turn' fuel s = some (.ok s') := by
  induction fuel generalizing s with
  | zero => cases h
  | succ fuel ih =>
    rw [whileLoop] at h ⊢
    split at h
    · cases h
    · rename_i hexit
      rw [hagrees s none hexit]
      exact h
    · rename_i next hnext
      rw [hagrees s (some next) hnext]
      exact ih h

variable {ρ : Type}

/-- A loop that a `return` in its body ends. -/
def loopUntil (body : σ → Except ε (σ ⊕ ρ)) : (fuel : Nat) → σ → Option (Except ε ρ)
  | 0, _ => none
  | fuel + 1, s =>
    match body s with
    | .error e => some (.error e)
    | .ok (.inr result) => some (.ok result)
    | .ok (.inl s) => loopUntil body fuel s

variable {body : σ → Except ε (σ ⊕ ρ)}

theorem loopUntil_of_rounds (rounds : Nat → σ) {n : Nat} {result : ρ}
    (hrounds : ∀ k < n, body (rounds k) = .ok (.inl (rounds (k + 1))))
    (hreturn : body (rounds n) = .ok (.inr result)) :
    loopUntil body (n + 1) (rounds 0) = some (.ok result) := by
  -- the rounds that are left are generalised
  have hfrom : ∀ left k, k + left = n →
      loopUntil body (left + 1) (rounds k) = some (.ok result) := by
    intro left
    induction left with
    | zero =>
      intro k hk
      obtain rfl : k = n := hk
      rw [loopUntil, hreturn]
    | succ left ih =>
      intro k hk
      rw [loopUntil, hrounds k (by omega)]
      exact ih (k + 1) (by omega)
  exact hfrom n 0 (Nat.zero_add n)

/-- However much fuel there is, the result is the same. -/
theorem loopUntil_unique {fuel fuel' : Nat} {s : σ} {result result' : Except ε ρ}
    (h : loopUntil body fuel s = some result) (h' : loopUntil body fuel' s = some result') :
    result = result' := by
  induction fuel generalizing fuel' s with
  | zero => cases h
  | succ fuel ih =>
    cases fuel' with
    | zero => cases h'
    | succ fuel' =>
      rw [loopUntil] at h h'
      split at h
      · rename_i e hbody
        rw [hbody] at h'
        exact (Option.some_inj.mp h).symm.trans (Option.some_inj.mp h')
      · rename_i returned hbody
        rw [hbody] at h'
        exact (Option.some_inj.mp h).symm.trans (Option.some_inj.mp h')
      · rename_i next hbody
        rw [hbody] at h'
        exact ih h h'

end Loop

/-! ## Loops over a stream -/

section Stream

variable {ε σ α : Type}

/-- Where a loop over a stream without end stands when the given items have arrived: it has left at
a `break`, with the items it did not take, or it waits for the next one. -/
inductive Standing (σ α : Type) where
  | left (s : σ) (rest : List α)
  | waiting (s : σ)
  deriving DecidableEq

/-- The body continues with a state on the left and breaks with one on the right. -/
def streamLoop (body : σ → α → Except ε (σ ⊕ σ)) (s : σ) : List α → Except ε (Standing σ α)
  | [] => .ok (.waiting s)
  | item :: items =>
    match body s item with
    | .error e => .error e
    | .ok (.inr s) => .ok (.left s items)
    | .ok (.inl s) => streamLoop body s items

variable {body : σ → α → Except ε (σ ⊕ σ)} {s s' : σ} {item : α} {items : List α}

theorem streamLoop_continue (h : body s item = .ok (.inl s')) :
    streamLoop body s (item :: items) = streamLoop body s' items := by
  rw [streamLoop, h]

theorem streamLoop_break (h : body s item = .ok (.inr s')) :
    streamLoop body s (item :: items) = .ok (.left s' items) := by
  rw [streamLoop, h]

/-- What becomes of the loop when more arrives: it goes on if it waits. -/
def resume (body : σ → α → Except ε (σ ⊕ σ)) (later : List α) :
    Standing σ α → Except ε (Standing σ α)
  | .left s rest => .ok (.left s (rest ++ later))
  | .waiting s => streamLoop body s later

theorem streamLoop_append (later : List α) :
    streamLoop body s (items ++ later) = streamLoop body s items >>= resume body later := by
  induction items generalizing s with
  | nil => rfl
  | cons item items ih =>
    rw [List.cons_append, streamLoop, streamLoop]
    cases hbody : body s item with
    | error e => rfl
    | ok next =>
      cases next with
      | inl next => exact ih
      | inr next => rfl

end Stream

end GraphTally.Theory
