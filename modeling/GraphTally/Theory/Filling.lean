import Mathlib.Algebra.BigOperators.Group.List.Basic
import Mathlib.Algebra.Order.BigOperators.Group.List
import Mathlib.Data.Nat.Find
import Mathlib.Tactic.Common
import Mathlib.Tactic.Ring

/-!
# Filling in rounds

A budget shared out in rounds: everybody starts with the same grant, is served in turn, and gets
one step more each time until there is no more to ask for.
-/

namespace GraphTally.Theory.Filling

variable (start step : Nat)

/-- What somebody who asks for `desired` has after `round` servings. -/
def level (round desired : Nat) : Nat := max start (min desired (start + round * step))

/-- The total once the first `served` of the `desired` have been served in a round. -/
def filled (desired : List Nat) (round served : Nat) : Nat :=
  ((desired.take served).map (level start step (round + 1))).sum +
    ((desired.drop served).map (level start step round)).sum

variable {start step}

/-! ## One share -/

section Level

variable {round desired : Nat}

theorem level_zero (desired : Nat) : level start step 0 desired = start := by
  unfold level
  omega

theorem level_succ (round desired : Nat) : level start step (round + 1) desired =
    if level start step round desired < desired then
      min desired (level start step round desired + step)
    else level start step round desired := by
  have hround : (round + 1) * step = round * step + step := Nat.succ_mul _ _
  unfold level
  split <;> omega

theorem level_le_succ : level start step round desired ≤ level start step (round + 1) desired := by
  rw [level_succ]
  split <;> omega

theorem level_succ_le :
    level start step (round + 1) desired ≤ level start step round desired + step := by
  rw [level_succ]
  split <;> omega

theorem start_le_level : start ≤ level start step round desired := Nat.le_max_left _ _

theorem level_le : level start step round desired ≤ max start desired := by
  unfold level
  omega

theorem level_mono {round' : Nat} (h : round ≤ round') :
    level start step round desired ≤ level start step round' desired := by
  have hsteps : round * step ≤ round' * step := Nat.mul_le_mul_right _ h
  unfold level
  omega

/-- Nobody is ahead by more than a step of somebody who still asks for more. -/
theorem level_fair {other : Nat} (h : level start step round desired < desired) :
    level start step (round + 1) other ≤ level start step round desired + step := by
  have hround : (round + 1) * step = round * step + step := Nat.succ_mul _ _
  unfold level at *
  omega

end Level

/-! ## The total -/

section Total

variable {desired : List Nat} {round served : Nat}

theorem filled_zero_zero : filled start step desired 0 0 = desired.length * start := by
  have hgrants : desired.map (level start step 0) = desired.map fun _ ↦ start :=
    List.map_congr_left fun d _ ↦ level_zero d
  simp [filled, hgrants]

theorem filled_length :
    filled start step desired round desired.length = filled start step desired (round + 1) 0 := by
  simp [filled]

/-- One serving adds between nothing and a step. -/
theorem filled_serve (round : Nat) (h : served < desired.length) :
    filled start step desired round served ≤ filled start step desired round (served + 1) ∧
      filled start step desired round (served + 1) ≤
        filled start step desired round served + step := by
  have hmore : level start step round desired[served] ≤
      level start step (round + 1) desired[served] := level_le_succ
  have hstep : level start step (round + 1) desired[served] ≤
      level start step round desired[served] + step := level_succ_le
  unfold filled
  rw [List.take_add_one, List.getElem?_eq_getElem h, List.drop_eq_getElem_cons h]
  simp only [Option.toList_some, List.map_append, List.sum_append, List.map_cons, List.map_nil,
    List.sum_cons, List.sum_nil]
  omega

theorem filled_mono_served {served' : Nat} (h : served ≤ served')
    (hserved' : served' ≤ desired.length) :
    filled start step desired round served ≤ filled start step desired round served' := by
  induction served', h using Nat.le_induction with
  | base => exact Nat.le_refl _
  | succ served' h ih =>
    apply (ih (Nat.le_of_succ_le hserved')).trans
    exact (filled_serve round (Nat.lt_of_succ_le hserved')).1

theorem filled_mono_round {round' : Nat} (h : round ≤ round') :
    filled start step desired round 0 ≤ filled start step desired round' 0 := by
  unfold filled
  simp only [List.take_zero, List.map_nil, List.sum_nil, List.drop_zero, Nat.zero_add]
  exact List.sum_le_sum fun d _ ↦ level_mono h

/-- A later round never has less. -/
theorem filled_le_of_lt {round' served' : Nat} (h : round < round')
    (hserved : served ≤ desired.length) (hserved' : served' ≤ desired.length) :
    filled start step desired round served ≤ filled start step desired round' served' :=
  calc filled start step desired round served
      ≤ filled start step desired round desired.length := filled_mono_served hserved (Nat.le_refl _)
    _ = filled start step desired (round + 1) 0 := filled_length
    _ ≤ filled start step desired round' 0 := filled_mono_round h
    _ ≤ filled start step desired round' served' := filled_mono_served (Nat.zero_le _) hserved'

/-- With enough rounds everybody has what was asked for. -/
theorem exists_sum_le_filled (start : Nat) (hstep : 0 < step) (desired : List Nat) :
    ∃ round, desired.sum ≤ filled start step desired round desired.length := by
  refine ⟨desired.sum, ?_⟩
  have hlevel : ∀ d ∈ desired, d ≤ level start step (desired.sum + 1) d := by
    intro d hd
    have hsum : d ≤ desired.sum := List.le_sum_of_mem hd
    have hsteps : (desired.sum + 1) * 1 ≤ (desired.sum + 1) * step :=
      Nat.mul_le_mul_left _ hstep
    unfold level
    omega
  rw [filled_length, filled]
  simp only [List.take_zero, List.map_nil, List.sum_nil, List.drop_zero, Nat.zero_add]
  calc desired.sum = (desired.map fun d ↦ d).sum := by rw [List.map_id']
    _ ≤ (desired.map (level start step (desired.sum + 1))).sum := List.sum_le_sum hlevel

end Total

/-! ## Where the target is first reached -/

variable (start step) in
/-- Somebody has just been served, and no serving before that reached the target. -/
structure FirstReached (target : Nat) (desired : List Nat) (round served : Nat) : Prop where
  pos : 0 < served
  le : served ≤ desired.length
  reached : target ≤ filled start step desired round served
  before : ∀ i, 0 < i → i < served → filled start step desired round i < target
  rounds : ∀ r < round, ∀ i, 0 < i → i ≤ desired.length → filled start step desired r i < target

theorem exists_firstReached {target : Nat} {desired : List Nat} (hstep : 0 < step)
    (hne : desired ≠ []) (htarget : target ≤ desired.sum) :
    ∃ round served, FirstReached start step target desired round served := by
  classical
  have hrounds : ∃ round, ∃ served, 0 < served ∧ served ≤ desired.length ∧
      target ≤ filled start step desired round served := by
    rcases exists_sum_le_filled start hstep desired with ⟨round, hround⟩
    exact ⟨round, desired.length, List.length_pos_iff.mpr hne, Nat.le_refl _,
      htarget.trans hround⟩
  have hserved := Nat.find_spec hrounds
  rcases Nat.find_spec hserved with ⟨hpos, hle, hreached⟩
  refine ⟨Nat.find hrounds, Nat.find hserved, hpos, hle, hreached, ?_, ?_⟩
  · intro i hi hlt
    by_contra hstops
    exact Nat.find_min hserved hlt ⟨hi, by omega, Nat.le_of_not_lt hstops⟩
  · intro r hr i hi hlength
    by_contra hstops
    exact Nat.find_min hrounds hr ⟨i, hi, hlength, Nat.le_of_not_lt hstops⟩

namespace FirstReached

variable {target : Nat} {desired : List Nat} {round served : Nat}

/-- Before it the total is below the target, or is the grants alone. -/
theorem before_le (h : FirstReached start step target desired round served) {i : Nat}
    (hi : i < served) :
    filled start step desired round i ≤ max target (desired.length * start) := by
  have hle := h.le
  rcases Nat.eq_zero_or_pos i with rfl | hpos
  · cases round with
    | zero =>
      rw [filled_zero_zero]
      exact Nat.le_max_right _ _
    | succ round =>
      have hprevious := h.rounds round (Nat.lt_succ_self round) desired.length (by omega)
        (Nat.le_refl _)
      rw [filled_length] at hprevious
      omega
  · have hbelow := h.before i hpos hi
    omega

theorem rounds_le (h : FirstReached start step target desired round served) {r i : Nat}
    (hr : r < round) (hi : i ≤ desired.length) :
    filled start step desired r i ≤ max target (desired.length * start) := by
  have hpos := h.pos
  have hle := h.le
  rcases Nat.eq_zero_or_pos i with rfl | hipos
  · have hfirst := h.rounds r hr 1 (by omega) (by omega)
    have hserve : filled start step desired r 0 ≤ filled start step desired r 1 :=
      (filled_serve r (by omega)).1
    omega
  · have hbelow := h.rounds r hr i hipos hi
    omega

/-- The target is overshot by one step at most. -/
theorem filled_le (h : FirstReached start step target desired round served) :
    filled start step desired round served ≤ max target (desired.length * start) + step := by
  have hpos := h.pos
  have hle := h.le
  have hbefore := h.before_le (show served - 1 < served by omega)
  have hserve : filled start step desired round (served - 1 + 1) ≤
      filled start step desired round (served - 1) + step := (filled_serve round (by omega)).2
  rw [Nat.sub_add_cancel hpos] at hserve
  omega

/-- No other serving reaches the target with less. -/
theorem filled_least (h : FirstReached start step target desired round served)
    {round' served' : Nat} (hpos : 0 < served') (hle : served' ≤ desired.length)
    (hreached : target ≤ filled start step desired round' served') :
    filled start step desired round served ≤ filled start step desired round' served' := by
  rcases Nat.lt_trichotomy round' round with hearlier | rfl | hlater
  · have hbelow := h.rounds round' hearlier served' hpos hle
    omega
  · have hserved : served ≤ served' := by
      by_contra hlt
      have hbelow := h.before served' hpos (by omega)
      omega
    exact filled_mono_served hserved hle
  · exact filled_le_of_lt hlater h.le hle

/-- The target is met exactly when some serving meets it. -/
theorem filled_le_target_iff (h : FirstReached start step target desired round served) :
    filled start step desired round served ≤ target ↔
      ∃ round' served', 0 < served' ∧ served' ≤ desired.length ∧
        filled start step desired round' served' = target := by
  have hreached := h.reached
  constructor
  · intro hle
    exact ⟨round, served, h.pos, h.le, by omega⟩
  · intro hexact
    rcases hexact with ⟨round', served', hpos, hle, heq⟩
    have hleast := h.filled_least hpos hle heq.ge
    omega

end FirstReached

end GraphTally.Theory.Filling
