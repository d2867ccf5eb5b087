import GraphTally.EscrowManager.Balance
import GraphTally.Eip712Message
import GraphTally.Theory.Filling
import GraphTally.Theory.OrderedMap
import Mathlib.Data.List.Lex

/-!
# The deposits of a cycle

`reduce_adjustments`, and the batch `main` deposits: what the planned deposits are cut down to when
they exceed the limit of a cycle.
-/

open GraphTally.Theory
open GraphTally.Theory.Filling

namespace GraphTally.EscrowManager

/-- Addresses are ordered as their bytes are. -/
instance : LinearOrder Address :=
  LinearOrder.lift' (fun address ↦ address.bytes.map UInt8.toNat) fun _ _ h ↦
    FixedBytes.ext (List.map_injective_iff.mpr (fun _ _ ↦ UInt8.toNat_inj.mp) h)

abbrev Adjustments := OrderedMap Address U128

/-- What one visit adds. -/
def adjustmentStep : U128 := 100 * grt

section Reduce

variable (profile : Profile)

/-- The body of the inner loop, up to the sum. -/
def raiseAdjustment (receiver : Address) (desiredValue : U128) (adjustments : Adjustments) :
    Outcome Empty Adjustments := do
  let adjustmentValue := (adjustments.lookup receiver).getD 0
  if adjustmentValue.toNat < desiredValue.toNat then
    let raised ← plainAdd profile adjustmentValue adjustmentStep
    return adjustments.insert receiver (wordMin desiredValue raised)
  else return adjustments.insert receiver adjustmentValue

/-- The inner loop returns as soon as the sum reaches the limit. -/
def reducePass : List (Address × U128) → Adjustments →
    Outcome Empty (Adjustments ⊕ List (Address × U128))
  | [], adjustments => .ok (.inl adjustments)
  | (receiver, desiredValue) :: desired, adjustments => do
    let adjustments ← raiseAdjustment profile receiver desiredValue adjustments
    let total ← plainSum profile adjustments.values
    if maxAdjustment.toNat ≤ total.toNat then return .inr adjustments.entries
    else reducePass desired adjustments

def reduceAdjustments (adjustments : List (Address × U128)) (fuel : Nat) :
    Option (Outcome Empty (List (Address × U128))) :=
  let desired := OrderedMap.ofList adjustments
  match (plainSum profile desired.values : Outcome Empty U128) with
  | .error e => some (.error e)
  | .ok total =>
    -- the assertion
    if total.toNat ≤ maxAdjustment.toNat then some (.error .panic)
    else loopUntil (reducePass profile desired.entries) fuel (desired.mapVal fun _ _ ↦ minDeposit)

/-- The batch `main` hands to `deposit_many`. -/
def depositBatch (adjustments : List (Address × U128)) (fuel : Nat) :
    Option (Outcome Empty (List (Address × U128))) :=
  match (plainSum profile (adjustments.map Prod.snd) : Outcome Empty U128) with
  | .error e => some (.error e)
  | .ok totalAdjustment =>
    if totalAdjustment.toNat ≤ maxAdjustment.toNat then some (.ok adjustments)
    else reduceAdjustments profile adjustments fuel

end Reduce

/-! ## The maps the loop goes through -/

theorem minDeposit_toNat : minDeposit.toNat = 2 * 10 ^ 18 := by decide

theorem adjustmentStep_toNat : adjustmentStep.toNat = 100 * 10 ^ 18 := by decide

theorem maxAdjustment_toNat : maxAdjustment.toNat = 10000 * 10 ^ 18 := by decide

/-- A receiver's entry after `round` visits. -/
def share (round : Nat) (entry : Address × U128) : Address × U128 :=
  (entry.1, BitVec.ofNat 128 (level minDeposit.toNat adjustmentStep.toNat round entry.2.toNat))

theorem share_toNat (round : Nat) (entry : Address × U128) : (share round entry).2.toNat =
    level minDeposit.toNat adjustmentStep.toNat round entry.2.toNat := by
  have hle : level minDeposit.toNat adjustmentStep.toNat round entry.2.toNat ≤
      max minDeposit.toNat entry.2.toNat := level_le
  have hword := entry.2.isLt
  have hgrant := minDeposit.isLt
  show (BitVec.ofNat 128 _).toNat = _
  rw [BitVec.toNat_ofNat, Nat.mod_eq_of_lt (by omega)]

theorem shares_keys (entries : List (Address × U128)) (round served : Nat) :
    ((entries.take served).map (share (round + 1)) ++
      (entries.drop served).map (share round)).map Prod.fst = entries.map Prod.fst := by
  rw [List.map_append, List.map_map, List.map_map]
  show (entries.take served).map Prod.fst ++ (entries.drop served).map Prod.fst = _
  rw [← List.map_append, List.take_append_drop]

/-- The map once `served` receivers of a round have been visited. -/
def sharesAt (desired : Adjustments) (round served : Nat) : Adjustments where
  entries := (desired.entries.take served).map (share (round + 1)) ++
    (desired.entries.drop served).map (share round)
  sorted := by
    have hsorted := List.pairwise_map.mpr desired.sorted
    rw [← shares_keys desired.entries round served] at hsorted
    exact List.pairwise_map.mp hsorted

/-- What the receivers ask for, in the order they are visited. -/
def amounts (desired : Adjustments) : List Nat := desired.values.map BitVec.toNat

section Shares

variable {desired : Adjustments} {round served : Nat}

theorem amounts_length (desired : Adjustments) :
    (amounts desired).length = desired.entries.length := by
  simp [amounts, OrderedMap.values]

theorem sharesAt_zero : desired.mapVal (fun _ _ ↦ minDeposit) = sharesAt desired 0 0 := by
  apply OrderedMap.ext
  apply List.map_congr_left
  intro entry _
  rw [share, level_zero, BitVec.ofNat_toNat, BitVec.setWidth_eq]

theorem sharesAt_length :
    sharesAt desired round desired.entries.length = sharesAt desired (round + 1) 0 := by
  apply OrderedMap.ext
  simp [sharesAt]

theorem sharesAt_sum : ((sharesAt desired round served).values.map BitVec.toNat).sum =
    filled minDeposit.toNat adjustmentStep.toNat (amounts desired) round served := by
  have hshares : ∀ (round : Nat) (entries : List (Address × U128)),
      ((entries.map (share round)).map Prod.snd).map BitVec.toNat =
        ((entries.map Prod.snd).map BitVec.toNat).map
          (level minDeposit.toNat adjustmentStep.toNat round) := by
    intro round entries
    simp only [List.map_map]
    exact List.map_congr_left fun entry _ ↦ share_toNat round entry
  rw [OrderedMap.values, sharesAt, List.map_append, List.map_append, hshares, hshares,
    List.sum_append, filled, amounts, OrderedMap.values]
  simp only [List.map_take, List.map_drop]

-- The entries around the receiver whose turn it is.
theorem sharesAt_entries (h : served < desired.entries.length) :
    (sharesAt desired round served).entries =
      (desired.entries.take served).map (share (round + 1)) ++
        share round desired.entries[served] ::
          (desired.entries.drop (served + 1)).map (share round) := by
  show (desired.entries.take served).map _ ++ (desired.entries.drop served).map _ = _
  rw [List.drop_eq_getElem_cons h]
  rfl

theorem sharesAt_succ_entries (h : served < desired.entries.length) :
    (sharesAt desired round (served + 1)).entries =
      (desired.entries.take served).map (share (round + 1)) ++
        share (round + 1) desired.entries[served] ::
          (desired.entries.drop (served + 1)).map (share round) := by
  show (desired.entries.take (served + 1)).map _ ++ (desired.entries.drop (served + 1)).map _ = _
  rw [← List.take_append_getElem h, List.map_append, List.append_assoc]
  rfl

theorem insert_sharesAt (h : served < desired.entries.length) :
    (sharesAt desired round served).insert desired.entries[served].1
        (share (round + 1) desired.entries[served]).2 =
      sharesAt desired round (served + 1) := by
  have hsorted := (sharesAt desired round served).sorted
  rw [sharesAt_entries h] at hsorted
  apply OrderedMap.ext
  show OrderedMap.insertEntry _ _ (sharesAt desired round served).entries = _
  rw [sharesAt_entries h, sharesAt_succ_entries h]
  exact OrderedMap.insertEntry_replace _ _ hsorted

-- One more visit tops a share up as the loop does.
theorem share_succ (round : Nat) (entry : Address × U128) : (share (round + 1) entry).2.toNat =
    if (share round entry).2.toNat < entry.2.toNat then
      min entry.2.toNat ((share round entry).2.toNat + adjustmentStep.toNat)
    else (share round entry).2.toNat := by
  rw [share_toNat, share_toNat]
  exact level_succ round _

-- A visit raises one receiver from its level to the next.
theorem raiseAdjustment_sharesAt (profile : Profile) (h : served < desired.entries.length)
    (hfits : (share round desired.entries[served]).2.toNat + adjustmentStep.toNat < 2 ^ 128) :
    raiseAdjustment profile desired.entries[served].1 desired.entries[served].2
      (sharesAt desired round served) = .ok (sharesAt desired round (served + 1)) := by
  have hvalue : ((sharesAt desired round served).lookup desired.entries[served].1).getD 0 =
      (share round desired.entries[served]).2 := by
    rw [OrderedMap.lookup_of_entries (sharesAt_entries h)]
    rfl
  have hsucc := share_succ round desired.entries[served]
  unfold raiseAdjustment
  simp only [hvalue]
  split
  · rename_i hshort
    rw [if_pos hshort] at hsucc
    have hraised : wordMin desired.entries[served].2
        ((share round desired.entries[served]).2 + adjustmentStep) =
          (share (round + 1) desired.entries[served]).2 := by
      apply BitVec.eq_of_toNat_eq
      rw [toNat_wordMin, toNat_add_of_fits hfits, hsucc]
    apply except_bind_eq_ok.mpr
    refine ⟨_, plainAdd_of_fits profile hfits, ?_⟩
    rw [hraised, insert_sharesAt h]
    rfl
  · rename_i hfull
    rw [if_neg hfull] at hsucc
    have hkept : (share round desired.entries[served]).2 =
        (share (round + 1) desired.entries[served]).2 := BitVec.eq_of_toNat_eq hsucc.symm
    rw [hkept, insert_sharesAt h]
    rfl

end Shares

/-! ## A run of the loop -/

/-- The total of the map at that point. -/
def totalAt (desired : Adjustments) (round served : Nat) : Nat :=
  filled minDeposit.toNat adjustmentStep.toNat (amounts desired) round served

/-- The map at which the total first reaches the limit. -/
def StopsAt (desired : Adjustments) (round served : Nat) : Prop :=
  FirstReached minDeposit.toNat adjustmentStep.toNat maxAdjustment.toNat (amounts desired) round
    served

section Run

variable {desired : Adjustments} {round served : Nat} (profile : Profile)

-- Each share is part of the total, so where the total fits a step more fits as well.
theorem share_add_step_lt (h : served < desired.entries.length)
    (htotal : totalAt desired round served + adjustmentStep.toNat < 2 ^ 128) :
    (share round desired.entries[served]).2.toNat + adjustmentStep.toNat < 2 ^ 128 := by
  have hmem : (share round desired.entries[served]).2.toNat ∈
      (sharesAt desired round served).values.map BitVec.toNat := by
    rw [OrderedMap.values, sharesAt_entries h]
    simp
  have hle := List.le_sum_of_mem hmem
  rw [sharesAt_sum] at hle
  unfold totalAt at htotal
  omega

/-- One turn of the inner loop. -/
theorem reducePass_turn (h : served < desired.entries.length)
    (htotal : totalAt desired round served + adjustmentStep.toNat < 2 ^ 128) :
    reducePass profile (desired.entries.drop served) (sharesAt desired round served) =
      if maxAdjustment.toNat ≤ totalAt desired round (served + 1) then
        .ok (.inr (sharesAt desired round (served + 1)).entries)
      else reducePass profile (desired.entries.drop (served + 1))
        (sharesAt desired round (served + 1)) := by
  have hserve : totalAt desired round (served + 1) ≤
      totalAt desired round served + adjustmentStep.toNat :=
    (filled_serve round (by rwa [amounts_length])).2
  have hfits : ((sharesAt desired round (served + 1)).values.map BitVec.toNat).sum < 2 ^ 128 := by
    rw [sharesAt_sum]
    exact Nat.lt_of_le_of_lt hserve htotal
  rcases plainSum_of_fits (ε := Empty) hfits with ⟨total, hsum, hvalue⟩
  rw [sharesAt_sum] at hvalue
  rw [List.drop_eq_getElem_cons h, reducePass,
    raiseAdjustment_sharesAt profile h (share_add_step_lt h htotal)]
  change (plainSum profile (sharesAt desired round (served + 1)).values >>= _) = _
  rw [hsum profile]
  change (if maxAdjustment.toNat ≤ total.toNat then _ else _) = _
  rw [hvalue]
  rfl

variable (hroom : max maxAdjustment.toNat ((amounts desired).length * minDeposit.toNat) +
  adjustmentStep.toNat < 2 ^ 128)

include hroom

-- A round in which the limit is not reached visits everybody.
theorem reducePass_continues (h : StopsAt desired round served) {earlier : Nat}
    (hearlier : earlier < round) :
    reducePass profile desired.entries (sharesAt desired earlier 0) =
      .ok (.inl (sharesAt desired (earlier + 1) 0)) := by
  have hfrom : ∀ left visited, visited + left = desired.entries.length →
      reducePass profile (desired.entries.drop visited) (sharesAt desired earlier visited) =
        .ok (.inl (sharesAt desired (earlier + 1) 0)) := by
    intro left
    induction left with
    | zero =>
      intro visited hvisited
      obtain rfl : visited = desired.entries.length := hvisited
      rw [List.drop_length, reducePass, sharesAt_length]
    | succ left ih =>
      intro visited hvisited
      have hlength := amounts_length desired
      have hbefore : totalAt desired earlier visited ≤ _ :=
        FirstReached.rounds_le h hearlier (by omega)
      have hbelow : totalAt desired earlier (visited + 1) < maxAdjustment.toNat :=
        h.rounds earlier hearlier (visited + 1) (by omega) (by omega)
      rw [reducePass_turn profile (by omega) (by omega), if_neg (Nat.not_le.mpr hbelow)]
      exact ih (visited + 1) (by omega)
  exact hfrom _ 0 (Nat.zero_add _)

-- The round in which it is reached returns there.
theorem reducePass_returns (h : StopsAt desired round served) :
    reducePass profile desired.entries (sharesAt desired round 0) =
      .ok (.inr (sharesAt desired round served).entries) := by
  have hle := h.le
  rw [amounts_length] at hle
  have hfrom : ∀ left visited, visited + (left + 1) = served →
      reducePass profile (desired.entries.drop visited) (sharesAt desired round visited) =
        .ok (.inr (sharesAt desired round served).entries) := by
    intro left
    induction left with
    | zero =>
      intro visited hvisited
      have hbefore : totalAt desired round visited ≤ _ := FirstReached.before_le h (by omega)
      have hreached : maxAdjustment.toNat ≤ totalAt desired round served := h.reached
      rw [reducePass_turn profile (by omega) (by omega), hvisited, if_pos hreached]
    | succ left ih =>
      intro visited hvisited
      have hbefore : totalAt desired round visited ≤ _ := FirstReached.before_le h (by omega)
      have hbelow : totalAt desired round (visited + 1) < maxAdjustment.toNat :=
        h.before (visited + 1) (by omega) (by omega)
      rw [reducePass_turn profile (by omega) (by omega), if_neg (Nat.not_le.mpr hbelow)]
      exact ih (visited + 1) (by omega)
  have hpos := h.pos
  exact hfrom (served - 1) 0 (by omega)

/-- The loop ends in the round the limit is reached in, whether overflows are trapped or not. -/
theorem loopUntil_reducePass (h : StopsAt desired round served) :
    loopUntil (reducePass profile desired.entries) (round + 1)
        (desired.mapVal fun _ _ ↦ minDeposit) =
      some (.ok (sharesAt desired round served).entries) := by
  rw [sharesAt_zero]
  exact loopUntil_of_rounds (sharesAt desired · 0)
    (fun r hr ↦ reducePass_continues profile hroom h hr) (reducePass_returns profile hroom h)

end Run

/-- The exact total of a list of deposits, in wei. -/
def totalOf (deposits : List (Address × U128)) : Nat := (deposits.map (·.2.toNat)).sum

/-- The planned deposits: one for each receiver, in a vector, whose length is a machine word. -/
structure Plan where
  adjustments : List (Address × U128)
  nodup : (adjustments.map Prod.fst).Nodup
  length_lt : adjustments.length < 2 ^ 64

namespace Plan

variable (plan : Plan)

/-- The plan in the order of the receivers. -/
def desired : Adjustments := .ofList plan.adjustments

theorem desired_perm : plan.desired.entries.Perm plan.adjustments :=
  OrderedMap.ofList_perm plan.nodup

theorem amounts_sum : (amounts plan.desired).sum = totalOf plan.adjustments := by
  calc (amounts plan.desired).sum
      = (plan.desired.entries.map fun entry ↦ entry.2.toNat).sum := by
        rw [amounts, OrderedMap.values, List.map_map]
        rfl
    _ = totalOf plan.adjustments := (plan.desired_perm.map _).sum_eq

theorem amounts_length : (amounts plan.desired).length = plan.adjustments.length := by
  rw [EscrowManager.amounts_length, plan.desired_perm.length_eq]

/-- The grants of that many receivers, and a step, are far from overflowing. -/
theorem room : max maxAdjustment.toNat ((amounts plan.desired).length * minDeposit.toNat) +
    adjustmentStep.toNat < 2 ^ 128 := by
  have hlength := plan.length_lt
  rw [plan.amounts_length, maxAdjustment_toNat, minDeposit_toNat, adjustmentStep_toNat]
  omega

variable {plan}

theorem exists_stopsAt (h : maxAdjustment.toNat < totalOf plan.adjustments) :
    ∃ round served, StopsAt plan.desired round served := by
  have hstep : 0 < adjustmentStep.toNat := by decide
  have hne : amounts plan.desired ≠ [] := by
    intro hnil
    rw [← plan.amounts_sum, hnil] at h
    exact absurd h (Nat.not_lt_zero _)
  apply exists_firstReached hstep hne
  rw [plan.amounts_sum]
  exact h.le

/-- Whatever `reduce_adjustments` returns is the map at which the total first reaches the limit. -/
theorem reduceAdjustments_eq {profile : Profile} {fuel : Nat} {result : List (Address × U128)}
    {round served : Nat} (hstops : StopsAt plan.desired round served)
    (h : reduceAdjustments profile plan.adjustments fuel = some (.ok result)) :
    result = (sharesAt plan.desired round served).entries := by
  unfold reduceAdjustments at h
  dsimp only at h
  split at h
  · cases h
  · split at h
    · cases h
    · have hloop := loopUntil_reducePass profile plan.room hstops
      exact Except.ok.inj (loopUntil_unique h hloop)

-- Over a total that fits, it returns.
theorem reduceAdjustments_returns {round served : Nat} (hstops : StopsAt plan.desired round served)
    (hfits : totalOf plan.adjustments < 2 ^ 128)
    (hmax : maxAdjustment.toNat < totalOf plan.adjustments) (profile : Profile) :
    reduceAdjustments profile plan.adjustments (round + 1) =
      some (.ok (sharesAt plan.desired round served).entries) := by
  have hsum : (plan.desired.values.map BitVec.toNat).sum < 2 ^ 128 := by
    rw [← amounts, plan.amounts_sum]
    exact hfits
  rcases plainSum_of_fits (ε := Empty) hsum with ⟨total, htotal, hvalue⟩
  rw [← amounts, plan.amounts_sum] at hvalue
  have hover : ¬total.toNat ≤ maxAdjustment.toNat := by omega
  unfold reduceAdjustments
  change (match (plainSum profile plan.desired.values : Outcome Empty U128) with
    | .error e => _
    | .ok total => _) = _
  rw [htotal profile]
  change (if total.toNat ≤ maxAdjustment.toNat then _ else _) = _
  rw [if_neg hover]
  exact loopUntil_reducePass profile plan.room hstops

end Plan

/-! ## What the shares are -/

section Result

variable {plan : Plan} {round served : Nat}

theorem totalOf_sharesAt (desired : Adjustments) (round served : Nat) :
    totalOf (sharesAt desired round served).entries = totalAt desired round served := by
  rw [totalAt, ← sharesAt_sum, OrderedMap.values, List.map_map]
  rfl

theorem sharesAt_keys_perm : ((sharesAt plan.desired round served).entries.map Prod.fst).Perm
    (plan.adjustments.map Prod.fst) := by
  rw [sharesAt, shares_keys]
  exact plan.desired_perm.map Prod.fst

/-- Everybody is at the level of the round, or of the next. -/
theorem sharesAt_level {receiver : Address} {amount desired : U128}
    (hamount : (receiver, amount) ∈ (sharesAt plan.desired round served).entries)
    (hdesired : (receiver, desired) ∈ plan.adjustments) :
    amount.toNat = level minDeposit.toNat adjustmentStep.toNat round desired.toNat ∨
      amount.toNat = level minDeposit.toNat adjustmentStep.toNat (round + 1) desired.toNat := by
  -- the receiver has one entry in the plan
  have hsame : ∀ entry ∈ plan.desired.entries, entry.1 = receiver →
      entry = (receiver, desired) := by
    intro entry hentry hreceiver
    have hmem := plan.desired_perm.subset hentry
    exact List.inj_on_of_nodup_map plan.nodup hmem hdesired hreceiver
  rcases List.mem_append.mp hamount with hserved | hwaiting
  · rcases List.mem_map.mp hserved with ⟨entry, hentry, hshare⟩
    have hplanned := hsame entry (List.mem_of_mem_take hentry) (congrArg Prod.fst hshare)
    rw [hplanned] at hshare
    right
    rw [← share_toNat (round + 1) (receiver, desired), hshare]
  · rcases List.mem_map.mp hwaiting with ⟨entry, hentry, hshare⟩
    have hplanned := hsame entry (List.mem_of_mem_drop hentry) (congrArg Prod.fst hshare)
    rw [hplanned] at hshare
    left
    rw [← share_toNat round (receiver, desired), hshare]

end Result

/-! ## What comes out of a plan beyond the limit -/

/-- Nobody is left out, the total ends within a step of the limit or of the grants, and nobody is
more than a step ahead of somebody who was left short. -/
structure FairlyReduced (planned result : List (Address × U128)) : Prop where
  receivers : (result.map Prod.fst).Perm (planned.map Prod.fst)
  atLeast : maxAdjustment.toNat ≤ totalOf result
  atMost : totalOf result ≤
    max maxAdjustment.toNat (planned.length * minDeposit.toNat) + adjustmentStep.toNat
  granted : ∀ receiver amount desired, (receiver, amount) ∈ result →
    (receiver, desired) ∈ planned → min desired.toNat minDeposit.toNat ≤ amount.toNat
  fair : ∀ receiver amount other otherAmount otherDesired, (receiver, amount) ∈ result →
    (other, otherAmount) ∈ result → (other, otherDesired) ∈ planned →
    otherAmount.toNat < otherDesired.toNat →
    amount.toNat ≤ otherAmount.toNat + adjustmentStep.toNat

section Claims

variable (plan : Plan)

theorem exists_planned {plan : Plan} {round served : Nat} {receiver : Address} {amount : U128}
    (h : (receiver, amount) ∈ (sharesAt plan.desired round served).entries) :
    ∃ desired, (receiver, desired) ∈ plan.adjustments := by
  have hmem : receiver ∈ plan.adjustments.map Prod.fst :=
    sharesAt_keys_perm.subset (List.mem_map_of_mem h)
  rcases List.mem_map.mp hmem with ⟨entry, hentry, rfl⟩
  exact ⟨entry.2, hentry⟩

theorem exists_share {plan : Plan} (round served : Nat) {receiver : Address} {desired : U128}
    (h : (receiver, desired) ∈ plan.adjustments) :
    ∃ amount, (receiver, amount) ∈ (sharesAt plan.desired round served).entries := by
  have hmem : receiver ∈ (sharesAt plan.desired round served).entries.map Prod.fst :=
    sharesAt_keys_perm.symm.subset (List.mem_map_of_mem h)
  rcases List.mem_map.mp hmem with ⟨entry, hentry, rfl⟩
  exact ⟨entry.2, hentry⟩

/-- At most a visit apart from a receiver that was left short. -/
theorem sharesAt_apart {plan : Plan} {round served : Nat} {receiver other : Address}
    {amount otherAmount otherDesired : U128}
    (hamount : (receiver, amount) ∈ (sharesAt plan.desired round served).entries)
    (hother : (other, otherAmount) ∈ (sharesAt plan.desired round served).entries)
    (hdesired : (other, otherDesired) ∈ plan.adjustments)
    (hshort : otherAmount.toNat < otherDesired.toNat) :
    amount.toNat ≤ otherAmount.toNat + adjustmentStep.toNat := by
  rcases exists_planned hamount with ⟨desired, hplanned⟩
  -- the one left short is at its level's full height
  have hbelow : level minDeposit.toNat adjustmentStep.toNat round otherDesired.toNat ≤
      otherAmount.toNat := by
    rcases sharesAt_level hother hdesired with hlevel | hlevel
    · exact hlevel.ge
    · rw [hlevel]
      exact level_le_succ
  have habove : amount.toNat ≤
      level minDeposit.toNat adjustmentStep.toNat (round + 1) desired.toNat := by
    rcases sharesAt_level hamount hplanned with hlevel | hlevel
    · rw [hlevel]
      exact level_le_succ
    · exact hlevel.le
  calc amount.toNat
      ≤ level minDeposit.toNat adjustmentStep.toNat (round + 1) desired.toNat := habove
    _ ≤ level minDeposit.toNat adjustmentStep.toNat round otherDesired.toNat +
        adjustmentStep.toNat := level_fair (Nat.lt_of_le_of_lt hbelow hshort)
    _ ≤ otherAmount.toNat + adjustmentStep.toNat := Nat.add_le_add_right hbelow _

theorem fairlyReduced_sharesAt {plan : Plan} {round served : Nat}
    (h : StopsAt plan.desired round served) :
    FairlyReduced plan.adjustments (sharesAt plan.desired round served).entries := by
  refine ⟨sharesAt_keys_perm, ?_, ?_, ?_, ?_⟩
  · rw [totalOf_sharesAt]
    exact h.reached
  · rw [totalOf_sharesAt, ← plan.amounts_length]
    exact FirstReached.filled_le h
  · intro receiver amount desired hamount hdesired
    have hgrant : minDeposit.toNat ≤ amount.toNat := by
      rcases sharesAt_level hamount hdesired with hlevel | hlevel <;> rw [hlevel] <;>
        exact start_le_level
    omega
  · intro receiver amount other otherAmount otherDesired hamount hother hotherDesired hshort
    exact sharesAt_apart hamount hother hotherDesired hshort

/-- Beyond the limit the loop ends without an overflow, and shares fairly. -/
theorem reduceAdjustments_fair (hfits : totalOf plan.adjustments < 2 ^ 128)
    (hmax : maxAdjustment.toNat < totalOf plan.adjustments) :
    ∃ result, (∃ fuel, ∀ profile,
        reduceAdjustments profile plan.adjustments fuel = some (.ok result)) ∧
      FairlyReduced plan.adjustments result := by
  rcases Plan.exists_stopsAt hmax with ⟨round, served, hstops⟩
  exact ⟨_, ⟨round + 1, Plan.reduceAdjustments_returns hstops hfits hmax⟩,
    fairlyReduced_sharesAt hstops⟩

/-- A share is at most what was planned exactly where that is at least the grant. -/
theorem reduceAdjustments_le_planned_iff
    (hmax : maxAdjustment.toNat < totalOf plan.adjustments) :
    (totalOf plan.adjustments < 2 ^ 128 → ∃ result fuel, ∀ profile,
        reduceAdjustments profile plan.adjustments fuel = some (.ok result)) ∧
      ∀ profile fuel result, reduceAdjustments profile plan.adjustments fuel =
          some (.ok result) →
        ((∀ receiver amount desired, (receiver, amount) ∈ result →
            (receiver, desired) ∈ plan.adjustments → amount.toNat ≤ desired.toNat) ↔
          ∀ entry ∈ plan.adjustments, minDeposit.toNat ≤ entry.2.toNat) := by
  rcases Plan.exists_stopsAt hmax with ⟨round, served, hstops⟩
  constructor
  · intro hfits
    exact ⟨_, round + 1, Plan.reduceAdjustments_returns hstops hfits hmax⟩
  · intro profile fuel result hresult
    obtain rfl := Plan.reduceAdjustments_eq hstops hresult
    constructor
    · intro hle entry hentry
      rcases exists_share round served hentry with ⟨amount, hamount⟩
      have hamountLe := hle entry.1 amount entry.2 hamount hentry
      have hgrant : minDeposit.toNat ≤ amount.toNat := by
        rcases sharesAt_level hamount hentry with hlevel | hlevel <;> rw [hlevel] <;>
          exact start_le_level
      omega
    · intro hplanned receiver amount desired hamount hdesired
      have hgrant := hplanned (receiver, desired) hdesired
      change minDeposit.toNat ≤ desired.toNat at hgrant
      rw [← Nat.max_eq_right hgrant]
      rcases sharesAt_level hamount hdesired with hlevel | hlevel <;> rw [hlevel] <;>
        exact level_le

/-- The batch of a cycle stays within the limit exactly when the plan does, or some visit of the
loop meets the limit to the wei. -/
theorem depositBatch_le_max_iff (hfits : totalOf plan.adjustments < 2 ^ 128) :
    ∃ batch, (∃ fuel, ∀ profile,
        depositBatch profile plan.adjustments fuel = some (.ok batch)) ∧
      (totalOf batch ≤ maxAdjustment.toNat ↔
        totalOf plan.adjustments ≤ maxAdjustment.toNat ∨
          ∃ round served, 0 < served ∧ served ≤ plan.adjustments.length ∧
            totalAt plan.desired round served = maxAdjustment.toNat) := by
  have hsum : ((plan.adjustments.map Prod.snd).map BitVec.toNat).sum < 2 ^ 128 := by
    rw [List.map_map]
    exact hfits
  rcases plainSum_of_fits (ε := Empty) hsum with ⟨total, htotal, hvalue⟩
  rw [List.map_map] at hvalue
  change total.toNat = totalOf plan.adjustments at hvalue
  by_cases hmax : totalOf plan.adjustments ≤ maxAdjustment.toNat
  · refine ⟨plan.adjustments, ⟨0, ?_⟩, by simp [hmax]⟩
    intro profile
    rw [depositBatch, htotal profile]
    exact if_pos (hvalue ▸ hmax)
  · rw [Nat.not_le] at hmax
    rcases Plan.exists_stopsAt hmax with ⟨round, served, hstops⟩
    refine ⟨(sharesAt plan.desired round served).entries, ⟨round + 1, ?_⟩, ?_⟩
    · intro profile
      have hover : ¬total.toNat ≤ maxAdjustment.toNat := by omega
      rw [depositBatch, htotal profile, ← Plan.reduceAdjustments_returns hstops hfits hmax profile]
      exact if_neg hover
    · rw [or_iff_right (Nat.not_le.mpr hmax), totalOf_sharesAt, ← plan.amounts_length]
      exact FirstReached.filled_le_target_iff hstops

end Claims

/-! ## Two receivers -/

/-- Two receivers with the given plans. -/
def twoReceivers (first second : U128) : Plan where
  adjustments := [(.repeatByte 20 0x11, first), (.repeatByte 20 0x22, second)]
  nodup := by
    show [FixedBytes.repeatByte 20 0x11, FixedBytes.repeatByte 20 0x22].Nodup
    decide
  length_lt := by
    show 2 < 2 ^ 64
    decide

theorem reduceAdjustments_fair_known :
    ∃ result, (∃ fuel, ∀ profile, reduceAdjustments profile
        (twoReceivers maxAdjustment maxAdjustment).adjustments fuel = some (.ok result)) ∧
      FairlyReduced (twoReceivers maxAdjustment maxAdjustment).adjustments result :=
  reduceAdjustments_fair (twoReceivers maxAdjustment maxAdjustment) (by decide) (by decide)

/-- Plans of 10,000 GRT each come out at 5,002 GRT each. -/
theorem depositBatch_exceeds_max :
    totalOf (twoReceivers maxAdjustment maxAdjustment).adjustments < 2 ^ 128 ∧
      ∀ profile, depositBatch profile (twoReceivers maxAdjustment maxAdjustment).adjustments 50 =
          some (.ok (twoReceivers (5002 * grt) (5002 * grt)).adjustments) ∧
        maxAdjustment.toNat < totalOf (twoReceivers (5002 * grt) (5002 * grt)).adjustments := by
  refine ⟨by decide, fun profile ↦ ⟨?_, by decide⟩⟩
  cases profile <;> decide +kernel

theorem depositBatch_le_max_iff_known :
    ∃ batch, (∃ fuel, ∀ profile, depositBatch profile
        (twoReceivers maxAdjustment maxAdjustment).adjustments fuel = some (.ok batch)) ∧
      (totalOf batch ≤ maxAdjustment.toNat ↔
        totalOf (twoReceivers maxAdjustment maxAdjustment).adjustments ≤ maxAdjustment.toNat ∨
          ∃ round served, 0 < served ∧
            served ≤ (twoReceivers maxAdjustment maxAdjustment).adjustments.length ∧
            totalAt (twoReceivers maxAdjustment maxAdjustment).desired round served =
              maxAdjustment.toNat) :=
  depositBatch_le_max_iff (twoReceivers maxAdjustment maxAdjustment) (by decide)

/-- A receiver that is one wei short is granted 2 GRT. -/
theorem reduceAdjustments_increases :
    maxAdjustment.toNat < totalOf (twoReceivers 1 (20_000 * grt)).adjustments ∧
      ∀ profile, reduceAdjustments profile (twoReceivers 1 (20_000 * grt)).adjustments 100 =
          some (.ok (twoReceivers minDeposit (10_002 * grt)).adjustments) ∧
        (1 : U128).toNat < minDeposit.toNat := by
  refine ⟨by decide, fun profile ↦ ⟨?_, by decide⟩⟩
  cases profile <;> decide +kernel

theorem reduceAdjustments_le_planned_iff_known :
    (totalOf (twoReceivers 1 (20_000 * grt)).adjustments < 2 ^ 128 → ∃ result fuel, ∀ profile,
        reduceAdjustments profile (twoReceivers 1 (20_000 * grt)).adjustments fuel =
          some (.ok result)) ∧
      ∀ profile fuel result, reduceAdjustments profile
          (twoReceivers 1 (20_000 * grt)).adjustments fuel = some (.ok result) →
        ((∀ receiver amount desired, (receiver, amount) ∈ result →
            (receiver, desired) ∈ (twoReceivers 1 (20_000 * grt)).adjustments →
              amount.toNat ≤ desired.toNat) ↔
          ∀ entry ∈ (twoReceivers 1 (20_000 * grt)).adjustments,
            minDeposit.toNat ≤ entry.2.toNat) :=
  reduceAdjustments_le_planned_iff (twoReceivers 1 (20_000 * grt)) (by decide)

end GraphTally.EscrowManager
