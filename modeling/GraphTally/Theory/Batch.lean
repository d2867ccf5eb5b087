import GraphTally.Theory.Fallible
import Mathlib.Data.List.Flatten
import Mathlib.Data.List.Nodup
import Mathlib.Logic.Function.Basic

/-!
# Atomic batches

Calls on a state with keys, each on its own key.  A batch makes all of its calls or none, and
batches on different keys do not see each other.
-/

namespace GraphTally.Theory

section Batch

variable {K V : Type}

/-- A call on one key; it may fail. -/
abbrev KeyCall (K V : Type) := K × (V → Option V)

variable {calls : List (KeyCall K V)} {batches batches' : List (List (KeyCall K V))}

/-- Each key is in one batch at most, and there once. -/
def Apart (batches : List (List (KeyCall K V))) : Prop := (batches.flatten.map Prod.fst).Nodup

theorem Apart.nodup (h : Apart batches) (hmem : calls ∈ batches) :
    (calls.map Prod.fst).Nodup :=
  h.sublist ((List.sublist_flatten_of_mem hmem).map _)

theorem Apart.of_subperm (h : Apart batches) (hsub : batches'.Subperm batches) :
    Apart batches' := by
  obtain ⟨kept, hperm, hsublist⟩ := hsub
  have hkept : Apart kept := h.sublist (hsublist.flatten.map _)
  exact ((hperm.flatten).map Prod.fst).nodup_iff.mp hkept

theorem apart_cons : Apart (calls :: batches) ↔ (calls.map Prod.fst).Nodup ∧ Apart batches ∧
    ∀ key ∈ calls.map Prod.fst, ∀ other ∈ batches, key ∉ other.map Prod.fst := by
  unfold Apart
  rw [List.flatten_cons, List.map_append, List.nodup_append']
  refine and_congr_right fun _ ↦ and_congr_right fun _ ↦ ?_
  constructor
  · intro h key hkey other hother hmem
    exact h hkey ((List.sublist_flatten_of_mem hother).map _ |>.subset hmem)
  · intro h key hkey hmem
    obtain ⟨call, hcall, rfl⟩ := List.mem_map.mp hmem
    obtain ⟨other, hother, hcall⟩ := List.mem_flatten.mp hcall
    exact h _ hkey other hother (List.mem_map_of_mem hcall)

variable [DecidableEq K]

def callKey (state : K → V) (call : KeyCall K V) : Option (K → V) :=
  (call.2 (state call.1)).map fun value ↦ Function.update state call.1 value

def batch (calls : List (KeyCall K V)) (state : K → V) : Option (K → V) :=
  calls.foldlM callKey state

/-- A batch that fails changes nothing. -/
def attempt (state : K → V) (calls : List (KeyCall K V)) : K → V := (batch calls state).getD state

variable {state after : K → V}

/-- On keys that differ, each call finds what was there before the batch. -/
theorem batch_eq_some (hnodup : (calls.map Prod.fst).Nodup) : batch calls state = some after ↔
    (∀ call ∈ calls, call.2 (state call.1) = some (after call.1)) ∧
      ∀ key ∉ calls.map Prod.fst, after key = state key := by
  unfold batch
  induction calls generalizing state with
  | nil =>
    simp only [List.foldlM_nil, List.map_nil]
    constructor
    · intro h
      obtain rfl := Option.some_inj.mp h
      exact ⟨by simp, fun _ _ ↦ rfl⟩
    · intro h
      exact congrArg some (funext fun key ↦ (h.2 key List.not_mem_nil).symm)
  | cons call calls ih =>
    obtain ⟨hfresh, hnodup⟩ := List.nodup_cons.mp hnodup
    -- the later calls are on other keys
    have hother : ∀ value, ∀ later ∈ calls,
        Function.update state call.1 value later.1 = state later.1 := by
      intro value later hlater
      have hne : later.1 ≠ call.1 := fun hsame ↦ hfresh (hsame ▸ List.mem_map_of_mem hlater)
      exact Function.update_of_ne hne _ _
    rw [List.foldlM_cons]
    constructor
    · intro h
      obtain ⟨next, hcall, hrest⟩ := Option.bind_eq_some_iff.mp h
      obtain ⟨value, hvalue, rfl⟩ := Option.map_eq_some_iff.mp hcall
      obtain ⟨hcalls, hkept⟩ := (ih hnodup).mp hrest
      have hhere : after call.1 = value := by
        rw [hkept call.1 hfresh, Function.update_self]
      refine ⟨List.forall_mem_cons.mpr ⟨hhere ▸ hvalue, ?_⟩, ?_⟩
      · intro later hlater
        rw [← hcalls later hlater, hother value later hlater]
      · intro key hkey
        rw [List.map_cons, List.mem_cons, not_or] at hkey
        rw [hkept key hkey.2, Function.update_of_ne hkey.1]
    · intro h
      obtain ⟨hhere, hcalls⟩ := List.forall_mem_cons.mp h.1
      apply Option.bind_eq_some_iff.mpr
      refine ⟨_, Option.map_eq_some_iff.mpr ⟨_, hhere, rfl⟩, (ih hnodup).mpr ⟨?_, ?_⟩⟩
      · intro later hlater
        rw [hother _ later hlater]
        exact hcalls later hlater
      · intro key hkey
        by_cases hsame : key = call.1
        · rw [hsame, Function.update_self]
        · rw [Function.update_of_ne hsame]
          exact h.2 key (by rw [List.map_cons, List.mem_cons, not_or]; exact ⟨hsame, hkey⟩)

theorem batch_isSome_iff (hnodup : (calls.map Prod.fst).Nodup) : (batch calls state).isSome ↔
    ∀ call ∈ calls, (call.2 (state call.1)).isSome := by
  constructor
  · intro h call hcall
    obtain ⟨after, hafter⟩ := Option.isSome_iff_exists.mp h
    rw [((batch_eq_some hnodup).mp hafter).1 call hcall]
    rfl
  · intro h
    -- by induction on the calls: the first one leaves the others' keys alone
    unfold batch
    induction calls generalizing state with
    | nil => rfl
    | cons call calls ih =>
      obtain ⟨hfresh, hnodup⟩ := List.nodup_cons.mp hnodup
      obtain ⟨hhere, hrest⟩ := List.forall_mem_cons.mp h
      obtain ⟨value, hvalue⟩ := Option.isSome_iff_exists.mp hhere
      rw [List.foldlM_cons, callKey, hvalue]
      apply ih hnodup
      intro later hlater
      have hother : later.1 ≠ call.1 :=
        fun hsame ↦ hfresh (hsame ▸ List.mem_map_of_mem hlater)
      show (later.2 (Function.update state call.1 value later.1)).isSome
      rw [Function.update_of_ne hother]
      exact hrest later hlater

/-- What a batch does to a key depends on the keys it calls only. -/
theorem attempt_congr (hnodup : (calls.map Prod.fst).Nodup) {state' : K → V}
    (h : ∀ key ∈ calls.map Prod.fst, state key = state' key) {key : K}
    (hkey : state key = state' key) : attempt state calls key = attempt state' calls key := by
  have hsame : ∀ call ∈ calls, call.2 (state call.1) = call.2 (state' call.1) :=
    fun call hcall ↦ congrArg call.2 (h call.1 (List.mem_map_of_mem hcall))
  unfold attempt
  cases hbatch : batch calls state with
  | none =>
    have hnone : batch calls state' = none := by
      rw [← Option.not_isSome_iff_eq_none, batch_isSome_iff hnodup]
      rw [← Option.not_isSome_iff_eq_none, batch_isSome_iff hnodup] at hbatch
      exact fun hall ↦ hbatch fun call hcall ↦ hsame call hcall ▸ hall call hcall
    rw [hnone]
    exact hkey
  | some after =>
    have hsome : (batch calls state').isSome := by
      rw [batch_isSome_iff hnodup]
      intro call hcall
      rw [← hsame call hcall, ((batch_eq_some hnodup).mp hbatch).1 call hcall]
      rfl
    obtain ⟨after', hafter⟩ := Option.isSome_iff_exists.mp hsome
    rw [hafter]
    show after key = after' key
    by_cases hmem : key ∈ calls.map Prod.fst
    · obtain ⟨call, hcall, rfl⟩ := List.mem_map.mp hmem
      apply Option.some_inj.mp
      rw [← ((batch_eq_some hnodup).mp hbatch).1 call hcall, hsame call hcall,
        ((batch_eq_some hnodup).mp hafter).1 call hcall]
    · rw [((batch_eq_some hnodup).mp hbatch).2 key hmem,
        ((batch_eq_some hnodup).mp hafter).2 key hmem, hkey]

theorem attempt_of_not_mem (hnodup : (calls.map Prod.fst).Nodup) {key : K}
    (h : key ∉ calls.map Prod.fst) : attempt state calls key = state key := by
  unfold attempt
  cases hbatch : batch calls state with
  | none => rfl
  | some after => exact ((batch_eq_some hnodup).mp hbatch).2 key h

/-! ## Several batches -/

/-- One batch after another. -/
def attempts (state : K → V) (batches : List (List (KeyCall K V))) : K → V :=
  batches.foldl attempt state

/-- A key of a batch comes out as if that batch had been alone, a key of none unchanged. -/
theorem attempts_eq (h : Apart batches) (state : K → V) :
    (∀ calls ∈ batches, ∀ key ∈ calls.map Prod.fst,
        attempts state batches key = attempt state calls key) ∧
      ∀ key, (∀ calls ∈ batches, key ∉ calls.map Prod.fst) →
        attempts state batches key = state key := by
  unfold attempts
  induction batches generalizing state with
  | nil => exact ⟨by simp, fun _ _ ↦ rfl⟩
  | cons first batches ih =>
    obtain ⟨hfirst, hrest, hapart⟩ := apart_cons.mp h
    obtain ⟨hcalls, hkept⟩ := ih hrest (attempt state first)
    constructor
    · intro calls hmem key hkey
      rw [List.foldl_cons]
      rcases List.mem_cons.mp hmem with rfl | hmem
      · exact hkept key (hapart key hkey)
      · rw [hcalls calls hmem key hkey]
        -- the first batch is on other keys
        have hother : ∀ key ∈ calls.map Prod.fst, attempt state first key = state key :=
          fun key hkey ↦ attempt_of_not_mem hfirst fun hin ↦ hapart key hin calls hmem hkey
        exact attempt_congr (hrest.nodup hmem) hother (hother key hkey)
    · intro key hkey
      rw [List.foldl_cons, hkept key fun calls hmem ↦ hkey calls (List.mem_cons_of_mem _ hmem)]
      exact attempt_of_not_mem hfirst (hkey first List.mem_cons_self)

/-- The order of the batches does not matter. -/
theorem attempts_perm (h : Apart batches) (hperm : batches.Perm batches') :
    attempts state batches = attempts state batches' := by
  have h' : Apart batches' := ((hperm.flatten).map Prod.fst).nodup_iff.mp h
  funext key
  by_cases hkey : ∃ calls ∈ batches, key ∈ calls.map Prod.fst
  · obtain ⟨calls, hmem, hin⟩ := hkey
    rw [(attempts_eq h state).1 calls hmem key hin,
      (attempts_eq h' state).1 calls (hperm.subset hmem) key hin]
  · have hnone : ∀ calls ∈ batches, key ∉ calls.map Prod.fst :=
      fun calls hmem hin ↦ hkey ⟨calls, hmem, hin⟩
    rw [(attempts_eq h state).2 key hnone,
      (attempts_eq h' state).2 key fun calls hmem ↦ hnone calls (hperm.symm.subset hmem)]

end Batch

end GraphTally.Theory
