import GraphTally.Theory.MachineWord
import Mathlib.Data.List.Flatten
import Mathlib.Logic.Relation

/-!
# Loops that handle several items at a time

A loop takes the items of a stream in order and handles up to a limit of them concurrently.  The
handling of an item is a list of atomic actions on a shared state, and the actions of the items in
flight interleave freely.  A panic ends the loop for all of them.
-/

namespace GraphTally.Theory

/-- What is done for each item, and what an action does to the shared state. -/
structure Handler (ι α σ : Type) where
  limit : Nat
  actions : ι → List α
  act : σ → α → Outcome Empty σ

structure Pool (ι α σ : Type) where
  waiting : List ι
  /-- The actions that are left of each item that was taken. -/
  inFlight : List (List α)
  performed : List α
  state : σ
  alive : Bool

namespace Pool

variable {ι α σ : Type}

def start (items : List ι) (state : σ) : Pool ι α σ := ⟨items, [], [], state, true⟩

inductive Step (handler : Handler ι α σ) (pool : Pool ι α σ) : Pool ι α σ → Prop
  | take {item : ι} {rest : List ι} : pool.alive = true →
      pool.inFlight.length < handler.limit → pool.waiting = item :: rest →
      Step handler pool
        { pool with waiting := rest, inFlight := handler.actions item :: pool.inFlight }
  | act {before after : List (List α)} {action : α} {actions : List α} {state : σ} :
      pool.alive = true → pool.inFlight = before ++ (action :: actions) :: after →
      handler.act pool.state action = .ok state →
      Step handler pool
        { pool with
          inFlight := before ++ actions :: after
          performed := pool.performed ++ [action]
          state }
  | finish {before after : List (List α)} : pool.alive = true →
      pool.inFlight = before ++ [] :: after →
      Step handler pool { pool with inFlight := before ++ after }
  | panic {before after : List (List α)} {action : α} {actions : List α} : pool.alive = true →
      pool.inFlight = before ++ (action :: actions) :: after →
      handler.act pool.state action = .error .panic →
      Step handler pool { pool with alive := false }

abbrev Run (handler : Handler ι α σ) : Pool ι α σ → Pool ι α σ → Prop :=
  Relation.ReflTransGen (Step handler)

/-- Every item has been taken and handled. -/
structure Done (pool : Pool ι α σ) : Prop where
  alive : pool.alive = true
  waiting : pool.waiting = []
  inFlight : pool.inFlight = []

/-- The actions that were performed and those still to come. -/
def allActions (handler : Handler ι α σ) (pool : Pool ι α σ) : List α :=
  pool.performed ++ (pool.inFlight.flatten ++ pool.waiting.flatMap handler.actions)

variable {handler : Handler ι α σ} {pool pool' : Pool ι α σ}

/-! ## Nothing is lost -/

theorem Step.conserves (h : Step handler pool pool') :
    (pool'.allActions handler).Perm (pool.allActions handler) := by
  unfold allActions
  cases h with
  | @take item rest _ _ hwaiting =>
    apply List.Perm.append_left
    rw [hwaiting, List.flatMap_cons, List.flatten_cons, ← List.append_assoc]
    exact List.perm_append_comm.append_right _
  | @act before after action actions state _ hflight _ =>
    rw [hflight]
    simp only [List.flatten_append, List.flatten_cons, List.append_assoc, List.cons_append,
      List.nil_append]
    apply List.Perm.append_left
    exact List.perm_middle.symm
  | @finish before after _ hflight =>
    rw [hflight]
    simp only [List.flatten_append, List.flatten_cons, List.nil_append]
    exact List.Perm.refl _
  | panic => exact List.Perm.refl _

theorem Run.conserves (h : Run handler pool pool') :
    (pool'.allActions handler).Perm (pool.allActions handler) := by
  induction h with
  | refl => exact List.Perm.refl _
  | tail _ hstep ih => exact hstep.conserves.trans ih

/-- When the loop is done it has performed the actions of every item, in some order. -/
theorem Run.performed_of_done {items : List ι} {state : σ}
    (h : Run handler (start items state) pool) (hdone : pool.Done) :
    pool.performed.Perm (items.flatMap handler.actions) := by
  have hperm := h.conserves
  unfold allActions start at hperm
  rw [hdone.waiting, hdone.inFlight] at hperm
  simpa using hperm

/-! ## Invariants -/

/-- What every action keeps, of the actions so far and the state they led to, holds throughout. -/
theorem Run.invariant (inv : List α → σ → Prop)
    (hact : ∀ {performed state action state'}, inv performed state →
      handler.act state action = .ok state' → inv (performed ++ [action]) state')
    (h : Run handler pool pool') (hinv : inv pool.performed pool.state) :
    inv pool'.performed pool'.state := by
  induction h with
  | refl => exact hinv
  | tail _ hstep ih =>
    cases hstep with
    | take => exact ih
    | act _ _ hresult => exact hact ih hresult
    | finish => exact ih
    | panic => exact ih

/-- A step moves the state as one action does, or not at all. -/
theorem Step.related {r : σ → σ → Prop} (hrefl : ∀ state, r state state)
    (hact : ∀ {state action state'}, handler.act state action = .ok state' → r state state')
    (h : Step handler pool pool') : r pool.state pool'.state := by
  cases h with
  | take => exact hrefl _
  | act _ _ hresult => exact hact hresult
  | finish => exact hrefl _
  | panic => exact hrefl _

/-- The actions in a pool come from the items it started with. -/
theorem Run.actions_mem {items : List ι} {state : σ} (h : Run handler (start items state) pool)
    {action : α} (hmem : action ∈ pool.allActions handler) :
    ∃ item ∈ items, action ∈ handler.actions item := by
  have hstart := h.conserves.subset hmem
  simpa [allActions, start] using hstart

/-! ## Progress -/

/-- The steps a pool has left: two for each item besides its actions, and one to die. -/
def work (handler : Handler ι α σ) (pool : Pool ι α σ) : Nat :=
  (pool.waiting.map fun item ↦ (handler.actions item).length + 2).sum +
    (pool.inFlight.map fun actions ↦ actions.length + 1).sum + pool.alive.toNat

theorem Step.work_lt (h : Step handler pool pool') : pool'.work handler < pool.work handler := by
  unfold work
  cases h with
  | take _ _ hwaiting =>
    simp only [hwaiting, List.map_cons, List.sum_cons]
    omega
  | act _ hflight _ =>
    rw [hflight]
    simp only [List.map_append, List.map_cons, List.sum_append, List.sum_cons, List.length_cons]
    omega
  | finish _ hflight =>
    rw [hflight]
    simp only [List.map_append, List.map_cons, List.sum_append, List.sum_cons, List.length_nil]
    omega
  | panic halive _ _ =>
    rw [halive]
    simp

-- A pool that is not done can take an item, or do something about one in flight.
theorem exists_step (hlimit : 0 < handler.limit) (halive : pool.alive = true)
    (hdone : ¬pool.Done) : ∃ pool', Step handler pool pool' := by
  cases hflight : pool.inFlight with
  | nil =>
    cases hwaiting : pool.waiting with
    | nil => exact absurd ⟨halive, hwaiting, hflight⟩ hdone
    | cons item rest =>
      have hroom : pool.inFlight.length < handler.limit := by rwa [hflight]
      exact ⟨_, .take halive hroom hwaiting⟩
  | cons actions after =>
    cases actions with
    | nil =>
      have hhead : pool.inFlight = [] ++ [] :: after := hflight
      exact ⟨_, .finish halive hhead⟩
    | cons action actions =>
      have hhead : pool.inFlight = [] ++ (action :: actions) :: after := hflight
      cases hresult : handler.act pool.state action with
      | ok state => exact ⟨_, .act halive hhead hresult⟩
      | error failure =>
        rcases failure with ⟨⟨⟩⟩ | _
        exact ⟨_, .panic halive hhead hresult⟩

/-- Every run can be continued until the loop is done or dead. -/
theorem exists_end (handler : Handler ι α σ) (hlimit : 0 < handler.limit) (pool : Pool ι α σ) :
    ∃ pool', Run handler pool pool' ∧ (pool'.Done ∨ pool'.alive = false) := by
  induction hwork : pool.work handler using Nat.strong_induction_on generalizing pool with
  | _ work ih =>
    by_cases halive : pool.alive = true
    · by_cases hdone : pool.Done
      · exact ⟨pool, .refl, .inl hdone⟩
      · rcases exists_step hlimit halive hdone with ⟨next, hstep⟩
        have hless : next.work handler < work := hwork ▸ hstep.work_lt
        rcases ih _ hless next rfl with ⟨pool', hrun, hend⟩
        exact ⟨pool', .head hstep hrun, hend⟩
    · exact ⟨pool, .refl, .inr (Bool.eq_false_of_not_eq_true halive)⟩

/-- A pool that cannot die can be run until the loop is done. -/
theorem exists_done (handler : Handler ι α σ) (hlimit : 0 < handler.limit) (pool : Pool ι α σ)
    (halive : ∀ pool', Run handler pool pool' → pool'.alive = true) :
    ∃ pool', Run handler pool pool' ∧ pool'.Done := by
  rcases exists_end handler hlimit pool with ⟨pool', hrun, hend⟩
  refine ⟨pool', hrun, hend.resolve_right ?_⟩
  rw [halive pool' hrun]
  exact Bool.noConfusion

/-- An action that never panics. -/
def Safe (handler : Handler ι α σ) (action : α) : Prop :=
  ∀ state, handler.act state action ≠ .error .panic

theorem Step.alive (h : Step handler pool pool') (halive : pool.alive = true)
    (hsafe : ∀ action ∈ pool.allActions handler, Safe handler action) : pool'.alive = true := by
  cases h with
  | take => exact halive
  | act => exact halive
  | finish => exact halive
  | @panic before after action actions _ hflight hresult =>
    have hmem : action ∈ pool.allActions handler := by
      unfold allActions
      rw [hflight]
      simp
    exact absurd hresult (hsafe action hmem pool.state)

/-- A loop whose items have safe actions only never dies. -/
theorem Run.alive {items : List ι} {state : σ} (h : Run handler (start items state) pool)
    (hsafe : ∀ item ∈ items, ∀ action ∈ handler.actions item, Safe handler action) :
    pool.alive = true := by
  have hactions : ∀ {middle : Pool ι α σ}, Run handler (start items state) middle →
      ∀ action ∈ middle.allActions handler, Safe handler action := by
    intro middle hrun action hmem
    rcases hrun.actions_mem hmem with ⟨item, hitem, haction⟩
    exact hsafe item hitem action haction
  induction h with
  | refl => rfl
  | tail hrun hstep ih => exact hstep.alive ih (hactions hrun)

end Pool

end GraphTally.Theory
