import GraphTally.Core.Failures

/-!
# Contexts that share a storage

`InMemoryContext::new` takes a storage that others may hold too, and starts its own counter of
ids.  Clones share the counter, contexts that are built separately do not.
-/

open GraphTally.Theory

namespace GraphTally

/-- The storage, and each context that was built over it.  A clone is the context it was cloned
from. -/
structure SharedStorage where
  receiptStorage : ReceiptStorage
  contexts : List InMemoryContext

inductive StorageCall where
  | storeReceipt (receipt : ReceiptWithState Checking SignedReceipt)
  | removeReceiptById (receiptId : U64)
  | removeReceiptsByIds (receiptIds : List U64)
  | removeReceiptsInTimestampRange (range : TimestampRange)

def StorageCall.run (profile : Profile) (context : InMemoryContext) : StorageCall → InMemoryContext
  | .storeReceipt receipt => (context.storeReceipt profile receipt).2
  | .removeReceiptById receiptId => (context.removeReceiptById receiptId).2
  | .removeReceiptsByIds receiptIds => (context.removeReceiptsByIds receiptIds).2
  | .removeReceiptsInTimestampRange range => (context.removeReceiptsInTimestampRange range).2

inductive StorageAction where
  | new (ravStorage : Option SignedRav) (senderEscrowStorage : EscrowStorage)
      (timestampCheck : StatefulTimestampCheck)
  | call (i : Nat) (call : StorageCall)

namespace SharedStorage

/-- A context as it finds the storage. -/
def context (self : SharedStorage) (i : Nat) : Option InMemoryContext :=
  self.contexts[i]?.map fun context ↦ { context with receiptStorage := self.receiptStorage }

def step (profile : Profile) (self : SharedStorage) : StorageAction → SharedStorage
  | .new ravStorage senderEscrowStorage timestampCheck =>
    { self with contexts := self.contexts ++
        [.new ravStorage self.receiptStorage senderEscrowStorage timestampCheck] }
  | .call i call =>
    match self.context i with
    | none => self
    | some context =>
      let context := call.run profile context
      ⟨context.receiptStorage, self.contexts.set i context⟩

def run (profile : Profile) (self : SharedStorage) (actions : List StorageAction) :
    SharedStorage :=
  actions.foldl (step profile) self

/-- The removals that name the id of a receipt, or its timestamp. -/
def Covers (receiptId : U64) (receipt : ReceiptWithState Checking SignedReceipt) :
    StorageAction → Prop
  | .call _ (.removeReceiptById removed) => removed = receiptId
  | .call _ (.removeReceiptsByIds removed) => receiptId ∈ removed
  | .call _ (.removeReceiptsInTimestampRange range) => range.contains receipt.timestampNs = true
  | _ => False

/-- A store that overwrites nothing, and whose receipt is there until a removal covers it. -/
structure Keeps (profile : Profile) (before : SharedStorage) (i : Nat)
    (receipt : ReceiptWithState Checking SignedReceipt) (context : InMemoryContext)
    (later : List StorageAction) (receiptId : U64) : Prop where
  returned : (context.storeReceipt profile receipt).1 = .ok receiptId
  fresh : before.receiptStorage.lookup receiptId = none
  others : ∀ other, other ≠ receiptId →
    (before.step profile (.call i (.storeReceipt receipt))).receiptStorage.lookup other =
      before.receiptStorage.lookup other
  retrieved : ∀ between rest, later = between ++ rest →
    (∀ action ∈ between, ¬Covers receiptId receipt action) → ∀ j reader,
    ((before.step profile (.call i (.storeReceipt receipt))).run profile between).context j =
      some reader → reader.retrieveReceiptById receiptId = .ok receipt

/-- Every store of a run keeps its receipt. -/
def AllKeep (profile : Profile) : SharedStorage → List StorageAction → Prop
  | _, [] => True
  | self, action :: later =>
    (∀ i receipt context, action = .call i (.storeReceipt receipt) → self.context i = some context →
      ∃ receiptId, Keeps profile self i receipt context later receiptId) ∧
    AllKeep profile (self.step profile action) later

/-- The counter of a context is not an id in use, and can be incremented. -/
def Fresh (profile : Profile) (context : InMemoryContext) : Prop :=
  ¬context.Stores context.uniqueId ∧
    (profile = .debug → context.uniqueId.toNat + 1 < 2 ^ 64)

/-- At every store of a run the counter of the storing context is fresh. -/
def AllFresh (profile : Profile) : SharedStorage → List StorageAction → Prop
  | _, [] => True
  | self, action :: later =>
    (∀ i receipt context, action = .call i (.storeReceipt receipt) → self.context i = some context →
      Fresh profile context) ∧
    AllFresh profile (self.step profile action) later

end SharedStorage

/-! ## One call -/

namespace InMemoryContext

variable {profile : Profile} {self : InMemoryContext}
  {receipt : ReceiptWithState Checking SignedReceipt}

theorem storeReceipt_of_fits (h : profile = .debug → self.uniqueId.toNat + 1 < 2 ^ 64) :
    self.storeReceipt profile receipt =
      (.ok self.uniqueId, { self with
        receiptStorage := self.receiptStorage.insert self.uniqueId receipt
        uniqueId := self.uniqueId + 1 }) := by
  have hnext : (plainAdd profile self.uniqueId 1 : Outcome String U64) =
      .ok (self.uniqueId + 1) := by
    refine (plainResult_cases _ _ _).resolve_right fun hpanic ↦ ?_
    obtain ⟨hdebug, hover⟩ := plainAdd_eq_panic.mp hpanic
    exact absurd (h hdebug) (not_lt.mpr hover)
  rw [storeReceipt, hnext]

theorem storeReceipt_eq_ok {receiptId : U64} :
    (self.storeReceipt profile receipt).1 = .ok receiptId ↔
      (profile = .debug → self.uniqueId.toNat + 1 < 2 ^ 64) ∧ receiptId = self.uniqueId := by
  by_cases hfits : profile = .debug → self.uniqueId.toNat + 1 < 2 ^ 64
  · rw [storeReceipt_of_fits hfits, and_iff_right hfits]
    show (.ok self.uniqueId : Outcome String U64) = .ok receiptId ↔ _
    rw [Except.ok.injEq, eq_comm]
  · rw [Classical.not_imp, not_lt] at hfits
    obtain ⟨rfl, hover⟩ := hfits
    have hpanic : (self.storeReceipt .debug receipt).1 = .error .panic := by
      rw [storeReceipt, plainAdd_debug_of_overflow hover]
    rw [hpanic]
    refine iff_of_false (fun h ↦ by cases h) fun h ↦ ?_
    exact absurd (h.1 rfl) (not_lt.mpr hover)

theorem removeReceiptById_lookup {receiptId other : U64} (h : other ≠ receiptId) :
    (self.removeReceiptById receiptId).2.receiptStorage.lookup other =
      self.receiptStorage.lookup other := by
  by_cases hstores : self.Stores receiptId
  · rw [removeReceiptById_of_stores hstores]
    exact AList.lookup_erase_ne h
  · rw [removeReceiptById_of_not_stores hstores]

/-- The loop leaves the ids alone that it is not given. -/
theorem removeReceiptsByIds_lookup {receiptIds : List U64} {other : U64}
    (h : other ∉ receiptIds) :
    (self.removeReceiptsByIds receiptIds).2.receiptStorage.lookup other =
      self.receiptStorage.lookup other := by
  induction receiptIds generalizing self with
  | nil => rfl
  | cons receiptId receiptIds ih =>
    obtain ⟨hne, hrest⟩ := List.ne_and_not_mem_of_not_mem_cons h
    by_cases hstores : self.Stores receiptId
    · rw [removeReceiptsByIds, removeReceiptById_of_stores hstores]
      exact (ih hrest).trans (AList.lookup_erase_ne hne)
    · rw [removeReceiptsByIds, removeReceiptById_of_not_stores hstores]

end InMemoryContext

/-! ## One step -/

namespace SharedStorage

variable {profile : Profile} {self : SharedStorage} {receiptId : U64}
  {receipt : ReceiptWithState Checking SignedReceipt}

theorem context_receiptStorage {i : Nat} {context : InMemoryContext}
    (h : self.context i = some context) : context.receiptStorage = self.receiptStorage := by
  rcases Option.map_eq_some_iff.mp h with ⟨built, -, rfl⟩
  rfl

theorem step_call {i : Nat} {context : InMemoryContext} (h : self.context i = some context)
    (call : StorageCall) : (self.step profile (.call i call)).receiptStorage =
      (call.run profile context).receiptStorage := by
  rw [step, h]

theorem step_storeReceipt {i : Nat} {context : InMemoryContext}
    (h : self.context i = some context) :
    (self.step profile (.call i (.storeReceipt receipt))).receiptStorage =
      self.receiptStorage.insert context.uniqueId receipt := by
  rw [step_call h, ← context_receiptStorage h]
  exact (InMemoryContext.storeReceipt_effect profile receipt context).2.2

/-- A step that does not cover a receipt, and stores under a fresh counter, keeps it. -/
theorem step_lookup (h : self.receiptStorage.lookup receiptId = some receipt)
    {action : StorageAction} (hcover : ¬Covers receiptId receipt action)
    (hfresh : ∀ i other context, action = .call i (.storeReceipt other) →
      self.context i = some context → Fresh profile context) :
    (self.step profile action).receiptStorage.lookup receiptId = some receipt := by
  cases action with
  | new ravStorage senderEscrowStorage timestampCheck => exact h
  | call i call =>
    cases hcontext : self.context i with
    | none =>
      rw [step, hcontext]
      exact h
    | some context =>
      have hstorage := context_receiptStorage hcontext
      cases call with
      | storeReceipt other =>
        have hne : receiptId ≠ context.uniqueId := by
          rintro rfl
          apply (hfresh i other context rfl hcontext).1
          rw [InMemoryContext.Stores, hstorage, h]
          rfl
        rw [step_storeReceipt hcontext, AList.lookup_insert_ne hne]
        exact h
      | removeReceiptById removed =>
        rw [step_call hcontext]
        show (context.removeReceiptById removed).2.receiptStorage.lookup receiptId = _
        rw [InMemoryContext.removeReceiptById_lookup (Ne.symm hcover), hstorage]
        exact h
      | removeReceiptsByIds removed =>
        rw [step_call hcontext]
        show (context.removeReceiptsByIds removed).2.receiptStorage.lookup receiptId = _
        rw [InMemoryContext.removeReceiptsByIds_lookup hcover, hstorage]
        exact h
      | removeReceiptsInTimestampRange range =>
        rw [step_call hcontext]
        apply HashTable.lookup_retain_eq_some.mpr
        rw [hstorage, Bool.not_eq_true', ← Bool.not_eq_true]
        exact ⟨h, hcover⟩

theorem run_lookup (h : self.receiptStorage.lookup receiptId = some receipt)
    {between rest : List StorageAction}
    (hcover : ∀ action ∈ between, ¬Covers receiptId receipt action)
    (hfresh : AllFresh profile self (between ++ rest)) :
    (self.run profile between).receiptStorage.lookup receiptId = some receipt := by
  induction between generalizing self with
  | nil => exact h
  | cons action between ih =>
    rw [List.forall_mem_cons] at hcover
    exact ih (step_lookup h hcover.1 hfresh.1) hcover.2 hfresh.2

/-- Every store of a run keeps its receipt exactly when every counter is fresh where it is used. -/
theorem allKeep_iff (profile : Profile) (self : SharedStorage) (actions : List StorageAction) :
    AllKeep profile self actions ↔ AllFresh profile self actions := by
  induction actions generalizing self with
  | nil => exact Iff.rfl
  | cons action later ih =>
    rw [AllKeep, AllFresh, ih]
    refine and_congr_left fun hlater ↦ ?_
    refine forall₃_congr fun i receipt context ↦ forall₂_congr fun haction hcontext ↦ ?_
    subst haction
    constructor
    · intro h
      rcases h with ⟨receiptId, hkeeps⟩
      obtain ⟨hfits, rfl⟩ := InMemoryContext.storeReceipt_eq_ok.mp hkeeps.returned
      refine ⟨?_, hfits⟩
      rw [InMemoryContext.Stores, context_receiptStorage hcontext, hkeeps.fresh]
      exact Bool.false_ne_true
    · intro hfresh
      have hnone : self.receiptStorage.lookup context.uniqueId = none := by
        rw [← Option.not_isSome_iff_eq_none, ← context_receiptStorage hcontext]
        exact hfresh.1
      refine ⟨context.uniqueId, ?_, hnone, ?_, ?_⟩
      · exact InMemoryContext.storeReceipt_eq_ok.mpr ⟨hfresh.2, rfl⟩
      · intro other hother
        rw [step_storeReceipt hcontext, AList.lookup_insert_ne hother]
      · intro between rest hsplit hcover j reader hreader
        have hstored : (self.step profile (.call i (.storeReceipt receipt))).receiptStorage.lookup
            context.uniqueId = some receipt := by
          rw [step_storeReceipt hcontext, AList.lookup_insert]
        have hkept := run_lookup hstored hcover (hsplit ▸ hlater)
        rw [InMemoryContext.retrieveReceiptById, context_receiptStorage hreader, hkept]

/-! ## Clones of one context -/

/-- Every id in use is below the counter. -/
def Below (context : InMemoryContext) : Prop :=
  ∀ receiptId, context.Stores receiptId → receiptId.toNat < context.uniqueId.toNat

def stores : StorageAction → Bool
  | .call _ (.storeReceipt _) => true
  | _ => false

theorem below_of_shrinks {context after : InMemoryContext} (h : Below context)
    (hshrinks : context.Shrinks after) :
    Below after ∧ after.uniqueId.toNat = context.uniqueId.toNat + 0 := by
  have hcounter : after.uniqueId = context.uniqueId := by
    rcases hshrinks with ⟨remaining, rfl, -⟩
    rfl
  refine ⟨?_, congrArg BitVec.toNat hcounter⟩
  intro receiptId hreceipt
  rw [hcounter]
  exact h receiptId (hshrinks.stores hreceipt)

theorem run_below (profile : Profile) {context : InMemoryContext} (h : Below context)
    (call : StorageCall)
    (hfits : stores (.call 0 call) = true → context.uniqueId.toNat + 1 < 2 ^ 64) :
    Below (call.run profile context) ∧ (call.run profile context).uniqueId.toNat =
      context.uniqueId.toNat + [StorageAction.call 0 call].countP stores := by
  cases call with
  | storeReceipt receipt =>
    have hone : context.uniqueId.toNat + (1 : U64).toNat < 2 ^ 64 := hfits rfl
    have hnext : (context.uniqueId + 1).toNat = context.uniqueId.toNat + 1 :=
      toNat_add_of_fits hone
    rw [StorageCall.run, InMemoryContext.storeReceipt_of_fits fun _ ↦ hone]
    refine ⟨?_, hnext⟩
    intro receiptId hreceipt
    show receiptId.toNat < (context.uniqueId + 1).toNat
    rw [hnext]
    by_cases hnew : receiptId = context.uniqueId
    · rw [hnew]
      omega
    · have hold : context.Stores receiptId := by
        rw [InMemoryContext.Stores, AList.lookup_insert_ne hnew] at hreceipt
        exact hreceipt
      have hbelow := h receiptId hold
      omega
  | removeReceiptById removed =>
    exact below_of_shrinks h (InMemoryContext.removeReceiptById_shrinks removed context)
  | removeReceiptsByIds removed =>
    exact below_of_shrinks h (InMemoryContext.removeReceiptsByIds_shrinks removed context)
  | removeReceiptsInTimestampRange range =>
    exact below_of_shrinks h ⟨_, rfl, fun _ _ hleft ↦ (HashTable.lookup_retain_eq_some.mp hleft).1⟩

/-- One context and its clones always store under a fresh counter when they start over an empty
storage: until the ids run out, no run of theirs overwrites anything. -/
theorem allFresh_of_clones {context : InMemoryContext} {actions : List StorageAction}
    (hbelow : Below context) (hcalls : ∀ action ∈ actions, ∃ call, action = .call 0 call)
    (hids : context.uniqueId.toNat + actions.countP stores < 2 ^ 64) :
    AllFresh profile ⟨context.receiptStorage, [context]⟩ actions := by
  induction actions generalizing context with
  | nil => exact True.intro
  | cons action later ih =>
    rw [List.forall_mem_cons] at hcalls
    rcases hcalls with ⟨⟨call, rfl⟩, hlater⟩
    have hcount : (StorageAction.call 0 call :: later).countP stores =
        [StorageAction.call 0 call].countP stores + later.countP stores := by
      rw [List.countP_cons, List.countP_singleton, Nat.add_comm]
    rw [hcount] at hids
    have hfits : stores (.call 0 call) = true → context.uniqueId.toNat + 1 < 2 ^ 64 := by
      intro hstore
      rw [List.countP_singleton, if_pos hstore] at hids
      omega
    obtain ⟨hnext, hcounter⟩ := run_below profile hbelow call hfits
    have hrest := ih hnext hlater (by omega)
    constructor
    · intro i receipt found haction hfound
      obtain ⟨rfl, rfl⟩ := StorageAction.call.inj haction
      obtain rfl : context = found := Option.some_inj.mp hfound
      refine ⟨fun hstored ↦ ?_, fun _ ↦ hfits rfl⟩
      exact Nat.lt_irrefl _ (hbelow context.uniqueId hstored)
    · exact hrest

open Known in
/-- Two contexts over one storage: the second one's first receipt takes the place of the first
one's. -/
theorem store_overwrites :
    ¬AllKeep .release ⟨∅, []⟩
      [.new none ∅ ⟨0⟩, .new none ∅ ⟨0⟩,
        .call 0 (.storeReceipt (.new (signed .one (Known.receipt 10 1 5)))),
        .call 1 (.storeReceipt (.new (signed .one (Known.receipt 20 2 7))))] := by
  intro h
  rcases h.2.2.2.1 1 _ _ rfl rfl with ⟨receiptId, hkeeps⟩
  obtain ⟨-, rfl⟩ := InMemoryContext.storeReceipt_eq_ok.mp hkeeps.returned
  have hfresh := hkeeps.fresh
  cases hfresh

end SharedStorage

end GraphTally
