import GraphTally.Core.Session
import GraphTally.KnownSignatures

/-!
# Failed calls

What a call on a manager over the in-memory context, or on the context, leaves behind when it
returns an error.  Only the removal of several ids can fail after it has written.
-/

open GraphTally.Theory

namespace GraphTally

/-- The calls that can return an error. -/
inductive Operation where
  | verifyAndStoreReceipt (receipt : SignedReceipt)
  | createRavRequest (clock : SystemTime) (timestampBufferNs : U64) (limit : Option U64)
  | verifyAndStoreRav (expectedRav : ReceiptAggregateVoucher) (signedRav : SignedRav)
  | removeObsoleteReceipts
  | removeReceiptById (receiptId : U64)
  | removeReceiptsByIds (receiptIds : List U64)
  | reduceEscrow (senderId : Address) (value : U128)

/-- The receipts, the RAV, the minimum timestamp and the escrow balances are what they were. -/
structure InMemoryContext.Intact (before after : InMemoryContext) : Prop where
  receipts : after.receiptStorage = before.receiptStorage
  rav : after.ravStorage = before.ravStorage
  minTimestamp : after.timestampCheck = before.timestampCheck
  escrow : after.senderEscrowStorage = before.senderEscrowStorage

theorem InMemoryContext.Intact.refl (context : InMemoryContext) : context.Intact context :=
  ⟨rfl, rfl, rfl, rfl⟩

section Call

variable {ω Domain Key : Type} [Alloy Key] [AlloyText] [SolStruct Domain ReceiptAggregateVoucher]

/-- What a call returns, less the value of a success, and the context it leaves. -/
def Operation.call (indexer : Indexer ω Domain) (around : Surroundings ω)
    (context : InMemoryContext) : Operation → Outcome (Error ⊕ String) Unit × InMemoryContext
  | .verifyAndStoreReceipt receipt =>
    let result := (indexer.manager around).verifyAndStoreReceipt receipt context around.world
    (result.1.mapError .inl, result.2.1)
  | .createRavRequest clock timestampBufferNs limit =>
    let result := (indexer.manager around).createRavRequest indexer.profile clock
      timestampBufferNs limit context around.world
    (Outcome.mapError .inl (result.1.map fun _ ↦ ()), result.2.1)
  | .verifyAndStoreRav expectedRav signedRav =>
    let result := (indexer.manager around).verifyAndStoreRav expectedRav signedRav context
    (result.1.mapError .inl, result.2)
  | .removeObsoleteReceipts =>
    let result := (indexer.manager around).removeObsoleteReceipts context
    (result.1.mapError .inl, result.2)
  | .removeReceiptById receiptId =>
    let result := context.removeReceiptById receiptId
    (result.1.mapError .inr, result.2)
  | .removeReceiptsByIds receiptIds =>
    let result := context.removeReceiptsByIds receiptIds
    (result.1.mapError .inr, result.2)
  | .reduceEscrow senderId value =>
    let result := context.reduceEscrow senderId value
    (result.1.mapError .inr, result.2)

end Call

/-! ## Removing several ids -/

namespace InMemoryContext

def Stores (self : InMemoryContext) (receiptId : U64) : Prop :=
  (self.receiptStorage.lookup receiptId).isSome = true

instance (self : InMemoryContext) (receiptId : U64) : Decidable (self.Stores receiptId) :=
  inferInstanceAs (Decidable (_ = true))

theorem removeReceiptById_of_stores {receiptId : U64} {self : InMemoryContext}
    (h : self.Stores receiptId) : self.removeReceiptById receiptId =
      (.ok (), { self with receiptStorage := self.receiptStorage.erase receiptId }) := by
  rcases Option.isSome_iff_exists.mp h with ⟨receipt, hreceipt⟩
  rw [removeReceiptById, hreceipt]

theorem removeReceiptById_of_not_stores {receiptId : U64} {self : InMemoryContext}
    (h : ¬self.Stores receiptId) : self.removeReceiptById receiptId =
      (.error (.error "something went wrong: No receipt found with ID"), self) := by
  have hnone : self.receiptStorage.lookup receiptId = none := by
    rw [← Option.not_isSome_iff_eq_none]
    exact h
  rw [removeReceiptById, hnone]

theorem stores_erase {receiptId other : U64} {self : InMemoryContext} :
    ({ self with receiptStorage := self.receiptStorage.erase receiptId } :
      InMemoryContext).Stores other ↔ other ≠ receiptId ∧ self.Stores other := by
  show ((self.receiptStorage.erase receiptId).lookup other).isSome = true ↔ _
  by_cases hother : other = receiptId
  · subst hother
    rw [AList.lookup_erase]
    simp
  · rw [AList.lookup_erase_ne hother]
    exact (and_iff_right hother).symm

/-- The ids are all removed when they are stored and none is named twice. -/
theorem removeReceiptsByIds_isOk {receiptIds : List U64} {self : InMemoryContext} :
    (self.removeReceiptsByIds receiptIds).1 = .ok () ↔
      receiptIds.Nodup ∧ ∀ receiptId ∈ receiptIds, self.Stores receiptId := by
  induction receiptIds generalizing self with
  | nil => simp [removeReceiptsByIds]
  | cons receiptId receiptIds ih =>
    rw [List.nodup_cons, List.forall_mem_cons]
    by_cases hstores : self.Stores receiptId
    · rw [removeReceiptsByIds, removeReceiptById_of_stores hstores]
      show (removeReceiptsByIds receiptIds
        { self with receiptStorage := self.receiptStorage.erase receiptId }).1 = .ok () ↔ _
      simp only [ih, stores_erase, forall₂_and, hstores, true_and]
      have hnew : (∀ other ∈ receiptIds, other ≠ receiptId) ↔ receiptId ∉ receiptIds :=
        ⟨fun h hmem ↦ h receiptId hmem rfl, fun h other hmem hsame ↦ h (hsame ▸ hmem)⟩
      rw [hnew, and_left_comm, and_assoc]
    · rw [removeReceiptsByIds, removeReceiptById_of_not_stores hstores]
      simp [hstores]

theorem removeReceiptsByIds_cases (receiptIds : List U64) (self : InMemoryContext) :
    (self.removeReceiptsByIds receiptIds).1 = .ok () ∨
      ∃ e, (self.removeReceiptsByIds receiptIds).1 = .error (.error e) := by
  induction receiptIds generalizing self with
  | nil => exact .inl rfl
  | cons receiptId receiptIds ih =>
    by_cases hstores : self.Stores receiptId
    · rw [removeReceiptsByIds, removeReceiptById_of_stores hstores]
      exact ih _
    · rw [removeReceiptsByIds, removeReceiptById_of_not_stores hstores]
      exact .inr ⟨_, rfl⟩

/-- Receipts may have been removed, and nothing else was written. -/
def Shrinks (before after : InMemoryContext) : Prop :=
  ∃ remaining, after = { before with receiptStorage := remaining } ∧
    ∀ receiptId receipt, remaining.lookup receiptId = some receipt →
      before.receiptStorage.lookup receiptId = some receipt

theorem Shrinks.refl (self : InMemoryContext) : self.Shrinks self :=
  ⟨self.receiptStorage, rfl, fun _ _ h ↦ h⟩

theorem Shrinks.trans {before between after : InMemoryContext} (h : before.Shrinks between)
    (h' : between.Shrinks after) : before.Shrinks after := by
  rcases h with ⟨remaining, rfl, hkept⟩
  rcases h' with ⟨remaining', rfl, hkept'⟩
  exact ⟨remaining', rfl, fun receiptId receipt hleft ↦ hkept _ _ (hkept' receiptId receipt hleft)⟩

theorem Shrinks.stores {before after : InMemoryContext} (h : before.Shrinks after)
    {receiptId : U64} (hstores : after.Stores receiptId) : before.Stores receiptId := by
  rcases h with ⟨remaining, rfl, hkept⟩
  rcases Option.isSome_iff_exists.mp hstores with ⟨receipt, hreceipt⟩
  exact Option.isSome_iff_exists.mpr ⟨receipt, hkept receiptId receipt hreceipt⟩

theorem removeReceiptById_shrinks (receiptId : U64) (self : InMemoryContext) :
    self.Shrinks (self.removeReceiptById receiptId).2 := by
  by_cases hstores : self.Stores receiptId
  · rw [removeReceiptById_of_stores hstores]
    refine ⟨self.receiptStorage.erase receiptId, rfl, fun other receipt hother ↦ ?_⟩
    have hne : other ≠ receiptId := by
      rintro rfl
      rw [AList.lookup_erase] at hother
      cases hother
    rw [AList.lookup_erase_ne hne] at hother
    exact hother
  · rw [removeReceiptById_of_not_stores hstores]
    exact .refl self

theorem removeReceiptsByIds_shrinks (receiptIds : List U64) (self : InMemoryContext) :
    self.Shrinks (self.removeReceiptsByIds receiptIds).2 := by
  induction receiptIds generalizing self with
  | nil => exact .refl self
  | cons receiptId receiptIds ih =>
    have hfirst := removeReceiptById_shrinks receiptId self
    rw [removeReceiptsByIds]
    by_cases hstores : self.Stores receiptId
    · rw [removeReceiptById_of_stores hstores] at hfirst ⊢
      exact hfirst.trans (ih _)
    · rw [removeReceiptById_of_not_stores hstores]
      exact .refl self

/-- An error of the loop leaves the receipts alone when the first id is missing already. -/
theorem removeReceiptsByIds_intact_iff {receiptIds : List U64} {self : InMemoryContext}
    (h : (self.removeReceiptsByIds receiptIds).1 ≠ .ok ()) :
    self.Intact (self.removeReceiptsByIds receiptIds).2 ↔
      ∀ receiptId ∈ receiptIds.head?, ¬self.Stores receiptId := by
  cases receiptIds with
  | nil => exact absurd rfl h
  | cons receiptId receiptIds =>
    simp only [List.head?_cons, Option.mem_some_iff, forall_eq']
    constructor
    · intro hintact hstores
      -- the first id was erased, and no later turn puts it back
      have hgone : ¬(self.removeReceiptsByIds (receiptId :: receiptIds)).2.Stores receiptId := by
        rw [removeReceiptsByIds, removeReceiptById_of_stores hstores]
        intro hleft
        exact (stores_erase.mp ((removeReceiptsByIds_shrinks _ _).stores hleft)).1 rfl
      apply hgone
      rw [Stores, hintact.receipts]
      exact hstores
    · intro hstores
      rw [removeReceiptsByIds, removeReceiptById_of_not_stores hstores]
      exact .refl self

theorem removeReceiptById_intact {receiptId : U64} {self : InMemoryContext} {e : Failure String}
    (h : (self.removeReceiptById receiptId).1 = .error e) :
    self.Intact (self.removeReceiptById receiptId).2 := by
  by_cases hstores : self.Stores receiptId
  · rw [removeReceiptById_of_stores hstores] at h
    cases h
  · rw [removeReceiptById_of_not_stores hstores]
    exact .refl self

theorem reduceEscrow_intact {senderId : Address} {value : U128} {self : InMemoryContext}
    {e : Failure String} (h : (self.reduceEscrow senderId value).1 = .error e) :
    self.Intact (self.reduceEscrow senderId value).2 := by
  unfold reduceEscrow at h ⊢
  cases hcurrent : self.senderEscrowStorage.lookup senderId with
  | none => exact .refl self
  | some current =>
    rw [hcurrent] at h
    dsimp only at h ⊢
    by_cases hless : current.toNat < value.toNat
    · rw [if_pos hless]
      exact .refl self
    · rw [if_neg hless] at h
      cases h

end InMemoryContext

/-! ## Every call -/

/-- The list starts with a stored id and goes on to one that is missing by then. -/
def Operation.StopsPartway (context : InMemoryContext) : Operation → Prop
  | .removeReceiptsByIds receiptIds =>
    (∃ receiptId ∈ receiptIds.head?, context.Stores receiptId) ∧
      ¬(receiptIds.Nodup ∧ ∀ receiptId ∈ receiptIds, context.Stores receiptId)
  | _ => False

section Intact

variable {ω Domain Key : Type} [Alloy Key] [AlloyText] [SolStruct Domain ReceiptAggregateVoucher]
  {indexer : Indexer ω Domain} {around : Surroundings ω} {context : InMemoryContext}

namespace Operation

theorem verifyAndStoreReceipt_intact {receipt : SignedReceipt} {e : Error ⊕ String}
    (h : (call indexer around context (.verifyAndStoreReceipt receipt)).1 = .error (.error e)) :
    context.Intact (call indexer around context (.verifyAndStoreReceipt receipt)).2 := by
  rcases Outcome.mapError_eq_error.mp h with ⟨e, herror, -⟩
  rcases hstore : (indexer.manager around).verifyAndStoreReceipt receipt context
    around.world with ⟨outcome, context', world'⟩
  rw [hstore] at herror
  have hcontext : (call indexer around context (.verifyAndStoreReceipt receipt)).2 = context' :=
    congrArg (fun result ↦ result.2.1) hstore
  rw [hcontext]
  rcases InMemoryContext.verifyAndStoreReceipt_cases hstore with ⟨-, rfl⟩ | ⟨hstored, -⟩
  · exact .refl context'
  · exact absurd herror (hstored e)

-- A request only reads, whether it fails or not.
theorem createRavRequest_intact (clock : SystemTime) (timestampBufferNs : U64)
    (limit : Option U64) : context.Intact
      (call indexer around context (.createRavRequest clock timestampBufferNs limit)).2 := by
  have hreadOnly : ((indexer.manager around).createRavRequest indexer.profile clock
      timestampBufferNs limit context around.world).2.1 = context :=
    Manager.createRavRequest_readOnly (fun _ ↦ rfl) (fun _ _ _ ↦ rfl)
  show context.Intact ((indexer.manager around).createRavRequest indexer.profile clock
    timestampBufferNs limit context around.world).2.1
  rw [hreadOnly]
  exact .refl context

theorem verifyAndStoreRav_intact {expectedRav : ReceiptAggregateVoucher} {signedRav : SignedRav}
    {e : Error ⊕ String}
    (h : (call indexer around context (.verifyAndStoreRav expectedRav signedRav)).1 =
      .error (.error e)) :
    context.Intact (call indexer around context (.verifyAndStoreRav expectedRav signedRav)).2 := by
  unfold call at h ⊢
  dsimp only at h ⊢
  rcases indexer.verifyAndStoreRav_cases around expectedRav signedRav context with
    ⟨e, hrefused⟩ | ⟨-, hstored⟩
  · rw [hrefused]
    exact .refl context
  · rw [hstored] at h
    cases h

theorem removeObsoleteReceipts_ok :
    (call indexer around context .removeObsoleteReceipts).1 = .ok () := by
  apply Outcome.mapError_eq_ok.mpr
  unfold Manager.removeObsoleteReceipts Indexer.manager
  rw [InMemoryContext.getPreviousRav_eq]
  cases context.ravStorage with
  | none => rfl
  | some rav => rfl

theorem removeReceiptById_intact {receiptId : U64} {e : Error ⊕ String}
    (h : (call indexer around context (.removeReceiptById receiptId)).1 = .error (.error e)) :
    context.Intact (call indexer around context (.removeReceiptById receiptId)).2 := by
  rcases Outcome.mapError_eq_error.mp h with ⟨e, herror, -⟩
  exact InMemoryContext.removeReceiptById_intact herror

theorem reduceEscrow_intact {senderId : Address} {value : U128} {e : Error ⊕ String}
    (h : (call indexer around context (.reduceEscrow senderId value)).1 = .error (.error e)) :
    context.Intact (call indexer around context (.reduceEscrow senderId value)).2 := by
  rcases Outcome.mapError_eq_error.mp h with ⟨e, herror, -⟩
  exact InMemoryContext.reduceEscrow_intact herror

theorem removeReceiptsByIds_intact_iff (receiptIds : List U64) :
    ((∃ e, (call indexer around context (.removeReceiptsByIds receiptIds)).1 =
        .error (.error e)) →
      context.Intact (call indexer around context (.removeReceiptsByIds receiptIds)).2) ↔
      ¬StopsPartway context (.removeReceiptsByIds receiptIds) := by
  show ((∃ e, (Outcome.mapError .inr (context.removeReceiptsByIds receiptIds).1 :
    Outcome (Error ⊕ String) Unit) = .error (.error e)) →
      context.Intact (context.removeReceiptsByIds receiptIds).2) ↔ ¬(_ ∧ _)
  by_cases hok : (context.removeReceiptsByIds receiptIds).1 = .ok ()
  · have hall := InMemoryContext.removeReceiptsByIds_isOk.mp hok
    rw [hok]
    refine iff_of_true ?_ fun hstops ↦ hstops.2 hall
    intro h
    rcases h with ⟨e, h⟩
    cases h
  · have herr : ∃ e, (Outcome.mapError .inr (context.removeReceiptsByIds receiptIds).1 :
        Outcome (Error ⊕ String) Unit) = .error (.error e) := by
      rcases (context.removeReceiptsByIds_cases receiptIds).resolve_left hok with ⟨e, he⟩
      exact ⟨.inr e, Outcome.mapError_eq_error.mpr ⟨e, he, rfl⟩⟩
    have hnot : ¬(receiptIds.Nodup ∧ ∀ receiptId ∈ receiptIds, context.Stores receiptId) :=
      fun hall ↦ hok (InMemoryContext.removeReceiptsByIds_isOk.mpr hall)
    rw [forall_prop_of_true herr, InMemoryContext.removeReceiptsByIds_intact_iff hok,
      and_iff_left hnot]
    simp only [not_exists, not_and]

end Operation

/-- An error leaves the context as it was, except in a removal that stops partway. -/
theorem Operation.call_intact_iff (indexer : Indexer ω Domain) (around : Surroundings ω)
    (context : InMemoryContext) (operation : Operation) :
    ((∃ e, (operation.call indexer around context).1 = .error (.error e)) →
        context.Intact (operation.call indexer around context).2) ↔
      ¬operation.StopsPartway context := by
  cases operation with
  | verifyAndStoreReceipt receipt =>
    exact iff_of_true (fun h ↦ h.elim fun _ ↦ verifyAndStoreReceipt_intact) not_false
  | createRavRequest clock timestampBufferNs limit =>
    exact iff_of_true (fun _ ↦ createRavRequest_intact clock timestampBufferNs limit) not_false
  | verifyAndStoreRav expectedRav signedRav =>
    exact iff_of_true (fun h ↦ h.elim fun _ ↦ verifyAndStoreRav_intact) not_false
  | removeObsoleteReceipts =>
    refine iff_of_true ?_ not_false
    intro h
    rcases h with ⟨e, h⟩
    rw [removeObsoleteReceipts_ok] at h
    cases h
  | removeReceiptById receiptId =>
    exact iff_of_true (fun h ↦ h.elim fun _ ↦ removeReceiptById_intact) not_false
  | removeReceiptsByIds receiptIds => exact removeReceiptsByIds_intact_iff receiptIds
  | reduceEscrow senderId value =>
    exact iff_of_true (fun h ↦ h.elim fun _ ↦ reduceEscrow_intact) not_false

end Intact

open Known in
/-- The first receipt is gone although the call failed. -/
theorem InMemoryContext.removeReceiptsByIds_partial :
    let receiptStorage : ReceiptStorage := AList.insert 0 (.new (signed .one (receipt 10 1 5))) ∅
    let context := InMemoryContext.new none receiptStorage ∅ ⟨0⟩
    (context.removeReceiptsByIds [0, 1]).1 =
        .error (.error "something went wrong: No receipt found with ID") ∧
      ¬context.Intact (context.removeReceiptsByIds [0, 1]).2 := by
  refine ⟨rfl, ?_⟩
  intro hintact
  have hreceipts := congrArg (AList.lookup 0) hintact.receipts
  cases hreceipts

end GraphTally
