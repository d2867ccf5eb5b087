import GraphTally.Core.Memory
import GraphTally.KnownSignatures

/-!
# How a batch is split

`collect_receipts` over checks that judge the receipt alone: what makes it give up, and which of
the retrieved receipts it returns on which side.
-/

open GraphTally.Theory

namespace GraphTally

/-! ## Checks that judge the receipt alone -/

section Answers

variable {ω Rcpt : Type}

/-- Each check gives its answer whatever the state outside. -/
def AnswersBy (checks : CheckList ω Rcpt) (answers : List (Rcpt → Except CheckError Unit)) :
    Prop :=
  List.Forall₂ (fun check answer ↦ ∀ receipt world, (check receipt world).1 =
    answer receipt.receipt) checks answers

/-- The first answer that is not `Ok`. -/
def firstFailure : List (Rcpt → Except CheckError Unit) → Rcpt → Option CheckError
  | [], _ => none
  | answer :: answers, receipt =>
    match answer receipt with
    | .ok () => firstFailure answers receipt
    | .error e => some e

theorem firstFailure_eq_none {answers : List (Rcpt → Except CheckError Unit)} {receipt : Rcpt} :
    firstFailure answers receipt = none ↔ ∀ answer ∈ answers, answer receipt = .ok () := by
  induction answers with
  | nil => simp [firstFailure]
  | cons answer answers ih =>
    rw [firstFailure, List.forall_mem_cons]
    split
    · rename_i hok
      rw [ih, hok]
      simp
    · rename_i e herror
      simp [herror]

theorem firstFailure_ne_retryable {answers : List (Rcpt → Except CheckError Unit)}
    (h : ∀ answer ∈ answers, ∀ receipt source, answer receipt ≠ .error (.retryable source))
    (receipt : Rcpt) (source : String) :
    firstFailure answers receipt ≠ some (.retryable source) := by
  induction answers with
  | nil => simp [firstFailure]
  | cons answer answers ih =>
    rw [firstFailure]
    split
    · exact ih fun other hother ↦ h other (List.mem_cons_of_mem _ hother)
    · rename_i e herror
      intro hretryable
      rw [Option.some_inj] at hretryable
      exact h answer List.mem_cons_self receipt source (hretryable ▸ herror)

-- Nothing outside can change.
theorem answersBy_unit (checks : CheckList Unit Rcpt) :
    AnswersBy checks (checks.map fun check receipt ↦ (check (.new receipt) ()).1) := by
  apply List.forall₂_map_right_iff.mpr
  exact List.forall₂_same.mpr fun _ _ _ _ ↦ rfl

variable {checks : CheckList ω Rcpt} {answers : List (Rcpt → Except CheckError Unit)}

theorem performChecks_answers (h : AnswersBy checks answers)
    (receipt : ReceiptWithState Checking Rcpt) (world : ω) :
    (receipt.performChecks checks world).1 = match firstFailure answers receipt.receipt with
      | none => .ok ()
      | some (.retryable e) => .error (.retryableCheck e)
      | some (.failed e) => .error (.checkFailure e) := by
  induction h generalizing world with
  | nil => rfl
  | @cons check answer checks answers hcheck _ ih =>
    have hanswer := hcheck receipt world
    rw [ReceiptWithState.performChecks, firstFailure]
    rw [← hanswer]
    rcases check receipt world with ⟨(e | e) | _, world'⟩
    · rfl
    · rfl
    · exact ih world'

theorem finalizeReceiptChecks_answers (h : AnswersBy checks answers)
    (receipt : ReceiptWithState Checking Rcpt) (world : ω) :
    (receipt.finalizeReceiptChecks checks world).1 =
      match firstFailure answers receipt.receipt with
      | none => .ok (.inl (receipt.performStateChanges ⟨⟩))
      | some (.retryable e) => .error e
      | some (.failed e) => .ok (.inr (receipt.performStateError (.checkFailure e))) := by
  have hperform := performChecks_answers h receipt world
  rw [ReceiptWithState.finalizeReceiptChecks]
  rcases hresult : receipt.performChecks checks world with ⟨result, world'⟩
  rw [hresult] at hperform
  rcases hfailure : firstFailure answers receipt.receipt with _ | (e | e) <;>
    rw [hfailure] at hperform <;> cases hperform <;> rfl

/-- The loop gives up exactly when it meets a retryable failure. -/
theorem finalizeReceipts_error_iff (h : AnswersBy checks answers)
    (receipts : List (ReceiptWithState Checking Rcpt)) (world : ω) :
    (∃ e, (finalizeReceipts checks receipts world).1 = .error e) ↔
      ∃ receipt ∈ receipts, ∃ source,
        firstFailure answers receipt.receipt = some (.retryable source) := by
  induction receipts generalizing world with
  | nil => simp [finalizeReceipts]
  | cons receipt receipts ih =>
    have hreceipt := finalizeReceiptChecks_answers h receipt world
    rw [finalizeReceipts, List.exists_mem_cons_iff]
    rcases hresult : receipt.finalizeReceiptChecks checks world with ⟨result, world'⟩
    rw [hresult] at hreceipt
    have hrest := ih world'
    rcases hfailure : firstFailure answers receipt.receipt with _ | (e | e) <;>
      rw [hfailure] at hreceipt <;> cases hreceipt
    · simp only [reduceCtorEq, exists_false, false_or]
      rw [← hrest]
      rcases finalizeReceipts checks receipts world' with ⟨_ | _, _⟩ <;> simp
    · simp
    · simp only [Option.some_inj, reduceCtorEq, exists_false, false_or]
      rw [← hrest]
      rcases finalizeReceipts checks receipts world' with ⟨_ | _, _⟩ <;> simp

-- Otherwise it keeps the receipts that pass, in order, and says why it failed the others.
theorem finalizeReceipts_answers (h : AnswersBy checks answers)
    {receipts : List (ReceiptWithState Checking Rcpt)} {world : ω}
    {result : List (ReceiptWithState Checked Rcpt) × List (ReceiptWithState Failed Rcpt)}
    (hresult : (finalizeReceipts checks receipts world).1 = .ok result) :
    receiptsOf result.1 = (receiptsOf receipts).filter (firstFailure answers · = none) ∧
      ∀ failed ∈ result.2, ∃ source,
        firstFailure answers failed.receipt = some (.failed source) := by
  induction receipts generalizing world result with
  | nil =>
    cases hresult
    exact ⟨rfl, by simp⟩
  | cons receipt receipts ih =>
    rcases finalizeReceipts_cons_ok hresult with ⟨finalized, rest, world', hfinalized, hrest, rfl⟩
    rcases ih hrest with ⟨hvalid, hfailed⟩
    rw [finalizeReceiptChecks_answers h] at hfinalized
    rcases hfailure : firstFailure answers receipt.receipt with _ | (e | e) <;>
      rw [hfailure] at hfinalized <;> cases hfinalized
    · refine ⟨?_, hfailed⟩
      show receipt.receipt :: receiptsOf rest.1 = _
      rw [hvalid, receiptsOf_cons, List.filter_cons_of_pos (by simpa using hfailure)]
    · constructor
      · show receiptsOf rest.1 = _
        rw [hvalid, receiptsOf_cons, List.filter_cons_of_neg (by simp [hfailure])]
      · intro failed hmem
        rcases List.mem_cons.mp hmem with rfl | hmem
        · exact ⟨e, hfailure⟩
        · exact hfailed failed hmem

end Answers

/-! ## What passes the two batch checks -/

section Survivors

variable {Rcpt Id : Type} [DecidableEq Id] [WithUniqueId Rcpt Id]

-- Of each id that is new to the loop, the first receipt passes.
theorem UniqueCheck.checkFrom_filter (signatures : Finset Id)
    (receipts : List (ReceiptWithState Checking Rcpt)) (id : Id) :
    (receiptsOf (UniqueCheck.checkFrom signatures receipts).1).filter (uniqueId · = id) =
      if id ∈ signatures then []
      else ((receiptsOf receipts).find? (uniqueId · = id)).toList := by
  induction receipts generalizing signatures with
  | nil => simp [UniqueCheck.checkFrom]
  | cons receipt receipts ih =>
    rw [UniqueCheck.checkFrom, receiptsOf_cons]
    have hrest := ih (insert (uniqueId receipt.receipt) signatures)
    by_cases hsame : uniqueId receipt.receipt = id
    · subst hsame
      rw [if_pos (Finset.mem_insert_self _ _)] at hrest
      by_cases hseen : uniqueId receipt.receipt ∈ signatures
      · rw [if_pos hseen, if_pos hseen]
        exact hrest
      · rw [if_neg hseen, if_neg hseen, receiptsOf_cons, List.filter_cons_of_pos (by simp), hrest,
          List.find?_cons_of_pos (by simp)]
        rfl
    · have hmem : id ∈ insert (uniqueId receipt.receipt) signatures ↔ id ∈ signatures := by
        rw [Finset.mem_insert, or_iff_right (Ne.symm hsame)]
      rw [List.find?_cons_of_neg (by simpa using hsame), ← if_congr hmem rfl rfl, ← hrest]
      split
      · rfl
      · rw [receiptsOf_cons, List.filter_cons_of_neg (by simpa using hsame)]

-- A receipt that fails shares its id with an earlier one, or with one seen before.
theorem UniqueCheck.checkFrom_repeats {signatures : Finset Id}
    {receipts : List (ReceiptWithState Checking Rcpt)} {failed : ReceiptWithState Failed Rcpt}
    (h : failed ∈ (UniqueCheck.checkFrom signatures receipts).2) :
    (uniqueId failed.receipt ∈ signatures ∧ failed.receipt ∈ receiptsOf receipts) ∨
      ∃ earlier, [earlier, failed.receipt].Sublist (receiptsOf receipts) ∧
        uniqueId earlier = uniqueId failed.receipt := by
  induction receipts generalizing signatures with
  | nil => cases h
  | cons receipt receipts ih =>
    -- it failed at the head, or later with the head's id seen as well
    have hcases : failed ∈ (UniqueCheck.checkFrom (insert (uniqueId receipt.receipt) signatures)
        receipts).2 ∨
          (uniqueId receipt.receipt ∈ signatures ∧ failed.receipt = receipt.receipt) := by
      rw [UniqueCheck.checkFrom] at h
      split at h
      · rename_i hseen
        rcases List.mem_cons.mp h with rfl | h
        · exact .inr ⟨hseen, rfl⟩
        · exact .inl h
      · exact .inl h
    rw [receiptsOf_cons]
    rcases hcases with hlater | ⟨hseen, hsame⟩
    · rcases ih hlater with ⟨hid, hmem⟩ | ⟨earlier, hsublist, hid⟩
      · rcases Finset.mem_insert.mp hid with hid | hid
        · exact .inr ⟨receipt.receipt, (List.singleton_sublist.mpr hmem).cons_cons _, hid.symm⟩
        · exact .inl ⟨hid, List.mem_cons_of_mem _ hmem⟩
      · exact .inr ⟨earlier, hsublist.cons _, hid⟩
    · rw [hsame]
      exact .inl ⟨hseen, List.mem_cons_self⟩

variable [WithValueAndTimestamp Rcpt]

theorem TimestampCheck.checkBatch_early {min : U64}
    {receipts : List (ReceiptWithState Checking Rcpt)} {failed : ReceiptWithState Failed Rcpt}
    (h : failed ∈ (TimestampCheck.checkBatch min receipts).2) :
    (timestampNs failed.receipt).toNat < min.toNat := by
  induction receipts with
  | nil => cases h
  | cons receipt receipts ih =>
    rw [TimestampCheck.checkBatch] at h
    split at h
    · exact ih h
    · rename_i hearly
      rcases List.mem_cons.mp h with rfl | h
      · exact Nat.lt_of_not_le hearly
      · exact ih h

theorem TimestampCheck.checkBatch_receiptsOf (min : U64)
    (receipts : List (ReceiptWithState Checking Rcpt)) :
    receiptsOf (TimestampCheck.checkBatch min receipts).1 =
      (receiptsOf receipts).filter fun receipt ↦ min.toNat ≤ (timestampNs receipt).toNat := by
  rw [TimestampCheck.checkBatch_checking, receiptsOf, receiptsOf, List.filter_map]
  rfl

/-- The receipts that the timestamp and the uniqueness check both let through. -/
def survivors (min : U64) (retrieved : List (ReceiptWithState Checking Rcpt)) :
    List (ReceiptWithState Checking Rcpt) :=
  (UniqueCheck.checkBatch (TimestampCheck.checkBatch min retrieved).1).1

/-- The first receipt at or above the minimum with an id is its only survivor. -/
theorem survivors_filter (min : U64) (retrieved : List (ReceiptWithState Checking Rcpt)) (id : Id) :
    (receiptsOf (survivors min retrieved)).filter (uniqueId · = id) =
      ((receiptsOf retrieved).find? fun receipt ↦
        min.toNat ≤ (timestampNs receipt).toNat ∧ uniqueId receipt = id).toList := by
  rw [survivors, UniqueCheck.checkBatch, UniqueCheck.checkFrom_filter, if_neg (by simp),
    TimestampCheck.checkBatch_receiptsOf, List.find?_filter]
  simp only [decide_eq_true_eq, Bool.decide_and]

end Survivors

/-! ## One call of `collect_receipts` -/

namespace Manager

variable {σ ω Rcpt Rav Domain Id : Type} [WithValueAndTimestamp Rcpt] [DecidableEq Id]
  [WithUniqueId Rcpt Id] {manager : Manager σ ω Rcpt Rav Domain} {profile : Profile}
  {clock : SystemTime} {timestampBufferNs min max : U64} {limit : Option U64} {s s' : σ}
  {world : ω} {retrieved : List (ReceiptWithState Checking Rcpt)}

/-- The store was asked for the window below `max`, and returned `retrieved`. -/
structure Retrieves (manager : Manager σ ω Rcpt Rav Domain) (profile : Profile)
    (clock : SystemTime) (timestampBufferNs min : U64) (limit : Option U64) (s : σ) (max : U64)
    (retrieved : List (ReceiptWithState Checking Rcpt)) (s' : σ) : Prop where
  upperEnd : maxTimestampNs profile clock timestampBufferNs = .ok max
  window : min.toNat ≤ max.toNat
  read : manager.context.retrieveReceiptsInTimestampRange (.halfOpen min max) limit s =
    (.ok retrieved, s')

-- From there on only the loop of checks can fail.
theorem Retrieves.collectReceipts_eq (h : Retrieves manager profile clock timestampBufferNs min
      limit s max retrieved s') (world : ω) :
    (manager.collectReceipts profile clock timestampBufferNs min limit s world).1 =
      match (finalizeReceipts (manager.checks s') (survivors min retrieved) world).1 with
      | .error e => .error (.error (.receiptError (.retryableCheck e)))
      | .ok finalized => .ok (finalized.1, (TimestampCheck.checkBatch min retrieved).2 ++
          (UniqueCheck.checkBatch (TimestampCheck.checkBatch min retrieved).1).2 ++
            finalized.2) := by
  have hwindow : ¬max.toNat < min.toNat := by
    have hle := h.window
    omega
  unfold collectReceipts survivors
  simp only [h.upperEnd, h.read, if_neg hwindow]
  rcases finalizeReceipts (manager.checks s')
    (UniqueCheck.checkBatch (TimestampCheck.checkBatch min retrieved).1).1 world with ⟨_ | _, _⟩ <;>
    rfl

/-- What a successful call says of its window and its batch is said of this retrieval. -/
theorem Retrieves.collected (h : Retrieves manager profile clock timestampBufferNs min limit s max
      retrieved s')
    {valid : List (ReceiptWithState Checked Rcpt)} {invalid : List (ReceiptWithState Failed Rcpt)}
    (hcollect : (manager.collectReceipts profile clock timestampBufferNs min limit s world).1 =
      .ok (valid, invalid)) :
    ∃ now, Collected manager profile clock timestampBufferNs min limit s valid invalid now max
      retrieved := by
  rcases collectReceipts_ok hcollect with ⟨now, max', retrieved', hcollected⟩
  have hupper : maxTimestampNs profile clock timestampBufferNs = .ok max' :=
    except_bind_eq_ok.mpr ⟨now, hcollected.clockRead, hcollected.upperEnd⟩
  obtain rfl : max' = max := Except.ok.inj (hupper.symm.trans h.upperEnd)
  have hread := hcollected.read
  rw [h.read] at hread
  obtain rfl : retrieved = retrieved' := Except.ok.inj hread
  exact ⟨now, hcollected⟩

variable {answers : List (Rcpt → Except CheckError Unit)}

theorem Retrieves.collectReceipts_error_iff (h : Retrieves manager profile clock timestampBufferNs
      min limit s max retrieved s') (hanswers : AnswersBy (manager.checks s') answers) :
    (∃ e, (manager.collectReceipts profile clock timestampBufferNs min limit s world).1 =
        .error e) ↔
      ∃ receipt ∈ survivors min retrieved, ∃ source,
        firstFailure answers receipt.receipt = some (.retryable source) := by
  rw [← finalizeReceipts_error_iff hanswers _ world, h.collectReceipts_eq]
  rcases (finalizeReceipts (manager.checks s') (survivors min retrieved) world).1 with _ | _ <;>
    simp

-- A call that succeeds has got through the loop of checks.
theorem Retrieves.finalized (h : Retrieves manager profile clock timestampBufferNs min limit s max
      retrieved s')
    {valid : List (ReceiptWithState Checked Rcpt)} {invalid : List (ReceiptWithState Failed Rcpt)}
    (hcollect : (manager.collectReceipts profile clock timestampBufferNs min limit s world).1 =
      .ok (valid, invalid)) :
    ∃ failed, (finalizeReceipts (manager.checks s') (survivors min retrieved) world).1 =
        .ok (valid, failed) ∧
      invalid = (TimestampCheck.checkBatch min retrieved).2 ++
        (UniqueCheck.checkBatch (TimestampCheck.checkBatch min retrieved).1).2 ++ failed := by
  rw [h.collectReceipts_eq] at hcollect
  split at hcollect
  · cases hcollect
  · rename_i finalized hfinalized
    cases hcollect
    exact ⟨finalized.2, hfinalized, rfl⟩

/-- The valid receipts are the survivors that pass, in the order they were retrieved. -/
theorem Retrieves.collectReceipts_valid (h : Retrieves manager profile clock timestampBufferNs
      min limit s max retrieved s') (hanswers : AnswersBy (manager.checks s') answers)
    {valid : List (ReceiptWithState Checked Rcpt)} {invalid : List (ReceiptWithState Failed Rcpt)}
    (hcollect : (manager.collectReceipts profile clock timestampBufferNs min limit s world).1 =
      .ok (valid, invalid)) :
    receiptsOf valid =
      (receiptsOf (survivors min retrieved)).filter (firstFailure answers · = none) := by
  rcases h.finalized hcollect with ⟨failed, hfinalized, -⟩
  exact (finalizeReceipts_answers hanswers hfinalized).1

/-- Each invalid receipt is too early, or repeats an id, or fails a check. -/
theorem Retrieves.collectReceipts_invalid (h : Retrieves manager profile clock timestampBufferNs
      min limit s max retrieved s') (hanswers : AnswersBy (manager.checks s') answers)
    {valid : List (ReceiptWithState Checked Rcpt)} {invalid : List (ReceiptWithState Failed Rcpt)}
    (hcollect : (manager.collectReceipts profile clock timestampBufferNs min limit s world).1 =
      .ok (valid, invalid)) :
    ∀ receipt ∈ receiptsOf invalid, (timestampNs receipt).toNat < min.toNat ∨
      (∃ earlier, [earlier, receipt].Sublist (receiptsOf retrieved) ∧
        min.toNat ≤ (timestampNs earlier).toNat ∧ uniqueId earlier = uniqueId receipt) ∨
      ∃ answer ∈ answers, answer receipt ≠ .ok () := by
  intro receipt hreceipt
  rcases h.finalized hcollect with ⟨failures, hfinalized, rfl⟩
  rcases mem_receiptsOf.mp hreceipt with ⟨failed, hfailed, rfl⟩
  rcases List.mem_append.mp hfailed with hfailed | hfailed
  · rcases List.mem_append.mp hfailed with hearly | hrepeats
    · exact .inl (TimestampCheck.checkBatch_early hearly)
    · -- the check starts from no id at all
      rcases UniqueCheck.checkFrom_repeats hrepeats with ⟨hseen, -⟩ | ⟨earlier, hsublist, hid⟩
      · exact absurd hseen (Finset.notMem_empty _)
      · rw [TimestampCheck.checkBatch_receiptsOf] at hsublist
        have hmem := hsublist.subset List.mem_cons_self
        have hinRange := (List.mem_filter.mp hmem).2
        exact .inr (.inl ⟨earlier, hsublist.trans List.filter_sublist,
          decide_eq_true_eq.mp hinRange, hid⟩)
  · rcases (finalizeReceipts_answers hanswers hfinalized).2 failed hfailed with ⟨source, hfailure⟩
    apply Or.inr
    apply Or.inr
    by_contra hpasses
    push Not at hpasses
    rw [firstFailure_eq_none.mpr hpasses] at hfailure
    cases hfailure

end Manager

/-- How a batch is to be split, given what the checks answer. -/
structure IsSplit {Rcpt Id : Type} [WithValueAndTimestamp Rcpt] [DecidableEq Id]
    [WithUniqueId Rcpt Id] (answers : List (Rcpt → Except CheckError Unit)) (min : U64)
    (retrieved : List (ReceiptWithState Checking Rcpt)) (valid invalid : List Rcpt) : Prop where
  partition : (valid ++ invalid).Perm (receiptsOf retrieved)
  distinct : (valid.map uniqueId).Nodup
  passes : ∀ receipt ∈ valid, min.toNat ≤ (timestampNs receipt).toNat ∧
    ∀ answer ∈ answers, answer receipt = .ok ()
  reasons : ∀ receipt ∈ invalid, (timestampNs receipt).toNat < min.toNat ∨
    (∃ earlier, [earlier, receipt].Sublist (receiptsOf retrieved) ∧
      min.toNat ≤ (timestampNs earlier).toNat ∧ uniqueId earlier = uniqueId receipt) ∨
    ∃ answer ∈ answers, answer receipt ≠ .ok ()
  /-- No survivor that passes is on the other side. -/
  complete : valid = (receiptsOf (survivors min retrieved)).filter (firstFailure answers · = none)

section Claims

variable {σ ω Rcpt Rav Domain Id : Type} [WithValueAndTimestamp Rcpt] [DecidableEq Id]
  [WithUniqueId Rcpt Id] {manager : Manager σ ω Rcpt Rav Domain} {profile : Profile}
  {clock : SystemTime} {timestampBufferNs min max : U64} {limit : Option U64} {s s' : σ}
  {retrieved : List (ReceiptWithState Checking Rcpt)}
  {answers : List (Rcpt → Except CheckError Unit)}

/-- The call fails exactly on a survivor whose first failure is retryable, and otherwise splits
what was retrieved. -/
theorem collectReceipts_splits
    (h : manager.Retrieves profile clock timestampBufferNs min limit s max retrieved s')
    (hanswers : AnswersBy (manager.checks s') answers) (world : ω) :
    ((∃ e, (manager.collectReceipts profile clock timestampBufferNs min limit s world).1 =
        .error e) ↔
      ∃ receipt ∈ survivors min retrieved, ∃ source,
        firstFailure answers receipt.receipt = some (.retryable source)) ∧
    ∀ valid invalid,
      (manager.collectReceipts profile clock timestampBufferNs min limit s world).1 =
        .ok (valid, invalid) →
      IsSplit answers min retrieved (receiptsOf valid) (receiptsOf invalid) := by
  refine ⟨h.collectReceipts_error_iff hanswers, ?_⟩
  intro valid invalid hcollect
  have hvalid := h.collectReceipts_valid hanswers hcollect
  rcases h.collected hcollect with ⟨now, hcollected⟩
  refine ⟨hcollected.partition, hcollected.unique, ?_, h.collectReceipts_invalid hanswers hcollect,
    hvalid⟩
  intro receipt hreceipt
  rw [hvalid] at hreceipt
  rcases List.mem_filter.mp hreceipt with ⟨hsurvives, hnone⟩
  constructor
  · rcases mem_receiptsOf.mp hsurvives with ⟨survivor, hsurvivor, rfl⟩
    have hmem := (UniqueCheck.checkFrom_sublist ∅ _).subset hsurvivor
    rw [TimestampCheck.checkBatch_checking] at hmem
    exact decide_eq_true_eq.mp (List.mem_filter.mp hmem).2
  · exact firstFailure_eq_none.mp (decide_eq_true_eq.mp hnone)

/-- Without retryable answers, whether an id is among the valid receipts is decided by the first
receipt at or above the minimum that has it. -/
theorem collectReceipts_firstOfId
    (h : manager.Retrieves profile clock timestampBufferNs min limit s max retrieved s')
    (hanswers : AnswersBy (manager.checks s') answers)
    (hnever : ∀ answer ∈ answers, ∀ receipt source,
      answer receipt ≠ .error (.retryable source)) (world : ω) :
    ∃ valid invalid,
      (manager.collectReceipts profile clock timestampBufferNs min limit s world).1 =
        .ok (valid, invalid) ∧
      ∀ receipt ∈ receiptsOf retrieved, min.toNat ≤ (timestampNs receipt).toNat →
        ∃ first, ((receiptsOf retrieved).find? fun other ↦ min.toNat ≤ (timestampNs other).toNat ∧
            uniqueId other = uniqueId receipt) = some first ∧
          ((∀ answer ∈ answers, answer first = .ok ()) →
            (receiptsOf valid).filter (uniqueId · = uniqueId receipt) = [first]) ∧
          (¬(∀ answer ∈ answers, answer first = .ok ()) →
            (receiptsOf valid).filter (uniqueId · = uniqueId receipt) = []) := by
  cases hcollect : (manager.collectReceipts profile clock timestampBufferNs min limit s world).1
    with
  | error e =>
    rcases (h.collectReceipts_error_iff hanswers).mp ⟨e, hcollect⟩ with
      ⟨receipt, -, source, hretryable⟩
    exact absurd hretryable (firstFailure_ne_retryable hnever receipt.receipt source)
  | ok result =>
    refine ⟨result.1, result.2, rfl, ?_⟩
    intro receipt hreceipt hinRange
    have hfound : ((receiptsOf retrieved).find? fun other ↦ min.toNat ≤ (timestampNs other).toNat ∧
        uniqueId other = uniqueId receipt).isSome := by
      apply List.find?_isSome.mpr
      exact ⟨receipt, hreceipt, by simpa using hinRange⟩
    rcases Option.isSome_iff_exists.mp hfound with ⟨first, hfirst⟩
    have hsurvives := survivors_filter min retrieved (uniqueId receipt)
    rw [hfirst] at hsurvives
    rw [h.collectReceipts_valid hanswers hcollect, List.filter_comm, hsurvives]
    refine ⟨first, hfirst, ?_, ?_⟩
    · intro hpasses
      exact List.filter_cons_of_pos (decide_eq_true (firstFailure_eq_none.mpr hpasses))
    · intro hfails
      exact List.filter_cons_of_neg (by rwa [decide_eq_true_eq, firstFailure_eq_none])

end Claims

/-! ## A copied signature -/

namespace Known

def store (receipts : List SignedReceipt) : InMemoryContext :=
  receipts.foldl (fun context receipt ↦ (context.storeReceipt .debug (.new receipt)).2)
    ((InMemoryContext.new none ∅ ∅ ⟨0⟩).withSenderAddress Key.one.address)

/-- The checks admit the collections in their shared set, signed by the first key. -/
def manager : Manager InMemoryContext (Finset B256) SignedReceipt ReceiptAggregateVoucher
    Eip712Domain :=
  InMemoryContext.manager .debug .insertionOrder .merge
    (fun _ ↦ getFullListOfChecks domain {Key.one.address} id) domain

def collections : Finset B256 := {account.collectionId, otherAccount.collectionId}

/-- What the manager requests over a store of `batch`, newest receipt first. -/
def request : RavRequest SignedReceipt ReceiptAggregateVoucher where
  validReceipts := batch.reverse.map fun receipt ↦ ⟨receipt, ⟨⟩⟩
  previousRav := none
  invalidReceipts := []
  expectedRav := .ok (rav 20 12)

/-- Nothing outside the receipt is read. -/
def fixedManager (collections : Finset B256) : Manager InMemoryContext Unit SignedReceipt
    ReceiptAggregateVoucher Eip712Domain :=
  InMemoryContext.manager .debug .insertionOrder .merge
    (fun _ ↦ getFullListOfChecks domain {Key.one.address} fun _ ↦ collections) domain

def genuine : SignedReceipt := signed .one (receipt 20 2 7)

/-- Its signature under a receipt of another collection. -/
def copied : SignedReceipt := ⟨receiptFor otherAccount 20 2 7, genuine.signature⟩

/-- The copy was stored last, so it is retrieved first. -/
def shadowedStore : InMemoryContext := store [genuine, copied]

def fixedAnswers : List (SignedReceipt → Except CheckError Unit) :=
  ((fixedManager {account.collectionId}).checks shadowedStore).map fun check receipt ↦
    (check (.new receipt) ()).1

theorem shadowed_retrieves : (fixedManager {account.collectionId}).Retrieves .debug (.ok 100) 0 0
    none shadowedStore 100 [.new copied, .new genuine] shadowedStore where
  upperEnd := rfl
  window := by decide
  read := Prod.ext (by decide +kernel) rfl

def shadowedInvalid : List (ReceiptWithState Failed SignedReceipt) :=
  [⟨genuine, ⟨.nonUniqueReceipt⟩⟩, ⟨copied, ⟨.checkFailure
    (ReceiptError.invalidCollectionID otherAccount.collectionId).text⟩⟩]

-- Neither of the two checks asks for a retry.
theorem fixedAnswers_never_retryable : ∀ answer ∈ fixedAnswers, ∀ receipt source,
    answer receipt ≠ .error (.retryable source) := by
  intro answer hanswer receipt source
  rcases List.mem_map.mp hanswer with ⟨check, hcheck, rfl⟩
  rcases List.mem_pair.mp hcheck with rfl | rfl
  · unfold CollectionIdCheck.check
    dsimp only
    split <;> simp
  · unfold SignatureCheck.check
    dsimp only
    split
    · simp
    · split <;> simp

end Known

open Known in
theorem collectReceipts_splits_known :
    IsSplit fixedAnswers 0 [.new copied, .new genuine] [] [genuine, copied] :=
  (collectReceipts_splits shadowed_retrieves (answersBy_unit _) ()).2 [] shadowedInvalid
    (by decide +kernel)

open Known in
theorem collectReceipts_firstOfId_known :
    ∃ valid invalid, ((fixedManager {account.collectionId}).collectReceipts .debug (.ok 100) 0 0
        none shadowedStore ()).1 = .ok (valid, invalid) ∧
      ∀ receipt ∈ [copied, genuine], (0 : U64).toNat ≤ (timestampNs receipt).toNat →
        ∃ first, ([copied, genuine].find? fun other ↦ (0 : U64).toNat ≤ (timestampNs other).toNat ∧
            uniqueId other = uniqueId receipt) = some first ∧
          ((∀ answer ∈ fixedAnswers, answer first = .ok ()) →
            (receiptsOf valid).filter (uniqueId · = uniqueId receipt) = [first]) ∧
          (¬(∀ answer ∈ fixedAnswers, answer first = .ok ()) →
            (receiptsOf valid).filter (uniqueId · = uniqueId receipt) = []) :=
  collectReceipts_firstOfId shadowed_retrieves (answersBy_unit _) fixedAnswers_never_retryable ()

open Known in
/-- A good receipt is lost to a bad one with its id: the copy takes the id and fails its checks. -/
theorem collectReceipts_shadows :
    AnswersBy ((fixedManager {account.collectionId}).checks shadowedStore) fixedAnswers ∧
      (∀ answer ∈ fixedAnswers, ∀ receipt source,
        answer receipt ≠ .error (.retryable source)) ∧
      (fixedManager {account.collectionId}).Retrieves .debug (.ok 100) 0 0 none shadowedStore 100
        [.new copied, .new genuine] shadowedStore ∧
      (∀ answer ∈ fixedAnswers, answer genuine = .ok ()) ∧
      ∃ valid invalid, ((fixedManager {account.collectionId}).collectReceipts .debug (.ok 100) 0 0
          none shadowedStore ()).1 = .ok (valid, invalid) ∧
        ((receiptsOf valid).filter (uniqueId · = uniqueId genuine)).length ≠ 1 :=
  ⟨answersBy_unit _, fixedAnswers_never_retryable, shadowed_retrieves, by decide +kernel, [],
    shadowedInvalid, by decide +kernel, by decide⟩

end GraphTally
