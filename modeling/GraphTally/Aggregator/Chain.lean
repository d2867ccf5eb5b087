import GraphTally.Aggregator.Acceptance

/-!
# Chains of requests

A client chooses its batches freely, and the aggregator keeps nothing between two requests: all
it knows of earlier ones is the previous RAV.
-/

open GraphTally.Theory

namespace GraphTally

/-- One request of a chain.  The registry may differ from one request to the next. -/
structure AggregationRequest (Key : Type) where
  signers : SignerRegistry Key
  receipts : List SignedReceipt

section Run

variable {Domain Key : Type} [Alloy Key] [AlloyText] [SolStruct Domain Receipt]
  [SolStruct Domain ReceiptAggregateVoucher]

/-- Each request carries the RAV the one before it returned. -/
def aggregationChain (domainSeparator : Domain) :
    Option SignedRav → List (AggregationRequest Key) → Except AggregatorError (List SignedRav)
  | _, [] => .ok []
  | previousRav, request :: requests => do
    let signed ← checkAndAggregateReceipts domainSeparator request.receipts previousRav
      request.signers
    let later ← aggregationChain domainSeparator (some signed) requests
    return signed :: later

end Run

/-- The same receipt again, under the same signature or its malleated twin. -/
def SameReceipt (a b : SignedReceipt) : Prop :=
  a.message = b.message ∧ (a.signature = b.signature ∨ a.signature.Twin b.signature)

instance (a b : SignedReceipt) : Decidable (SameReceipt a b) :=
  inferInstanceAs (Decidable (_ ∧ _))

section Chain

variable {Domain Key : Type} [Alloy Key]

theorem SameReceipt.uniqueId_eq (hnorm : NormalizesS Key) {a b : SignedReceipt}
    (h : SameReceipt a b) : uniqueId a = uniqueId b := by
  rcases h.2 with hsame | htwin
  · exact congrArg Signature.getSignatureBytes hsame
  · exact htwin.getSignatureBytes_eq hnorm

theorem SameReceipt.mark_eq {a b : SignedReceipt} (h : SameReceipt a b) :
    SignedReceipt.mark a = SignedReceipt.mark b :=
  congrArg (·.timestampNs.toNat) h.1

variable [AlloyText] [SolStruct Domain Receipt] [SolStruct Domain ReceiptAggregateVoucher]
  {domainSeparator : Domain}

/-- Running more requests from the last RAV of a chain extends the chain by their steps. -/
theorem aggregationChain_extends {previousRav : Option SignedRav}
    {requests : List (AggregationRequest Key)} {ravs : List SignedRav} {done : Steps _ _ _}
    (h : aggregationChain domainSeparator previousRav requests = .ok ravs)
    (hchain : done.Chain SignedReceipt.mark SignedReceipt.amount)
    (hlast : done.last = previousRav.map (·.message.voucher)) :
    ∃ steps : Steps _ _ _,
      (done ++ steps : Steps _ _ _).Chain SignedReceipt.mark SignedReceipt.amount ∧
      steps.batches = requests.map (·.receipts) ∧
      steps.vouchers = ravs.map (·.message.voucher) := by
  induction requests generalizing previousRav ravs done with
  | nil =>
    obtain rfl : [] = ravs := Except.ok.inj h
    exact ⟨[], by simpa using hchain, rfl, rfl⟩
  | cons request requests ih =>
    rw [aggregationChain, except_bind_eq_ok] at h
    obtain ⟨signed, hsigned, h⟩ := h
    obtain ⟨later, hlater, h⟩ := except_bind_eq_ok.mp h
    obtain rfl : signed :: later = ravs := Except.ok.inj h
    have hextends := checkAndAggregateReceipts_extends hsigned
    rw [← hlast] at hextends
    obtain ⟨steps, hsteps, hbatches, hvouchers⟩ :=
      ih hlater (hchain.snoc hextends) (Steps.last_snoc _ _ _)
    refine ⟨(request.receipts, signed.message.voucher) :: steps, ?_, ?_, ?_⟩
    · simpa using hsteps
    · exact congrArg (request.receipts :: ·) hbatches
    · exact congrArg (signed.message.voucher :: ·) hvouchers

-- Within one call the receipts have distinct unique ids.
theorem aggregationChain_unique {previousRav : Option SignedRav}
    {requests : List (AggregationRequest Key)} {ravs : List SignedRav}
    (h : aggregationChain domainSeparator previousRav requests = .ok ravs) :
    ∀ request ∈ requests, (request.receipts.map uniqueId).Nodup := by
  induction requests generalizing previousRav ravs with
  | nil => simp
  | cons request requests ih =>
    obtain ⟨signed, hsigned, h⟩ := except_bind_eq_ok.mp h
    obtain ⟨later, hlater, -⟩ := except_bind_eq_ok.mp h
    obtain ⟨_, _, _, hacceptable, -⟩ := checkAndAggregateReceipts_eq_ok.mp hsigned
    exact List.forall_mem_cons.mpr ⟨hacceptable.unique, ih hlater⟩

/-- However a client cuts its batches, a chain of accepted requests pays no receipt twice and
loses none: timestamps rise from RAV to RAV, and the last one carries the exact total. -/
theorem aggregationChain_pays_once (hnorm : NormalizesS Key) (domainSeparator : Domain)
    (requests : List (AggregationRequest Key)) (ravs : List SignedRav)
    (h : aggregationChain domainSeparator none requests = .ok ravs) :
    (requests.flatMap (·.receipts)).Pairwise (fun a b ↦ ¬SameReceipt a b) ∧
      ravs.Pairwise (fun a b ↦ a.message.timestampNs.toNat < b.message.timestampNs.toNat) ∧
      ∀ last ∈ ravs.getLast?,
        last.message.valueAggregate.toNat = exactTotal (requests.flatMap (·.receipts)) := by
  obtain ⟨steps, hchain, hbatches, hvouchers⟩ := aggregationChain_extends h .nil rfl
  rw [List.nil_append] at hchain
  rw [List.flatMap_def, ← hbatches]
  refine ⟨hchain.pairwise_flatten ?within ?across, ?timestamps, ?total⟩
  case within =>
    intro batch hbatch
    rw [hbatches] at hbatch
    obtain ⟨request, hrequest, rfl⟩ := List.mem_map.mp hbatch
    exact (List.pairwise_map.mp (aggregationChain_unique h request hrequest)).imp
      fun hne hsame ↦ hne (hsame.uniqueId_eq hnorm)
  case across => exact fun a b hlt hsame ↦ absurd hsame.mark_eq hlt.ne
  case timestamps =>
    have hincreasing := hchain.vouchers_increasing
    rw [hvouchers, List.pairwise_map] at hincreasing
    exact hincreasing
  case total =>
    intro last hlast
    have htotal := hchain.total
    rw [Steps.last, hvouchers, List.getLast?_map, Option.mem_def.mp hlast] at htotal
    exact htotal

end Chain

open Known in
/-- Two requests over the known receipts, the second on top of the first one's RAV. -/
theorem aggregationChain_pays_once_known :
    ([batch, laterBatch].flatten).Pairwise (fun a b ↦ ¬SameReceipt a b) ∧
      [signed .one (rav 20 12), signed .one (rav 30 21)].Pairwise
        (fun a b ↦ a.message.timestampNs.toNat < b.message.timestampNs.toNat) ∧
      ∀ last ∈ [signed .one (rav 20 12), signed .one (rav 30 21)].getLast?,
        last.message.valueAggregate.toNat = exactTotal [batch, laterBatch].flatten :=
  aggregationChain_pays_once normalizesS domain [⟨registry, batch⟩, ⟨registry, laterBatch⟩]
    [signed .one (rav 20 12), signed .one (rav 30 21)] (by decide +kernel)

end GraphTally
