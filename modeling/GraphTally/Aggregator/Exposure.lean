import GraphTally.Aggregator.Chain
import GraphTally.Aggregator.Server

/-!
# What a payer can be made to owe

Anybody may send the aggregator any request: old receipts again, an earlier RAV for the previous
one, one batch in several ways.  Whatever it answers, a RAV stands for receipts that were signed.
-/

open GraphTally.Theory

namespace GraphTally.Exposure

/-- Everything signed, returned and written so far. -/
structure World where
  receipts : List SignedReceipt
  ravs : List ReceiptAggregateVoucher
  records : List KafkaRecord

def World.start : World := ⟨[], [], []⟩

section Moves

variable {Domain Key : Type} [Alloy Key] [AlloyText] [SolStruct Domain Receipt]
  [SolStruct Domain ReceiptAggregateVoucher] [Grpc.SignatureFormat]

/-- What a request holds of a signer's messages, that signer has signed; the malleated twin of a
signature is no forgery. -/
structure Unforged (world : World) (rpcImpl : RpcImpl Domain Key) (receipts : List SignedReceipt)
    (previousRav : Option SignedRav) : Prop where
  signed : ∀ payer wallet accepted, rpcImpl.signers.resolve payer = some (wallet, accepted) →
    ∀ receipt ∈ receipts, SignedByOneOf rpcImpl.domainSeparator accepted receipt →
      ∃ signed ∈ world.receipts, SameReceipt receipt signed
  issued : ∀ payer wallet accepted, rpcImpl.signers.resolve payer = some (wallet, accepted) →
    ∀ prev ∈ previousRav, SignedByOneOf rpcImpl.domainSeparator accepted prev →
      prev.message ∈ world.ravs

variable (Domain Key) in
/-- Payers sign, and the service answers requests.  Between two of them it may be restarted with
other signers. -/
inductive Move (profile : Profile) (world : World) : World → Prop
  | sign (receipt : SignedReceipt) :
      Move profile world { world with receipts := receipt :: world.receipts }
  | rpc {self : RpcImpl Domain Key} {apiVersion : String} {receipts : List SignedReceipt}
      {previousRav : Option SignedRav} {response : JsonRpcResponse SignedRav}
      {records : List KafkaRecord} :
      Unforged world self receipts previousRav →
      self.aggregateReceipts profile apiVersion receipts previousRav = (.ok response, records) →
      Move profile world
        { world with
          ravs := response.data.message :: world.ravs
          records := records ++ world.records }
  | tapAggregator {self : RpcImpl Domain Key} {request : Grpc.V2.RavRequest}
      {receipts : List SignedReceipt} {previousRav : Option SignedRav}
      {response : Grpc.V2.RavResponse} {signed : SignedRav} {records : List KafkaRecord} :
      request.receipts.mapM Grpc.V2.SignedReceipt.tryInto = some receipts →
      request.previousRav.mapM Grpc.V2.SignedRav.tryInto = some previousRav →
      Unforged world self receipts previousRav →
      TapAggregator.aggregateReceipts profile self request = (.ok response, records) →
      response.rav = some (.of signed) →
      Move profile world
        { world with
          ravs := signed.message :: world.ravs
          records := records ++ world.records }
  | graphTallyAggregator {self : RpcImpl Domain Key} {request : Grpc.RavRequest}
      {receipts : List SignedReceipt} {previousRav : Option SignedRav}
      {response : Grpc.RavResponse} {signed : SignedRav} {records : List KafkaRecord} :
      request.receipts.mapM Grpc.SignedReceipt.tryInto = some receipts →
      request.previousRav.mapM Grpc.SignedRav.tryInto = some previousRav →
      Unforged world self receipts previousRav →
      GraphTallyAggregator.aggregateReceipts profile self request = (.ok response, records) →
      response.rav = some (.of signed) →
      Move profile world
        { world with
          ravs := signed.message :: world.ravs
          records := records ++ world.records }

end Moves

/-! ## RAVs and the receipts behind them -/

section Backed

variable {Domain Key : Type} [Alloy Key]

variable (Key) in
/-- The batches that led to a RAV, of receipts that were signed for its account. -/
structure Backed (originals : List SignedReceipt) (rav : ReceiptAggregateVoucher)
    (steps : Steps SignedReceipt Nat Nat) : Prop where
  chain : steps.Chain SignedReceipt.mark SignedReceipt.amount
  last : steps.last = some rav.voucher
  unique : ∀ batch ∈ steps.batches, (batch.map uniqueId).Nodup
  account : ∀ receipt ∈ steps.batches.flatten, receipt.message.account = rav.account
  signed : ∀ receipt ∈ steps.batches.flatten, ∃ original ∈ originals, SameReceipt receipt original

theorem Backed.cons {originals : List SignedReceipt} {rav : ReceiptAggregateVoucher}
    {steps : Steps SignedReceipt Nat Nat} (h : Backed Key originals rav steps)
    (receipt : SignedReceipt) : Backed Key (receipt :: originals) rav steps := by
  refine ⟨h.chain, h.last, h.unique, h.account, fun counted hcounted ↦ ?_⟩
  obtain ⟨original, horiginal, hsame⟩ := h.signed counted hcounted
  exact ⟨original, List.mem_cons_of_mem _ horiginal, hsame⟩

/-- What a RAV stands for, the receipts as they were signed. -/
theorem Backed.exists_counted (hnorm : NormalizesS Key) {originals : List SignedReceipt}
    {rav : ReceiptAggregateVoucher} {steps : Steps SignedReceipt Nat Nat}
    (h : Backed Key originals rav steps) :
    ∃ counted : List SignedReceipt, counted.Subperm originals ∧
      (∀ receipt ∈ counted, receipt.message.account = rav.account ∧
        receipt.message.timestampNs.toNat ≤ rav.timestampNs.toNat) ∧
      rav.valueAggregate.toNat = exactTotal counted := by
  -- no two receipts of the batches are one that was signed
  have hapart : steps.batches.flatten.Pairwise
      fun a b ↦ ∀ original, SameReceipt a original → ¬SameReceipt b original := by
    apply h.chain.pairwise_flatten
    · intro batch hbatch
      refine (List.pairwise_map.mp (h.unique batch hbatch)).imp ?_
      intro a b hne original ha hb
      exact hne ((ha.uniqueId_eq hnorm).trans (hb.uniqueId_eq hnorm).symm)
    · intro a b hlt original ha hb
      exact hlt.ne (ha.mark_eq.trans hb.mark_eq.symm)
  obtain ⟨counted, hsubperm, hsame⟩ := exists_matched hapart h.signed
  have htotal := h.chain.total
  have hcovers := h.chain.covers _ h.last
  rw [h.last] at htotal
  refine ⟨counted, hsubperm, ?_, ?_⟩
  · intro original horiginal
    obtain ⟨receipt, hreceipt, hmessage, -⟩ := exists_item hsame horiginal
    rw [← hmessage]
    exact ⟨h.account receipt hreceipt, hcovers receipt hreceipt⟩
  · have hamounts : List.Forall₂ (· = ·) (steps.batches.flatten.map SignedReceipt.amount)
        (counted.map SignedReceipt.amount) := by
      rw [List.forall₂_map_left_iff, List.forall₂_map_right_iff]
      exact hsame.imp fun _ _ hmatch ↦ congrArg (·.value.toNat) hmatch.1
    rw [List.forall₂_eq_eq_eq] at hamounts
    rw [hamounts] at htotal
    exact htotal

variable [AlloyText] [SolStruct Domain Receipt] [SolStruct Domain ReceiptAggregateVoucher]
  {self : RpcImpl Domain Key} {world : World} {receipts : List SignedReceipt}
  {previousRav : Option SignedRav} {signed : SignedRav}

/-- One more aggregation, whatever came before. -/
theorem Backed.extend (hunforged : Unforged world self receipts previousRav)
    (hbacked : ∀ rav ∈ world.ravs, ∃ steps, Backed Key world.receipts rav steps)
    (h : checkAndAggregateReceipts self.domainSeparator receipts previousRav self.signers =
      .ok signed) :
    ∃ steps, Backed Key world.receipts signed.message steps := by
  have hextends := checkAndAggregateReceipts_extends h
  obtain ⟨first, wallet, accepted, hacceptable, hrav, -⟩ := checkAndAggregateReceipts_eq_ok.mp h
  obtain ⟨haccount, -⟩ := ReceiptAggregateVoucher.aggregateReceipts_eq_ok.mp hrav
  have haccount : signed.message.account = first.message.account := haccount
  have hreceipts : ∀ receipt ∈ receipts, ∃ original ∈ world.receipts,
      SameReceipt receipt original := fun receipt hreceipt ↦
    hunforged.signed _ wallet accepted hacceptable.resolves receipt hreceipt
      (hacceptable.receiptsSigned receipt hreceipt)
  have hprevious : ∃ steps : Steps SignedReceipt Nat Nat,
      steps.Chain SignedReceipt.mark SignedReceipt.amount ∧
      steps.last = previousRav.map (·.message.voucher) ∧
      (∀ batch ∈ steps.batches, (batch.map uniqueId).Nodup) ∧
      (∀ receipt ∈ steps.batches.flatten, receipt.message.account = first.message.account) ∧
      ∀ receipt ∈ steps.batches.flatten, ∃ original ∈ world.receipts,
        SameReceipt receipt original := by
    cases hprev : previousRav with
    | none => exact ⟨[], .nil, rfl, by simp [Steps.batches], by simp [Steps.batches],
        by simp [Steps.batches]⟩
    | some prev =>
      have hissued := hunforged.issued _ wallet accepted hacceptable.resolves prev hprev
        (hacceptable.previousSigned prev hprev)
      obtain ⟨steps, hsteps⟩ := hbacked _ hissued
      refine ⟨steps, hsteps.chain, hsteps.last, hsteps.unique, ?_, hsteps.signed⟩
      rw [← hacceptable.previousAccount prev hprev]
      exact hsteps.account
  obtain ⟨steps, hchain, hlast, hunique, hsame, hsigned⟩ := hprevious
  rw [← hlast] at hextends
  refine ⟨steps ++ [(receipts, signed.message.voucher)], hchain.snoc hextends,
    Steps.last_snoc _ _ _, ?_, ?_, ?_⟩
  · rw [Steps.batches_snoc]
    intro batch hbatch
    rcases List.mem_append.mp hbatch with hbatch | hbatch
    · exact hunique batch hbatch
    · obtain rfl := List.mem_singleton.mp hbatch
      exact hacceptable.unique
  · rw [Steps.batches_snoc, List.flatten_append, List.flatten_singleton, haccount]
    exact List.forall_mem_append.mpr ⟨hsame, hacceptable.sameAccount⟩
  · rw [Steps.batches_snoc, List.flatten_append, List.flatten_singleton]
    exact List.forall_mem_append.mpr ⟨hsigned, hreceipts⟩

end Backed

/-! ## Every run -/

section Runs

variable {Domain Key : Type} [Alloy Key] [AlloyText]

variable (Key) in
/-- Receipts stand behind all RAVs, and RAVs behind all records. -/
structure Sound (world : World) : Prop where
  backed : ∀ rav ∈ world.ravs, ∃ steps, Backed Key world.receipts rav steps
  produced : ∀ record ∈ world.records, ∃ rav ∈ world.ravs,
    record = produceKafkaRecords rav.payer rav.collectionId rav.valueAggregate

variable {world world' : World} {rpcImpl : RpcImpl Domain Key}

theorem Sound.returned (h : Sound Key world) (rpcImpl : RpcImpl Domain Key)
    {rav : ReceiptAggregateVoucher} (hbacked : ∃ steps, Backed Key world.receipts rav steps) :
    Sound Key { world with
      ravs := rav :: world.ravs
      records := rpcImpl.produce rav ++ world.records } := by
  refine ⟨List.forall_mem_cons.mpr ⟨hbacked, h.backed⟩, List.forall_mem_append.mpr ⟨?_, ?_⟩⟩
  · intro record hrecord
    refine ⟨rav, List.mem_cons_self, ?_⟩
    unfold RpcImpl.produce at hrecord
    split at hrecord
    · exact List.mem_singleton.mp hrecord
    · cases hrecord
  · intro record hrecord
    obtain ⟨issued, hissued, hproduced⟩ := h.produced record hrecord
    exact ⟨issued, List.mem_cons_of_mem _ hissued, hproduced⟩

variable [SolStruct Domain Receipt] [SolStruct Domain ReceiptAggregateVoucher]
  [Grpc.SignatureFormat] {profile : Profile}

theorem Sound.move (h : Sound Key world) (hmove : Move Domain Key profile world world') :
    Sound Key world' := by
  cases hmove with
  | sign receipt =>
    refine ⟨fun rav hrav ↦ ?_, h.produced⟩
    obtain ⟨steps, hsteps⟩ := h.backed rav hrav
    exact ⟨steps, hsteps.cons receipt⟩
  | rpc hunforged hresult =>
    obtain ⟨hsigned, rfl⟩ := RpcImpl.aggregateReceipts_ok hresult
    exact h.returned _ (Backed.extend hunforged h.backed hsigned)
  | tapAggregator hreceipts hprevious hunforged hresult hresponse =>
    obtain ⟨receipts', previousRav', signed', hreceipts', hprevious', hsigned, hresponse', rfl⟩ :=
      TapAggregator.aggregateReceipts_ok hresult
    obtain rfl := Option.some_inj.mp (hreceipts'.symm.trans hreceipts)
    obtain rfl := Option.some_inj.mp (hprevious'.symm.trans hprevious)
    rw [← Grpc.V2.SignedRav.of_message (Option.some_inj.mp (hresponse'.symm.trans hresponse))]
    exact h.returned _ (Backed.extend hunforged h.backed hsigned)
  | graphTallyAggregator hreceipts hprevious hunforged hresult hresponse =>
    obtain ⟨receipts', previousRav', signed', hreceipts', hprevious', hsigned, hresponse', rfl⟩ :=
      GraphTallyAggregator.aggregateReceipts_ok hresult
    obtain rfl := Option.some_inj.mp (hreceipts'.symm.trans hreceipts)
    obtain rfl := Option.some_inj.mp (hprevious'.symm.trans hprevious)
    rw [← Grpc.SignedRav.of_message (Option.some_inj.mp (hresponse'.symm.trans hresponse))]
    exact h.returned _ (Backed.extend hunforged h.backed hsigned)

/-- However requests are made up, repeated and forked, over all endpoints and restarts: a RAV is
worth exactly some of the receipts that were signed for its account, none of them counted twice,
and every record of the RAV topic is the record of such a RAV. -/
theorem ravs_backed (hnorm : NormalizesS Key) (profile : Profile) (world : World)
    (hrun : Relation.ReflTransGen (Move Domain Key profile) .start world) :
    (∀ rav ∈ world.ravs, ∃ counted : List SignedReceipt, counted.Subperm world.receipts ∧
      (∀ receipt ∈ counted, receipt.message.account = rav.account ∧
        receipt.message.timestampNs.toNat ≤ rav.timestampNs.toNat) ∧
      rav.valueAggregate.toNat = exactTotal counted) ∧
    ∀ record ∈ world.records, ∃ rav ∈ world.ravs,
      record = produceKafkaRecords rav.payer rav.collectionId rav.valueAggregate := by
  have hsound : Sound Key world := by
    induction hrun with
    | refl => exact ⟨by simp [World.start], by simp [World.start]⟩
    | tail _ hmove ih => exact ih.move hmove
  refine ⟨fun rav hrav ↦ ?_, hsound.produced⟩
  obtain ⟨steps, hbacked⟩ := hsound.backed rav hrav
  exact hbacked.exists_counted hnorm

end Runs

end GraphTally.Exposure

/-! ## A fork -/

namespace GraphTally.Known

open Exposure

def service : RpcImpl Eip712Domain Key := ⟨registry, domain, true⟩

/-- Both receipts are aggregated, and then the first of them alone. -/
def forked : World where
  receipts := batch
  ravs := [rav 10 5, rav 20 12]
  records := service.produce (rav 10 5) ++ service.produce (rav 20 12)

theorem forked_run : Relation.ReflTransGen (Move Eip712Domain Key .debug) .start forked := by
  have hunforged : ∀ (ravs : List ReceiptAggregateVoucher) (records : List KafkaRecord)
      (receipts : List SignedReceipt), receipts ⊆ batch →
        Unforged ⟨batch, ravs, records⟩ service receipts none := by
    intro ravs records receipts hsubset
    refine ⟨fun _ _ _ _ receipt hreceipt _ ↦ ⟨receipt, hsubset hreceipt, rfl, .inl rfl⟩, ?_⟩
    intro _ _ _ _ prev hprev
    cases hprev
  have hboth : service.aggregateReceipts .debug "0.0" batch none =
      (.ok ⟨signed .one (rav 20 12), none⟩, service.produce (rav 20 12)) := by
    decide +kernel
  have hfirst : service.aggregateReceipts .debug "0.0" [signed .one (receipt 10 1 5)] none =
      (.ok ⟨signed .one (rav 10 5), none⟩, service.produce (rav 10 5)) := by
    decide +kernel
  have hsigned : Relation.ReflTransGen (Move Eip712Domain Key .debug) .start ⟨batch, [], []⟩ :=
    .head (.sign (signed .one (receipt 20 2 7))) (.single (.sign (signed .one (receipt 10 1 5))))
  have honce := hsigned.tail (.rpc (hunforged [] [] batch (List.Subset.refl _)) hboth)
  exact honce.tail (.rpc (hunforged _ _ _ (by decide)) hfirst)

end GraphTally.Known

namespace GraphTally.Exposure

open Known in
theorem ravs_backed_known :
    (∃ counted : List SignedReceipt, counted.Subperm batch ∧ exactTotal counted = 5) ∧
      ∃ counted : List SignedReceipt, counted.Subperm batch ∧ exactTotal counted = 12 := by
  have hbacked := (ravs_backed normalizesS .debug forked forked_run).1
  obtain ⟨first, hfirst, -, hvalue⟩ := hbacked (rav 10 5) List.mem_cons_self
  obtain ⟨both, hboth, -, hvalue'⟩ :=
    hbacked (rav 20 12) (List.mem_cons_of_mem _ List.mem_cons_self)
  exact ⟨⟨first, hfirst, hvalue.symm⟩, both, hboth, hvalue'.symm⟩

end GraphTally.Exposure
