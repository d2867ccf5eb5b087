import GraphTally.Aggregator.Signers
import GraphTally.Theory.Admission

/-!
# What a registry holds

On chain a signer is authorized for one payer.  `build` accepts exactly the lists that say so, and
what it resolves is what they say, in whatever order they say it.
-/

open GraphTally.Theory

namespace GraphTally.SignerRegistry

variable {Key : Type} [Alloy Key]

/-- The address is bound to the payer, as its signing key or as a signer listed for it. -/
def Binds (signingKeys : List (Address × Key)) (accepted : List (Address × Address))
    (payer address : Address) : Prop :=
  (∃ key, (payer, key) ∈ signingKeys ∧ Alloy.address key = address) ∨ (payer, address) ∈ accepted

/-- The lists of a configuration that the chain can honour. -/
structure Configures (signingKeys : List (Address × Key)) (accepted : List (Address × Address)) :
    Prop where
  nonempty : signingKeys ≠ []
  payers_nodup : (signingKeys.map fun entry ↦ entry.1).Nodup
  keys_nodup : (signingKeys.map fun entry ↦ Alloy.address entry.2).Nodup
  named : ∀ entry ∈ accepted, entry.1 ∈ signingKeys.map fun entry ↦ entry.1
  unshared : ∀ payer other address, Binds signingKeys accepted payer address →
    Binds signingKeys accepted other address → payer = other

theorem Configures.perm {signingKeys signingKeys' : List (Address × Key)}
    {accepted accepted' : List (Address × Address)} (h : Configures signingKeys accepted)
    (hkeys : signingKeys'.Perm signingKeys) (haccepted : accepted'.Perm accepted) :
    Configures signingKeys' accepted' := by
  have hbinds : ∀ payer address, Binds signingKeys' accepted' payer address ↔
      Binds signingKeys accepted payer address := by
    intro payer address
    simp only [Binds, hkeys.mem_iff, haccepted.mem_iff]
  constructor
  · rintro rfl
    exact h.nonempty hkeys.nil_eq.symm
  · exact (hkeys.map _).nodup_iff.mpr h.payers_nodup
  · exact (hkeys.map _).nodup_iff.mpr h.keys_nodup
  · intro entry hentry
    rw [(hkeys.map _).mem_iff]
    exact h.named entry (haccepted.mem_iff.mp hentry)
  · intro payer other address hpayer hother
    exact h.unshared payer other address ((hbinds payer address).mp hpayer)
      ((hbinds other address).mp hother)

def listedSigners (accepted : List (Address × Address)) (payer : Address) : Finset Address :=
  ((accepted.filter fun entry ↦ entry.1 = payer).map fun entry ↦ entry.2).toFinset

theorem mem_listedSigners {accepted : List (Address × Address)} {payer signer : Address} :
    signer ∈ listedSigners accepted payer ↔ (payer, signer) ∈ accepted := by
  simp [listedSigners]

theorem listedSigners_perm {accepted accepted' : List (Address × Address)}
    (h : accepted'.Perm accepted) (payer : Address) :
    listedSigners accepted' payer = listedSigners accepted payer := by
  ext signer
  rw [mem_listedSigners, mem_listedSigners, h.mem_iff]

/-- The keys of a payer, as the two lists have them. -/
def keysFor (accepted : List (Address × Address)) (payer : Address) (signingKey : Key) :
    PayerKeys Key :=
  ⟨signingKey, insert (Alloy.address signingKey) (listedSigners accepted payer)⟩

theorem keysFor_append (accepted : List (Address × Address)) (payer signer : Address)
    (signingKey : Key) :
    keysFor (accepted ++ [(payer, signer)]) payer signingKey =
      { keysFor accepted payer signingKey with
        acceptedSigners := insert signer (keysFor accepted payer signingKey).acceptedSigners } := by
  have hlisted : listedSigners (accepted ++ [(payer, signer)]) payer =
      insert signer (listedSigners accepted payer) := by
    ext found
    simp [mem_listedSigners, or_comm]
  rw [keysFor, hlisted, Finset.insert_comm]
  rfl

theorem keysFor_append_ne {payer other : Address} (h : other ≠ payer)
    (accepted : List (Address × Address)) (signer : Address) (signingKey : Key) :
    keysFor (accepted ++ [(payer, signer)]) other signingKey =
      keysFor accepted other signingKey := by
  have hlisted : listedSigners (accepted ++ [(payer, signer)]) other =
      listedSigners accepted other := by
    ext found
    simp [mem_listedSigners, h]
  rw [keysFor, hlisted]
  rfl

/-! ## The two maps -/

/-- The maps say what the entries that were taken in say. -/
structure Records (signingKeys : List (Address × Key)) (accepted : List (Address × Address))
    (building : Building Key) : Prop where
  payers : ∀ payer keys, building.payers.lookup payer = some keys ↔
    ∃ key, (payer, key) ∈ signingKeys ∧ keysFor accepted payer key = keys
  signerPayer : ∀ address payer, building.signerPayer.lookup address = some payer ↔
    Binds signingKeys accepted payer address

namespace Records

variable {signingKeys : List (Address × Key)} {accepted : List (Address × Address)}
  {building : Building Key}

theorem start : Records ([] : List (Address × Key)) [] ⟨∅, ∅⟩ where
  payers payer keys := by simp
  signerPayer address payer := by simp [Binds]

theorem payer_isSome (h : Records signingKeys accepted building) (payer : Address) :
    (building.payers.lookup payer).isSome = true ↔
      payer ∈ signingKeys.map fun entry ↦ entry.1 := by
  rw [Option.isSome_iff_exists, List.mem_map]
  constructor
  · intro hfound
    rcases hfound with ⟨keys, hkeys⟩
    rcases (h.payers payer keys).mp hkeys with ⟨key, hmem, -⟩
    exact ⟨(payer, key), hmem, rfl⟩
  · intro hmem
    rcases hmem with ⟨entry, hentry, rfl⟩
    exact ⟨_, (h.payers entry.1 _).mpr ⟨entry.2, hentry, rfl⟩⟩

theorem isEmpty_iff (h : Records signingKeys accepted building) :
    building.payers.entries.isEmpty = true ↔ signingKeys = [] := by
  rw [List.isEmpty_iff]
  constructor
  · intro hempty
    have hnone : building.payers = ∅ := AList.ext hempty
    rw [List.eq_nil_iff_forall_not_mem]
    intro entry hentry
    have hsome := (h.payer_isSome entry.1).mpr (List.mem_map_of_mem hentry)
    rw [hnone, AList.lookup_empty] at hsome
    cases hsome
  · rintro rfl
    rw [List.eq_nil_iff_forall_not_mem]
    intro entry hentry
    have hsome : (building.payers.lookup entry.1).isSome = true :=
      AList.lookup_isSome.mpr (List.mem_keys_of_mem hentry)
    exact absurd ((h.payer_isSome entry.1).mp hsome) List.not_mem_nil

/-- An address that the maps know belongs to one payer. -/
theorem unshared (h : Records signingKeys accepted building) (payer other address : Address)
    (hpayer : Binds signingKeys accepted payer address)
    (hother : Binds signingKeys accepted other address) : payer = other := by
  have hfound := (h.signerPayer address payer).mpr hpayer
  have hfound' := (h.signerPayer address other).mpr hother
  exact Option.some_inj.mp (hfound.symm.trans hfound')

end Records

/-! ## The first loop -/

section Build

variable [AlloyText]

theorem addSigningKey_eq_ok {building building' : Building Key} {payer : Address} {key : Key} :
    addSigningKey building payer key = .ok building' ↔
      building.signerPayer.lookup (Alloy.address key) = none ∧
        (building.payers.lookup payer).isSome = false ∧
        building' = ⟨building.payers.insert payer (PayerKeys.new key []),
          building.signerPayer.insert (Alloy.address key) payer⟩ := by
  cases hseen : building.signerPayer.lookup (Alloy.address key) with
  | some other => simp [addSigningKey, hseen]
  | none =>
    simp only [addSigningKey, hseen, guard_eq_ok, Bool.not_eq_true, true_and, Except.ok.injEq]
    rw [eq_comm (a := building')]

theorem addSigningKey_records {before : List (Address × Key)} {building building' : Building Key}
    {entry : Address × Key} (h : Records before [] building)
    (hturn : addSigningKey building entry.1 entry.2 = .ok building') :
    Records (before ++ [entry]) [] building' := by
  rcases entry with ⟨payer, key⟩
  rcases addSigningKey_eq_ok.mp hturn with ⟨hseen, hpayer, rfl⟩
  have hnew : ∀ key, (payer, key) ∉ before := by
    intro key hmem
    have hsome := (h.payer_isSome payer).mpr (List.mem_map_of_mem hmem)
    rw [hpayer] at hsome
    cases hsome
  constructor
  · intro other keys
    show (building.payers.insert payer (PayerKeys.new key [])).lookup other = some keys ↔ _
    by_cases hother : other = payer
    · subst hother
      rw [AList.lookup_insert, Option.some_inj]
      constructor
      · rintro rfl
        exact ⟨key, by simp, rfl⟩
      · intro hfound
        rcases hfound with ⟨found, hmem, rfl⟩
        rcases List.mem_append.mp hmem with hmem | hmem
        · exact absurd hmem (hnew found)
        · obtain rfl : found = key := by simpa using hmem
          rfl
    · have hmem : ∀ found, (other, found) ∈ before ++ [(payer, key)] ↔ (other, found) ∈ before := by
        intro found
        simp [hother]
      rw [AList.lookup_insert_ne hother, h.payers]
      simp only [hmem]
  · intro address other
    show (building.signerPayer.insert (Alloy.address key) payer).lookup address = some other ↔ _
    have hbinds : Binds (before ++ [(payer, key)]) [] other address ↔
        Binds before [] other address ∨ other = payer ∧ Alloy.address key = address := by
      simp only [Binds, List.mem_append, List.mem_singleton, Prod.mk.injEq, List.not_mem_nil,
        or_false, or_and_right, exists_or, and_assoc]
      simp only [exists_and_left, exists_eq_left]
    rw [hbinds]
    by_cases haddress : address = Alloy.address key
    · subst haddress
      have hnone : ¬Binds before [] other (Alloy.address key) := by
        rw [← h.signerPayer, hseen]
        exact (Option.some_ne_none other).symm
      rw [AList.lookup_insert, Option.some_inj, or_iff_right hnone, and_iff_left rfl, eq_comm]
    · rw [AList.lookup_insert_ne haddress, h.signerPayer,
        or_iff_left fun hsame ↦ haddress hsame.2.symm]

theorem admits_signingKeys :
    Admits (fun building (entry : Address × Key) ↦ addSigningKey building entry.1 entry.2)
      (fun before building ↦ Records before [] building) (fun _ ↦ True)
      (fun earlier entry ↦ earlier.1 ≠ entry.1 ∧
        Alloy.address earlier.2 ≠ Alloy.address entry.2) where
  turn_isOk := by
    intro before building entry h
    have hseen : building.signerPayer.lookup (Alloy.address entry.2) = none ↔
        ∀ earlier ∈ before, Alloy.address earlier.2 ≠ Alloy.address entry.2 := by
      rw [Option.eq_none_iff_forall_ne_some]
      simp only [ne_eq, h.signerPayer, Binds, List.not_mem_nil, or_false, not_exists, not_and]
      exact ⟨fun hall earlier hearlier ↦ hall earlier.1 earlier.2 hearlier,
        fun hall payer key hmem ↦ hall (payer, key) hmem⟩
    have hpayer : (building.payers.lookup entry.1).isSome = false ↔
        ∀ earlier ∈ before, earlier.1 ≠ entry.1 := by
      rw [← Bool.not_eq_true, h.payer_isSome, List.mem_map]
      simp only [not_exists, not_and, ne_eq]
    simp only [addSigningKey_eq_ok, exists_and_left, exists_eq, and_true, true_and, hseen, hpayer]
    rw [and_comm, ← forall₂_and]
  turn_holds := fun h hturn ↦ addSigningKey_records h hturn

/-! ## The second loop -/

theorem addAccepted_eq_ok {Key : Type} {building building' : Building Key}
    {payer accepted : Address} :
    addAccepted building payer accepted = .ok building' ↔
      (∀ other, building.signerPayer.lookup accepted = some other → other = payer) ∧
        ∃ keys, building.payers.lookup payer = some keys ∧
          building' = ⟨building.payers.insert payer
            { keys with acceptedSigners := insert accepted keys.acceptedSigners },
            building.signerPayer.insert accepted payer⟩ := by
  cases hkeys : building.payers.lookup payer with
  | none => simp [addAccepted, hkeys]
  | some keys =>
    cases hseen : building.signerPayer.lookup accepted with
    | none => simp [addAccepted, hkeys, hseen, eq_comm]
    | some other =>
      simp only [addAccepted, hkeys, hseen, guard_eq_ok, not_not, Except.ok.injEq]
      simp [eq_comm]

variable {signingKeys : List (Address × Key)}

theorem addAccepted_records {before : List (Address × Address)} {building building' : Building Key}
    {entry : Address × Address} (h : Records signingKeys before building)
    (hturn : addAccepted building entry.1 entry.2 = .ok building') :
    Records signingKeys (before ++ [entry]) building' := by
  rcases entry with ⟨payer, accepted⟩
  rcases addAccepted_eq_ok.mp hturn with ⟨hseen, keys, hkeys, rfl⟩
  rcases (h.payers payer keys).mp hkeys with ⟨key, hmem, rfl⟩
  constructor
  · intro other found
    show (building.payers.insert payer
      { keysFor before payer key with
        acceptedSigners := insert accepted (keysFor before payer key).acceptedSigners }).lookup
        other = some found ↔ _
    by_cases hother : other = payer
    · subst hother
      rw [AList.lookup_insert, Option.some_inj]
      simp only [keysFor_append]
      constructor
      · rintro rfl
        exact ⟨key, hmem, rfl⟩
      · intro hfound
        rcases hfound with ⟨key', hmem', rfl⟩
        -- the payer has one key, so this is the key that was extended
        have hkey := (h.payers other (keysFor before other key')).mpr ⟨key', hmem', rfl⟩
        rw [Option.some_inj.mp (hkeys.symm.trans hkey)]
    · rw [AList.lookup_insert_ne hother, h.payers]
      simp only [keysFor_append_ne hother]
  · intro address other
    show (building.signerPayer.insert accepted payer).lookup address = some other ↔ _
    have hbinds : Binds signingKeys (before ++ [(payer, accepted)]) other address ↔
        Binds signingKeys before other address ∨ other = payer ∧ address = accepted := by
      simp only [Binds, List.mem_append, List.mem_singleton, Prod.mk.injEq, or_assoc]
    rw [hbinds]
    by_cases haddress : address = accepted
    · subst haddress
      rw [AList.lookup_insert, Option.some_inj, ← h.signerPayer]
      constructor
      · rintro rfl
        exact .inr ⟨rfl, rfl⟩
      · intro hother
        rcases hother with hother | ⟨rfl, -⟩
        · exact (hseen other hother).symm
        · rfl
    · rw [AList.lookup_insert_ne haddress, h.signerPayer,
        or_iff_left fun hsame ↦ haddress hsame.2]

theorem admits_accepted :
    Admits (fun building (entry : Address × Address) ↦ addAccepted building entry.1 entry.2)
      (fun before building ↦ Records signingKeys before building)
      (fun entry ↦ (entry.1 ∈ signingKeys.map fun entry ↦ entry.1) ∧
        ∀ other, Binds signingKeys [] other entry.2 → other = entry.1)
      (fun earlier entry ↦ earlier.2 = entry.2 → earlier.1 = entry.1) where
  turn_isOk := by
    intro before building entry h
    have hseen : (∀ other, building.signerPayer.lookup entry.2 = some other → other = entry.1) ↔
        (∀ other, Binds signingKeys [] other entry.2 → other = entry.1) ∧
          ∀ earlier ∈ before, earlier.2 = entry.2 → earlier.1 = entry.1 := by
      simp only [h.signerPayer, Binds, List.not_mem_nil, or_false, or_imp, forall_and]
      refine and_congr_right' ?_
      constructor
      · intro hall earlier hearlier haddress
        exact hall earlier.1 (haddress ▸ hearlier)
      · intro hall other hother
        exact hall (other, entry.2) hother rfl
    have hpayer : (∃ keys, building.payers.lookup entry.1 = some keys) ↔
        entry.1 ∈ signingKeys.map fun entry ↦ entry.1 := by
      rw [← Option.isSome_iff_exists, h.payer_isSome]
    simp only [addAccepted_eq_ok, exists_and_left, hseen]
    rw [exists_comm]
    simp only [exists_and_left, exists_eq, and_true, hpayer]
    rw [and_comm, and_assoc]
  turn_holds := fun h hturn ↦ addAccepted_records h hturn

/-! ## The registry -/

variable {accepted : List (Address × Address)}

theorem build_eq_ok {registry : SignerRegistry Key} :
    build signingKeys accepted = .ok registry ↔
      ∃ building, signingKeys.foldlM (fun building entry ↦
        addSigningKey building entry.1 entry.2) ⟨∅, ∅⟩ = .ok building ∧
      building.payers.entries.isEmpty = false ∧
      ∃ building', accepted.foldlM (fun building entry ↦
        addAccepted building entry.1 entry.2) building = .ok building' ∧
        registry = ⟨building'.payers⟩ := by
  rw [build, except_bind_eq_ok]
  refine exists_congr fun building ↦ and_congr_right' ?_
  cases building.payers.entries.isEmpty with
  | true => simp [bind, Except.bind]
  | false =>
    simp only [Bool.false_eq_true, if_false, true_and, except_bind_eq_ok]
    simp [pure, Except.pure, eq_comm]

theorem build_records {registry : SignerRegistry Key}
    (h : build signingKeys accepted = .ok registry) :
    ∃ signerPayer, Records signingKeys accepted ⟨registry.payers, signerPayer⟩ := by
  rcases build_eq_ok.mp h with ⟨building, hkeys, -, building', haccepted, rfl⟩
  have hfirst := admits_signingKeys.loop_holds Records.start hkeys
  have hsecond := admits_accepted.loop_holds hfirst haccepted
  exact ⟨building'.signerPayer, hsecond⟩

theorem build_isOk :
    (∃ registry, build signingKeys accepted = .ok registry) ↔
      Configures signingKeys accepted := by
  have hfirst := admits_signingKeys.loop_isOk Records.start signingKeys
  simp only [List.not_mem_nil, false_implies, implies_true, and_self, true_and,
    List.pairwise_and_iff] at hfirst
  constructor
  · intro hok
    rcases hok with ⟨registry, hok⟩
    rcases build_records hok with ⟨signerPayer, hrecords⟩
    rcases build_eq_ok.mp hok with ⟨building, hkeys, hnonempty, building', haccepted, rfl⟩
    have hbuilding := admits_signingKeys.loop_holds Records.start hkeys
    have hnodup := hfirst.mp ⟨building, hkeys⟩
    have hall := ((admits_accepted.loop_isOk hbuilding accepted).mp ⟨building', haccepted⟩).1
    constructor
    · rintro rfl
      rw [hbuilding.isEmpty_iff.mpr rfl] at hnonempty
      cases hnonempty
    · exact List.pairwise_map.mpr hnodup.1
    · exact List.pairwise_map.mpr hnodup.2
    · exact fun entry hentry ↦ (hall entry hentry).1.1
    · exact hrecords.unshared
  · intro hconf
    have hnodup := And.intro (List.pairwise_map.mp hconf.payers_nodup)
      (List.pairwise_map.mp hconf.keys_nodup)
    rcases hfirst.mpr hnodup with ⟨building, hkeys⟩
    have hbuilding := admits_signingKeys.loop_holds Records.start hkeys
    have hnonempty : building.payers.entries.isEmpty = false := by
      rw [← Bool.not_eq_true, hbuilding.isEmpty_iff]
      exact hconf.nonempty
    -- every binding of an accepted entry is one of the whole configuration
    have hentry : ∀ entry ∈ accepted, Binds signingKeys accepted entry.1 entry.2 :=
      fun entry hentry ↦ .inr hentry
    have hunshared : ∀ entry ∈ accepted, ∀ other, Binds signingKeys [] other entry.2 →
        other = entry.1 := by
      intro entry hmem other hother
      have hbinds : Binds signingKeys accepted other entry.2 :=
        .inl (hother.resolve_right List.not_mem_nil)
      exact hconf.unshared other entry.1 entry.2 hbinds (hentry entry hmem)
    have hpairwise : accepted.Pairwise fun earlier entry ↦
        earlier.2 = entry.2 → earlier.1 = entry.1 := by
      apply List.pairwise_of_forall_mem_list
      intro earlier hearlier entry hmem haddress
      exact hconf.unshared earlier.1 entry.1 entry.2 (haddress ▸ hentry earlier hearlier)
        (hentry entry hmem)
    have hloop := (admits_accepted.loop_isOk hbuilding accepted).mpr ⟨fun entry hmem ↦
      ⟨⟨hconf.named entry hmem, hunshared entry hmem⟩,
        fun _ hearlier ↦ absurd hearlier List.not_mem_nil⟩, hpairwise⟩
    rcases hloop with ⟨building', haccepted⟩
    exact ⟨⟨building'.payers⟩, build_eq_ok.mpr
      ⟨building, hkeys, hnonempty, building', haccepted, rfl⟩⟩

theorem resolve_eq_some {registry : SignerRegistry Key}
    (h : build signingKeys accepted = .ok registry) {payer : Address} {key : Key}
    {signers : Finset Address} :
    registry.resolve payer = some (key, signers) ↔ (payer, key) ∈ signingKeys ∧
      signers = insert (Alloy.address key) (listedSigners accepted payer) := by
  rcases build_records h with ⟨signerPayer, hrecords⟩
  have hlookup := hrecords.payers payer
  simp only at hlookup
  rw [resolve, Option.map_eq_some_iff]
  constructor
  · intro hfound
    rcases hfound with ⟨keys, hkeys, hresult⟩
    rcases (hlookup keys).mp hkeys with ⟨found, hmem, rfl⟩
    rcases Prod.mk.inj hresult with ⟨rfl, rfl⟩
    exact ⟨hmem, rfl⟩
  · intro hlisted
    rcases hlisted with ⟨hmem, rfl⟩
    exact ⟨keysFor accepted payer key, (hlookup _).mpr ⟨key, hmem, rfl⟩, rfl⟩

theorem resolve_isSome {registry : SignerRegistry Key}
    (h : build signingKeys accepted = .ok registry) (payer : Address) :
    (registry.resolve payer).isSome = true ↔
      payer ∈ signingKeys.map fun entry ↦ entry.1 := by
  rcases build_records h with ⟨signerPayer, hrecords⟩
  rw [resolve, Option.isSome_map]
  exact hrecords.payer_isSome payer

/-- Whom a registry accepts for a payer is who is bound to that payer. -/
theorem binds_of_resolve {registry : SignerRegistry Key}
    (h : build signingKeys accepted = .ok registry) {payer : Address} {keys : Key × Finset Address}
    (hkeys : registry.resolve payer = some keys) {signer : Address} (hsigner : signer ∈ keys.2) :
    Binds signingKeys accepted payer signer := by
  rcases (resolve_eq_some h).mp hkeys with ⟨hmem, hsigners⟩
  rw [hsigners, Finset.mem_insert, mem_listedSigners] at hsigner
  rcases hsigner with rfl | hsigner
  · exact .inl ⟨keys.1, hmem, rfl⟩
  · exact .inr hsigner

theorem resolve_disjoint {registry : SignerRegistry Key}
    (h : build signingKeys accepted = .ok registry) {payer other : Address}
    {keys keys' : Key × Finset Address} (hkeys : registry.resolve payer = some keys)
    (hkeys' : registry.resolve other = some keys') (hne : payer ≠ other) :
    Disjoint keys.2 keys'.2 := by
  have hconf := build_isOk.mp ⟨registry, h⟩
  rw [Finset.disjoint_left]
  intro signer hsigner hsigner'
  exact hne (hconf.unshared payer other signer (binds_of_resolve h hkeys hsigner)
    (binds_of_resolve h hkeys' hsigner'))

theorem build_perm {signingKeys' : List (Address × Key)} {accepted' : List (Address × Address)}
    {registry : SignerRegistry Key} (h : build signingKeys accepted = .ok registry)
    (hkeys : signingKeys'.Perm signingKeys) (haccepted : accepted'.Perm accepted) :
    ∃ registry', build signingKeys' accepted' = .ok registry' ∧
      registry'.resolve = registry.resolve := by
  have hconf := (build_isOk.mp ⟨registry, h⟩).perm hkeys haccepted
  rcases build_isOk.mpr hconf with ⟨registry', h'⟩
  refine ⟨registry', h', ?_⟩
  funext payer
  apply Option.ext
  intro keys
  show registry'.resolve payer = some (keys.1, keys.2) ↔
    registry.resolve payer = some (keys.1, keys.2)
  rw [resolve_eq_some h', resolve_eq_some h, hkeys.mem_iff, listedSigners_perm haccepted]

/-- The registry is built for exactly the lists that bind every signer to one payer, and resolves
each payer to its key and its signers, which no other payer shares. -/
theorem build_resolves (signingKeys : List (Address × Key)) (accepted : List (Address × Address)) :
    ((∃ registry, build signingKeys accepted = .ok registry) ↔ Configures signingKeys accepted) ∧
      ∀ registry, build signingKeys accepted = .ok registry →
        (∀ payer key signers, registry.resolve payer = some (key, signers) ↔
          (payer, key) ∈ signingKeys ∧
            signers = insert (Alloy.address key) (listedSigners accepted payer)) ∧
        (∀ payer, (registry.resolve payer).isSome = true ↔
          payer ∈ signingKeys.map fun entry ↦ entry.1) ∧
        (∀ payer other keys keys', registry.resolve payer = some keys →
          registry.resolve other = some keys' → payer ≠ other → Disjoint keys.2 keys'.2) ∧
        ∀ signingKeys' accepted', signingKeys'.Perm signingKeys → accepted'.Perm accepted →
          ∃ registry', build signingKeys' accepted' = .ok registry' ∧
            registry'.resolve = registry.resolve := by
  refine ⟨build_isOk, fun registry h ↦ ⟨?_, resolve_isSome h, ?_, ?_⟩⟩
  · exact fun payer key signers ↦ resolve_eq_some h
  · exact fun payer other keys keys' hkeys hkeys' hne ↦ resolve_disjoint h hkeys hkeys' hne
  · exact fun signingKeys' accepted' hkeys haccepted ↦ build_perm h hkeys haccepted

end Build

end GraphTally.SignerRegistry
