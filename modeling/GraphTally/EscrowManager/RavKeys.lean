import GraphTally.EscrowManager.Ravs
import GraphTally.KnownSignatures

/-!
# Keys of the RAV topic

The id in a key is measured and sliced by bytes.  What that does to ids the aggregator would not
write: a slice within a character, and a padding that nobody looks at.
-/

open GraphTally.Theory

namespace GraphTally.EscrowManager

/-- The texts a record is read from. -/
def HasParts (message : Message) (signer id payload : List Char) : Prop :=
  ∃ key bytes, message.key = some key ∧ message.payload = some bytes ∧
    splitOnce ':' (fromUtf8Lossy key) = some (signer, id) ∧ fromUtf8Lossy bytes = payload

theorem HasParts.unique {message : Message} {signer id payload signer' id' payload' : List Char}
    (h : HasParts message signer id payload) (h' : HasParts message signer' id' payload') :
    signer = signer' ∧ id = id' ∧ payload = payload' := by
  rcases h with ⟨key, bytes, hkey, hbytes, hsplit, rfl⟩
  rcases h' with ⟨key', bytes', hkey', hbytes', hsplit', rfl⟩
  obtain rfl : key = key' := Option.some_inj.mp (hkey.symm.trans hkey')
  obtain rfl : bytes = bytes' := Option.some_inj.mp (hbytes.symm.trans hbytes')
  rw [hsplit, Option.some_inj, Prod.mk.injEq] at hsplit'
  exact ⟨hsplit'.1, hsplit'.2, rfl⟩

section Parse

variable [AlloyText] {message : Message} {signer id payload : List Char} {record : Record}

theorem parseRecord_of_parts (h : HasParts message signer id payload) :
    parseRecord message = parseId signer id payload := by
  rcases h with ⟨key, bytes, hkey, hbytes, hsplit, rfl⟩
  unfold parseRecord
  simp only [hkey, hbytes, hsplit]

-- A record without the three texts is an error.
theorem parts_of_parseRecord (h : ∀ e, parseRecord message ≠ .error (.error e)) :
    ∃ signer id payload, HasParts message signer id payload := by
  unfold parseRecord at h
  split at h
  · exact absurd rfl (h _)
  · rename_i key hkey
    split at h
    · exact absurd rfl (h _)
    · rename_i bytes hbytes
      split at h
      · exact absurd rfl (h _)
      · rename_i signer id hsplit
        exact ⟨signer, id, _, key, bytes, hkey, hbytes, hsplit, rfl⟩

theorem parseId_eq_panic :
    parseId signer id payload = .error .panic ↔ utf8Length id = 66 ∧ Straddles 26 id := by
  unfold parseId
  by_cases hlength : utf8Length id = 66
  · rw [if_neg (by omega), if_neg (not_not.mpr hlength), and_iff_right hlength,
      ← sliceFrom_eq_none_iff (by omega)]
    cases sliceFrom 26 id with
    | none => simp
    | some rest =>
      dsimp only
      split <;> simp
  · rw [if_pos hlength]
    split <;> simp [hlength]

theorem parseId_eq_v2 :
    parseId signer id payload = .ok (.v2 record) ↔ utf8Length id = 66 ∧
      ∃ rest, sliceFrom 26 id = some rest ∧
        AlloyText.parseAddress (String.ofList signer) = .ok record.signer ∧
        AlloyText.parseAddress (String.ofList rest) = .ok record.allocation ∧
        parseUnsigned 128 payload = .ok record.value := by
  unfold parseId
  by_cases hlength : utf8Length id = 66
  · rw [if_neg (by omega), if_neg (not_not.mpr hlength), and_iff_right hlength]
    cases sliceFrom 26 id with
    | none => simp
    | some rest =>
      dsimp only
      split
      · rename_i hsigner hallocation hvalue
        rcases record with ⟨_, _, _⟩
        simp [hsigner, hallocation, hvalue]
      · rename_i hsigner
        simp [hsigner]
      · rename_i hallocation _
        simp [hallocation]
      · rename_i hvalue _ _
        simp [hvalue]
  · rw [if_pos hlength]
    split <;> simp [hlength]

end Parse

/-! ## Slices within a character -/

/-- The id is as long as a collection id, and byte 26 is not where a character of it begins. -/
def CutsCharacter (message : Message) : Prop :=
  ∃ signer id payload, HasParts message signer id payload ∧ utf8Length id = 66 ∧ Straddles 26 id

section Panic

variable [AlloyText]

theorem parseRecord_eq_panic (message : Message) :
    parseRecord message = .error .panic ↔ CutsCharacter message := by
  constructor
  · intro hpanic
    have hnever : ∀ e, parseRecord message ≠ .error (.error e) := by
      intro e
      rw [hpanic]
      simp
    rcases parts_of_parseRecord hnever with ⟨signer, id, payload, hparts⟩
    rw [parseRecord_of_parts hparts, parseId_eq_panic] at hpanic
    exact ⟨signer, id, payload, hparts, hpanic⟩
  · rintro ⟨signer, id, payload, hparts, hcut⟩
    rw [parseRecord_of_parts hparts, parseId_eq_panic]
    exact hcut

theorem processMessage_eq_panic (signers : List Address) (map : RavMap) (message : Message) :
    processMessage signers map message = .error .panic ↔ parseRecord message = .error .panic := by
  unfold processMessage
  split
  · rename_i hparse
    simp [hparse]
  · rename_i hparse
    simp [hparse]
  · rename_i hparse
    simp [hparse]
  · rename_i hparse
    split <;> simp [hparse]

-- The first panic ends the consumer, whatever came before it.
theorem processMessages_eq_panic (signers : List Address) (map : RavMap)
    (messages : List Message) :
    messages.foldlM (processMessage signers) map = .error .panic ↔
      ∃ message ∈ messages, parseRecord message = .error .panic := by
  induction messages generalizing map with
  | nil => simp [pure, Except.pure]
  | cons message messages ih =>
    rw [List.foldlM_cons, List.exists_mem_cons_iff, ← processMessage_eq_panic signers map message]
    cases processMessage signers map message with
    | error failure =>
      rcases failure with ⟨⟨⟩⟩ | _
      exact iff_of_true rfl (.inl rfl)
    | ok map' =>
      simp only [reduceCtorEq, false_or]
      exact ih map'

/-- A record is parsed without a panic, and the consumer survives it, exactly when its id is of
another length or has a character starting at byte 26. -/
theorem parseRecord_survives_iff :
    (∀ message, parseRecord message ≠ .error .panic ↔ ¬CutsCharacter message) ∧
      ∀ (signers : List Address) (map : RavMap) (messages : List Message),
        messages.foldlM (processMessage signers) map ≠ .error .panic ↔
          ∀ message ∈ messages, ¬CutsCharacter message := by
  refine ⟨fun message ↦ not_congr (parseRecord_eq_panic message), ?_⟩
  intro signers map messages
  rw [Ne, processMessages_eq_panic]
  simp only [parseRecord_eq_panic, not_exists, not_and]

end Panic

/-- A two-byte character over the end of the padding. -/
def cutId : List Char := '0' :: 'x' :: (List.replicate 23 '0' ++ 'é' :: List.replicate 39 '0')

def cutMessage : Message := ⟨some (toUtf8 (':' :: cutId)), some []⟩

open Known in
/-- One record kills the consumer. -/
theorem parseRecord_cuts_character :
    parseRecord cutMessage = .error .panic ∧
      ∀ signers map messages,
        (cutMessage :: messages).foldlM (processMessage signers) map = .error .panic := by
  have hpanic : parseRecord cutMessage = .error .panic := by decide +kernel
  refine ⟨hpanic, ?_⟩
  intro signers map messages
  apply (processMessages_eq_panic signers map _).mpr
  exact ⟨cutMessage, List.mem_cons_self, hpanic⟩

/-! ## Ids that are not padded -/

/-- `0x` and the digits of twelve zero bytes. -/
def padding : List Char := '0' :: 'x' :: List.replicate 24 '0'

/-- The id is the padded address. -/
def IsPaddedId (id : List Char) (allocation : Address) : Prop :=
  ∃ digits, id = padding ++ digits ∧ ofHex digits = some allocation.bytes

/-- `FromStr` of an address reads forty digits.  It allows for a prefix, but after one there are
too few of them in forty bytes. -/
structure ReadsHex [AlloyText] : Prop where
  parse : ∀ text (address : Address), utf8Length text = 40 →
    (AlloyText.parseAddress (String.ofList text) = .ok address ↔
      ofHex text = some address.bytes)

/-- Everything but the padding is as the parser wants it. -/
structure Acceptable [AlloyText] (signer id payload : List Char) : Prop where
  length : utf8Length id = 66
  digits : ∃ digits bytes, sliceFrom 26 id = some digits ∧ ofHex digits = some bytes
  signer : ∃ address, AlloyText.parseAddress (String.ofList signer) = .ok address
  value : ∃ value, parseUnsigned 128 payload = .ok value

section Padding

variable {id digits : List Char}

theorem ascii_of_ofHex {bytes : List UInt8} (h : ofHex digits = some bytes) : Ascii digits :=
  fun c hc ↦ (hexValue_isSome ((ofHex_eq_some h).2 c hc)).1

-- The allocation is read off the last forty bytes of the id.
theorem utf8Length_of_slice (hlength : utf8Length id = 66)
    (hslice : sliceFrom 26 id = some digits) : utf8Length digits = 40 := by
  rcases sliceFrom_eq_some hslice with ⟨skipped, rfl, hskipped⟩
  rw [utf8Length_append] at hlength
  omega

end Padding

/-- The bytes that the id part of a key spells. -/
def Message.collectionId (message : Message) : Option (List UInt8) := do
  let key ← message.key
  let parts ← splitOnce ':' (fromUtf8Lossy key)
  ofHex (parts.2.drop 2)

/-- A record is counted for an allocation under its padded id only. -/
def AttributesPadded [AlloyText] (message : Message) : Prop :=
  ∀ record, parseRecord message = .ok (.v2 record) →
    ∃ signer id payload, HasParts message signer id payload ∧ IsPaddedId id record.allocation

/-- The id starts with the padding, or something else about the record is wrong. -/
def PaddedOrRejected [AlloyText] (message : Message) : Prop :=
  ∀ signer id payload, HasParts message signer id payload → Acceptable signer id payload →
    ∃ digits, id = padding ++ digits

section Attribution

variable [AlloyText] {message : Message} {signer id payload : List Char} {record : Record}

theorem acceptable_iff (hreads : ReadsHex) :
    Acceptable signer id payload ↔ ∃ record, parseId signer id payload = .ok (.v2 record) := by
  constructor
  · rintro ⟨hlength, ⟨digits, bytes, hslice, hhex⟩, ⟨address, hsigner⟩, ⟨value, hvalue⟩⟩
    have hforty := utf8Length_of_slice hlength hslice
    have hsize : bytes.length = 20 := by
      have hdigits := utf8Length_ascii (ascii_of_ofHex hhex)
      have hbytes := (ofHex_eq_some hhex).1
      omega
    refine ⟨⟨address, ⟨bytes, hsize⟩, value⟩, ?_⟩
    apply parseId_eq_v2.mpr
    exact ⟨hlength, digits, hslice, hsigner, (hreads.parse _ _ hforty).mpr hhex, hvalue⟩
  · rintro ⟨record, hparse⟩
    rcases parseId_eq_v2.mp hparse with ⟨hlength, digits, hslice, hsigner, hallocation, hvalue⟩
    have hforty := utf8Length_of_slice hlength hslice
    have hhex := (hreads.parse _ _ hforty).mp hallocation
    exact ⟨hlength, ⟨digits, _, hslice, hhex⟩, ⟨_, hsigner⟩, ⟨_, hvalue⟩⟩

-- The address is read off the end of the id, so the padding is all that is left to check.
theorem isPaddedId_iff (hreads : ReadsHex) (hparse : parseId signer id payload = .ok (.v2 record)) :
    IsPaddedId id record.allocation ↔ ∃ digits, id = padding ++ digits := by
  rcases parseId_eq_v2.mp hparse with ⟨hlength, digits, hslice, -, hallocation, -⟩
  constructor
  · rintro ⟨digits', hid, -⟩
    exact ⟨digits', hid⟩
  · rintro ⟨digits', rfl⟩
    have hrest : sliceFrom 26 (padding ++ digits') = some digits' :=
      sliceFrom_append padding digits'
    obtain rfl : digits' = digits := Option.some_inj.mp (hrest.symm.trans hslice)
    have hforty := utf8Length_of_slice hlength hslice
    exact ⟨digits', rfl, (hreads.parse _ _ hforty).mp hallocation⟩

theorem attributesPadded_iff (hreads : ReadsHex) (message : Message) :
    AttributesPadded message ↔ PaddedOrRejected message := by
  constructor
  · intro hattributes signer id payload hparts hacceptable
    rcases (acceptable_iff hreads).mp hacceptable with ⟨record, hparse⟩
    have hrecord := (parseRecord_of_parts hparts).trans hparse
    rcases hattributes record hrecord with ⟨signer', id', payload', hparts', hpadded⟩
    obtain ⟨rfl, rfl, rfl⟩ := hparts.unique hparts'
    exact (isPaddedId_iff hreads hparse).mp hpadded
  · intro hpadded record hrecord
    have hnever : ∀ e, parseRecord message ≠ .error (.error e) := by
      intro e
      rw [hrecord]
      simp
    rcases parts_of_parseRecord hnever with ⟨signer, id, payload, hparts⟩
    have hparse := (parseRecord_of_parts hparts).symm.trans hrecord
    have hstarts := hpadded signer id payload hparts ((acceptable_iff hreads).mpr ⟨record, hparse⟩)
    exact ⟨signer, id, payload, hparts, (isPaddedId_iff hreads hparse).mpr hstarts⟩

/-- A padded id spells the address after twelve zero bytes. -/
theorem AttributesPadded.collectionId_eq (h : AttributesPadded message)
    (hrecord : parseRecord message = .ok (.v2 record)) :
    message.collectionId = some (List.replicate 12 0 ++ record.allocation.bytes) := by
  rcases h record hrecord with ⟨signer, id, payload, ⟨key, bytes, hkey, -, hsplit, -⟩, digits, rfl,
    hhex⟩
  have hzeros : ofHex (List.replicate 24 '0') = some (List.replicate 12 0) := by decide
  unfold Message.collectionId
  rw [hkey]
  show (splitOnce ':' (fromUtf8Lossy key)).bind _ = _
  rw [hsplit]
  exact ofHex_append hzeros hhex

/-- A record is never counted for an allocation that its collection id does not pad to exactly when
its id is padded or it is rejected for another reason; and two such records under different
collection ids update different entries. -/
theorem attributes_padded_iff (hreads : ReadsHex) :
    (∀ message, AttributesPadded message ↔ PaddedOrRejected message) ∧
      ∀ a b recordA recordB, PaddedOrRejected a → PaddedOrRejected b →
        parseRecord a = .ok (.v2 recordA) → parseRecord b = .ok (.v2 recordB) →
        a.collectionId ≠ b.collectionId →
        recordA.allocation ≠ recordB.allocation ∧
          ∀ (signers : List Address) (map map' : RavMap), processMessage signers map a = .ok map' →
            map'.lookup recordB.allocation = map.lookup recordB.allocation := by
  refine ⟨attributesPadded_iff hreads, ?_⟩
  intro a b recordA recordB ha hb hparseA hparseB hids
  have hidA := ((attributesPadded_iff hreads a).mpr ha).collectionId_eq hparseA
  have hidB := ((attributesPadded_iff hreads b).mpr hb).collectionId_eq hparseB
  have hne : recordA.allocation ≠ recordB.allocation := by
    intro hsame
    exact hids (by rw [hidA, hidB, hsame])
  refine ⟨hne, ?_⟩
  intro signers map map' hprocess
  unfold processMessage at hprocess
  rw [hparseA] at hprocess
  dsimp only at hprocess
  split at hprocess
  · obtain rfl := Except.ok.inj hprocess
    exact lookup_updateRav_ne map hne
  · obtain rfl := Except.ok.inj hprocess
    rfl

end Attribution

end GraphTally.EscrowManager

/-! ## Two collections, one allocation -/

namespace GraphTally.Known

open EscrowManager

theorem parseAddress_eq_ok {text : List Char} {address : Address} :
    parseAddress (String.ofList text) = .ok address ↔
      ofHex (if text.take 2 = ['0', 'x'] then text.drop 2 else text) = some address.bytes := by
  unfold parseAddress
  rw [String.toList_ofList]
  dsimp only
  generalize (if text.take 2 = ['0', 'x'] then text.drop 2 else text) = digits
  cases ofHex digits with
  | none => simp
  | some bytes =>
    dsimp only
    rw [Option.some_inj]
    by_cases hsize : bytes.length = 20
    · rw [dif_pos hsize, Except.ok.injEq]
      exact ⟨fun h ↦ congrArg FixedBytes.bytes h, fun h ↦ FixedBytes.ext h⟩
    · rw [dif_neg hsize]
      refine iff_of_false (by simp) ?_
      rintro rfl
      exact hsize address.size_eq

theorem readsHex : ReadsHex where
  parse text address hlength := by
    show parseAddress _ = _ ↔ _
    rw [parseAddress_eq_ok]
    by_cases htake : text.take 2 = ['0', 'x']
    · rw [if_pos htake]
      -- neither side holds: thirty-eight digits are left, or an `x` is among forty
      apply iff_of_false
      · intro h
        have hdigits := utf8Length_ascii (ascii_of_ofHex h)
        have hbytes := (ofHex_eq_some h).1
        have hsize := address.size_eq
        have hsplit := utf8Length_append (text.take 2) (text.drop 2)
        have hprefix : utf8Length (text.take 2) = 2 := by
          rw [htake]
          rfl
        rw [List.take_append_drop] at hsplit
        omega
      · intro h
        have hx : 'x' ∈ text := List.mem_of_mem_take (i := 2) (by rw [htake]; simp)
        exact (hexValue_isSome ((ofHex_eq_some h).2 'x' hx)).2.2 rfl
    · rw [if_neg htake]

def addressText (address : Address) : List Char := '0' :: 'x' :: toHex .lower address.bytes

/-- A record of the first key, under an id that ends in one address. -/
def messageUnder (start : List Char) (value : Nat) : Message :=
  ⟨some (toUtf8 (addressText Key.one.address ++ ':' :: start ++
    toHex .lower (FixedBytes.repeatByte 20 0xab).bytes)), some (toUtf8 (toDecimal value))⟩

/-- Not an allocation's id: the padding bytes are all 17. -/
def unpadded : Message := messageUnder ('0' :: 'x' :: List.replicate 24 '1') 12

def padded : Message := messageUnder padding 5

end GraphTally.Known

namespace GraphTally.EscrowManager

open Known in
/-- The collection without an allocation hides the debt of the one with it. -/
theorem unpadded_counted :
    parseRecord unpadded = .ok (.v2 ⟨Key.one.address, .repeatByte 20 0xab, 12⟩) ∧
      parseRecord padded = .ok (.v2 ⟨Key.one.address, .repeatByte 20 0xab, 5⟩) ∧
      unpadded.collectionId ≠ padded.collectionId ∧
      ([unpadded, padded].foldlM (processMessage [Key.one.address]) ∅).map
        (·.lookup (.repeatByte 20 0xab)) = .ok (some 12) ∧
      ¬AttributesPadded unpadded := by
  have hparse : parseRecord unpadded = .ok (.v2 ⟨Key.one.address, .repeatByte 20 0xab, 12⟩) := by
    decide +kernel
  refine ⟨hparse, by decide +kernel, by decide +kernel, by decide +kernel, ?_⟩
  intro hattributes
  have hid := hattributes.collectionId_eq hparse
  revert hid
  decide +kernel

open Known in
theorem unpadded_not_paddedOrRejected : ¬PaddedOrRejected unpadded := by
  intro hpadded
  have hparts : HasParts unpadded (addressText Key.one.address)
      ('0' :: 'x' :: List.replicate 24 '1' ++ toHex .lower (FixedBytes.repeatByte 20 0xab).bytes)
      (toDecimal 12) := ⟨_, _, rfl, rfl, by decide +kernel, by decide +kernel⟩
  have hparse : parseRecord unpadded = .ok (.v2 ⟨Key.one.address, .repeatByte 20 0xab, 12⟩) := by
    decide +kernel
  rw [parseRecord_of_parts hparts] at hparse
  rcases hpadded _ _ _ hparts ((acceptable_iff readsHex).mpr ⟨_, hparse⟩) with ⟨digits, hid⟩
  have htake : ['0', 'x', '1'] = ['0', 'x', '0'] := congrArg (List.take 3) hid
  exact absurd htake (by decide)

open Known in
theorem padded_paddedOrRejected : PaddedOrRejected padded := by
  intro signer id payload hparts _
  have hpadded : HasParts padded (addressText Key.one.address)
      (padding ++ toHex .lower (FixedBytes.repeatByte 20 0xab).bytes) (toDecimal 5) :=
    ⟨_, _, rfl, rfl, by decide +kernel, by decide +kernel⟩
  obtain ⟨-, rfl, -⟩ := hparts.unique hpadded
  exact ⟨_, rfl⟩

open Known in
/-- Of the two, the padded id is the one its debt is counted under. -/
theorem attributes_padded_iff_known : AttributesPadded padded ∧ ¬AttributesPadded unpadded :=
  ⟨((attributes_padded_iff readsHex).1 padded).mpr padded_paddedOrRejected,
    mt ((attributes_padded_iff readsHex).1 unpadded).mp unpadded_not_paddedOrRejected⟩

end GraphTally.EscrowManager
