import GraphTally.Eip712Message
import GraphTally.Theory.Hex
import GraphTally.Theory.MachineWord
import GraphTally.Theory.Text
import Mathlib.Data.List.AList

/-!
# The RAV consumer

`ravs`: the records of the RAV topic, and the map from allocations to the largest value seen.
-/

open GraphTally.Theory

namespace GraphTally.EscrowManager

/-- A Kafka message; both parts may be missing. -/
structure Message where
  key : Option (List UInt8)
  payload : Option (List UInt8)
  deriving DecidableEq

structure Record where
  signer : Address
  allocation : Address
  value : U128
  deriving DecidableEq

inductive ParseResult where
  | v2 (record : Record)
  | v1
  deriving DecidableEq

abbrev RavMap := AList fun _ : Address ↦ U128

section Parse

variable [AlloyText]

/-- The 32-byte id is told from the 20-byte one by the length of its text. -/
def parseId (signer id payload : List Char) : Outcome String ParseResult :=
  if utf8Length id = 42 then .ok .v1
  else if utf8Length id ≠ 66 then
    .error (.error ("invalid id length: " ++ toString (utf8Length id)))
  else
    match sliceFrom 26 id with
    | none => .error .panic
    | some allocation =>
      match AlloyText.parseAddress (String.ofList signer),
          AlloyText.parseAddress (String.ofList allocation), parseUnsigned 128 payload with
      | .ok signer, .ok allocation, .ok value => .ok (.v2 ⟨signer, allocation, value⟩)
      | .error e, _, _ => .error (.error e)
      | _, .error e, _ => .error (.error e)
      | _, _, .error e => .error (.error e)

def parseRecord (message : Message) : Outcome String ParseResult :=
  match message.key with
  | none => .error (.error "missing key")
  | some key =>
    match message.payload with
    | none => .error (.error "missing payload")
    | some payload =>
      match splitOnce ':' (fromUtf8Lossy key) with
      | none => .error (.error "malformed key")
      | some (signer, id) => parseId signer id (fromUtf8Lossy payload)

/-- The closure of `send_if_modified`: a vacant entry is filled and a smaller value replaced. -/
def updateRav (map : RavMap) (record : Record) : RavMap :=
  match map.lookup record.allocation with
  | none => map.insert record.allocation record.value
  | some held => if held.toNat < record.value.toNat then map.insert record.allocation record.value
    else map

/-- One message: a record that does not parse is logged and skipped. -/
def processMessage (signers : List Address) (map : RavMap) (message : Message) :
    Outcome Empty RavMap :=
  match parseRecord message with
  | .error .panic => .error .panic
  | .error (.error _) => .ok map
  | .ok .v1 => .ok map
  | .ok (.v2 record) => if record.signer ∈ signers then .ok (updateRav map record) else .ok map

end Parse

/-! ## The map -/

/-- The update is a join: the entry becomes the larger of the two values. -/
theorem lookup_updateRav (map : RavMap) (record : Record) :
    ∃ value, (updateRav map record).lookup record.allocation = some value ∧
      ((map.lookup record.allocation = none ∧ value = record.value) ∨
        ∃ held, map.lookup record.allocation = some held ∧
          value.toNat = max held.toNat record.value.toNat) := by
  unfold updateRav
  cases hlookup : map.lookup record.allocation with
  | none => exact ⟨record.value, AList.lookup_insert _, .inl ⟨rfl, rfl⟩⟩
  | some held =>
    by_cases hless : held.toNat < record.value.toNat
    · refine ⟨record.value, ?_, .inr ⟨held, rfl, by omega⟩⟩
      dsimp only
      rw [if_pos hless, AList.lookup_insert]
    · refine ⟨held, ?_, .inr ⟨held, rfl, by omega⟩⟩
      dsimp only
      rw [if_neg hless, hlookup]

/-- After a record the map holds at least its value for the allocation. -/
theorem updateRav_holds (map : RavMap) (record : Record) :
    ∃ held, (updateRav map record).lookup record.allocation = some held ∧
      record.value.toNat ≤ held.toNat := by
  rcases lookup_updateRav map record with ⟨value, hvalue, ⟨-, rfl⟩ | ⟨held, -, hmax⟩⟩
  · exact ⟨_, hvalue, Nat.le_refl _⟩
  · exact ⟨value, hvalue, by omega⟩

theorem lookup_updateRav_ne (map : RavMap) {record : Record} {allocation : Address}
    (h : record.allocation ≠ allocation) :
    (updateRav map record).lookup allocation = map.lookup allocation := by
  unfold updateRav
  split
  · exact AList.lookup_insert_ne h.symm
  · split
    · exact AList.lookup_insert_ne h.symm
    · rfl

/-! ## Records that are written in hexadecimal -/

/-- The texts of byte strings and addresses are hexadecimal digits. -/
structure WritesHex [AlloyText] : Prop where
  debug : ∀ bytes, ∃ digits, (AlloyText.debug bytes).toList = '0' :: 'x' :: digits ∧
    ofHex digits = some bytes
  parse : ∀ (address : Address) digits, ofHex digits = some address.bytes →
    AlloyText.parseAddress (String.ofList ('0' :: 'x' :: digits)) = .ok address
  parseBare : ∀ (address : Address) digits, ofHex digits = some address.bytes →
    AlloyText.parseAddress (String.ofList digits) = .ok address

end GraphTally.EscrowManager
