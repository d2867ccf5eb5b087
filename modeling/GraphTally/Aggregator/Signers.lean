import GraphTally.Eip712Message
import GraphTally.Theory.Fallible
import Mathlib.Data.Finset.Insert
import Mathlib.Data.List.AList

/-! The registry that resolves a payer to the key that signs for it and the signers it accepts. -/

open GraphTally.Theory

namespace GraphTally

variable {Key : Type}

structure PayerKeys (Key : Type) where
  signingKey : Key
  acceptedSigners : Finset Address

def PayerKeys.new [Alloy Key] (signingKey : Key) (alsoAccept : List Address) : PayerKeys Key :=
  ⟨signingKey, alsoAccept.foldl (fun accepted signer ↦ insert signer accepted)
    {Alloy.address signingKey}⟩

structure SignerRegistry (Key : Type) where
  payers : AList (fun _ : Address ↦ PayerKeys Key)

namespace SignerRegistry

/-- The two maps `build` fills: the registry so far, and the payer of every address seen. -/
structure Building (Key : Type) where
  payers : AList (fun _ : Address ↦ PayerKeys Key)
  signerPayer : AList (fun _ : Address ↦ Address)

section Build

variable [Alloy Key] [AlloyText]

open AlloyText (displayAddress)

/-- One turn of the first loop. -/
def addSigningKey (building : Building Key) (payer : Address) (signingKey : Key) :
    Except String (Building Key) :=
  let address := Alloy.address signingKey
  match building.signerPayer.lookup address with
  | some other => .error ("signing key " ++ displayAddress address ++ " is listed for both " ++
      displayAddress other ++ " and " ++ displayAddress payer ++
      ", but a signer can only be authorized for one payer")
  | none =>
    if (building.payers.lookup payer).isSome then
      .error ("duplicate entry for payer " ++ displayAddress payer)
    else .ok ⟨building.payers.insert payer (PayerKeys.new signingKey []),
      building.signerPayer.insert address payer⟩

/-- One turn of the second loop. -/
def addAccepted (building : Building Key) (payer accepted : Address) :
    Except String (Building Key) :=
  match building.payers.lookup payer with
  | none => .error ("accepted signer " ++ displayAddress accepted ++ " names payer " ++
      displayAddress payer ++ ", which has no signing key")
  | some keys =>
    let extended : Building Key :=
      ⟨building.payers.insert payer
        { keys with acceptedSigners := insert accepted keys.acceptedSigners },
        building.signerPayer.insert accepted payer⟩
    match building.signerPayer.lookup accepted with
    | none => .ok extended
    | some other =>
      if other ≠ payer then .error ("signer " ++ displayAddress accepted ++
        " is listed for both " ++ displayAddress other ++ " and " ++ displayAddress payer ++
        ", but a signer can only be authorized for one payer")
      else .ok extended

def build (signingKeys : List (Address × Key)) (accepted : List (Address × Address)) :
    Except String (SignerRegistry Key) := do
  let building ← signingKeys.foldlM (fun building entry ↦
    addSigningKey building entry.1 entry.2) ⟨∅, ∅⟩
  if building.payers.entries.isEmpty then .error "no payers configured"
  let building ← accepted.foldlM (fun building entry ↦
    addAccepted building entry.1 entry.2) building
  return ⟨building.payers⟩

end Build

/-- `None` means no key is held for that payer. -/
def resolve (self : SignerRegistry Key) (payer : Address) : Option (Key × Finset Address) :=
  (self.payers.lookup payer).map fun keys ↦ (keys.signingKey, keys.acceptedSigners)

end SignerRegistry

end GraphTally
