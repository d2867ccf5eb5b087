import GraphTally.Theory.Bytes
import Mathlib.Data.BitVec

/-!
# EIP-712 signed messages

The `eip712_message` crate.  `alloy` itself is not part of the repository: its key, signature and
hashing functions are the fields of `Alloy` and `SolStruct`, and what the code relies on about
them is named in `SignsRecoverably`, `NormalizesS` and `LaysOut`.
-/

open GraphTally.Theory

namespace GraphTally

/-- `alloy`'s fixed-size byte strings. -/
structure FixedBytes (n : Nat) where
  bytes : List UInt8
  size_eq : bytes.length = n
  deriving DecidableEq

theorem FixedBytes.ext {n : Nat} {a b : FixedBytes n} (h : a.bytes = b.bytes) : a = b := by
  cases a
  cases b
  simpa using h

/-- `repeat_byte`. -/
def FixedBytes.repeatByte (n : Nat) (byte : UInt8) : FixedBytes n :=
  ⟨List.replicate n byte, List.length_replicate⟩

abbrev Address := FixedBytes 20
abbrev B256 := FixedBytes 32

structure Eip712Domain where
  name : String
  version : String
  chainId : Nat
  verifyingContract : Address
  deriving DecidableEq

/-- The domain separator of the protocol's deployments. -/
def graphTallyEip712Domain (chainId : BitVec 64) (verifyingContractAddress : Address) :
    Eip712Domain :=
  ⟨"GraphTallyCollector", "1", chainId.toNat, verifyingContractAddress⟩

structure Signature where
  r : BitVec 256
  s : BitVec 256
  yParity : Bool
  deriving DecidableEq

/-- The order of the secp256k1 group. -/
def secp256k1Order : BitVec 256 :=
  0xFFFFFFFFFFFFFFFFFFFFFFFFFFFFFFFEBAAEDCE6AF48A03BBFD25E8CD0364141#256

/-- The message types of `sol!`: `alloy` derives their EIP-712 signing hash under a domain. -/
class SolStruct (Domain M : Type) where
  eip712SigningHash : Domain → M → B256

/-- The functions of `alloy` on keys and signatures. -/
class Alloy (Key : outParam Type) where
  address : Key → Address
  signHashSync : Key → B256 → Except String Signature
  recoverAddressFromPrehash : Signature → B256 → Except String Address
  normalizedS : Signature → Signature
  asBytes : Signature → FixedBytes 65

/-- The texts `alloy` writes and reads: `{:?}` and `{:#X}` of a byte string, `{}` of a byte string
and of an address, and `FromStr` of an address. -/
class AlloyText where
  debug : List UInt8 → String
  upperHex : List UInt8 → String
  display : List UInt8 → String
  displayAddress : Address → String
  parseAddress : String → Except String Address

/-- A local key signs every hash, and its signatures recover to its own address. -/
structure SignsRecoverably (Key : Type) [Alloy Key] : Prop where
  signs : ∀ (key : Key) hash, ∃ signature, Alloy.signHashSync key hash = .ok signature
  recovers : ∀ (key : Key) hash signature, Alloy.signHashSync key hash = .ok signature →
    Alloy.recoverAddressFromPrehash signature hash = .ok (Alloy.address key)

/-- `normalized_s` maps a high-S signature to its low-S twin and keeps a low-S one. -/
structure NormalizesS (Key : Type) [Alloy Key] : Prop where
  high : ∀ signature : Signature, secp256k1Order.toNat / 2 < signature.s.toNat →
    Alloy.normalizedS signature =
      ⟨signature.r, secp256k1Order - signature.s, !signature.yParity⟩
  low : ∀ signature : Signature, signature.s.toNat ≤ secp256k1Order.toNat / 2 →
    Alloy.normalizedS signature = signature

/-- `as_bytes` writes `r`, `s` and 27 plus the parity. -/
structure LaysOut (Key : Type) [Alloy Key] : Prop where
  r : ∀ signature : Signature,
    ofBigEndian ((Alloy.asBytes signature).bytes.take 32) = signature.r.toNat
  s : ∀ signature : Signature,
    ofBigEndian (((Alloy.asBytes signature).bytes.drop 32).take 32) = signature.s.toNat
  parity : ∀ signature : Signature,
    (Alloy.asBytes signature).bytes.drop 64 = [27 + if signature.yParity then 1 else 0]

/-- The two signatures of one hash that ECDSA malleability allows. -/
structure Signature.Twin (a b : Signature) : Prop where
  r_eq : a.r = b.r
  s_add : a.s.toNat + b.s.toNat = secp256k1Order.toNat
  parity : a.yParity = !b.yParity

instance (a b : Signature) : Decidable (a.Twin b) :=
  decidable_of_iff (a.r = b.r ∧ a.s.toNat + b.s.toNat = secp256k1Order.toNat ∧
    a.yParity = !b.yParity) ⟨fun h ↦ ⟨h.1, h.2.1, h.2.2⟩, fun h ↦ ⟨h.r_eq, h.s_add, h.parity⟩⟩

theorem Signature.Twin.symm {a b : Signature} (h : a.Twin b) : b.Twin a :=
  ⟨h.r_eq.symm, by rw [Nat.add_comm]; exact h.s_add, by rw [h.parity, Bool.not_not]⟩

theorem secp256k1Order_sub {a b : BitVec 256} (h : a.toNat + b.toNat = secp256k1Order.toNat) :
    secp256k1Order - a = b := by
  apply BitVec.eq_of_toNat_eq
  rw [BitVec.toNat_sub_of_le (by rw [BitVec.le_def]; omega)]
  omega

/-- The bytes of a signature determine it. -/
theorem LaysOut.asBytes_injective {Key : Type} [Alloy Key] (hlays : LaysOut Key)
    {a b : Signature} (h : Alloy.asBytes a = Alloy.asBytes b) : a = b := by
  have hr : a.r.toNat = b.r.toNat := by rw [← hlays.r a, ← hlays.r b, h]
  have hs : a.s.toNat = b.s.toNat := by rw [← hlays.s a, ← hlays.s b, h]
  have hparity : [(27 : UInt8) + if a.yParity then 1 else 0] =
      [27 + if b.yParity then 1 else 0] := by rw [← hlays.parity a, ← hlays.parity b, h]
  rcases a with ⟨r, s, yParity⟩
  rcases b with ⟨r', s', yParity'⟩
  obtain rfl := BitVec.eq_of_toNat_eq hr
  obtain rfl := BitVec.eq_of_toNat_eq hs
  cases yParity <;> cases yParity' <;> simp at hparity ⊢

/-- The order is odd, so exactly one of two twins is high-S. -/
theorem Signature.Twin.high_iff {a b : Signature} (h : a.Twin b) :
    secp256k1Order.toNat / 2 < a.s.toNat ↔ b.s.toNat ≤ secp256k1Order.toNat / 2 := by
  have hs := h.s_add
  have hodd : secp256k1Order.toNat % 2 = 1 := by decide
  omega

inductive Eip712Error where
  | walletError (source : String)
  | signatureError (source : String)
  deriving DecidableEq, Repr

structure Eip712SignedMessage (M : Type) where
  message : M
  signature : Signature
  deriving DecidableEq

/-- `SignatureBytes`, the signature as a set element. -/
abbrev SignatureBytes := FixedBytes 65

variable {Domain Key M : Type} [SolStruct Domain M] [Alloy Key]

/-- `get_signature_bytes` canonicalizes to low-S form first. -/
def Signature.getSignatureBytes (signature : Signature) : SignatureBytes :=
  Alloy.asBytes (Alloy.normalizedS signature)

/-- `Eip712SignedMessage::new`. -/
def Eip712SignedMessage.new (domainSeparator : Domain) (message : M) (signingWallet : Key) :
    Except Eip712Error (Eip712SignedMessage M) :=
  match Alloy.signHashSync signingWallet (SolStruct.eip712SigningHash domainSeparator message) with
  | .ok signature => .ok ⟨message, signature⟩
  | .error e => .error (.walletError e)

def Eip712SignedMessage.recoverSigner (domainSeparator : Domain)
    (signed : Eip712SignedMessage M) : Except Eip712Error Address :=
  match Alloy.recoverAddressFromPrehash signed.signature
      (SolStruct.eip712SigningHash domainSeparator signed.message) with
  | .ok address => .ok address
  | .error e => .error (.signatureError e)

/-- Twins share their canonical bytes. -/
theorem Signature.Twin.getSignatureBytes_eq (hnorm : NormalizesS Key) {a b : Signature}
    (h : a.Twin b) : a.getSignatureBytes = b.getSignatureBytes := by
  have key : ∀ {a b : Signature}, a.Twin b → secp256k1Order.toNat / 2 < a.s.toNat →
      a.getSignatureBytes = b.getSignatureBytes := by
    intro a b h hhigh
    unfold Signature.getSignatureBytes
    rw [hnorm.high a hhigh, hnorm.low b (h.high_iff.mp hhigh), secp256k1Order_sub h.s_add,
      h.r_eq, h.parity, Bool.not_not]
  by_cases hhigh : secp256k1Order.toNat / 2 < a.s.toNat
  · exact key h hhigh
  · exact (key h.symm (h.symm.high_iff.mpr (by omega))).symm

-- A signed message is the message with a signature over its typed hash.
theorem Eip712SignedMessage.new_eq_ok {domainSeparator : Domain} {message : M}
    {signingWallet : Key} {signed : Eip712SignedMessage M} :
    Eip712SignedMessage.new domainSeparator message signingWallet = .ok signed ↔
      signed.message = message ∧ Alloy.signHashSync signingWallet
        (SolStruct.eip712SigningHash domainSeparator message) = .ok signed.signature := by
  unfold Eip712SignedMessage.new
  cases hsign : Alloy.signHashSync signingWallet
      (SolStruct.eip712SigningHash domainSeparator message) with
  | error e => simp
  | ok signature =>
    obtain ⟨m, g⟩ := signed
    simp [eq_comm]

/-- What a key signs under a domain recovers, under that domain, to its address. -/
theorem Eip712SignedMessage.recoverSigner_of_new (hsign : SignsRecoverably Key)
    {domainSeparator : Domain} {message : M} {signingWallet : Key}
    {signed : Eip712SignedMessage M}
    (h : Eip712SignedMessage.new domainSeparator message signingWallet = .ok signed) :
    signed.recoverSigner domainSeparator = .ok (Alloy.address signingWallet) := by
  obtain ⟨hmessage, hsignature⟩ := Eip712SignedMessage.new_eq_ok.mp h
  unfold Eip712SignedMessage.recoverSigner
  rw [hmessage, hsign.recovers _ _ _ hsignature]

/-- Signing the outcome of a computation, read off the signed message. -/
theorem Eip712SignedMessage.exists_new_eq_ok {ε : Type} {domainSeparator : Domain}
    {outcome : Except ε M} {signingWallet : Key} {signed : Eip712SignedMessage M} :
    (∃ message, outcome = .ok message ∧
        Eip712SignedMessage.new domainSeparator message signingWallet = .ok signed) ↔
      outcome = .ok signed.message ∧
        Alloy.signHashSync signingWallet
          (SolStruct.eip712SigningHash domainSeparator signed.message) = .ok signed.signature := by
  simp only [Eip712SignedMessage.new_eq_ok]
  constructor
  · rintro ⟨message, houtcome, rfl, hsignature⟩
    exact ⟨houtcome, hsignature⟩
  · exact fun ⟨houtcome, hsignature⟩ ↦ ⟨_, houtcome, rfl, hsignature⟩

end GraphTally
