import GraphTally.Aggregator.Grpc
import GraphTally.Aggregator.Signers
import GraphTally.Theory.Hex

/-!
# Known signatures

`alloy` at a few messages.  The hashes and signatures below are the real ones, for the scalars 1
and 2 as private keys; every other hash is signed by a stand-in, so that the laws the development
relies on hold of this signer too.
-/

open GraphTally.Theory

namespace GraphTally.Known

/-- The `size` low bytes of a number, most significant first. -/
def bigEndian (size n : Nat) : FixedBytes size :=
  ⟨(List.range size).map fun i ↦ UInt8.ofNat (n >>> (8 * (size - 1 - i))), by simp⟩

inductive Key where
  | one
  | two
  deriving DecidableEq

def Key.address : Key → Address
  | .one => bigEndian 20 0x7e5f4552091a69125d5dfcb7b8c2659029395bdf
  | .two => bigEndian 20 0x2b5ad5c4795c026514f8317c7a215e218dccd6cf

def Key.scalar : Key → BitVec 256
  | .one => 1
  | .two => 2

/-! ## Messages and their hashes -/

def domain : Eip712Domain := graphTallyEip712Domain 1 (.repeatByte 20 0x11)

def account : Account where
  collectionId := bigEndian 32 0xabababababababababababababababababababab
  payer := .repeatByte 20 0x22
  dataService := .repeatByte 20 0x33
  serviceProvider := .repeatByte 20 0x44

/-- Another collection of the same three parties. -/
def otherAccount : Account :=
  { account with collectionId := bigEndian 32 0xcdcdcdcdcdcdcdcdcdcdcdcdcdcdcdcdcdcdcdcd }

def receiptFor (account : Account) (timestampNs nonce : U64) (value : U128) : Receipt :=
  ⟨account.collectionId, account.payer, account.dataService, account.serviceProvider, timestampNs,
    nonce, value⟩

def receipt (timestampNs nonce : U64) (value : U128) : Receipt :=
  receiptFor account timestampNs nonce value

def rav (timestampNs : U64) (valueAggregate : U128) : ReceiptAggregateVoucher :=
  ⟨account.collectionId, account.payer, account.serviceProvider, account.dataService, timestampNs,
    valueAggregate, []⟩

def receiptHashes : List (Receipt × B256) := [
  (receipt 10 1 5, bigEndian 32
    0xd06b6cf4ddc40b2dd8d55e80034e571d97f481cee63cfff4da4a5d33c739b1f2),
  (receipt 20 2 7, bigEndian 32
    0x0ac176938a3bc5a5fb5027274bf1593d36c047e14c791a3379ac7aacc586403c),
  (receipt 30 3 9, bigEndian 32
    0xe4b8e5dc4ff96c3bf63da5ed16db67139ffa060f0c3ab47fc8a63f565be34297),
  (receiptFor otherAccount 20 2 7, bigEndian 32
    0xfec837fb731b130a012b2e98e9b766a92c350a203034108f2ef85de26dd2863e)]

def ravHashes : List (ReceiptAggregateVoucher × B256) := [
  (rav 10 5, bigEndian 32
    0xe1b94c8ae56bfcec262cd55126df66ddfea595df079600d554959d13b5aa39db),
  (rav 20 12, bigEndian 32
    0x42c14e3c024aa3d98cb2bb91a01a8de07b1702b9e36e00091f037e256c8b2616),
  (rav 30 21, bigEndian 32
    0x955042b81c74b3f1f7ebb3d7e74650082161c4f3e3dd9cc22a861087306e4ac9)]

scoped instance : SolStruct Eip712Domain Receipt where
  eip712SigningHash d message :=
    if d = domain then (receiptHashes.lookup message).getD (.repeatByte 32 0)
    else .repeatByte 32 0

scoped instance : SolStruct Eip712Domain ReceiptAggregateVoucher where
  eip712SigningHash d message :=
    if d = domain then (ravHashes.lookup message).getD (.repeatByte 32 0) else .repeatByte 32 0

/-! ## Signatures -/

structure Entry where
  key : Key
  hash : B256
  signature : Signature
  deriving DecidableEq

/-- The deterministic low-S signatures of the hashes above. -/
def signatures : List Entry := [
  ⟨.one, bigEndian 32
      0xd06b6cf4ddc40b2dd8d55e80034e571d97f481cee63cfff4da4a5d33c739b1f2,
    ⟨0x87b39499285c40e8185169e3021a675bf3cd081967c8a4935c4955a3852c7e1a,
      0x02ba7e696bb3b32d96fd77bfaf90c3a1b63f573c076f9b9c5e20615b6d39bc05, false⟩⟩,
  ⟨.one, bigEndian 32
      0x0ac176938a3bc5a5fb5027274bf1593d36c047e14c791a3379ac7aacc586403c,
    ⟨0x4e23d81f5deeb37173f67f9dfb5e2c606820d1a5c3f1524583f0b0fe61c5df1f,
      0x2b20de7d171e10fc663c2b97cf60ee8524af0f395dc56b68f0762be7160c62ef, true⟩⟩,
  ⟨.one, bigEndian 32
      0xe4b8e5dc4ff96c3bf63da5ed16db67139ffa060f0c3ab47fc8a63f565be34297,
    ⟨0x7c7f706b724aa063d94c85a4cd271cb01d347dded201f1ec5da39b599d9d2192,
      0x28b24bea256f71e06a1ec2cbb2bac0d36d35d57d527a35e8b7e6d55a7d4ada8e, false⟩⟩,
  ⟨.one, bigEndian 32
      0xe1b94c8ae56bfcec262cd55126df66ddfea595df079600d554959d13b5aa39db,
    ⟨0x7c129b9ee0a27057399e85ec4b87e109ce6419cdee434c7c0246b0c88d92f80d,
      0x5a9a3c317bc0a34296e39d3362986fe39da6d8bc3d4ea68076ad9b756483ff43, true⟩⟩,
  ⟨.one, bigEndian 32
      0x42c14e3c024aa3d98cb2bb91a01a8de07b1702b9e36e00091f037e256c8b2616,
    ⟨0xe2c66e242a36e5134738d11d1ae106a2960f5596c8ed01f33022dcdb415baf1c,
      0x3e6783b3a967ba695342f83171a096ac5c3c2e2a4e0bb82c51411d63ae648305, true⟩⟩,
  ⟨.one, bigEndian 32
      0x955042b81c74b3f1f7ebb3d7e74650082161c4f3e3dd9cc22a861087306e4ac9,
    ⟨0xf77b11edf07b746182cd87e388a09e3603869fdd1ea0c152501030dfeed5e8ce,
      0x406a241ca4bbe65936c5719c92834b2a1510a6a07a0b245d10eac8cce32dd161, false⟩⟩,
  ⟨.one, bigEndian 32
      0xfec837fb731b130a012b2e98e9b766a92c350a203034108f2ef85de26dd2863e,
    ⟨0x4ef1b87316e26adf4d975323cb51878bc324000b4f2b8449db089b501b9bfabc,
      0x09240de529db9ff5f48fe852ee5110a9db22f40ca13225e0cd77151a6bf21d67, false⟩⟩]

def hashWord (hash : B256) : BitVec 256 :=
  BitVec.ofNat 256 (hash.bytes.foldl (fun n byte ↦ 256 * n + byte.toNat) 0)

def standIn (key : Key) (hash : B256) : Signature := ⟨hashWord hash, key.scalar, false⟩

def sign (key : Key) (hash : B256) : Signature :=
  match signatures.find? fun e ↦ e.key = key ∧ e.hash = hash with
  | some e => e.signature
  | none => standIn key hash

def recover (signature : Signature) (hash : B256) : Except String Address :=
  match signatures.find? fun e ↦ e.signature = signature ∧ e.hash = hash with
  | some e => .ok e.key.address
  | none =>
    if signature = standIn .one hash then .ok Key.one.address
    else if signature = standIn .two hash then .ok Key.two.address
    else .error "signature error"

def normalizedS (signature : Signature) : Signature :=
  if secp256k1Order.toNat / 2 < signature.s.toNat then
    ⟨signature.r, secp256k1Order - signature.s, !signature.yParity⟩
  else signature

def asBytes (signature : Signature) : FixedBytes 65 :=
  ⟨(bigEndian 32 signature.r.toNat).bytes ++ (bigEndian 32 signature.s.toNat).bytes ++
    [if signature.yParity then 28 else 27], by
      simp [(bigEndian 32 _).size_eq]⟩

scoped instance : Alloy Key where
  address := Key.address
  signHashSync key hash := .ok (sign key hash)
  recoverAddressFromPrehash := recover
  normalizedS := normalizedS
  asBytes := asBytes

/-- The last byte of a signature says which of two points it means. -/
scoped instance : Grpc.SignatureFormat where
  ofBytes bytes :=
    if bytes.length ≠ 65 then .error "failed to parse signature"
    else
      let word (part : List UInt8) : BitVec 256 :=
        BitVec.ofNat 256 (part.foldl (fun n byte ↦ 256 * n + byte.toNat) 0)
      let r := word (bytes.take 32)
      let s := word ((bytes.drop 32).take 32)
      match (bytes.drop 64).map UInt8.toNat with
      | [0] | [27] => .ok ⟨r, s, false⟩
      | [1] | [28] => .ok ⟨r, s, true⟩
      | [v] => if 35 ≤ v then .ok ⟨r, s, (v - 35) % 2 = 1⟩ else .error "invalid parity"
      | _ => .error "invalid parity"

def parseAddress (s : String) : Except String Address :=
  let digits := if s.toList.take 2 = ['0', 'x'] then s.toList.drop 2 else s.toList
  match ofHex digits with
  | none => .error "invalid string"
  | some bytes => if h : bytes.length = 20 then .ok ⟨bytes, h⟩ else .error "invalid length"

def hexText (letters : HexCase) (bytes : List UInt8) : String :=
  String.ofList ('0' :: 'x' :: toHex letters bytes)

/-- The checksummed form of an address is written out for the two keys only. -/
scoped instance : AlloyText where
  debug := hexText .lower
  upperHex := hexText .upper
  display := hexText .lower
  displayAddress address :=
    if address = Key.one.address then "0x7E5F4552091A69125d5DfCb7b8C2659029395Bdf"
    else if address = Key.two.address then "0x2B5AD5c4795c026514f8317c7a215E218DcCD6cF"
    else hexText .lower address.bytes
  parseAddress := parseAddress

/-! ## The laws -/

def signed {M : Type} [SolStruct Eip712Domain M] (key : Key) (message : M) :
    Eip712SignedMessage M :=
  ⟨message, sign key (SolStruct.eip712SigningHash domain message)⟩

def batch : List SignedReceipt := [signed .one (receipt 10 1 5), signed .one (receipt 20 2 7)]

def laterBatch : List SignedReceipt := [signed .one (receipt 30 3 9)]

/-- A registry that signs for the payer of the known receipts with the first key. -/
def registry : SignerRegistry Key :=
  ⟨AList.insert account.payer (PayerKeys.new .one []) ∅⟩

/-- No stand-in is one of the real signatures. -/
theorem ne_standIn : ∀ e ∈ signatures,
    e.signature ≠ standIn .one e.hash ∧ e.signature ≠ standIn .two e.hash := by
  decide +kernel

theorem key_eq_of_signature_eq :
    ∀ e ∈ signatures, ∀ e' ∈ signatures, e.signature = e'.signature → e.key = e'.key := by
  decide +kernel

-- The table answers for the signatures it lists.
theorem recover_of_mem {e : Entry} (he : e ∈ signatures) :
    recover e.signature e.hash = .ok e.key.address := by
  unfold recover
  cases hfind : signatures.find? fun e' ↦ e'.signature = e.signature ∧ e'.hash = e.hash with
  | none =>
    have hnone := List.find?_eq_none.mp hfind e he
    simp at hnone
  | some e' =>
    have hsame := List.find?_some hfind
    simp only [decide_eq_true_eq] at hsame
    -- a signature that is listed twice is listed for one key
    have hkey := key_eq_of_signature_eq e' (List.mem_of_find?_eq_some hfind) e he hsame.1
    exact congrArg (fun key ↦ Except.ok key.address) hkey

-- Every other hash has a stand-in signature that names its key.
theorem recover_standIn (key : Key) (hash : B256) :
    recover (standIn key hash) hash = .ok key.address := by
  unfold recover
  cases hfind : signatures.find? fun e ↦ e.signature = standIn key hash ∧ e.hash = hash with
  | none => cases key <;> simp [standIn, Key.scalar]
  | some e =>
    have hsame := List.find?_some hfind
    simp only [decide_eq_true_eq] at hsame
    have hne := ne_standIn e (List.mem_of_find?_eq_some hfind)
    rw [hsame.2] at hne
    cases key
    · exact absurd hsame.1 hne.1
    · exact absurd hsame.1 hne.2

theorem recover_sign (key : Key) (hash : B256) :
    recover (sign key hash) hash = .ok key.address := by
  unfold sign
  cases hfind : signatures.find? fun e ↦ e.key = key ∧ e.hash = hash with
  | none => exact recover_standIn key hash
  | some e =>
    have hsame := List.find?_some hfind
    simp only [decide_eq_true_eq] at hsame
    obtain ⟨rfl, rfl⟩ := hsame
    exact recover_of_mem (List.mem_of_find?_eq_some hfind)

theorem signsRecoverably : SignsRecoverably Key where
  signs key hash := ⟨sign key hash, rfl⟩
  recovers key hash signature h := by
    obtain rfl := Except.ok.inj h
    exact recover_sign key hash

theorem normalizesS : NormalizesS Key where
  high _ h := if_pos h
  low _ h := if_neg (not_lt.mpr h)

-- Each byte appends its eight bits to those before it.
theorem bigEndian_fold (size : Nat) {n : Nat} (h : n < 2 ^ (8 * size)) :
    (bigEndian size n).bytes.foldl (fun n byte ↦ 256 * n + byte.toNat) 0 = n := by
  have hfirst : ∀ k ≤ size, ((List.range k).map fun i ↦
      UInt8.ofNat (n >>> (8 * (size - 1 - i)))).foldl (fun n byte ↦ 256 * n + byte.toNat) 0 =
        n >>> (8 * (size - k)) := by
    intro k
    induction k with
    | zero =>
      intro _
      rw [Nat.sub_zero, Nat.shiftRight_eq_div_pow, Nat.div_eq_of_lt h]
      rfl
    | succ k ih =>
      intro hk
      have hshift : 8 * (size - k) = 8 * (size - 1 - k) + 8 := by omega
      have hnext : size - (k + 1) = size - 1 - k := by omega
      rw [List.range_succ, List.map_append, List.foldl_append, ih (by omega), hshift,
        Nat.shiftRight_add, hnext]
      show 256 * (n >>> (8 * (size - 1 - k)) >>> 8) + (UInt8.ofNat _).toNat = _
      rw [UInt8.toNat_ofNat', Nat.shiftRight_eq_div_pow (_ >>> _) 8]
      omega
  have hall := hfirst size (Nat.le_refl _)
  rwa [Nat.sub_self, Nat.mul_zero, Nat.shiftRight_zero] at hall

theorem asBytes_eq (signature : Signature) :
    (asBytes signature).bytes = (bigEndian 32 signature.r.toNat).bytes ++
      ((bigEndian 32 signature.s.toNat).bytes ++ [if signature.yParity then 28 else 27]) :=
  List.append_assoc _ _ _

theorem asBytes_r (signature : Signature) :
    (asBytes signature).bytes.take 32 = (bigEndian 32 signature.r.toNat).bytes := by
  rw [asBytes_eq]
  exact List.take_left' (bigEndian 32 _).size_eq

theorem asBytes_s (signature : Signature) :
    ((asBytes signature).bytes.drop 32).take 32 = (bigEndian 32 signature.s.toNat).bytes := by
  rw [asBytes_eq, List.drop_left' (bigEndian 32 _).size_eq]
  exact List.take_left' (bigEndian 32 _).size_eq

theorem asBytes_parity (signature : Signature) :
    (asBytes signature).bytes.drop 64 = [if signature.yParity then 28 else 27] := by
  rw [asBytes_eq, ← List.append_assoc]
  exact List.drop_left' (by simp [(bigEndian 32 _).size_eq])

theorem readsWritten : Grpc.ReadsWritten Key := by
  intro signature
  have hlength : (asBytes signature).bytes.length = 65 := (asBytes signature).size_eq
  show Grpc.SignatureFormat.ofBytes (asBytes signature).bytes = _
  unfold Grpc.SignatureFormat.ofBytes instSignatureFormat
  simp only [hlength, asBytes_r, asBytes_s, asBytes_parity, ne_eq, not_true_eq_false, ↓reduceIte,
    bigEndian_fold 32 signature.r.isLt, bigEndian_fold 32 signature.s.isLt, BitVec.ofNat_toNat,
    BitVec.setWidth_eq]
  rcases signature with ⟨r, s, yParity⟩
  cases yParity <;> rfl

theorem laysOut : LaysOut Key where
  r signature := by
    show ofBigEndian ((asBytes signature).bytes.take 32) = _
    rw [asBytes_r]
    exact bigEndian_fold 32 signature.r.isLt
  s signature := by
    show ofBigEndian (((asBytes signature).bytes.drop 32).take 32) = _
    rw [asBytes_s]
    exact bigEndian_fold 32 signature.s.isLt
  parity signature := by
    show (asBytes signature).bytes.drop 64 = _
    rw [asBytes_parity]
    cases signature.yParity <;> rfl

theorem ofBytes_eq_ok {bytes : List UInt8} {signature : Signature}
    (h : Grpc.SignatureFormat.ofBytes bytes = .ok signature) : bytes.length = 65 ∧
      signature.r = BitVec.ofNat 256 (ofBigEndian (bytes.take 32)) ∧
      signature.s = BitVec.ofNat 256 (ofBigEndian ((bytes.drop 32).take 32)) := by
  unfold Grpc.SignatureFormat.ofBytes instSignatureFormat at h
  by_cases hlength : bytes.length = 65
  · simp only [hlength, ne_eq, not_true_eq_false, if_false] at h
    have hwords : ∀ yParity : Bool, (.ok ⟨BitVec.ofNat 256 (ofBigEndian (bytes.take 32)),
        BitVec.ofNat 256 (ofBigEndian ((bytes.drop 32).take 32)), yParity⟩ :
          Except String Signature) = .ok signature →
        signature.r = BitVec.ofNat 256 (ofBigEndian (bytes.take 32)) ∧
          signature.s = BitVec.ofNat 256 (ofBigEndian ((bytes.drop 32).take 32)) := by
      intro yParity hsame
      obtain rfl := Except.ok.inj hsame
      exact ⟨rfl, rfl⟩
    refine ⟨hlength, ?_⟩
    split at h
    · exact hwords false h
    · exact hwords false h
    · exact hwords true h
    · exact hwords true h
    · split at h
      · exact hwords _ h
      · cases h
    · cases h
  · simp only [hlength, ne_eq, not_false_eq_true, if_true] at h
    cases h

theorem toNat_ofBigEndian {bytes : List UInt8} (h : bytes.length = 32) :
    (BitVec.ofNat 256 (ofBigEndian bytes)).toNat = ofBigEndian bytes := by
  have hless := ofBigEndian_lt bytes
  rw [h] at hless
  rw [BitVec.toNat_ofNat]
  exact Nat.mod_eq_of_lt hless

theorem readsLayout : Grpc.ReadsLayout where
  length bytes signature h := (ofBytes_eq_ok h).1
  r bytes signature h := by
    have hread := ofBytes_eq_ok h
    rw [hread.2.1, toNat_ofBigEndian (by simp [hread.1])]
  s bytes signature h := by
    have hread := ofBytes_eq_ok h
    rw [hread.2.2, toNat_ofBigEndian (by simp [hread.1])]

end GraphTally.Known
