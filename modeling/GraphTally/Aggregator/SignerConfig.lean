import GraphTally.Aggregator.Registry
import GraphTally.Theory.Text

/-!
# The signers on the command line

`--signers` and `--accepted-signers` are `;`-separated `key=value` pairs.  A segment that is lost
would leave a payer unserved, so every segment that is not blank is accounted for.
-/

open GraphTally.Theory

namespace GraphTally

/-- `{:?}` of a `str`. -/
class StrDebug where
  debugStr : List Char → String

/-- `FromStr` of a `PrivateKeySigner`. -/
class KeyText (Key : Type) where
  parseKey : String → Except String Key

/-- The causes of an `anyhow` error, the outermost first. -/
abbrev Causes := List String

def withContext {α : Type} (context : String) (result : Except Causes α) : Except Causes α :=
  result.mapError fun causes ↦ context :: causes

/-- An error of another library, as the root cause. -/
def asCause {α : Type} (result : Except String α) : Except Causes α :=
  result.mapError fun cause ↦ [cause]

section Config

variable {Key : Type} [StrDebug] [AlloyText] [KeyText Key] [Alloy Key]

open AlloyText (displayAddress parseAddress)
open StrDebug (debugStr)
open KeyText (parseKey)

def splitPair (entry : List Char) : Except Causes (List Char × List Char) :=
  match splitOnce '=' entry with
  | some (key, value) => .ok (trim key, trim value)
  | none => .error ["malformed entry " ++ debugStr entry ++ ", expected `key=value`"]

def pairs (raw : List Char) : Except Causes (List (List Char × List Char)) :=
  (((raw.splitOn ';').map trim).filter fun entry ↦ !entry.isEmpty).mapM splitPair

/-- Both passes parse the payer first, then the other side. -/
def parseEntry {α : Type} (name what : String) (parse : String → Except String α)
    (pair : List Char × List Char) : Except Causes (Address × α) := do
  let payer ← withContext (name ++ ": parse payer address " ++ debugStr pair.1)
    (asCause (parseAddress (String.ofList pair.1)))
  let other ← withContext (name ++ ": parse " ++ what ++ " for " ++ displayAddress payer)
    (asCause (parse (String.ofList pair.2)))
  return (payer, other)

def parseSigningKey (pair : List Char × List Char) : Except Causes (Address × Key) :=
  parseEntry "GRAPH_TALLY_SIGNERS" "signing key" parseKey pair

def parseAcceptedSigner (pair : List Char × List Char) : Except Causes (Address × Address) :=
  parseEntry "GRAPH_TALLY_ACCEPTED_SIGNERS" "signer address" parseAddress pair

/-- `.map(pairs).transpose()` and `.unwrap_or_default()`. -/
def optionalPairs (raw : Option (List Char)) : Except Causes (List (List Char × List Char)) :=
  match raw with
  | some raw => pairs raw
  | none => .ok []

def signerRegistry (signers : List Char) (acceptedSigners : Option (List Char)) :
    Except Causes (SignerRegistry Key) := do
  let signerPairs ← withContext "GRAPH_TALLY_SIGNERS" (pairs signers)
  let signingKeys : List (Address × Key) ← signerPairs.mapM parseSigningKey
  let acceptedPairs ← withContext "GRAPH_TALLY_ACCEPTED_SIGNERS" (optionalPairs acceptedSigners)
  let accepted ← acceptedPairs.mapM parseAcceptedSigner
  withContext "GRAPH_TALLY_SIGNERS" (asCause (SignerRegistry.build signingKeys accepted))

end Config

/-! ## Segments -/

/-- The text between semicolons; an option that is not given has none. -/
def pieces (raw : Option (List Char)) : List (List Char) :=
  match raw with
  | some raw => raw.splitOn ';'
  | none => []

def segments (pieces : List (List Char)) : List (List Char) :=
  pieces.filter fun piece ↦ ¬Blank piece

/-- A segment names an entry when its two trimmed sides parse to it. -/
def Names [AlloyText] {α : Type} (parse : String → Except String α) (segment : List Char)
    (entry : Address × α) : Prop :=
  ∃ key value, splitOnce '=' segment = some (key, value) ∧
    AlloyText.parseAddress (String.ofList (trim key)) = .ok entry.1 ∧
    parse (String.ofList (trim value)) = .ok entry.2

/-- What `pairs` computes of some pieces of text. -/
def readPairs [StrDebug] (pieces : List (List Char)) :
    Except Causes (List (List Char × List Char)) :=
  (segments pieces).mapM fun segment ↦ splitPair (trim segment)

/-! ## Whitespace -/

/-- The same segment with whitespace around it, or around its first `=`. -/
inductive Respaced : List Char → List Char → Prop
  | around {before segment after : List Char} : Blank before → Blank after →
      Respaced (before ++ segment ++ after) segment
  | inside {key before after value : List Char} : '=' ∉ key → Blank before → Blank after →
      Respaced (key ++ before ++ '=' :: (after ++ value)) (key ++ '=' :: value)

/-- Pieces that differ by whitespace and by blank pieces only. -/
inductive SameSegments : List (List Char) → List (List Char) → Prop
  | refl (pieces : List (List Char)) : SameSegments pieces pieces
  | symm {pieces pieces' : List (List Char)} : SameSegments pieces pieces' →
      SameSegments pieces' pieces
  | trans {pieces pieces' pieces'' : List (List Char)} : SameSegments pieces pieces' →
      SameSegments pieces' pieces'' → SameSegments pieces pieces''
  | blank {piece : List Char} (pieces : List (List Char)) : Blank piece →
      SameSegments (piece :: pieces) pieces
  | respaced {piece piece' : List Char} (pieces : List (List Char)) : Respaced piece piece' →
      SameSegments (piece :: pieces) (piece' :: pieces)
  | cons (piece : List Char) {pieces pieces' : List (List Char)} : SameSegments pieces pieces' →
      SameSegments (piece :: pieces) (piece :: pieces')

theorem Respaced.blank_iff {piece piece' : List Char} (h : Respaced piece piece') :
    Blank piece ↔ Blank piece' := by
  cases h with
  | around hbefore hafter =>
    rw [← trim_eq_nil_iff, trim_append_right hafter, trim_append_left hbefore, trim_eq_nil_iff]
  | inside hkey hbefore hafter =>
    have hsep : ∀ text, '=' ∈ text → ¬Blank text := fun text hmem hblank ↦
      not_mem_blank (by decide) hblank hmem
    exact iff_of_false (hsep _ (by simp)) (hsep _ (by simp))

section Segments

variable [StrDebug]

theorem pairs_eq (raw : List Char) : pairs raw = readPairs (pieces (some raw)) := by
  have hkept : (fun entry ↦ !entry.isEmpty) ∘ trim = fun piece ↦ decide (¬Blank piece) := by
    funext piece
    show (!(trim piece).isEmpty) = decide (¬Blank piece)
    have hblank : (trim piece).isEmpty = true ↔ Blank piece :=
      List.isEmpty_iff.trans trim_eq_nil_iff
    rw [decide_not, Bool.eq_iff_iff.mpr (hblank.trans decide_eq_true_iff.symm)]
  rw [pairs, readPairs, segments, pieces, List.filter_map, List.mapM_map, hkept]
  rfl

theorem optionalPairs_eq (raw : Option (List Char)) :
    optionalPairs raw = readPairs (pieces raw) := by
  cases raw with
  | none => rfl
  | some raw => exact pairs_eq raw

theorem splitPair_eq_ok {segment : List Char} {pair : List Char × List Char} :
    splitPair (trim segment) = .ok pair ↔ sides '=' segment = some pair := by
  rw [← sides_trim (by decide), splitPair, sides]
  cases splitOnce '=' (trim segment) with
  | none => simp
  | some parts => simp

theorem readPairs_cons (piece : List Char) (pieces : List (List Char)) :
    readPairs (piece :: pieces) =
      if Blank piece then readPairs pieces
      else do return (← splitPair (trim piece)) :: (← readPairs pieces) := by
  by_cases hblank : Blank piece
  · have hdrop : segments (piece :: pieces) = segments pieces :=
      List.filter_cons_of_neg (by simpa using hblank)
    rw [if_pos hblank, readPairs, hdrop, readPairs]
  · have hkeep : segments (piece :: pieces) = piece :: segments pieces :=
      List.filter_cons_of_pos (by simpa using hblank)
    rw [if_neg hblank, readPairs, hkeep, List.mapM_cons]
    rfl

theorem Respaced.splitPair_eq {piece piece' : List Char} (h : Respaced piece piece') :
    splitPair (trim piece) = splitPair (trim piece') := by
  cases h with
  | around hbefore hafter => rw [trim_append_right hafter, trim_append_left hbefore]
  | @inside key before after value hkey hbefore hafter =>
    have hall : '=' ∉ key ++ before := by
      rw [List.mem_append, not_or]
      exact ⟨hkey, not_mem_blank (by decide) hbefore⟩
    have hpair : splitPair (trim (key ++ before ++ '=' :: (after ++ value))) =
        .ok (trim key, trim value) := by
      rw [splitPair_eq_ok, sides_append hall, trim_append_right hbefore, trim_append_left hafter]
    rw [hpair, eq_comm, splitPair_eq_ok, sides_append hkey]

theorem SameSegments.readPairs_eq {pieces pieces' : List (List Char)}
    (h : SameSegments pieces pieces') : readPairs pieces = readPairs pieces' := by
  induction h with
  | refl pieces => rfl
  | symm _ ih => exact ih.symm
  | trans _ _ ih ih' => exact ih.trans ih'
  | blank pieces hblank => rw [readPairs_cons, if_pos hblank]
  | respaced pieces hspace =>
    rw [readPairs_cons, readPairs_cons, hspace.splitPair_eq]
    simp only [hspace.blank_iff]
  | cons piece _ ih => rw [readPairs_cons, readPairs_cons, ih]

end Segments

/-! ## The entries -/

section Entries

variable [StrDebug] [AlloyText]

theorem parseEntry_eq_ok {α : Type} {name what : String} {parse : String → Except String α}
    {pair : List Char × List Char} {entry : Address × α} :
    parseEntry name what parse pair = .ok entry ↔
      AlloyText.parseAddress (String.ofList pair.1) = .ok entry.1 ∧
        parse (String.ofList pair.2) = .ok entry.2 := by
  simp only [parseEntry, withContext, asCause, except_bind_eq_ok, except_mapError_eq_ok]
  constructor
  · intro h
    rcases h with ⟨payer, hpayer, other, hother, hentry⟩
    obtain rfl := Except.ok.inj hentry
    exact ⟨hpayer, hother⟩
  · intro h
    exact ⟨entry.1, h.1, entry.2, h.2, rfl⟩

/-- Both passes succeed exactly when every segment names an entry, and then give these entries in
their order. -/
theorem readEntries {α : Type} (name what : String) (parse : String → Except String α)
    (pieces : List (List Char)) (entries : List (Address × α)) :
    (∃ pairs, readPairs pieces = .ok pairs ∧
      pairs.mapM (parseEntry name what parse) = .ok entries) ↔
      List.Forall₂ (Names parse) (segments pieces) entries := by
  rw [readPairs, mapM_mapM_eq_ok]
  have hnames : ∀ (segment : List Char) (entry : Address × α),
      (∃ pair, splitPair (trim segment) = .ok pair ∧
        parseEntry name what parse pair = .ok entry) ↔ Names parse segment entry := by
    intro segment entry
    simp only [splitPair_eq_ok, parseEntry_eq_ok, sides, Option.map_eq_some_iff]
    constructor
    · intro h
      rcases h with ⟨pair, ⟨parts, hparts, rfl⟩, hentry⟩
      exact ⟨parts.1, parts.2, hparts, hentry⟩
    · intro h
      rcases h with ⟨key, value, hparts, hentry⟩
      exact ⟨(trim key, trim value), ⟨(key, value), hparts, rfl⟩, hentry⟩
  simp only [hnames]

variable {Key : Type} [KeyText Key] [Alloy Key]

theorem signerRegistry_eq_ok {signers : List Char} {acceptedSigners : Option (List Char)}
    {registry : SignerRegistry Key} :
    signerRegistry signers acceptedSigners = .ok registry ↔
      ∃ signingKeys accepted,
        List.Forall₂ (Names KeyText.parseKey) (segments (pieces (some signers))) signingKeys ∧
        List.Forall₂ (Names AlloyText.parseAddress) (segments (pieces acceptedSigners))
          accepted ∧
        SignerRegistry.build signingKeys accepted = .ok registry := by
  have hkeys := fun signingKeys : List (Address × Key) ↦
    readEntries "GRAPH_TALLY_SIGNERS" "signing key" KeyText.parseKey (pieces (some signers))
      signingKeys
  have haccepted := readEntries "GRAPH_TALLY_ACCEPTED_SIGNERS" "signer address"
    AlloyText.parseAddress (pieces acceptedSigners)
  simp only [signerRegistry, pairs_eq, optionalPairs_eq, withContext, asCause, except_bind_eq_ok,
    except_mapError_eq_ok]
  constructor
  · intro h
    rcases h with ⟨signerPairs, hsigners, signingKeys, hentries, acceptedPairs, hpairs, accepted,
      hentries', hbuild⟩
    exact ⟨signingKeys, accepted, (hkeys signingKeys).mp ⟨signerPairs, hsigners, hentries⟩,
      (haccepted accepted).mp ⟨acceptedPairs, hpairs, hentries'⟩, hbuild⟩
  · intro h
    rcases h with ⟨signingKeys, accepted, hnamed, hnamed', hbuild⟩
    rcases (hkeys signingKeys).mpr hnamed with ⟨signerPairs, hsigners, hentries⟩
    rcases (haccepted accepted).mpr hnamed' with ⟨acceptedPairs, hpairs, hentries'⟩
    exact ⟨signerPairs, hsigners, signingKeys, hentries, acceptedPairs, hpairs, accepted,
      hentries', hbuild⟩

/-- Every segment that is not blank is accounted for: it names an entry, the registry holds the
entries that are named, each under its payer, and nothing else, and blank segments and whitespace
change nothing. -/
theorem signerRegistry_entries (signers : List Char) (acceptedSigners : Option (List Char)) :
    (∀ registry : SignerRegistry Key, signerRegistry signers acceptedSigners = .ok registry →
      ∃ signingKeys accepted,
        List.Forall₂ (Names KeyText.parseKey) (segments (pieces (some signers))) signingKeys ∧
        List.Forall₂ (Names AlloyText.parseAddress) (segments (pieces acceptedSigners))
          accepted ∧
        (signingKeys.map fun entry ↦ entry.1).Nodup ∧
        (∀ payer key accepts, registry.resolve payer = some (key, accepts) ↔
          (payer, key) ∈ signingKeys ∧
            accepts = insert (Alloy.address key) (SignerRegistry.listedSigners accepted payer)) ∧
        ∀ payer signer, (payer, signer) ∈ accepted →
          ∃ key accepts, registry.resolve payer = some (key, accepts) ∧ signer ∈ accepts) ∧
      ∀ signers' acceptedSigners',
        SameSegments (pieces (some signers')) (pieces (some signers)) →
        SameSegments (pieces acceptedSigners') (pieces acceptedSigners) →
        (signerRegistry signers' acceptedSigners' : Except Causes (SignerRegistry Key)) =
          signerRegistry signers acceptedSigners := by
  constructor
  · intro registry h
    rcases signerRegistry_eq_ok.mp h with ⟨signingKeys, accepted, hkeys, haccepted, hbuild⟩
    have hconf := SignerRegistry.build_isOk.mp ⟨registry, hbuild⟩
    refine ⟨signingKeys, accepted, hkeys, haccepted, hconf.payers_nodup,
      fun payer key accepts ↦ SignerRegistry.resolve_eq_some hbuild, ?_⟩
    intro payer signer hlisted
    rcases List.mem_map.mp (hconf.named _ hlisted) with ⟨⟨named, key⟩, hentry, hpayer⟩
    obtain rfl : named = payer := hpayer
    have hsigner := SignerRegistry.mem_listedSigners.mpr hlisted
    exact ⟨key, _, (SignerRegistry.resolve_eq_some hbuild).mpr ⟨hentry, rfl⟩,
      Finset.mem_insert_of_mem hsigner⟩
  · intro signers' acceptedSigners' hsigners haccepted
    rw [signerRegistry, signerRegistry, pairs_eq, optionalPairs_eq, hsigners.readPairs_eq,
      haccepted.readPairs_eq, ← pairs_eq, ← optionalPairs_eq]

end Entries

end GraphTally
