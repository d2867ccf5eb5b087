import Mathlib.Tactic.Common
import Mathlib.Tactic.IntervalCases

/-! Hexadecimal text of byte strings: written in either case, read in both. -/

namespace GraphTally.Theory

inductive HexCase where
  | lower
  | upper
  deriving DecidableEq, Repr

def hexChar (letters : HexCase) (value : Nat) : Char :=
  if value < 10 then Char.ofNat ('0'.toNat + value)
  else match letters with
    | .lower => Char.ofNat ('a'.toNat + (value - 10))
    | .upper => Char.ofNat ('A'.toNat + (value - 10))

def hexValue (c : Char) : Option Nat :=
  if '0'.toNat ≤ c.toNat ∧ c.toNat ≤ '9'.toNat then some (c.toNat - '0'.toNat)
  else if 'a'.toNat ≤ c.toNat ∧ c.toNat ≤ 'f'.toNat then some (c.toNat - 'a'.toNat + 10)
  else if 'A'.toNat ≤ c.toNat ∧ c.toNat ≤ 'F'.toNat then some (c.toNat - 'A'.toNat + 10)
  else none

def toHex (letters : HexCase) (bytes : List UInt8) : List Char :=
  bytes.flatMap fun byte ↦
    [hexChar letters (byte.toNat / 16), hexChar letters (byte.toNat % 16)]

def ofHex : List Char → Option (List UInt8)
  | [] => some []
  | [_] => none
  | high :: low :: rest =>
    match hexValue high, hexValue low, ofHex rest with
    | some high, some low, some bytes => some (UInt8.ofNat (16 * high + low) :: bytes)
    | _, _, _ => none

theorem hexValue_hexChar (letters : HexCase) {value : Nat} (h : value < 16) :
    hexValue (hexChar letters value) = some value := by
  cases letters <;> interval_cases value <;> rfl

/-- Writing and then reading gives the bytes back, whichever letters were used. -/
theorem ofHex_toHex (letters : HexCase) (bytes : List UInt8) :
    ofHex (toHex letters bytes) = some bytes := by
  induction bytes with
  | nil => rfl
  | cons byte bytes ih =>
    have hlt := byte.toNat_lt
    change ofHex (hexChar letters (byte.toNat / 16) :: hexChar letters (byte.toNat % 16) ::
      toHex letters bytes) = _
    rw [ofHex, hexValue_hexChar letters (by omega), hexValue_hexChar letters (by omega), ih]
    simp only [Nat.div_add_mod, UInt8.ofNat_toNat]

/-- A digit is ASCII, and none of the separators a text format would put between numbers. -/
theorem hexValue_isSome {c : Char} (h : (hexValue c).isSome) :
    c.toNat < 128 ∧ c ≠ ':' ∧ c ≠ 'x' := by
  have hrange : c.toNat < 128 ∧ c.toNat ≠ ':'.toNat ∧ c.toNat ≠ 'x'.toNat := by
    unfold hexValue at h
    simp only [Char.reduceToNat] at h ⊢
    grind
  exact ⟨hrange.1, fun hc ↦ hrange.2.1 (congrArg Char.toNat hc),
    fun hc ↦ hrange.2.2 (congrArg Char.toNat hc)⟩

theorem ofHex_cons_cons {high low : Char} {rest : List Char} {bytes : List UInt8}
    (h : ofHex (high :: low :: rest) = some bytes) :
    (hexValue high).isSome ∧ (hexValue low).isSome ∧
      ∃ byte tail, bytes = byte :: tail ∧ ofHex rest = some tail := by
  rw [ofHex] at h
  split at h
  · rename_i hhigh hlow hrest
    exact ⟨by simp [hhigh], by simp [hlow], _, _, (Option.some_inj.mp h).symm, hrest⟩
  · cases h

/-- What reads as bytes is two digits for each of them. -/
theorem ofHex_eq_some : ∀ {digits : List Char} {bytes : List UInt8}, ofHex digits = some bytes →
    digits.length = 2 * bytes.length ∧ ∀ c ∈ digits, (hexValue c).isSome
  | [], bytes, h => by
    obtain rfl : [] = bytes := Option.some_inj.mp h
    simp
  | [_], _, h => by cases h
  | high :: low :: rest, _, h => by
    obtain ⟨hhigh, hlow, byte, tail, rfl, hrest⟩ := ofHex_cons_cons h
    obtain ⟨hlength, hdigits⟩ := ofHex_eq_some hrest
    refine ⟨by simp only [List.length_cons]; omega, ?_⟩
    simp only [List.forall_mem_cons]
    exact ⟨hhigh, hlow, hdigits⟩

theorem ofHex_append : ∀ {digits digits' : List Char} {bytes bytes' : List UInt8},
    ofHex digits = some bytes → ofHex digits' = some bytes' →
      ofHex (digits ++ digits') = some (bytes ++ bytes')
  | [], _, bytes, _, h, h' => by
    obtain rfl : [] = bytes := Option.some_inj.mp h
    exact h'
  | [_], _, _, _, h, _ => by cases h
  | high :: low :: rest, digits', _, bytes', h, h' => by
    rw [ofHex] at h
    split at h
    · rename_i hhigh hlow hrest
      obtain rfl := Option.some_inj.mp h
      rw [List.cons_append, List.cons_append, ofHex, hhigh, hlow, ofHex_append hrest h']
      rfl
    · cases h

/-- Reading skips whole bytes two digits at a time. -/
theorem ofHex_drop : ∀ {digits : List Char} {bytes : List UInt8} (n : Nat),
    ofHex digits = some bytes → ofHex (digits.drop (2 * n)) = some (bytes.drop n)
  | [], bytes, n, h => by
    obtain rfl : [] = bytes := Option.some_inj.mp h
    simp [ofHex]
  | [_], _, _, h => by cases h
  | _ :: _ :: _, _, 0, h => h
  | _ :: _ :: _, _, n + 1, h => by
    obtain ⟨-, -, byte, tail, rfl, hrest⟩ := ofHex_cons_cons h
    exact ofHex_drop n hrest

end GraphTally.Theory
