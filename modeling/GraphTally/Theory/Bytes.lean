import Mathlib.Data.List.Basic
import Mathlib.Data.List.Induction
import Mathlib.Data.Nat.Digits.Defs
import Mathlib.Tactic.Common

/-! Numbers as byte strings, most significant byte first. -/

namespace GraphTally.Theory

def ofBigEndian (bytes : List UInt8) : Nat :=
  bytes.foldl (fun n byte ↦ 256 * n + byte.toNat) 0

theorem ofBigEndian_eq (bytes : List UInt8) :
    ofBigEndian bytes = Nat.ofDigits 256 (bytes.reverse.map UInt8.toNat) := by
  induction bytes using List.reverseRecOn with
  | nil => rfl
  | append_singleton bytes byte ih =>
    show (bytes ++ [byte]).foldl (fun n byte ↦ 256 * n + byte.toNat) 0 = _
    rw [List.foldl_append, List.reverse_append, List.reverse_singleton, List.singleton_append,
      List.map_cons, Nat.ofDigits_cons, ← ih]
    show 256 * ofBigEndian bytes + byte.toNat = byte.toNat + 256 * ofBigEndian bytes
    omega

theorem digit_lt (bytes : List UInt8) : ∀ digit ∈ bytes.reverse.map UInt8.toNat, digit < 256 := by
  intro digit hdigit
  rcases List.mem_map.mp hdigit with ⟨byte, -, rfl⟩
  exact byte.toNat_lt

theorem ofBigEndian_lt (bytes : List UInt8) : ofBigEndian bytes < 256 ^ bytes.length := by
  have hless := Nat.ofDigits_lt_base_pow_length (by decide) (digit_lt bytes)
  rw [List.length_map, List.length_reverse] at hless
  rw [ofBigEndian_eq]
  exact hless

/-- Byte strings of one length are told apart by their numbers. -/
theorem ofBigEndian_injective {bytes bytes' : List UInt8} (hlength : bytes.length = bytes'.length)
    (h : ofBigEndian bytes = ofBigEndian bytes') : bytes = bytes' := by
  rw [ofBigEndian_eq, ofBigEndian_eq] at h
  have hdigits := Nat.ofDigits_inj_of_len_eq (by decide) (by simpa using hlength) (digit_lt bytes)
    (digit_lt bytes') h
  have hreversed : bytes.reverse = bytes'.reverse :=
    List.map_injective_iff.mpr (fun _ _ ↦ UInt8.toNat_inj.mp) hdigits
  exact List.reverse_injective hreversed

end GraphTally.Theory
