import Mathlib.Tactic.Common

/-!
# Codecs

A wire format may have several messages for one value.  The encoder writes one of them, and
`Rewritten` says how the message it writes may differ from the one that was read.
-/

namespace GraphTally.Theory

structure Codec {W N : Type} (decode : W → Option N) (encode : N → W) (WellFormed : W → Prop)
    (Rewritten : W → W → Prop) : Prop where
  decode_encode : ∀ n, decode (encode n) = some n
  decodes_iff : ∀ w, (∃ n, decode w = some n) ↔ WellFormed w
  encode_decode : ∀ w n, decode w = some n → Rewritten (encode n) w

namespace Codec

variable {W W' N N' : Type} {decode : W → Option N} {encode : N → W} {WellFormed : W → Prop}
  {Rewritten : W → W → Prop}

/-- A decoder that reads back nothing but what is written makes a codec that rewrites nothing. -/
theorem exact (hdecode : ∀ w n, decode w = some n ↔ w = encode n)
    (hwell : ∀ w, (∃ n, w = encode n) ↔ WellFormed w) : Codec decode encode WellFormed Eq where
  decode_encode n := (hdecode _ n).mpr rfl
  decodes_iff w := by simp only [hdecode, hwell]
  encode_decode w n h := ((hdecode w n).mp h).symm

theorem congr (h : Codec decode encode WellFormed Rewritten) {WellFormed' : W → Prop}
    {Rewritten' : W → W → Prop} (hwell : ∀ w, WellFormed w ↔ WellFormed' w)
    (hrewritten : ∀ w w', Rewritten w w' → Rewritten' w w') :
    Codec decode encode WellFormed' Rewritten' where
  decode_encode := h.decode_encode
  decodes_iff w := (h.decodes_iff w).trans (hwell w)
  encode_decode w n hn := hrewritten _ _ (h.encode_decode w n hn)

/-- The same format under other names, on the wire and of the values. -/
theorem transport (h : Codec decode encode WellFormed Rewritten) {decode' : W' → Option N'}
    {encode' : N' → W'} (wire : W' → W) (value : N → N') (back : N' → N)
    (hdecode : ∀ w, decode' w = (decode (wire w)).map value)
    (hencode : ∀ n, wire (encode' n) = encode (back n)) (hvalue : ∀ n, value (back n) = n)
    (hback : ∀ n, back (value n) = n) :
    Codec decode' encode' (fun w ↦ WellFormed (wire w))
      (fun w w' ↦ Rewritten (wire w) (wire w')) where
  decode_encode n := by
    rw [hdecode, hencode, h.decode_encode, Option.map_some, hvalue]
  decodes_iff w := by
    rw [← h.decodes_iff, hdecode]
    simp only [Option.map_eq_some_iff]
    exact ⟨fun ⟨_, n, hn, _⟩ ↦ ⟨n, hn⟩, fun ⟨n, hn⟩ ↦ ⟨value n, n, hn, rfl⟩⟩
  encode_decode w n hn := by
    rw [hdecode] at hn
    rcases Option.map_eq_some_iff.mp hn with ⟨found, hfound, rfl⟩
    rw [hencode, hback]
    exact h.encode_decode _ found hfound

/-- A field that may be left out on the wire, but has to be there. -/
theorem optional (h : Codec decode encode WellFormed Eq) :
    Codec (fun w : Option W ↦ w.bind decode) (fun n ↦ some (encode n))
      (fun w ↦ ∃ present ∈ w, WellFormed present) Eq where
  decode_encode n := h.decode_encode n
  decodes_iff w := by
    cases w with
    | none => simp
    | some present => simp [h.decodes_iff]
  encode_decode w n hn := by
    rcases Option.bind_eq_some_iff.mp hn with ⟨present, rfl, hpresent⟩
    rw [h.encode_decode present n hpresent]

variable {V M : Type} {decodeSecond : V → Option M} {encodeSecond : M → V}
  {WellFormedSecond : V → Prop} {RewrittenSecond : V → V → Prop}

/-- Two fields side by side. -/
theorem pair (h : Codec decode encode WellFormed Rewritten)
    (hsecond : Codec decodeSecond encodeSecond WellFormedSecond RewrittenSecond) :
    Codec (fun w : W × V ↦ do return (← decode w.1, ← decodeSecond w.2))
      (fun n : N × M ↦ (encode n.1, encodeSecond n.2))
      (fun w ↦ WellFormed w.1 ∧ WellFormedSecond w.2)
      (fun w w' ↦ Rewritten w.1 w'.1 ∧ RewrittenSecond w.2 w'.2) where
  decode_encode n := by
    simp [h.decode_encode, hsecond.decode_encode]
  decodes_iff w := by
    rw [← h.decodes_iff, ← hsecond.decodes_iff]
    cases decode w.1 <;> cases decodeSecond w.2 <;> simp
  encode_decode w n hn := by
    rcases Option.bind_eq_some_iff.mp hn with ⟨first, hfirst, hrest⟩
    rcases Option.bind_eq_some_iff.mp hrest with ⟨second, hfound, hpair⟩
    obtain rfl := Option.some_inj.mp hpair
    exact ⟨h.encode_decode w.1 first hfirst, hsecond.encode_decode w.2 second hfound⟩

end Codec

end GraphTally.Theory
