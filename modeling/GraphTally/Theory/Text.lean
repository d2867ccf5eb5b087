import Mathlib.Data.BitVec
import Mathlib.Data.List.DropRight
import Mathlib.Tactic.Common

/-!
# Text

Strings of a language that stores them as UTF-8 and measures and slices them by bytes.  A string
is its list of characters; a byte string need not be one.
-/

namespace GraphTally.Theory

/-! ## UTF-8 -/

def toUtf8 (text : List Char) : List UInt8 := text.flatMap String.utf8EncodeChar

/-- `len`. -/
def utf8Length (text : List Char) : Nat := (text.map Char.utf8Size).sum

/-- `text[n..]`, with no result where the slice panics: past the end, or within a character. -/
def sliceFrom : Nat → List Char → Option (List Char)
  | 0, text => some text
  | _ + 1, [] => none
  | n + 1, c :: text => if c.utf8Size ≤ n + 1 then sliceFrom (n + 1 - c.utf8Size) text else none

/-- `split_once`. -/
def splitOnce (separator : Char) : List Char → Option (List Char × List Char)
  | [] => none
  | c :: text =>
    if c = separator then some ([], text)
    else (splitOnce separator text).map fun parts ↦ (c :: parts.1, parts.2)

def isContinuation (byte : UInt8) : Bool := 0x80 ≤ byte && byte ≤ 0xBF

/-- How many of the bytes after `first` belong to its sequence, and whether the sequence is
complete: what UTF-8 allows after each first byte. -/
def sequenceAfter (first : UInt8) (rest : List UInt8) : Nat × Bool :=
  let second (low high : UInt8) (more : Nat) : Nat × Bool :=
    match rest with
    | [] => (0, false)
    | byte :: rest =>
      if low ≤ byte && byte ≤ high then
        let taken := ((rest.take more).takeWhile isContinuation).length
        (1 + taken, taken == more)
      else (0, false)
  if first < 0x80 then (0, true)
  else if 0xC2 ≤ first && first ≤ 0xDF then second 0x80 0xBF 0
  else if first = 0xE0 then second 0xA0 0xBF 1
  else if 0xE1 ≤ first && first ≤ 0xEC then second 0x80 0xBF 1
  else if first = 0xED then second 0x80 0x9F 1
  else if 0xEE ≤ first && first ≤ 0xEF then second 0x80 0xBF 1
  else if first = 0xF0 then second 0x90 0xBF 2
  else if 0xF1 ≤ first && first ≤ 0xF3 then second 0x80 0xBF 2
  else if first = 0xF4 then second 0x80 0x8F 2
  else (0, false)

/-- The scalar value of a complete sequence. -/
def scalarOf (first : UInt8) (rest : List UInt8) : Nat :=
  let head := if first < 0x80 then first.toNat
    else if first < 0xE0 then first.toNat % 32
    else if first < 0xF0 then first.toNat % 16
    else first.toNat % 8
  rest.foldl (fun n byte ↦ 64 * n + byte.toNat % 64) head

/-- `String::from_utf8_lossy`: every maximal broken sequence becomes one replacement character.
The counter skips what a sequence has used up. -/
def fromUtf8LossyFrom : (skip : Nat) → List UInt8 → List Char
  | _, [] => []
  | skip + 1, _ :: bytes => fromUtf8LossyFrom skip bytes
  | 0, first :: bytes =>
    let (used, complete) := sequenceAfter first bytes
    let c := if complete then Char.ofNat (scalarOf first (bytes.take used)) else '\uFFFD'
    c :: fromUtf8LossyFrom used bytes

def fromUtf8Lossy (bytes : List UInt8) : List Char := fromUtf8LossyFrom 0 bytes

example : fromUtf8Lossy [0x61, 0xE2, 0x82, 0xAC, 0xE2, 0x82, 0x62, 0xFF] =
    ['a', '€', '\uFFFD', 'b', '\uFFFD'] := by decide

/-! ## Slices -/

section Slice

theorem utf8Length_cons (c : Char) (text : List Char) :
    utf8Length (c :: text) = c.utf8Size + utf8Length text := by
  rw [utf8Length, List.map_cons, List.sum_cons]
  rfl

theorem utf8Length_append (text text' : List Char) :
    utf8Length (text ++ text') = utf8Length text + utf8Length text' := by
  rw [utf8Length, List.map_append, List.sum_append]
  rfl

/-- A slice leaves out a prefix of as many bytes. -/
theorem sliceFrom_eq_some {n : Nat} {text rest : List Char} (h : sliceFrom n text = some rest) :
    ∃ skipped, text = skipped ++ rest ∧ utf8Length skipped = n := by
  induction text generalizing n with
  | nil =>
    cases n with
    | zero => exact ⟨[], Option.some_inj.mp h, rfl⟩
    | succ n => cases h
  | cons c text ih =>
    cases n with
    | zero => exact ⟨[], Option.some_inj.mp h, rfl⟩
    | succ n =>
      rw [sliceFrom] at h
      split at h
      · rename_i hle
        rcases ih h with ⟨skipped, rfl, hlength⟩
        refine ⟨c :: skipped, rfl, ?_⟩
        rw [utf8Length_cons, hlength]
        omega
      · cases h

theorem sliceFrom_append (skipped rest : List Char) :
    sliceFrom (utf8Length skipped) (skipped ++ rest) = some rest := by
  induction skipped with
  | nil => rw [utf8Length, List.map_nil, List.sum_nil, List.nil_append, sliceFrom]
  | cons c skipped ih =>
    rw [utf8Length_cons, List.cons_append]
    obtain ⟨n, hn⟩ : ∃ n, c.utf8Size + utf8Length skipped = n + 1 :=
      Nat.exists_eq_add_one.mpr (by have hpos := c.utf8Size_pos; omega)
    rw [hn, sliceFrom, if_pos (by omega), ← hn, Nat.add_sub_cancel_left]
    exact ih

/-- Some character of the text has bytes on both sides of the offset. -/
def Straddles (n : Nat) (text : List Char) : Prop :=
  ∃ before c after, text = before ++ c :: after ∧ utf8Length before < n ∧
    n < utf8Length before + c.utf8Size

/-- A slice within the text panics exactly inside a character. -/
theorem sliceFrom_eq_none_iff {n : Nat} {text : List Char} (hn : n ≤ utf8Length text) :
    sliceFrom n text = none ↔ Straddles n text := by
  induction text generalizing n with
  | nil =>
    obtain rfl := Nat.le_zero.mp hn
    constructor
    · intro h
      cases h
    · rintro ⟨before, c, after, htext, -⟩
      simp at htext
  | cons c text ih =>
    cases n with
    | zero =>
      constructor
      · intro h
        cases h
      · rintro ⟨before, c', after, -, hlt, -⟩
        exact absurd hlt (Nat.not_lt_zero _)
    | succ n =>
      rw [utf8Length_cons] at hn
      rw [sliceFrom]
      by_cases hle : c.utf8Size ≤ n + 1
      · rw [if_pos hle, ih (by omega)]
        -- the first character lies before the offset as a whole
        constructor
        · rintro ⟨before, c', after, rfl, hbefore, hafter⟩
          refine ⟨c :: before, c', after, rfl, ?_, ?_⟩
          · rw [utf8Length_cons]
            omega
          · rw [utf8Length_cons]
            omega
        · rintro ⟨_ | ⟨first, before⟩, c', after, htext, hbefore, hafter⟩
          · obtain rfl := (List.cons.inj htext).1
            simp only [utf8Length, List.map_nil, List.sum_nil] at hafter
            omega
          · obtain ⟨rfl, rfl⟩ := List.cons.inj htext
            rw [utf8Length_cons] at hbefore hafter
            exact ⟨before, c', after, rfl, by omega, by omega⟩
      · rw [if_neg hle]
        refine ⟨fun _ ↦ ⟨[], c, text, rfl, Nat.succ_pos n, ?_⟩, fun _ ↦ rfl⟩
        simp only [utf8Length, List.map_nil, List.sum_nil]
        omega

end Slice

/-! ## ASCII text -/

def Ascii (text : List Char) : Prop := ∀ c ∈ text, c.toNat < 128

section Ascii

variable {text : List Char}

theorem Ascii.cons {c : Char} (hc : c.toNat < 128) (h : Ascii text) : Ascii (c :: text) :=
  List.forall_mem_cons.mpr ⟨hc, h⟩

theorem Ascii.append {text' : List Char} (h : Ascii text) (h' : Ascii text') :
    Ascii (text ++ text') := by
  intro c hc
  rcases List.mem_append.mp hc with hc | hc
  · exact h c hc
  · exact h' c hc

theorem utf8EncodeChar_ascii {c : Char} (hc : c.toNat < 128) :
    String.utf8EncodeChar c = [UInt8.ofNat c.toNat] := by
  have hle : c.val.toNat ≤ 0x7f := Nat.le_of_lt_succ hc
  rw [String.utf8EncodeChar, if_pos hle]
  rfl

theorem utf8Size_ascii {c : Char} (hc : c.toNat < 128) : c.utf8Size = 1 := by
  rw [← String.length_utf8EncodeChar, utf8EncodeChar_ascii hc]
  rfl

theorem fromUtf8LossyFrom_ascii {c : Char} (hc : c.toNat < 128) (bytes : List UInt8) :
    fromUtf8LossyFrom 0 (UInt8.ofNat c.toNat :: bytes) = c :: fromUtf8LossyFrom 0 bytes := by
  have hvalue : (UInt8.ofNat c.toNat).toNat = c.toNat := by
    rw [UInt8.toNat_ofNat']
    exact Nat.mod_eq_of_lt (by omega)
  have hlt : UInt8.ofNat c.toNat < 0x80 := by
    rw [UInt8.lt_iff_toNat_lt, hvalue]
    exact hc
  rw [fromUtf8LossyFrom, sequenceAfter, if_pos hlt]
  simp only [if_true, List.take_zero, scalarOf, if_pos hlt, hvalue, List.foldl_nil,
    Char.ofNat_toNat]

/-- ASCII survives the trip through bytes. -/
theorem fromUtf8Lossy_toUtf8 (h : Ascii text) : fromUtf8Lossy (toUtf8 text) = text := by
  induction text with
  | nil => rfl
  | cons c text ih =>
    obtain ⟨hc, htext⟩ := List.forall_mem_cons.mp h
    show fromUtf8LossyFrom 0 (String.utf8EncodeChar c ++ toUtf8 text) = _
    rw [utf8EncodeChar_ascii hc, List.singleton_append, fromUtf8LossyFrom_ascii hc]
    exact congrArg (c :: ·) (ih htext)

theorem utf8Length_ascii (h : Ascii text) : utf8Length text = text.length := by
  induction text with
  | nil => rfl
  | cons c text ih =>
    obtain ⟨hc, htext⟩ := List.forall_mem_cons.mp h
    have hrest := ih htext
    unfold utf8Length at hrest ⊢
    rw [List.map_cons, List.sum_cons, utf8Size_ascii hc, hrest, List.length_cons, Nat.add_comm]

-- In ASCII text every byte offset is a character boundary.
theorem sliceFrom_ascii (h : Ascii text) {n : Nat} (hn : n ≤ text.length) :
    sliceFrom n text = some (text.drop n) := by
  induction text generalizing n with
  | nil =>
    obtain rfl := Nat.le_zero.mp hn
    rfl
  | cons c text ih =>
    obtain ⟨hc, htext⟩ := List.forall_mem_cons.mp h
    cases n with
    | zero => rfl
    | succ n =>
      rw [sliceFrom, utf8Size_ascii hc, if_pos (by omega), Nat.add_sub_cancel, List.drop_succ_cons]
      exact ih htext (Nat.le_of_succ_le_succ hn)

end Ascii

/-- The first separator is the one that was put between two parts, when the first part has none. -/
theorem splitOnce_append {separator : Char} {before after : List Char}
    (h : separator ∉ before) :
    splitOnce separator (before ++ separator :: after) = some (before, after) := by
  induction before with
  | nil => exact if_pos rfl
  | cons c before ih =>
    obtain ⟨hc, hbefore⟩ := List.ne_and_not_mem_of_not_mem_cons h
    rw [List.cons_append, splitOnce, if_neg hc.symm, ih hbefore]
    rfl

theorem splitOnce_eq_none {separator : Char} {text : List Char} (h : separator ∉ text) :
    splitOnce separator text = none := by
  induction text with
  | nil => rfl
  | cons c text ih =>
    obtain ⟨hc, htext⟩ := List.ne_and_not_mem_of_not_mem_cons h
    rw [splitOnce, if_neg hc.symm, ih htext]
    rfl

/-- Text with a separator in it has a first one. -/
theorem exists_first {separator : Char} {text : List Char} (h : separator ∈ text) :
    ∃ before after, text = before ++ separator :: after ∧ separator ∉ before := by
  rcases List.append_of_mem h with ⟨before, after, rfl⟩
  induction before with
  | nil => exact ⟨[], after, rfl, List.not_mem_nil⟩
  | cons c before ih =>
    by_cases hc : c = separator
    · subst hc
      exact ⟨[], before ++ c :: after, rfl, List.not_mem_nil⟩
    · rcases ih (by simp) with ⟨first, rest, hrest, hfirst⟩
      refine ⟨c :: first, rest, by rw [List.cons_append, hrest, List.cons_append], ?_⟩
      simp [Ne.symm hc, hfirst]

/-! ## Whitespace -/

/-- `char::is_whitespace`, the characters with the `White_Space` property of Unicode. -/
def isWhitespace (c : Char) : Bool :=
  let n := c.toNat
  (0x9 ≤ n && n ≤ 0xD) || n = 0x20 || n = 0x85 || n = 0xA0 || n = 0x1680 ||
    (0x2000 ≤ n && n ≤ 0x200A) || n = 0x2028 || n = 0x2029 || n = 0x202F || n = 0x205F ||
    n = 0x3000

def trim (text : List Char) : List Char :=
  (text.dropWhile isWhitespace).rdropWhile isWhitespace

def Blank (text : List Char) : Prop := ∀ c ∈ text, isWhitespace c = true

instance (text : List Char) : Decidable (Blank text) :=
  inferInstanceAs (Decidable (∀ c ∈ text, _))

example : trim " a = 1\t".toList = "a = 1".toList := by decide

section Whitespace

variable {text blank : List Char}

theorem trim_append_left (h : Blank blank) (text : List Char) :
    trim (blank ++ text) = trim text := by
  rw [trim, List.dropWhile_append_of_pos h]
  rfl

theorem trim_append_right (h : Blank blank) (text : List Char) :
    trim (text ++ blank) = trim text := by
  have hend : ∀ rest : List Char,
      (rest ++ blank).rdropWhile isWhitespace = rest.rdropWhile isWhitespace := by
    intro rest
    have hreverse : ∀ c ∈ blank.reverse, isWhitespace c = true :=
      fun c hc ↦ h c (List.mem_reverse.mp hc)
    rw [List.rdropWhile, List.reverse_append, List.dropWhile_append_of_pos hreverse]
    rfl
  rw [trim, trim, List.dropWhile_append]
  split
  · rename_i hempty
    rw [List.isEmpty_iff.mp hempty, List.dropWhile_eq_nil_iff.mpr h]
  · exact hend _

theorem trim_spec (text : List Char) :
    ∃ before after, Blank before ∧ Blank after ∧ text = before ++ trim text ++ after := by
  refine ⟨text.takeWhile isWhitespace, (text.dropWhile isWhitespace).rtakeWhile isWhitespace,
    fun c hc ↦ List.mem_takeWhile_imp hc, fun c hc ↦ List.mem_rtakeWhile_imp hc, ?_⟩
  rw [trim, List.append_assoc, List.rdropWhile_append_rtakeWhile,
    List.takeWhile_append_dropWhile]

theorem trim_eq_nil_iff : trim text = [] ↔ Blank text := by
  constructor
  · intro h
    rcases trim_spec text with ⟨before, after, hbefore, hafter, htext⟩
    rw [h, List.append_nil] at htext
    rw [htext]
    exact List.forall_mem_append.mpr ⟨hbefore, hafter⟩
  · intro h
    rw [trim, List.dropWhile_eq_nil_iff.mpr h, List.rdropWhile_nil]

/-! ### Around a separator -/

/-- The two trimmed sides of the first separator. -/
def sides (separator : Char) (text : List Char) : Option (List Char × List Char) :=
  (splitOnce separator text).map fun parts ↦ (trim parts.1, trim parts.2)

variable {separator : Char}

theorem not_mem_blank (hsep : isWhitespace separator = false) (h : Blank blank) :
    separator ∉ blank := by
  intro hmem
  rw [h separator hmem] at hsep
  cases hsep

theorem sides_append {key : List Char} (h : separator ∉ key) (value : List Char) :
    sides separator (key ++ separator :: value) = some (trim key, trim value) := by
  rw [sides, splitOnce_append h]
  rfl

theorem sides_eq_none (h : separator ∉ text) : sides separator text = none := by
  rw [sides, splitOnce_eq_none h]
  rfl

theorem sides_around (hsep : isWhitespace separator = false) {before after : List Char}
    (hbefore : Blank before) (hafter : Blank after) (text : List Char) :
    sides separator (before ++ text ++ after) = sides separator text := by
  by_cases hmem : separator ∈ text
  · rcases exists_first hmem with ⟨key, value, rfl, hkey⟩
    have hall : separator ∉ before ++ key := by
      rw [List.mem_append, not_or]
      exact ⟨not_mem_blank hsep hbefore, hkey⟩
    have hshape : before ++ (key ++ separator :: value) ++ after =
        (before ++ key) ++ separator :: (value ++ after) := by simp
    rw [hshape, sides_append hall, sides_append hkey, trim_append_left hbefore,
      trim_append_right hafter]
  · have hall : separator ∉ before ++ text ++ after := by
      simp only [List.mem_append, not_or]
      exact ⟨⟨not_mem_blank hsep hbefore, hmem⟩, not_mem_blank hsep hafter⟩
    rw [sides_eq_none hmem, sides_eq_none hall]

/-- To trim the text first makes no difference. -/
theorem sides_trim (hsep : isWhitespace separator = false) (text : List Char) :
    sides separator (trim text) = sides separator text := by
  rcases trim_spec text with ⟨before, after, hbefore, hafter, htext⟩
  have haround := sides_around hsep hbefore hafter (trim text)
  rw [← htext] at haround
  exact haround.symm

end Whitespace

/-! ## Decimal numbers -/

/-- `to_string` of an unsigned number. -/
def toDecimal (n : Nat) : List Char := Nat.toDigits 10 n

/-- The loop of `from_str`, which gives up at the first character it cannot use. -/
def parseDigits (w : Nat) (result : Nat) : List Char → Except String Nat
  | [] => .ok result
  | c :: digits =>
    if !c.isDigit then .error "invalid digit found in string"
    else
      let next := 10 * result + (c.toNat - '0'.toNat)
      if next < 2 ^ w then parseDigits w next digits
      else .error "number too large to fit in target type"

/-- `from_str` of an unsigned number; a plus sign is allowed in front of digits. -/
def parseUnsigned (w : Nat) (text : List Char) : Except String (BitVec w) :=
  match text with
  | [] => .error "cannot parse integer from empty string"
  | ['+'] => .error "invalid digit found in string"
  | '+' :: digits => (parseDigits w 0 digits).map (BitVec.ofNat w)
  | digits => (parseDigits w 0 digits).map (BitVec.ofNat w)

theorem le_ofDigitChars (digits : List Char) (result : Nat) :
    result ≤ Nat.ofDigitChars 10 digits result := by
  induction digits generalizing result with
  | nil => exact Nat.le_of_eq Nat.ofDigitChars_nil.symm
  | cons c digits ih =>
    have hrest := ih (10 * result + (c.toNat - '0'.toNat))
    rw [Nat.ofDigitChars_cons]
    omega

-- Leading digits never exceed the value they lead to, so no step overflows.
theorem parseDigits_of_fits {w : Nat} {digits : List Char} {result : Nat}
    (hdigits : ∀ c ∈ digits, c.isDigit = true)
    (hfits : Nat.ofDigitChars 10 digits result < 2 ^ w) :
    parseDigits w result digits = .ok (Nat.ofDigitChars 10 digits result) := by
  induction digits generalizing result with
  | nil =>
    rw [Nat.ofDigitChars_nil]
    rfl
  | cons c digits ih =>
    obtain ⟨hc, hrest⟩ := List.forall_mem_cons.mp hdigits
    rw [Nat.ofDigitChars_cons] at hfits ⊢
    have hle := le_ofDigitChars digits (10 * result + (c.toNat - '0'.toNat))
    have hnext : 10 * result + (c.toNat - '0'.toNat) < 2 ^ w := Nat.lt_of_le_of_lt hle hfits
    rw [parseDigits, if_neg (by simp [hc])]
    dsimp only
    rw [if_pos hnext]
    exact ih hrest hfits

theorem toDecimal_isDigit {n : Nat} : ∀ c ∈ toDecimal n, c.isDigit = true :=
  fun _ hc ↦ Nat.isDigit_of_mem_toDigits (by decide) (by decide) hc

theorem toDecimal_injective {m n : Nat} (h : toDecimal m = toDecimal n) : m = n := by
  have hvalue := congrArg (fun digits ↦ Nat.ofDigitChars 10 digits 0) h
  simpa only [toDecimal, Nat.ofDigitChars_ten_toDigits] using hvalue

/-- A signed number is written as its digits, after a minus sign when it is negative. -/
theorem toString_int (n : Int) :
    (toString n).toList = if 0 ≤ n then toDecimal n.toNat else '-' :: toDecimal (-n).toNat := by
  cases n with
  | ofNat n => simp [Int.toString_eq_repr, Int.repr, Nat.repr, toDecimal]
  | negSucc n => simp [Int.toString_eq_repr, Int.repr, Nat.repr, toDecimal]

theorem toString_int_injective {m n : Int} (h : toString m = toString n) : m = n := by
  have htext := congrArg String.toList h
  have hsign : ∀ k rest, toDecimal k ≠ '-' :: rest := by
    intro k rest heq
    exact absurd (toDecimal_isDigit '-' (by rw [heq]; exact List.mem_cons_self)) (by decide)
  rw [toString_int, toString_int] at htext
  split at htext
  · split at htext
    · have := toDecimal_injective htext
      omega
    · exact absurd htext (hsign _ _)
  · split at htext
    · exact absurd htext.symm (hsign _ _)
    · have := toDecimal_injective (List.cons.inj htext).2
      omega

theorem toDecimal_ascii (n : Nat) : Ascii (toDecimal n) := by
  intro c hc
  have hdigit := toDecimal_isDigit c hc
  rw [Char.isDigit, Bool.and_eq_true, decide_eq_true_eq, decide_eq_true_eq] at hdigit
  have hle : c.val.toNat ≤ '9'.val.toNat := UInt32.le_iff_toNat_le.mp hdigit.2
  exact Nat.lt_of_le_of_lt hle (by decide)

/-- A number that fits is read back from its decimal text. -/
theorem parseUnsigned_toDecimal {w n : Nat} (h : n < 2 ^ w) :
    parseUnsigned w (toDecimal n) = .ok (BitVec.ofNat w n) := by
  have hvalue : Nat.ofDigitChars 10 (toDecimal n) 0 = n := Nat.ofDigitChars_ten_toDigits
  have hparse : parseDigits w 0 (toDecimal n) = .ok n := by
    rw [parseDigits_of_fits toDecimal_isDigit (by rw [hvalue]; exact h), hvalue]
  have hdigits := toDecimal_isDigit (n := n)
  -- decimal text starts with a digit, so neither case with a sign applies
  unfold parseUnsigned
  split
  · rename_i hnil
    exact absurd hnil Nat.toDigits_ne_nil
  · rename_i hplus
    exact absurd (hdigits '+' (by rw [hplus]; exact List.mem_cons_self)) (by decide)
  · rename_i hplus
    exact absurd (hdigits '+' (by rw [hplus]; exact List.mem_cons_self)) (by decide)
  · rw [hparse]
    rfl

end GraphTally.Theory
