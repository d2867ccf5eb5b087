import GraphTally.Theory.Fallible
import Mathlib.Data.BitVec
import Mathlib.Tactic.Common

/-!
# Machine words

Unsigned `w`-bit arithmetic of a language whose plain operators trap or wrap by build profile and
whose `checked_*` and `saturating_*` methods never do.  Everything is stated over `BitVec w` and
read back through `toNat`.
-/

namespace GraphTally.Theory

abbrev U32 := BitVec 32
abbrev U64 := BitVec 64
abbrev U128 := BitVec 128

/-- The two ways a plain `+`, `-` or `*` behaves when its exact result does not fit. -/
inductive Profile where
  | debug
  | release
  deriving DecidableEq, Repr

/-- How a computation ends when it does not return: an error value, or a panic. -/
inductive Failure (ε : Type) where
  | error (e : ε)
  | panic
  deriving DecidableEq, Repr

abbrev Outcome (ε α : Type) := Except (Failure ε) α

def Outcome.mapError {ε ε' α : Type} (f : ε → ε') : Outcome ε α → Outcome ε' α
  | .ok a => .ok a
  | .error (.error e) => .error (.error (f e))
  | .error .panic => .error .panic

theorem Outcome.mapError_eq_ok {ε ε' α : Type} {f : ε → ε'} {x : Outcome ε α} {a : α} :
    x.mapError f = .ok a ↔ x = .ok a := by
  rcases x with (e | _) | b <;> simp [Outcome.mapError]

theorem Outcome.mapError_eq_error {ε ε' α : Type} {f : ε → ε'} {x : Outcome ε α} {e' : ε'} :
    x.mapError f = .error (.error e') ↔ ∃ e, x = .error (.error e) ∧ f e = e' := by
  rcases x with (e | _) | b <;> simp [Outcome.mapError]

variable {w : Nat}

/-! ## Checked and saturating operations -/

def checkedAdd (a b : BitVec w) : Option (BitVec w) :=
  if a.toNat + b.toNat < 2 ^ w then some (a + b) else none

def saturatingSub (a b : BitVec w) : BitVec w :=
  if b.toNat ≤ a.toNat then a - b else 0

def saturatingMul (a b : BitVec w) : BitVec w :=
  if a.toNat * b.toNat < 2 ^ w then a * b else BitVec.allOnes w

/-- `cmp::max` and `cmp::min` on machine words. -/
def wordMax (a b : BitVec w) : BitVec w := if a.toNat ≤ b.toNat then b else a

def wordMin (a b : BitVec w) : BitVec w := if a.toNat ≤ b.toNat then a else b

-- `checked_add` is exact, or there is no result.
theorem checkedAdd_eq_some {a b c : BitVec w} :
    checkedAdd a b = some c ↔ c.toNat = a.toNat + b.toNat := by
  have hc := c.isLt
  unfold checkedAdd
  split
  · rename_i hfit
    rw [Option.some_inj, ← BitVec.toNat_inj, BitVec.toNat_add, Nat.mod_eq_of_lt hfit]
    exact eq_comm
  · rename_i hfit
    simp only [reduceCtorEq, false_iff]
    omega

theorem checkedAdd_eq_none {a b : BitVec w} :
    checkedAdd a b = none ↔ 2 ^ w ≤ a.toNat + b.toNat := by
  unfold checkedAdd
  split <;> simp <;> omega

@[simp] theorem toNat_saturatingSub (a b : BitVec w) :
    (saturatingSub a b).toNat = a.toNat - b.toNat := by
  unfold saturatingSub
  split
  · rename_i hle
    exact BitVec.toNat_sub_of_le (by rwa [BitVec.le_def])
  · simp only [BitVec.ofNat_eq_ofNat, BitVec.toNat_ofNat, Nat.zero_mod]
    omega

@[simp] theorem toNat_saturatingMul (a b : BitVec w) :
    (saturatingMul a b).toNat = min (a.toNat * b.toNat) (2 ^ w - 1) := by
  unfold saturatingMul
  split
  · rename_i hfit
    rw [BitVec.toNat_mul, Nat.mod_eq_of_lt hfit]
    omega
  · rw [BitVec.toNat_allOnes]
    omega

@[simp] theorem toNat_wordMax (a b : BitVec w) : (wordMax a b).toNat = max a.toNat b.toNat := by
  unfold wordMax
  split <;> omega

@[simp] theorem toNat_wordMin (a b : BitVec w) : (wordMin a b).toNat = min a.toNat b.toNat := by
  unfold wordMin
  split <;> omega

/-! ## Plain operators -/

/-- The result of a plain operator: `fits` says whether the exact result is a word, and `wrapped`
is the word the hardware leaves. -/
def plainResult {ε : Type} (profile : Profile) (fits : Bool) (wrapped : BitVec w) :
    Outcome ε (BitVec w) :=
  if fits then .ok wrapped
  else match profile with
    | .debug => .error .panic
    | .release => .ok wrapped

def plainAdd {ε : Type} (profile : Profile) (a b : BitVec w) : Outcome ε (BitVec w) :=
  plainResult profile (a.toNat + b.toNat < 2 ^ w) (a + b)

def plainSub {ε : Type} (profile : Profile) (a b : BitVec w) : Outcome ε (BitVec w) :=
  plainResult profile (b.toNat ≤ a.toNat) (a - b)

def plainMul {ε : Type} (profile : Profile) (a b : BitVec w) : Outcome ε (BitVec w) :=
  plainResult profile (a.toNat * b.toNat < 2 ^ w) (a * b)

theorem plainAdd_of_fits {ε : Type} (profile : Profile) {a b : BitVec w}
    (h : a.toNat + b.toNat < 2 ^ w) :
    (plainAdd profile a b : Outcome ε (BitVec w)) = .ok (a + b) := by
  simp [plainAdd, plainResult, h]

theorem plainSub_of_fits {ε : Type} (profile : Profile) {a b : BitVec w}
    (h : b.toNat ≤ a.toNat) :
    (plainSub profile a b : Outcome ε (BitVec w)) = .ok (a - b) := by
  simp [plainSub, plainResult, h]

theorem plainMul_of_fits {ε : Type} (profile : Profile) {a b : BitVec w}
    (h : a.toNat * b.toNat < 2 ^ w) :
    (plainMul profile a b : Outcome ε (BitVec w)) = .ok (a * b) := by
  simp [plainMul, plainResult, h]

-- A result that does not fit is trapped in a debug build.
theorem plainResult_eq_panic {ε : Type} {profile : Profile} {fits : Bool} {wrapped : BitVec w} :
    (plainResult profile fits wrapped : Outcome ε (BitVec w)) = .error .panic ↔
      profile = .debug ∧ fits = false := by
  unfold plainResult
  cases fits <;> cases profile <;> simp

theorem plainAdd_eq_panic {ε : Type} {profile : Profile} {a b : BitVec w} :
    (plainAdd profile a b : Outcome ε (BitVec w)) = .error .panic ↔
      profile = .debug ∧ 2 ^ w ≤ a.toNat + b.toNat := by
  rw [plainAdd, plainResult_eq_panic, decide_eq_false_iff_not, not_lt]

theorem plainMul_eq_panic {ε : Type} {profile : Profile} {a b : BitVec w} :
    (plainMul profile a b : Outcome ε (BitVec w)) = .error .panic ↔
      profile = .debug ∧ 2 ^ w ≤ a.toNat * b.toNat := by
  rw [plainMul, plainResult_eq_panic, decide_eq_false_iff_not, not_lt]

theorem plainAdd_debug_of_overflow {ε : Type} {a b : BitVec w} (h : 2 ^ w ≤ a.toNat + b.toNat) :
    (plainAdd .debug a b : Outcome ε (BitVec w)) = .error .panic :=
  plainAdd_eq_panic.mpr ⟨rfl, h⟩

theorem plainSub_debug_of_underflow {ε : Type} {a b : BitVec w} (h : a.toNat < b.toNat) :
    (plainSub .debug a b : Outcome ε (BitVec w)) = .error .panic := by
  rw [plainSub, plainResult_eq_panic, decide_eq_false_iff_not, not_le]
  exact ⟨rfl, h⟩

theorem toNat_add_of_fits {a b : BitVec w} (h : a.toNat + b.toNat < 2 ^ w) :
    (a + b).toNat = a.toNat + b.toNat := by
  rw [BitVec.toNat_add, Nat.mod_eq_of_lt h]

theorem toNat_mul_of_fits {a b : BitVec w} (h : a.toNat * b.toNat < 2 ^ w) :
    (a * b).toNat = a.toNat * b.toNat := by
  rw [BitVec.toNat_mul, Nat.mod_eq_of_lt h]

/-- `Iterator::sum` adds with the plain operator, from zero. -/
def plainSum {ε : Type} (profile : Profile) (words : List (BitVec w)) : Outcome ε (BitVec w) :=
  words.foldlM (fun sum word ↦ plainAdd profile sum word) 0

theorem plainSum_of_fits {ε : Type} {words : List (BitVec w)}
    (h : (words.map BitVec.toNat).sum < 2 ^ w) :
    ∃ total : BitVec w, (∀ profile, (plainSum profile words : Outcome ε (BitVec w)) = .ok total) ∧
      total.toNat = (words.map BitVec.toNat).sum := by
  -- the sum of the words before is generalised
  have hfold : ∀ (words : List (BitVec w)) (sum : BitVec w),
      sum.toNat + (words.map BitVec.toNat).sum < 2 ^ w →
      ∃ total : BitVec w,
        (∀ profile, (words.foldlM (fun sum word ↦ plainAdd profile sum word) sum :
          Outcome ε (BitVec w)) = .ok total) ∧
        total.toNat = sum.toNat + (words.map BitVec.toNat).sum := by
    intro words
    induction words with
    | nil =>
      intro sum _
      exact ⟨sum, fun _ ↦ rfl, rfl⟩
    | cons word words ih =>
      intro sum hfits
      rw [List.map_cons, List.sum_cons] at hfits
      have hadd : sum.toNat + word.toNat < 2 ^ w := by omega
      rcases ih (sum + word) (by rw [toNat_add_of_fits hadd]; omega) with ⟨total, htotal, hvalue⟩
      refine ⟨total, ?_, ?_⟩
      · intro profile
        rw [List.foldlM_cons, plainAdd_of_fits profile hadd]
        exact htotal profile
      · rw [hvalue, toNat_add_of_fits hadd, List.map_cons, List.sum_cons, Nat.add_assoc]
  rcases hfold words 0 (by simpa using h) with ⟨total, htotal, hvalue⟩
  exact ⟨total, htotal, by simpa using hvalue⟩

/-- A plain sum that is returned is the exact one, but for what wraps. -/
theorem plainAdd_eq_ok {ε : Type} {profile : Profile} {a b c : BitVec w}
    (h : (plainAdd profile a b : Outcome ε (BitVec w)) = .ok c) : c = a + b := by
  unfold plainAdd plainResult at h
  split at h
  · exact (Except.ok.inj h).symm
  · cases profile with
    | debug => cases h
    | release => exact (Except.ok.inj h).symm

theorem plainSum_eq_ok {ε : Type} {profile : Profile} {words : List (BitVec w)} {total : BitVec w}
    (h : (plainSum profile words : Outcome ε (BitVec w)) = .ok total) :
    total.toNat = (words.map BitVec.toNat).sum % 2 ^ w := by
  -- the sum of the words before is generalised
  have hfold : ∀ (words : List (BitVec w)) (sum : BitVec w),
      (words.foldlM (fun sum word ↦ plainAdd profile sum word) sum :
        Outcome ε (BitVec w)) = .ok total →
      total.toNat = (sum.toNat + (words.map BitVec.toNat).sum) % 2 ^ w := by
    intro words
    induction words with
    | nil =>
      intro sum h
      rw [← Except.ok.inj h]
      exact (Nat.mod_eq_of_lt sum.isLt).symm
    | cons word words ih =>
      intro sum h
      rw [List.foldlM_cons] at h
      rcases except_bind_eq_ok.mp h with ⟨next, hnext, hrest⟩
      rw [ih next hrest, plainAdd_eq_ok hnext, BitVec.toNat_add, List.map_cons, List.sum_cons,
        Nat.mod_add_mod, Nat.add_assoc]
  simpa using hfold words 0 h

/-- Where overflows are trapped, what is returned has fitted. -/
theorem plainAdd_debug_eq_ok {ε : Type} {a b c : BitVec w}
    (h : (plainAdd .debug a b : Outcome ε (BitVec w)) = .ok c) : a.toNat + b.toNat < 2 ^ w := by
  by_contra hover
  rw [plainAdd_debug_of_overflow (not_lt.mp hover)] at h
  cases h

theorem plainSum_debug_eq_ok {ε : Type} {words : List (BitVec w)} {total : BitVec w}
    (h : (plainSum .debug words : Outcome ε (BitVec w)) = .ok total) :
    (words.map BitVec.toNat).sum < 2 ^ w := by
  -- the sum of the words before is generalised
  have hfold : ∀ (words : List (BitVec w)) (sum : BitVec w),
      (words.foldlM (fun sum word ↦ plainAdd .debug sum word) sum :
        Outcome ε (BitVec w)) = .ok total →
      sum.toNat + (words.map BitVec.toNat).sum < 2 ^ w := by
    intro words
    induction words with
    | nil =>
      intro sum _
      exact sum.isLt
    | cons word words ih =>
      intro sum h
      rw [List.foldlM_cons] at h
      rcases except_bind_eq_ok.mp h with ⟨next, hnext, hrest⟩
      have htail := ih next hrest
      rw [plainAdd_eq_ok hnext, toNat_add_of_fits (plainAdd_debug_eq_ok hnext)] at htail
      rw [List.map_cons, List.sum_cons, ← Nat.add_assoc]
      exact htail
  simpa using hfold words 0 h

/-- A plain sum panics exactly where overflows are trapped and the exact total does not fit. -/
theorem plainSum_eq_panic {ε : Type} {profile : Profile} {words : List (BitVec w)} :
    (plainSum profile words : Outcome ε (BitVec w)) = .error .panic ↔
      profile = .debug ∧ 2 ^ w ≤ (words.map BitVec.toNat).sum := by
  -- the sum of the words before is generalised
  have hfold : ∀ (words : List (BitVec w)) (sum : BitVec w),
      (words.foldlM (fun sum word ↦ plainAdd profile sum word) sum : Outcome ε (BitVec w)) =
        .error .panic ↔
      profile = .debug ∧ 2 ^ w ≤ sum.toNat + (words.map BitVec.toNat).sum := by
    intro words
    induction words with
    | nil =>
      intro sum
      have hsum := sum.isLt
      rw [List.foldlM_nil, List.map_nil, List.sum_nil]
      exact iff_of_false (fun h ↦ by cases h) (by omega)
    | cons word words ih =>
      intro sum
      rw [List.foldlM_cons, List.map_cons, List.sum_cons]
      by_cases hadd : sum.toNat + word.toNat < 2 ^ w
      · rw [plainAdd_of_fits profile hadd, ← Nat.add_assoc, ← toNat_add_of_fits hadd]
        exact ih (sum + word)
      · cases profile with
        | debug =>
          rw [plainAdd_debug_of_overflow (not_lt.mp hadd)]
          exact iff_of_true rfl ⟨rfl, by omega⟩
        | release =>
          have hwraps : (plainAdd .release sum word : Outcome ε (BitVec w)) = .ok (sum + word) := by
            simp [plainAdd, plainResult, hadd]
          rw [hwraps]
          exact (ih (sum + word)).trans (by simp)
  rw [plainSum, hfold]
  simp

/-- The additions a plain sum performs, from the sum so far: none after one that panics. -/
def additionsFrom (profile : Profile) : BitVec w → List (BitVec w) → List (BitVec w × BitVec w)
  | _, [] => []
  | sum, word :: words =>
    (sum, word) :: match (plainAdd profile sum word : Outcome Empty (BitVec w)) with
      | .ok next => additionsFrom profile next words
      | .error _ => []

/-- They all fit exactly when the exact total does. -/
theorem additionsFrom_fit_iff (profile : Profile) (sum : BitVec w) (words : List (BitVec w)) :
    (∀ addition ∈ additionsFrom profile sum words,
        addition.1.toNat + addition.2.toNat < 2 ^ w) ↔
      sum.toNat + (words.map BitVec.toNat).sum < 2 ^ w := by
  induction words generalizing sum with
  | nil =>
    have hsum := sum.isLt
    simp [additionsFrom, hsum]
  | cons word words ih =>
    rw [additionsFrom, List.forall_mem_cons, List.map_cons, List.sum_cons]
    by_cases hadd : sum.toNat + word.toNat < 2 ^ w
    · rw [plainAdd_of_fits profile hadd]
      dsimp only
      rw [and_iff_right hadd, ih, toNat_add_of_fits hadd, Nat.add_assoc]
    · exact iff_of_false (fun h ↦ hadd h.1) (by omega)

/-- Whatever the profile, a plain operator never returns an error value. -/
theorem plainResult_cases {ε : Type} (profile : Profile) (fits : Bool) (wrapped : BitVec w) :
    (plainResult profile fits wrapped : Outcome ε (BitVec w)) = .ok wrapped ∨
      (plainResult profile fits wrapped : Outcome ε (BitVec w)) = .error .panic := by
  unfold plainResult
  cases fits <;> cases profile <;> simp

end GraphTally.Theory
