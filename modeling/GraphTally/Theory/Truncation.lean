import GraphTally.Theory.Enumeration
import Mathlib.Data.List.MinMax
import Mathlib.Logic.Function.Iterate

/-!
# The whole groups that fit

Elements fall into groups by a key.  Under a limit, as many whole groups are kept as fit, smallest
key first: an element stays when it and everything up to its key number at most the limit.  No
order of the list is involved.
-/

namespace GraphTally.Theory

variable {α : Type} {key : α → Nat} {limit : Nat} {l l' : List α}

def wholeGroups (key : α → Nat) (limit : Nat) (l : List α) : List α :=
  l.filter fun a ↦ l.countP (key · ≤ key a) ≤ limit

theorem mem_wholeGroups {a : α} :
    a ∈ wholeGroups key limit l ↔ a ∈ l ∧ l.countP (key · ≤ key a) ≤ limit := by
  rw [wholeGroups, List.mem_filter, decide_eq_true_eq]

theorem wholeGroups_perm (h : l.Perm l') :
    (wholeGroups key limit l).Perm (wholeGroups key limit l') := by
  have hcount : (fun a ↦ decide (l.countP (key · ≤ key a) ≤ limit)) =
      fun a ↦ decide (l'.countP (key · ≤ key a) ≤ limit) := by
    funext a
    rw [h.countP_eq]
  rw [wholeGroups, wholeGroups, hcount]
  exact h.filter _

theorem countP_le_of_le {m n : Nat} (h : m ≤ n) :
    l.countP (key · ≤ m) ≤ l.countP (key · ≤ n) := by
  apply List.countP_mono_left
  intro a _ ha
  simp only [decide_eq_true_eq] at ha ⊢
  omega

/-! ## Whole and smallest first -/

/-- A group is kept or dropped as a whole. -/
theorem wholeGroups_filter_key (k : Nat) :
    (wholeGroups key limit l).filter (key · = k) =
      if l.countP (key · ≤ k) ≤ limit then l.filter (key · = k) else [] := by
  rw [wholeGroups, List.filter_filter]
  split
  · rename_i hfits
    apply List.filter_congr
    intro a _
    by_cases ha : key a = k
    · simp [ha, hfits]
    · simp [ha]
  · rename_i hfits
    apply List.filter_eq_nil_iff.mpr
    intro a _
    by_cases ha : key a = k
    · simp [ha, hfits]
    · simp [ha]

-- What is dropped has too much below it, and so has everything after it.
theorem key_lt_of_notMem_wholeGroups {a b : α} (ha : a ∈ wholeGroups key limit l) (hb : b ∈ l)
    (hdropped : b ∉ wholeGroups key limit l) : key a < key b := by
  by_contra hle
  apply hdropped
  have hcount : l.countP (key · ≤ key b) ≤ l.countP (key · ≤ key a) :=
    countP_le_of_le (Nat.le_of_not_lt hle)
  exact mem_wholeGroups.mpr ⟨hb, hcount.trans (mem_wholeGroups.mp ha).2⟩

/-! ## As many as fit -/

theorem wholeGroups_of_fits (h : l.length ≤ limit) : wholeGroups key limit l = l := by
  apply List.filter_eq_self.mpr
  intro a _
  exact decide_eq_true (List.countP_le_length.trans h)

theorem wholeGroups_length_le : (wholeGroups key limit l).length ≤ limit := by
  by_cases hempty : wholeGroups key limit l = []
  · rw [hempty]
    exact Nat.zero_le _
  · -- everything kept lies below the largest key that is kept
    obtain ⟨last, hlast⟩ : ∃ last, (wholeGroups key limit l).argmax key = some last :=
      Option.ne_none_iff_exists'.mp fun hnone ↦ hempty (List.argmax_eq_none.mp hnone)
    have hbelow : (wholeGroups key limit l).filter (key · ≤ key last) = wholeGroups key limit l :=
      List.filter_eq_self.mpr fun a ha ↦ decide_eq_true (List.le_of_mem_argmax ha hlast)
    have hsublist : (wholeGroups key limit l).Sublist (l.filter (key · ≤ key last)) := by
      rw [← hbelow]
      exact List.filter_sublist.filter _
    calc (wholeGroups key limit l).length
        ≤ (l.filter (key · ≤ key last)).length := hsublist.length_le
      _ = l.countP (key · ≤ key last) := List.countP_eq_length_filter.symm
      _ ≤ limit := (mem_wholeGroups.mp (List.argmax_mem hlast)).2

/-- The group that comes next would not fit any more. -/
theorem limit_lt_of_next {k : Nat} (hleft : ∃ b ∈ l, key b = k ∧ b ∉ wholeGroups key limit l)
    (hnext : ∀ b ∈ l, b ∉ wholeGroups key limit l → k ≤ key b) :
    limit < (wholeGroups key limit l).length + (l.filter (key · = k)).length := by
  obtain ⟨b, hb, rfl, hdropped⟩ := hleft
  have hover : limit < l.countP (key · ≤ key b) := by
    by_contra hfits
    exact hdropped (mem_wholeGroups.mpr ⟨hb, Nat.le_of_not_lt hfits⟩)
  -- up to the next key there is what is kept, and of what is dropped only the next group
  have hkept : (wholeGroups key limit l).countP (key · ≤ key b) ≤
      (wholeGroups key limit l).length := List.countP_le_length
  have hdrop : (l.filter fun a ↦ !decide (l.countP (key · ≤ key a) ≤ limit)).countP
      (key · ≤ key b) ≤ (l.filter (key · = key b)).length := by
    rw [← List.countP_eq_length_filter]
    refine le_trans (List.countP_mono_left ?_) (List.filter_sublist.countP_le)
    intro a ha hle
    rcases List.mem_filter.mp ha with ⟨ha, hover⟩
    have hge := hnext a ha fun hmem ↦ by simp [(mem_wholeGroups.mp hmem).2] at hover
    exact decide_eq_true (le_antisymm (of_decide_eq_true hle) hge)
  have hsplit : l.countP (key · ≤ key b) = (wholeGroups key limit l).countP (key · ≤ key b) +
      (l.filter fun a ↦ !decide (l.countP (key · ≤ key a) ≤ limit)).countP (key · ≤ key b) :=
    List.countP_eq_countP_filter_add _ _ _
  omega

/-! ## Round after round -/

/-- What a round does not take. -/
def leftGroups (key : α → Nat) (limit : Nat) (l : List α) : List α :=
  l.filter fun a ↦ limit < l.countP (key · ≤ key a)

/-- No group is larger than the limit. -/
def GroupsFit (key : α → Nat) (limit : Nat) (l : List α) : Prop :=
  ∀ k, (l.filter (key · = k)).length ≤ limit

theorem wholeGroups_append_leftGroups :
    (wholeGroups key limit l ++ leftGroups key limit l).Perm l := by
  have hleft : leftGroups key limit l =
      l.filter fun a ↦ !decide (l.countP (key · ≤ key a) ≤ limit) :=
    List.filter_congr fun a _ ↦ by simp only [← decide_not, Nat.not_le]
  rw [hleft]
  exact List.filter_append_perm _ l

theorem mem_leftGroups {a : α} :
    a ∈ leftGroups key limit l ↔ a ∈ l ∧ a ∉ wholeGroups key limit l := by
  rw [leftGroups, List.mem_filter, decide_eq_true_eq, mem_wholeGroups]
  exact ⟨fun h ↦ ⟨h.1, fun hkept ↦ absurd h.2 (Nat.not_lt.mpr hkept.2)⟩,
    fun h ↦ ⟨h.1, Nat.not_le.mp fun hle ↦ h.2 ⟨h.1, hle⟩⟩⟩

theorem GroupsFit.leftGroups (h : GroupsFit key limit l) :
    GroupsFit key limit (leftGroups key limit l) := by
  intro k
  have hsublist : ((Theory.leftGroups key limit l).filter (key · = k)).Sublist
      (l.filter (key · = k)) := List.filter_sublist.filter _
  exact hsublist.length_le.trans (h k)

/-- Two rounds take more than the limit, or everything. -/
theorem leftGroups_twice (h : GroupsFit key limit l) :
    leftGroups key limit (leftGroups key limit l) = [] ∨
      (leftGroups key limit (leftGroups key limit l)).length + (limit + 1) ≤ l.length := by
  by_cases hempty : leftGroups key limit l = []
  · left
    rw [hempty]
    rfl
  right
  -- the group that did not fit in the first round is the first of the second one
  obtain ⟨next, hnext⟩ : ∃ next, (leftGroups key limit l).argmin key = some next :=
    Option.ne_none_iff_exists'.mp fun hnone ↦ hempty (List.argmin_eq_none.mp hnone)
  obtain ⟨hmem, hdropped⟩ := mem_leftGroups.mp (List.argmin_mem hnext)
  have hlimit := limit_lt_of_next ⟨next, hmem, rfl, hdropped⟩ fun b hb hout ↦
    List.le_of_mem_argmin (mem_leftGroups.mpr ⟨hb, hout⟩) hnext
  have hgroup : l.filter (key · = key next) =
      (leftGroups key limit l).filter (key · = key next) := by
    rw [leftGroups, List.filter_filter]
    apply List.filter_congr
    intro a _
    by_cases ha : key a = key next
    · have hover := (List.mem_filter.mp (List.argmin_mem hnext)).2
      simpa [ha] using hover
    · simp [ha]
  have hbelow : (leftGroups key limit l).countP (key · ≤ key next) =
      ((leftGroups key limit l).filter (key · = key next)).length := by
    rw [List.countP_eq_length_filter]
    congr 1
    apply List.filter_congr
    intro a ha
    have hge := List.le_of_mem_argmin ha hnext
    exact decide_eq_decide.mpr ⟨fun hle ↦ Nat.le_antisymm hle hge, fun heq ↦ heq.le⟩
  have htaken : ((leftGroups key limit l).filter (key · = key next)).length ≤
      (wholeGroups key limit (leftGroups key limit l)).length := by
    apply List.Sublist.length_le
    have hfits : (leftGroups key limit l).countP (key · ≤ key next) ≤ limit := by
      rw [hbelow]
      exact h.leftGroups (key next)
    have hwhole := @wholeGroups_filter_key α key limit (leftGroups key limit l) (key next)
    rw [if_pos hfits] at hwhole
    rw [← hwhole]
    exact List.filter_sublist
  have hfirst := (@wholeGroups_append_leftGroups α key limit l).length_eq
  have hsecond := (@wholeGroups_append_leftGroups α key limit (leftGroups key limit l)).length_eq
  rw [List.length_append] at hfirst hsecond
  rw [hgroup] at hlimit
  omega

/-- Twice as many rounds as the limit is needed to hold everything are enough. -/
theorem leftGroups_iterate (h : GroupsFit key limit l) {n : Nat}
    (hlength : l.length ≤ n * (limit + 1)) : (leftGroups key limit)^[2 * n] l = [] := by
  induction n generalizing l with
  | zero =>
    rw [Nat.zero_mul] at hlength
    exact List.eq_nil_of_length_eq_zero (Nat.le_zero.mp hlength)
  | succ n ih =>
    rw [Nat.mul_succ, Function.iterate_add_apply]
    show (leftGroups key limit)^[2 * n] (leftGroups key limit (leftGroups key limit l)) = []
    apply ih h.leftGroups.leftGroups
    rcases leftGroups_twice h with hempty | hshorter
    · rw [hempty]
      exact Nat.zero_le _
    · rw [Nat.succ_mul] at hlength
      omega

-- A group that does not fit stays, and so nothing ever gets past it.
theorem leftGroups_stuck {k : Nat} (h : limit < (l.filter (key · = k)).length) (n : Nat) :
    (leftGroups key limit)^[n] l ≠ [] := by
  induction n generalizing l with
  | zero =>
    intro hempty
    rw [show l = [] from hempty] at h
    exact absurd h (Nat.not_lt_zero _)
  | succ n ih =>
    rw [Function.iterate_succ_apply]
    apply ih
    have hover : limit < l.countP (key · ≤ k) := by
      refine h.trans_le ?_
      rw [← List.countP_eq_length_filter]
      exact List.countP_mono_left fun a _ ha ↦ decide_eq_true (of_decide_eq_true ha).le
    have hkept : (leftGroups key limit l).filter (key · = k) = l.filter (key · = k) := by
      rw [leftGroups, List.filter_filter]
      apply List.filter_congr
      intro a _
      by_cases ha : key a = k
      · simp [ha, hover]
      · simp [ha]
    rwa [hkept]

/-! ## A sorted list -/

/-- Everything below the element at the limit is what fits. -/
theorem filter_lt_eq_wholeGroups (hsorted : l.Pairwise (fun a b ↦ key a ≤ key b))
    (hlimit : limit < l.length) :
    l.filter (key · < key l[limit]) = wholeGroups key limit l := by
  apply List.filter_congr
  intro a ha
  apply decide_eq_decide.mpr
  constructor
  · -- its group lies before the limit
    intro hlt
    calc l.countP (key · ≤ key a)
        ≤ l.countP (key · < key l[limit]) := by
          apply List.countP_mono_left
          intro b _ hb
          simp only [decide_eq_true_eq] at hb ⊢
          omega
      _ = ((l.take limit).filter (key · < key l[limit])).length := by
          rw [filter_lt_take hsorted hlimit, List.countP_eq_length_filter]
      _ ≤ limit := (List.length_filter_le _ _).trans (List.length_take_le _ _)
  · -- otherwise the elements up to the limit all lie below it
    intro hcount
    by_contra hle
    have hall : (l.take (limit + 1)).countP (key · ≤ key a) = (l.take (limit + 1)).length := by
      apply List.countP_eq_length.mpr
      intro b hb
      have hbelow := key_le_of_mem_take hsorted (n := limit + 1) (by simpa using hlimit) hb
      apply decide_eq_true
      exact hbelow.trans (Nat.le_of_not_lt hle)
    have htotal : (l.take (limit + 1)).countP (key · ≤ key a) ≤ l.countP (key · ≤ key a) :=
      (List.take_sublist _ l).countP_le
    rw [List.length_take_of_le hlimit] at hall
    omega

end GraphTally.Theory
