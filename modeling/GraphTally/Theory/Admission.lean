import GraphTally.Theory.Fallible

/-!
# Admission

A loop that takes the entries of a list into a state one at a time, and stops with an error at
the first entry that it does not admit.
-/

namespace GraphTally.Theory

variable {ε σ α : Type}

/-- A turn admits an entry exactly when it qualifies by itself and is compatible with every entry
before it; the state then holds the new entry too. -/
structure Admits (turn : σ → α → Except ε σ) (Holds : List α → σ → Prop) (Qualifies : α → Prop)
    (Compatible : α → α → Prop) : Prop where
  turn_isOk : ∀ {before : List α} {state : σ} (entry : α), Holds before state →
    ((∃ state', turn state entry = .ok state') ↔
      Qualifies entry ∧ ∀ earlier ∈ before, Compatible earlier entry)
  turn_holds : ∀ {before : List α} {state state' : σ} {entry : α}, Holds before state →
    turn state entry = .ok state' → Holds (before ++ [entry]) state'

namespace Admits

variable {turn : σ → α → Except ε σ} {Holds : List α → σ → Prop} {Qualifies : α → Prop}
  {Compatible : α → α → Prop}

theorem loop_holds (h : Admits turn Holds Qualifies Compatible) {before entries : List α}
    {state state' : σ} (hstate : Holds before state)
    (hloop : entries.foldlM turn state = .ok state') : Holds (before ++ entries) state' := by
  induction entries generalizing before state with
  | nil =>
    obtain rfl := Except.ok.inj hloop
    rw [List.append_nil]
    exact hstate
  | cons entry entries ih =>
    rw [List.foldlM_cons] at hloop
    rcases except_bind_eq_ok.mp hloop with ⟨next, hturn, hrest⟩
    have hnext := h.turn_holds hstate hturn
    have hall := ih hnext hrest
    rw [List.append_assoc, List.singleton_append] at hall
    exact hall

/-- The loop gets through exactly the lists whose entries qualify, are compatible with what was
there before, and are compatible with one another. -/
theorem loop_isOk (h : Admits turn Holds Qualifies Compatible) {before : List α} {state : σ}
    (hstate : Holds before state) (entries : List α) :
    (∃ state', entries.foldlM turn state = .ok state') ↔
      (∀ entry ∈ entries, Qualifies entry ∧ ∀ earlier ∈ before, Compatible earlier entry) ∧
        entries.Pairwise Compatible := by
  induction entries generalizing before state with
  | nil => simp [pure, Except.pure]
  | cons entry entries ih =>
    have hsplit : (∃ state', (entry :: entries).foldlM turn state = .ok state') ↔
        ∃ next, turn state entry = .ok next ∧
          ∃ state', entries.foldlM turn next = .ok state' := by
      simp only [List.foldlM_cons, except_bind_eq_ok]
      exact ⟨fun ⟨state', next, hturn, hrest⟩ ↦ ⟨next, hturn, state', hrest⟩,
        fun ⟨next, hturn, state', hrest⟩ ↦ ⟨state', next, hturn, hrest⟩⟩
    rw [hsplit, List.forall_mem_cons, List.pairwise_cons, ← h.turn_isOk entry hstate]
    -- what stands before the rest is what stood before, and the first entry
    have hrest : ∀ next, turn state entry = .ok next →
        ((∃ state', entries.foldlM turn next = .ok state') ↔
          (∀ other ∈ entries, (Qualifies other ∧ ∀ earlier ∈ before, Compatible earlier other) ∧
            Compatible entry other) ∧ entries.Pairwise Compatible) := by
      intro next hturn
      rw [ih (h.turn_holds hstate hturn)]
      simp only [List.forall_mem_append, List.forall_mem_singleton, and_assoc]
    constructor
    · intro hnext
      rcases hnext with ⟨next, hturn, hloop⟩
      have hall := (hrest next hturn).mp hloop
      exact ⟨⟨⟨next, hturn⟩, fun other hother ↦ (hall.1 other hother).1⟩,
        fun other hother ↦ (hall.1 other hother).2, hall.2⟩
    · intro hall
      rcases hall.1.1 with ⟨next, hturn⟩
      have hothers := fun other hother ↦ And.intro (hall.1.2 other hother) (hall.2.1 other hother)
      exact ⟨next, hturn, (hrest next hturn).mpr ⟨hothers, hall.2.2⟩⟩

end Admits

end GraphTally.Theory
