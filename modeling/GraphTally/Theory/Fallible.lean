import Mathlib.Data.List.Forall2
import Mathlib.Tactic.Common

/-! Reading back a fallible computation written in `do` notation, one step at a time. -/

namespace GraphTally.Theory

variable {ε α β : Type}

-- LIBRARY CANDIDATE: inversion of `Except`'s bind.
theorem except_bind_eq_ok {x : Except ε α} {f : α → Except ε β} {b : β} :
    (x >>= f) = .ok b ↔ ∃ a, x = .ok a ∧ f a = .ok b := by
  cases x with
  | error e => simp [bind, Except.bind]
  | ok a => simp [bind, Except.bind]

theorem except_bind_unit_eq_ok {x : Except ε Unit} {f : Unit → Except ε β} {b : β} :
    (x >>= f) = .ok b ↔ x = .ok () ∧ f () = .ok b := by
  rw [except_bind_eq_ok]
  exact ⟨fun ⟨_, hx, hf⟩ ↦ ⟨hx, hf⟩, fun ⟨hx, hf⟩ ↦ ⟨_, hx, hf⟩⟩

theorem except_mapError_eq_ok {ε' : Type} {f : ε → ε'} {x : Except ε α} {a : α} :
    x.mapError f = .ok a ↔ x = .ok a := by
  cases x <;> simp [Except.mapError]

/-- A loop of checks passes exactly when every one of them does. -/
theorem forM_eq_ok {f : α → Except ε Unit} {l : List α} :
    l.forM f = .ok () ↔ ∀ x ∈ l, f x = .ok () := by
  induction l with
  | nil => simp [pure, Except.pure]
  | cons x xs ih =>
    rw [List.forM_eq_forM] at ih ⊢
    rw [List.forM_cons, except_bind_unit_eq_ok, ih, List.forall_mem_cons]

/-- A mapped list holds the results of its items in their order. -/
theorem mapM_eq_ok {f : α → Except ε β} {l : List α} {results : List β} :
    l.mapM f = .ok results ↔ List.Forall₂ (fun x result ↦ f x = .ok result) l results := by
  induction l generalizing results with
  | nil =>
    rw [List.mapM_nil, List.forall₂_nil_left_iff]
    constructor
    · intro h
      cases h
      rfl
    · rintro rfl
      rfl
  | cons x xs ih =>
    rw [List.mapM_cons, except_bind_eq_ok, List.forall₂_cons_left_iff]
    refine exists_congr fun result ↦ ?_
    constructor
    · rintro ⟨hx, hrest⟩
      rcases except_bind_eq_ok.mp hrest with ⟨rest, hxs, hall⟩
      exact ⟨rest, hx, ih.mp hxs, (Except.ok.inj hall).symm⟩
    · rintro ⟨rest, hx, hxs, rfl⟩
      refine ⟨hx, ?_⟩
      rw [ih.mpr hxs]
      rfl

/-- Two passes over a list are one pass of both over each item. -/
theorem mapM_mapM_eq_ok {γ : Type} {f : α → Except ε β} {g : β → Except ε γ} {l : List α}
    {results : List γ} :
    (∃ middle, l.mapM f = .ok middle ∧ middle.mapM g = .ok results) ↔
      List.Forall₂ (fun x result ↦ ∃ y, f x = .ok y ∧ g y = .ok result) l results := by
  simp only [mapM_eq_ok]
  constructor
  · intro h
    rcases h with ⟨middle, hfirst, hsecond⟩
    induction hfirst generalizing results with
    | nil =>
      obtain rfl := List.forall₂_nil_left_iff.mp hsecond
      exact .nil
    | @cons x y xs ys hx hxs ih =>
      rcases List.forall₂_cons_left_iff.mp hsecond with ⟨result, rest, hy, hrest, rfl⟩
      exact .cons ⟨y, hx, hy⟩ (ih hrest)
  · intro h
    induction h with
    | nil => exact ⟨[], .nil, .nil⟩
    | @cons x result xs results hx _ ih =>
      rcases hx with ⟨y, hx, hy⟩
      rcases ih with ⟨ys, hfirst, hsecond⟩
      exact ⟨y :: ys, .cons hx hfirst, .cons hy hsecond⟩

theorem mem_of_mapM {f : α → Except ε β} {l : List α} {results : List β}
    (h : l.mapM f = .ok results) :
    (∀ x ∈ l, ∃ result ∈ results, f x = .ok result) ∧
      ∀ result ∈ results, ∃ x ∈ l, f x = .ok result := by
  have hforall := mapM_eq_ok.mp h
  clear h
  induction hforall with
  | nil => exact ⟨fun _ hx ↦ absurd hx List.not_mem_nil, fun _ hx ↦ absurd hx List.not_mem_nil⟩
  | @cons x result xs results hx _ ih =>
    constructor
    · intro other hother
      rcases List.mem_cons.mp hother with rfl | hother
      · exact ⟨result, List.mem_cons_self, hx⟩
      · rcases ih.1 other hother with ⟨found, hfound, hok⟩
        exact ⟨found, List.mem_cons_of_mem _ hfound, hok⟩
    · intro other hother
      rcases List.mem_cons.mp hother with rfl | hother
      · exact ⟨x, List.mem_cons_self, hx⟩
      · rcases ih.2 other hother with ⟨found, hfound, hok⟩
        exact ⟨found, List.mem_cons_of_mem _ hfound, hok⟩

/-- The map succeeds when it does for every item. -/
theorem exists_mapM {f : α → Except ε β} {l : List α} (h : ∀ x ∈ l, ∃ result, f x = .ok result) :
    ∃ results, l.mapM f = .ok results := by
  induction l with
  | nil => exact ⟨[], rfl⟩
  | cons x xs ih =>
    rcases List.forall_mem_cons.mp h with ⟨⟨result, hx⟩, hrest⟩
    rcases ih hrest with ⟨results, hresults⟩
    exact ⟨result :: results, mapM_eq_ok.mpr (.cons hx (mapM_eq_ok.mp hresults))⟩

/-! ## With fuel -/

/-- There is no result at all when the fuel is used up. -/
abbrev Fueled (ε α : Type) := ExceptT ε Option α

theorem fueled_bind_eq_ok {x : Fueled ε α} {f : α → Fueled ε β} {b : β} :
    (x >>= f).run = some (.ok b) ↔ ∃ a, x.run = some (.ok a) ∧ (f a).run = some (.ok b) := by
  rw [ExceptT.run_bind]
  cases x.run with
  | none => simp
  | some result => cases result <;> simp

theorem fueled_lift_eq_ok {x : Except ε α} {a : α} :
    (liftM x : Fueled ε α).run = some (.ok a) ↔ x = .ok a :=
  Option.some_inj

/-- A guarded error passes exactly when the guard is off. -/
theorem guard_eq_ok {c : Prop} [Decidable c] {e : ε} {x : Except ε α} {a : α} :
    (if c then .error e else x) = .ok a ↔ ¬c ∧ x = .ok a := by
  split <;> simp_all

end GraphTally.Theory
