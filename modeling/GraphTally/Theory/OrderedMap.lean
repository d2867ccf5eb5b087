import Mathlib.Data.List.Nodup
import Mathlib.Order.Lattice
import Mathlib.Tactic.Common

/-!
# Ordered maps

A map that is iterated in the order of its keys, as the list of its entries in that order.
-/

namespace GraphTally.Theory

structure OrderedMap (K V : Type) [LinearOrder K] where
  entries : List (K × V)
  sorted : entries.Pairwise fun a b ↦ a.1 < b.1

namespace OrderedMap

variable {K V : Type} [LinearOrder K]

/-! ## Insertion into the entries -/

def insertEntry (key : K) (value : V) : List (K × V) → List (K × V)
  | [] => [(key, value)]
  | entry :: entries =>
    if key < entry.1 then (key, value) :: entry :: entries
    else if key = entry.1 then (key, value) :: entries
    else entry :: insertEntry key value entries

theorem mem_insertEntry {key : K} {value : V} {entries : List (K × V)} {entry : K × V}
    (h : entry ∈ insertEntry key value entries) : entry = (key, value) ∨ entry ∈ entries := by
  induction entries with
  | nil => exact .inl (List.mem_singleton.mp h)
  | cons first entries ih =>
    rw [insertEntry] at h
    split at h
    · exact List.mem_cons.mp h
    · split at h
      · rcases List.mem_cons.mp h with h | h
        · exact .inl h
        · exact .inr (List.mem_cons_of_mem _ h)
      · rcases List.mem_cons.mp h with rfl | h
        · exact .inr List.mem_cons_self
        · exact (ih h).imp_right (List.mem_cons_of_mem _)

theorem insertEntry_sorted (key : K) (value : V) {entries : List (K × V)}
    (h : entries.Pairwise fun a b ↦ a.1 < b.1) :
    (insertEntry key value entries).Pairwise fun a b ↦ a.1 < b.1 := by
  induction entries with
  | nil => exact List.pairwise_singleton _ _
  | cons first entries ih =>
    rcases List.pairwise_cons.mp h with ⟨hfirst, hrest⟩
    rw [insertEntry]
    split
    · rename_i hlt
      apply List.pairwise_cons.mpr
      refine ⟨?_, h⟩
      intro entry hentry
      rcases List.mem_cons.mp hentry with rfl | hentry
      · exact hlt
      · exact hlt.trans (hfirst entry hentry)
    · split
      · rename_i hsame
        apply List.pairwise_cons.mpr
        exact ⟨fun entry hentry ↦ hsame ▸ hfirst entry hentry, hrest⟩
      · rename_i hnlt hne
        apply List.pairwise_cons.mpr
        refine ⟨?_, ih hrest⟩
        intro entry hentry
        rcases mem_insertEntry hentry with rfl | hentry
        · exact lt_of_le_of_ne (not_lt.mp hnlt) (Ne.symm hne)
        · exact hfirst entry hentry

-- A new key adds its entry to the others.
theorem insertEntry_perm {key : K} {value : V} {entries : List (K × V)}
    (h : ∀ entry ∈ entries, entry.1 ≠ key) :
    (insertEntry key value entries).Perm ((key, value) :: entries) := by
  induction entries with
  | nil => exact List.Perm.refl _
  | cons first entries ih =>
    rw [List.forall_mem_cons] at h
    rw [insertEntry]
    split
    · exact List.Perm.refl _
    · rw [if_neg (Ne.symm h.1)]
      exact ((ih h.2).cons first).trans (List.Perm.swap _ _ _)

/-- A key that is there keeps its place. -/
theorem insertEntry_replace {key : K} (value value' : V) {before after : List (K × V)}
    (h : (before ++ (key, value) :: after).Pairwise fun a b ↦ a.1 < b.1) :
    insertEntry key value' (before ++ (key, value) :: after) =
      before ++ (key, value') :: after := by
  induction before with
  | nil => simp [insertEntry]
  | cons first before ih =>
    rcases List.pairwise_cons.mp h with ⟨hfirst, hrest⟩
    have hlt : first.1 < key := hfirst (key, value) (by simp)
    rw [List.cons_append, insertEntry, if_neg (not_lt.mpr hlt.le), if_neg hlt.ne', ih hrest]
    rfl

-- What a key finds after an insertion, whatever the order of the entries.
theorem find_insertEntry (key : K) (value : V) (entries : List (K × V)) :
    (insertEntry key value entries).find? (fun entry ↦ entry.1 = key) = some (key, value) := by
  induction entries with
  | nil => simp [insertEntry]
  | cons first entries ih =>
    rw [insertEntry]
    split
    · simp
    · split
      · simp
      · rename_i hne
        rw [List.find?_cons_of_neg (by simpa using Ne.symm hne), ih]

theorem find_insertEntry_ne {key other : K} (h : other ≠ key) (value : V)
    (entries : List (K × V)) :
    (insertEntry key value entries).find? (fun entry ↦ entry.1 = other) =
      entries.find? fun entry ↦ entry.1 = other := by
  have hskip : ∀ (value : V) (rest : List (K × V)),
      ((key, value) :: rest).find? (fun entry ↦ entry.1 = other) =
        rest.find? fun entry ↦ entry.1 = other := by
    intro value rest
    exact List.find?_cons_of_neg (by simpa using Ne.symm h)
  induction entries with
  | nil => exact hskip value []
  | cons first entries ih =>
    rw [insertEntry]
    split
    · exact hskip value _
    · split
      · rename_i hsame
        have hfirst : first = (key, first.2) := Prod.ext hsame.symm rfl
        rw [hskip, hfirst, hskip]
      · rw [List.find?_cons, List.find?_cons, ih]

/-! ## Maps -/

def empty : OrderedMap K V := ⟨[], List.Pairwise.nil⟩

def insert (key : K) (value : V) (map : OrderedMap K V) : OrderedMap K V :=
  ⟨insertEntry key value map.entries, insertEntry_sorted key value map.sorted⟩

/-- Collects a list of entries; of two with one key the later stays. -/
def ofList (entries : List (K × V)) : OrderedMap K V :=
  entries.foldl (fun map entry ↦ map.insert entry.1 entry.2) empty

def lookup (key : K) (map : OrderedMap K V) : Option V :=
  (map.entries.find? fun entry ↦ entry.1 = key).map (·.2)

def values (map : OrderedMap K V) : List V := map.entries.map (·.2)

/-- The same keys over other values. -/
def mapVal {W : Type} (f : K → V → W) (map : OrderedMap K V) : OrderedMap K W :=
  ⟨map.entries.map fun entry ↦ (entry.1, f entry.1 entry.2),
    List.pairwise_map.mpr map.sorted⟩

theorem ext {a b : OrderedMap K V} (h : a.entries = b.entries) : a = b := by
  cases a
  cases b
  simpa using h

-- An entry in the middle is what its key looks up.
theorem lookup_of_entries {map : OrderedMap K V} {key : K} {value : V}
    {before after : List (K × V)} (h : map.entries = before ++ (key, value) :: after) :
    map.lookup key = some value := by
  have hsorted := map.sorted
  rw [h] at hsorted
  have hbefore : before.find? (fun entry ↦ entry.1 = key) = none := by
    apply List.find?_eq_none.mpr
    intro entry hentry
    have hlt := (List.pairwise_append.mp hsorted).2.2 entry hentry (key, value) List.mem_cons_self
    simpa using hlt.ne
  rw [lookup, h, List.find?_append, hbefore, List.find?_cons_of_pos (by simp)]
  rfl

theorem lookup_eq_some {map : OrderedMap K V} {key : K} {value : V} :
    map.lookup key = some value ↔ (key, value) ∈ map.entries := by
  constructor
  · intro h
    rcases Option.map_eq_some_iff.mp h with ⟨entry, hfind, rfl⟩
    have hkey : entry.1 = key := by simpa using List.find?_some hfind
    rw [← hkey]
    exact List.mem_of_find?_eq_some hfind
  · intro h
    rcases List.append_of_mem h with ⟨before, after, hentries⟩
    exact lookup_of_entries hentries

theorem keys_nodup (map : OrderedMap K V) : (map.entries.map Prod.fst).Nodup :=
  List.pairwise_map.mpr (map.sorted.imp fun hlt ↦ hlt.ne)

/-- Maps that agree on every key are the same. -/
theorem ext_lookup {a b : OrderedMap K V} (h : ∀ key, a.lookup key = b.lookup key) : a = b := by
  have hnodup : ∀ map : OrderedMap K V, map.entries.Nodup :=
    fun map ↦ List.Nodup.of_map Prod.fst map.keys_nodup
  have hperm : a.entries.Perm b.entries := by
    apply (List.perm_ext_iff_of_nodup (hnodup a) (hnodup b)).mpr
    intro entry
    rw [← lookup_eq_some, ← lookup_eq_some, h]
  apply ext
  apply hperm.eq_of_pairwise _ a.sorted b.sorted
  intro x y _ _ hlt hgt
  exact absurd hlt hgt.asymm

@[simp] theorem lookup_empty (key : K) : (empty : OrderedMap K V).lookup key = none := rfl

@[simp] theorem lookup_insert (key : K) (value : V) (map : OrderedMap K V) :
    (map.insert key value).lookup key = some value := by
  rw [lookup, insert, find_insertEntry]
  rfl

theorem lookup_insert_ne {key other : K} (h : other ≠ key) (value : V) (map : OrderedMap K V) :
    (map.insert key value).lookup other = map.lookup other := by
  rw [lookup, insert, find_insertEntry_ne h, lookup]

theorem isEmpty_iff (map : OrderedMap K V) :
    map.entries.isEmpty = true ↔ ∀ key, map.lookup key = none := by
  rw [List.isEmpty_iff, List.eq_nil_iff_forall_not_mem]
  constructor
  · intro hempty key
    apply Option.eq_none_iff_forall_ne_some.mpr
    intro value hvalue
    exact hempty _ (lookup_eq_some.mp hvalue)
  · intro hnone entry hentry
    have hsome := lookup_eq_some.mpr hentry
    rw [hnone] at hsome
    cases hsome

/-- Keeps and changes values, with `none` for those that go. -/
def filterMapVal {W : Type} (f : K → V → Option W) (map : OrderedMap K V) : OrderedMap K W where
  entries := map.entries.filterMap fun entry ↦ (f entry.1 entry.2).map fun value ↦ (entry.1, value)
  sorted := by
    apply map.sorted.filterMap
    intro a b hlt x hx y hy
    rcases Option.map_eq_some_iff.mp hx with ⟨-, -, rfl⟩
    rcases Option.map_eq_some_iff.mp hy with ⟨-, -, rfl⟩
    exact hlt

theorem lookup_filterMapVal {W : Type} (f : K → V → Option W) (map : OrderedMap K V) (key : K) :
    (map.filterMapVal f).lookup key = (map.lookup key).bind (f key) := by
  ext value
  rw [lookup_eq_some, Option.bind_eq_some_iff]
  simp only [filterMapVal, List.mem_filterMap, Option.map_eq_some_iff, Prod.mk.injEq]
  constructor
  · rintro ⟨entry, hentry, value, hvalue, rfl, rfl⟩
    exact ⟨entry.2, lookup_eq_some.mpr hentry, hvalue⟩
  · rintro ⟨held, hheld, hvalue⟩
    exact ⟨(key, held), lookup_eq_some.mp hheld, value, hvalue, rfl, rfl⟩

/-- Distinct keys are all kept. -/
theorem ofList_perm {entries : List (K × V)} (h : (entries.map Prod.fst).Nodup) :
    (ofList entries).entries.Perm entries := by
  -- the entries collected before are generalised
  have hfold : ∀ (entries : List (K × V)) (map : OrderedMap K V),
      ((map.entries ++ entries).map Prod.fst).Nodup →
      (entries.foldl (fun map entry ↦ map.insert entry.1 entry.2) map).entries.Perm
        (map.entries ++ entries) := by
    intro entries
    induction entries with
    | nil =>
      intro map _
      rw [List.append_nil]
      exact List.Perm.refl _
    | cons entry entries ih =>
      intro map hnodup
      have hinsert : (map.insert entry.1 entry.2).entries.Perm (entry :: map.entries) := by
        apply insertEntry_perm
        intro other hother hsame
        rw [List.map_append, List.map_cons, List.nodup_append] at hnodup
        exact hnodup.2.2 other.1 (List.mem_map_of_mem hother) entry.1 List.mem_cons_self hsame
      have hperm : ((map.insert entry.1 entry.2).entries ++ entries).Perm
          (map.entries ++ entry :: entries) :=
        (hinsert.append_right entries).trans List.perm_middle.symm
      exact (ih _ ((hperm.map Prod.fst).nodup_iff.mpr hnodup)).trans hperm
  exact hfold entries empty h

theorem lookup_ofList {entries : List (K × V)} (h : (entries.map Prod.fst).Nodup) {key : K}
    {value : V} : (ofList entries).lookup key = some value ↔ (key, value) ∈ entries := by
  rw [lookup_eq_some, (ofList_perm h).mem_iff]

/-! ## Keys -/

theorem mem_keys {map : OrderedMap K V} {key : K} :
    key ∈ map.entries.map Prod.fst ↔ ∃ value, map.lookup key = some value := by
  simp only [lookup_eq_some, List.mem_map, Prod.exists, exists_and_right, exists_eq_right]

theorem mem_keys_insert {map : OrderedMap K V} {key other : K} {value : V} :
    other ∈ (map.insert key value).entries.map Prod.fst ↔
      other = key ∨ other ∈ map.entries.map Prod.fst := by
  rw [mem_keys, mem_keys]
  by_cases hsame : other = key
  · subst hsame
    simp
  · rw [lookup_insert_ne hsame, or_iff_right hsame]

/-- Collecting entries loses no key, and adds none. -/
theorem mem_keys_ofList {entries : List (K × V)} {key : K} :
    key ∈ (ofList entries).entries.map Prod.fst ↔ key ∈ entries.map Prod.fst := by
  -- the entries collected before are generalised
  have hfold : ∀ (entries : List (K × V)) (map : OrderedMap K V),
      key ∈ (entries.foldl (fun map entry ↦ map.insert entry.1 entry.2) map).entries.map Prod.fst ↔
        key ∈ map.entries.map Prod.fst ∨ key ∈ entries.map Prod.fst := by
    intro entries
    induction entries with
    | nil => simp
    | cons entry entries ih =>
      intro map
      rw [List.foldl_cons, ih, mem_keys_insert, List.map_cons, List.mem_cons]
      tauto
  rw [ofList, hfold]
  exact or_iff_right List.not_mem_nil

end OrderedMap

end GraphTally.Theory
