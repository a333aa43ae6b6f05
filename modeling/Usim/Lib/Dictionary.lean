import Mathlib.Data.List.Nodup
import Mathlib.Logic.Basic
import Mathlib.Tactic.TypeStar

/-!
# Dictionaries

A dictionary lists its entries in the order in which their keys came. Two keys are the same if
`fold` takes them to the same value; the key that came first is kept.
-/

namespace Lib

variable {K F V : Type*} [DecidableEq F] {fold : K → F}

/-- The value of a key. -/
def findEntry (fold : K → F) : List (K × V) → K → Option V
  | [], _ => none
  | (key, value) :: entries, k => if fold key = fold k then some value else findEntry fold entries k

/-- A key gets a value. -/
def assignEntry (fold : K → F) : List (K × V) → K → V → List (K × V)
  | [], k, v => [(k, v)]
  | (key, value) :: entries, k, v =>
    if fold key = fold k then (key, v) :: entries
    else (key, value) :: assignEntry fold entries k v

/-- The keys, as they are compared. -/
def folds (fold : K → F) (entries : List (K × V)) : List F := entries.map fun e => fold e.1

/-- Assigning leaves the keys, or adds one that was not there. -/
theorem folds_assignEntry (entries : List (K × V)) (k : K) (v : V) :
    folds fold (assignEntry fold entries k v) =
      if fold k ∈ folds fold entries then folds fold entries
      else folds fold entries ++ [fold k] := by
  induction entries with
  | nil => rfl
  | cons e entries ih =>
    rw [assignEntry]
    by_cases he : fold e.1 = fold k
    · rw [if_pos he, folds, List.map_cons, if_pos]
      · rfl
      · rw [← he]
        exact List.mem_cons_self
    · rw [if_neg he]
      change fold e.1 :: folds fold (assignEntry fold entries k v) = _
      rw [ih]
      have hmem : fold k ∈ folds fold (e :: entries) ↔ fold k ∈ folds fold entries := by
        change fold k ∈ fold e.1 :: folds fold entries ↔ _
        rw [List.mem_cons, or_iff_right fun h => he h.symm]
      by_cases hk : fold k ∈ folds fold entries
      · rw [if_pos hk, if_pos (hmem.mpr hk)]
        rfl
      · rw [if_neg hk, if_neg fun h => hk (hmem.mp h)]
        rfl

/-- A dictionary has no key twice. -/
structure Dictionary (fold : K → F) (V : Type*) where
  entries : List (K × V)
  distinct : (folds fold entries).Nodup

namespace Dictionary

/-- Nothing is in it. -/
def empty : Dictionary fold V := ⟨[], List.nodup_nil⟩

/-- The value of a key. -/
def find (d : Dictionary fold V) (k : K) : Option V := findEntry fold d.entries k

/-- A key gets a value. -/
def assign (d : Dictionary fold V) (k : K) (v : V) : Dictionary fold V where
  entries := assignEntry fold d.entries k v
  distinct := by
    rw [folds_assignEntry]
    split
    · exact d.distinct
    · rename_i hk
      rw [List.nodup_append]
      refine ⟨d.distinct, List.nodup_singleton _, fun a ha b hb => ?_⟩
      rw [List.mem_singleton] at hb
      rintro rfl
      exact hk (hb ▸ ha)

variable {d : Dictionary fold V} {k k' : K} {v v' : V}

@[simp] theorem find_empty (k : K) : (empty : Dictionary fold V).find k = none := rfl

/-- What is found is an entry with the same key. -/
theorem mem_of_find (h : d.find k = some v) : ∃ key, fold key = fold k ∧ (key, v) ∈ d.entries := by
  unfold find at h
  generalize d.entries = entries at h ⊢
  induction entries with
  | nil => cases h
  | cons e entries ih =>
    change (if fold e.1 = fold k then some e.2 else findEntry fold entries k) = some v at h
    by_cases he : fold e.1 = fold k
    · rw [if_pos he] at h
      cases h
      exact ⟨e.1, he, List.mem_cons_self⟩
    · rw [if_neg he] at h
      obtain ⟨key, hkey, hmem⟩ := ih h
      exact ⟨key, hkey, List.mem_cons_of_mem e hmem⟩

/-- An entry is found. -/
theorem find_of_mem (h : (k, v) ∈ d.entries) : d.find k = some v := by
  obtain ⟨entries, hdistinct⟩ := d
  unfold find
  induction entries with
  | nil => cases h
  | cons e entries ih =>
    have hdistinct : (fold e.1 :: folds fold entries).Nodup := hdistinct
    rw [List.nodup_cons] at hdistinct
    change (if fold e.1 = fold k then some e.2 else findEntry fold entries k) = some v
    obtain rfl | h := List.mem_cons.mp h
    · rw [if_pos rfl]
    · have hne : fold e.1 ≠ fold k := fun he =>
        hdistinct.1 (he ▸ List.mem_map_of_mem (f := fun e : K × V => fold e.1) h)
      rw [if_neg hne]
      exact ih hdistinct.2 h

/-- The same key has the same value. -/
theorem find_congr (h : fold k = fold k') : d.find k = d.find k' := by
  unfold find
  generalize d.entries = entries
  induction entries with
  | nil => rfl
  | cons e entries ih => rw [findEntry, findEntry, h, ih]

/-- A key that gets a value has it. -/
theorem find_assign_self (d : Dictionary fold V) (k : K) (v : V) :
    (d.assign k v).find k = some v := by
  change findEntry fold (assignEntry fold d.entries k v) _ = _
  generalize d.entries = entries
  induction entries with
  | nil => exact if_pos rfl
  | cons e entries ih =>
    change findEntry fold (if fold e.1 = fold k then _ else _) k = _
    by_cases he : fold e.1 = fold k
    · rw [if_pos he, findEntry, if_pos he]
    · rw [if_neg he, findEntry, if_neg he]
      exact ih

/-- The other keys keep their values. -/
theorem find_assign_of_ne (d : Dictionary fold V) (h : fold k ≠ fold k') (v : V) :
    (d.assign k v).find k' = d.find k' := by
  change findEntry fold (assignEntry fold d.entries k v) k' = findEntry fold d.entries k'
  generalize d.entries = entries
  induction entries with
  | nil => exact if_neg h
  | cons e entries ih =>
    change findEntry fold (if fold e.1 = fold k then _ else _) k' = findEntry fold (e :: entries) k'
    by_cases he : fold e.1 = fold k
    · have hne : fold e.1 ≠ fold k' := he ▸ h
      rw [if_pos he, findEntry, findEntry, if_neg hne, if_neg hne]
    · rw [if_neg he, findEntry, findEntry, ih]

/-- An entry after an assignment was there, or it has the value and an old key or the new one. -/
theorem mem_assign (h : (k', v') ∈ (d.assign k v).entries) :
    (k', v') ∈ d.entries ∨ v' = v ∧ (k' = k ∨ ∃ v₀, (k', v₀) ∈ d.entries) := by
  change (k', v') ∈ assignEntry fold d.entries k v at h
  generalize d.entries = entries at h ⊢
  induction entries with
  | nil =>
    cases List.mem_singleton.mp h
    exact .inr ⟨rfl, .inl rfl⟩
  | cons e entries ih =>
    change (k', v') ∈ (if fold e.1 = fold k then _ else _) at h
    by_cases he : fold e.1 = fold k
    · rw [if_pos he] at h
      obtain heq | h := List.mem_cons.mp h
      · cases heq
        exact .inr ⟨rfl, .inr ⟨e.2, List.mem_cons_self⟩⟩
      · exact .inl (List.mem_cons_of_mem e h)
    · rw [if_neg he] at h
      obtain heq | h := List.mem_cons.mp h
      · cases heq
        exact .inl List.mem_cons_self
      · obtain h | ⟨rfl, rfl | ⟨v₀, h⟩⟩ := ih h
        · exact .inl (List.mem_cons_of_mem e h)
        · exact .inr ⟨rfl, .inl rfl⟩
        · exact .inr ⟨rfl, .inr ⟨v₀, List.mem_cons_of_mem e h⟩⟩

end Dictionary

end Lib
