import SyncScribe.Lib.Slots

/-!
Tables of keyed slots read as finite maps.

A slot whose key is not `good` is free; at most one slot carries a given good
key (`Unique`). `lookup` is the map such a table stands for. Storing into a slot,
taking a free one and freeing one are the three updates, and each is one equation
on the map (`lookup_update`, `lookup_insert`, `lookup_remove`).
-/

namespace Lib.Keyed
open Lib.Slots

variable {n : Nat} {K V : Type}

/-- No two slots carry the same good key. -/
def Unique (key : V → K) (good : K → Prop) (t : Fin n → V) : Prop :=
  ∀ i j, good (key (t i)) → key (t i) = key (t j) → i = j

/-! ## The three updates keep keys unique -/

section Unique

variable {key : V → K} {good : K → Prop} {t : Fin n → V} {i : Fin n} {v : V}

/-- The keys of a table with one slot replaced. -/
theorem key_update (key : V → K) (t : Fin n → V) (i : Fin n) (v : V) (j : Fin n) :
    key (Function.update t i v j) = if j = i then key v else key (t j) := by
  by_cases hj : j = i
  · subst hj; simp
  · simp [hj]

theorem Unique.update (hu : Unique key good t) (hkey : key v = key (t i)) :
    Unique key good (Function.update t i v) := by
  have hkeys : ∀ j, key (Function.update t i v j) = key (t j) := by
    intro j
    rw [key_update key]
    split
    · rename_i h
      rw [hkey, h]
    · rfl
  intro j k hj hjk
  rw [hkeys] at hj hjk
  rw [hkeys] at hjk
  exact hu j k hj hjk

theorem Unique.insert (hu : Unique key good t) (hnew : ∀ j, key (t j) ≠ key v) :
    Unique key good (Function.update t i v) := by
  intro j m hj hjm
  simp only [key_update key] at hj hjm
  by_cases hji : j = i <;> by_cases hmi : m = i
  · rw [hji, hmi]
  · simp only [hji, hmi, ↓reduceIte] at hjm
    exact absurd hjm.symm (hnew m)
  · simp only [hji, hmi, ↓reduceIte] at hjm
    exact absurd hjm (hnew j)
  · simp only [hji, hmi, ↓reduceIte] at hj hjm
    exact hu j m hj hjm

theorem Unique.remove (hu : Unique key good t) (hbad : ¬ good (key v)) :
    Unique key good (Function.update t i v) := by
  intro j m hj hjm
  simp only [key_update key] at hj hjm
  have hji : j ≠ i := by
    rintro rfl
    simp only [↓reduceIte] at hj
    exact hbad hj
  have hmi : m ≠ i := by
    rintro rfl
    simp only [hji, ↓reduceIte] at hj hjm
    exact hbad (hjm ▸ hj)
  simp only [hji, hmi, ↓reduceIte] at hj hjm
  exact hu j m hj hjm

/-- A change of every entry that keeps the keys. -/
theorem Unique.map (hu : Unique key good t) {f : V → V} (hf : ∀ v, key (f v) = key v) :
    Unique key good fun i => f (t i) := by
  intro i j hi hij
  rw [hf] at hi
  rw [hf, hf] at hij
  exact hu i j hi hij

end Unique

/-! ## The map of a table -/

variable [DecidableEq K]

/-- The entry of a good key. -/
def lookup (key : V → K) (good : K → Prop) [DecidablePred good] (t : Fin n → V) (k : K) : Option V :=
  if good k then (first fun i => decide (key (t i) = k)).map t else none

variable {key : V → K} {good : K → Prop} [DecidablePred good] {t : Fin n → V} {i : Fin n} {k : K} {v : V}

theorem lookup_eq_none : lookup key good t k = none ↔ (good k → ∀ i, key (t i) ≠ k) := by
  unfold lookup
  split
  · rename_i hg
    simp [hg, first_eq_none]
  · rename_i hg
    simp [hg]

theorem lookup_eq_some (hu : Unique key good t) :
    lookup key good t k = some v ↔ good k ∧ ∃ i, key (t i) = k ∧ t i = v := by
  unfold lookup
  split
  · rename_i hg
    simp only [Option.map_eq_some_iff, hg, true_and]
    constructor
    · rintro ⟨i, hi, rfl⟩
      exact ⟨i, by simpa using first_some hi, rfl⟩
    · rintro ⟨i, rfl, rfl⟩
      refine ⟨i, first_eq_some_of_unique (by simp) ?_, rfl⟩
      intro j hj
      have hkey : key (t j) = key (t i) := by simpa using hj
      exact hu j i (by rw [hkey]; exact hg) hkey
  · rename_i hg
    simp [hg]

theorem lookup_self (hu : Unique key good t) (hg : good (key (t i))) :
    lookup key good t (key (t i)) = some (t i) :=
  (lookup_eq_some hu).mpr ⟨hg, i, rfl, rfl⟩

theorem good_of_lookup (h : lookup key good t k = some v) : good k := by
  by_contra hg
  simp [lookup, hg] at h

theorem key_of_lookup (h : lookup key good t k = some v) : key v = k := by
  have hg := good_of_lookup h
  simp only [lookup, hg, ↓reduceIte, Option.map_eq_some_iff] at h
  obtain ⟨i, hi, rfl⟩ := h
  simpa using first_some hi

/-- Two tables are the same map at a key when they have the same entries there. -/
theorem lookup_ext {t t' : Fin n → V} (hu : Unique key good t) (hu' : Unique key good t')
    (h : good k → ∀ v, (∃ i, key (t i) = k ∧ t i = v) ↔ ∃ i, key (t' i) = k ∧ t' i = v) :
    lookup key good t k = lookup key good t' k := by
  apply Option.ext
  intro v
  rw [lookup_eq_some hu, lookup_eq_some hu']
  exact and_congr_right fun hg => h hg v

/-- The other keys do not notice a store, provided the slot carries none of them. -/
theorem lookup_update_of_ne (hu : Unique key good t) (hu' : Unique key good (Function.update t i v))
    (hnew : good k → key v ≠ k) (hold : good k → key (t i) ≠ k) :
    lookup key good (Function.update t i v) k = lookup key good t k := by
  refine lookup_ext hu' hu fun hg w => ?_
  constructor
  · rintro ⟨j, hj, hw⟩
    have hji : j ≠ i := by
      rintro rfl
      rw [Function.update_self] at hj
      exact hnew hg hj
    rw [Function.update_of_ne hji] at hj hw
    exact ⟨j, hj, hw⟩
  · rintro ⟨j, hj, hw⟩
    have hji : j ≠ i := by
      rintro rfl
      exact hold hg hj
    exact ⟨j, by rwa [Function.update_of_ne hji], by rwa [Function.update_of_ne hji]⟩

theorem lookup_update_self (hu : Unique key good (Function.update t i v)) (hg : good (key v)) :
    lookup key good (Function.update t i v) (key v) = some v :=
  (lookup_eq_some hu).mpr ⟨hg, i, by simp, by simp⟩

/-- A store that keeps the key of its slot. -/
theorem lookup_update (hu : Unique key good t) (hkey : key v = key (t i)) :
    lookup key good (Function.update t i v) k =
      if good k ∧ k = key v then some v else lookup key good t k := by
  split
  · rename_i h
    obtain ⟨hg, rfl⟩ := h
    exact lookup_update_self (hu.update hkey) hg
  · rename_i h
    refine lookup_update_of_ne hu (hu.update hkey) (fun hg hk => h ⟨hg, hk.symm⟩) ?_
    intro hg hk
    exact h ⟨hg, (hkey.trans hk).symm⟩

/-- Taking a free slot for a new key. -/
theorem lookup_insert (hu : Unique key good t) (hfree : ¬ good (key (t i)))
    (hnew : ∀ j, key (t j) ≠ key v) :
    lookup key good (Function.update t i v) k =
      if good k ∧ k = key v then some v else lookup key good t k := by
  split
  · rename_i h
    obtain ⟨hg, rfl⟩ := h
    exact lookup_update_self (hu.insert hnew) hg
  · rename_i h
    refine lookup_update_of_ne hu (hu.insert hnew) (fun hg hk => h ⟨hg, hk.symm⟩) ?_
    rintro hg rfl
    exact hfree hg

/-- Marking a slot free. -/
theorem lookup_remove (hu : Unique key good t) (hbad : ¬ good (key v)) :
    lookup key good (Function.update t i v) k =
      if k = key (t i) then none else lookup key good t k := by
  split
  · rename_i h
    subst h
    rw [lookup_eq_none]
    intro hg j hj
    have hji : j ≠ i := by
      rintro rfl
      rw [Function.update_self] at hj
      exact hbad (hj ▸ hg)
    rw [Function.update_of_ne hji] at hj
    exact hji (hu j i (by rw [hj]; exact hg) hj)
  · rename_i h
    refine lookup_update_of_ne hu (hu.remove hbad) ?_ (fun _ hk => h hk.symm)
    rintro hg rfl
    exact hbad hg

theorem lookup_map {f : V → V} (hf : ∀ v, key (f v) = key v) :
    lookup key good (fun i => f (t i)) k = (lookup key good t k).map f := by
  unfold lookup
  simp only [hf]
  split
  · rw [Option.map_map]
    rfl
  · rfl

end Lib.Keyed
