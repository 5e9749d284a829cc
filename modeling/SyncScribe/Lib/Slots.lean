import Mathlib.Data.Fintype.Card
import Mathlib.Data.Fintype.Option
import Mathlib.Data.List.FinRange

/-!
Fixed tables of slots.

`first` is the search loop every such table has: the lowest index that passes a
test; `number` counts the indices that do. `Holds`, `Distinct` and `count` read an
array of optional pointers as a set: storing into a hole adds one element
(`holds_store`), clearing an entry of a duplicate-free array removes one
(`holds_clear`), and an array with as many entries as there are pointers always has
a hole for a missing one (`exists_hole`).
-/

namespace Lib.Slots

variable {n : Nat}

/-- The lowest index that passes the test. -/
def first (p : Fin n → Bool) : Option (Fin n) := (List.finRange n).find? p

theorem first_some {p : Fin n → Bool} {i : Fin n} (h : first p = some i) : p i = true :=
  List.find?_some h

theorem first_eq_none {p : Fin n → Bool} : first p = none ↔ ∀ i, p i = false := by
  simp [first, List.find?_eq_none]

theorem exists_first {p : Fin n → Bool} {i : Fin n} (h : p i = true) : ∃ j, first p = some j := by
  cases hf : first p with
  | none => simp [first_eq_none.mp hf i] at h
  | some j => exact ⟨j, rfl⟩

/-- When only one index passes the test, it is the one found. -/
theorem first_eq_some_of_unique {p : Fin n → Bool} {i : Fin n} (h : p i = true)
    (hu : ∀ j, p j = true → j = i) : first p = some i := by
  obtain ⟨j, hj⟩ := exists_first h
  rw [hj, hu j (first_some hj)]

/-- What holds of all slots and of what is stored into one. -/
theorem forall_update {V : Type} {t : Fin n → V} {i : Fin n} {v : V} {P : V → Prop} (h : ∀ j, P (t j)) (hv : P v)
    (j : Fin n) : P (Function.update t i v j) :=
  (Function.forall_update_iff t fun _ x => P x).mpr ⟨hv, fun j _ => h j⟩ j

/-! ## Counting slots -/

section Number

variable {p q : Fin n → Bool} {i : Fin n}

/-- The number of slots that pass the test. -/
def number (p : Fin n → Bool) : Nat := (Finset.univ.filter fun i => p i = true).card

theorem number_le (p : Fin n → Bool) : number p ≤ n := by
  have h := Finset.card_filter_le (Finset.univ : Finset (Fin n)) fun i => p i = true
  simpa [number] using h

theorem number_eq_zero (h : ∀ i, p i = false) : number p = 0 := by
  simp [number, h]

/-- One more slot passes. -/
theorem number_succ (hp : p i = false) (hq : q i = true) (h : ∀ j, j ≠ i → q j = p j) :
    number q = number p + 1 := by
  have hset : (Finset.univ.filter fun j => q j = true) = insert i (Finset.univ.filter fun j => p j = true) := by
    ext j
    by_cases hj : j = i
    · subst hj
      simp [hq]
    · simp [hj, h j hj]
  rw [number, hset, Finset.card_insert_of_notMem (by simp [hp]), number]

/-- Fewer than all, when some slot does not pass. -/
theorem number_lt_iff : number p < n ↔ ∃ i, p i = false := by
  have hall : number p = n ↔ ∀ i, p i = true := by
    have huniv := Finset.card_eq_iff_eq_univ (Finset.univ.filter fun i => p i = true)
    rw [Fintype.card_fin] at huniv
    rw [number, huniv, Finset.filter_eq_self]
    simp
  have hle := number_le p
  rw [lt_iff_le_and_ne, and_iff_right hle, ne_eq, hall]
  simp

theorem number_eq_length (p : Fin n → Bool) : number p = ((List.finRange n).filter p).length := by
  have hnd := (List.nodup_finRange n).filter p
  have hset : (Finset.univ.filter fun i => p i = true) = ((List.finRange n).filter p).toFinset := by
    ext j
    simp
  rw [number, hset, List.toFinset_card_of_nodup hnd]

end Number

/-! ## Arrays of pointers as sets -/

section Pointers

variable {α : Type} {t : Fin n → Option α} {i : Fin n} {a b : α}

/-- Some entry points to `a`. -/
def Holds (t : Fin n → Option α) (a : α) : Prop := ∃ i, t i = some a

/-- No two entries point to the same thing. -/
def Distinct (t : Fin n → Option α) : Prop := ∀ i j a, t i = some a → t j = some a → i = j

/-- The number of entries in use. -/
def count (t : Fin n → Option α) : Nat := (Finset.univ.filter fun i => (t i).isSome = true).card

instance [DecidableEq α] (t : Fin n → Option α) (a : α) : Decidable (Holds t a) :=
  inferInstanceAs (Decidable (∃ i, t i = some a))

theorem not_holds_empty (a : α) : ¬ Holds (fun _ : Fin n => none) a := by
  rintro ⟨i, h⟩
  cases h

theorem distinct_empty : Distinct (fun _ : Fin n => (none : Option α)) := by
  intro i j a h
  cases h

@[simp] theorem count_empty : count (fun _ : Fin n => (none : Option α)) = 0 := by
  simp [count]

theorem holds_store (h : t i = none) :
    Holds (Function.update t i (some a)) b ↔ b = a ∨ Holds t b := by
  constructor
  · rintro ⟨j, hj⟩
    by_cases hji : j = i
    · subst hji
      rw [Function.update_self] at hj
      exact Or.inl (Option.some.inj hj).symm
    · rw [Function.update_of_ne hji] at hj
      exact Or.inr ⟨j, hj⟩
  · rintro (rfl | ⟨j, hj⟩)
    · exact ⟨i, Function.update_self ..⟩
    · have hji : j ≠ i := by
        rintro rfl
        rw [h] at hj
        cases hj
      exact ⟨j, by rw [Function.update_of_ne hji]; exact hj⟩

theorem distinct_store (hd : Distinct t) (ha : ¬ Holds t a) :
    Distinct (Function.update t i (some a)) := by
  intro j k b hj hk
  by_cases hji : j = i <;> by_cases hki : k = i
  · rw [hji, hki]
  · subst hji
    rw [Function.update_self] at hj
    rw [Function.update_of_ne hki] at hk
    exact absurd ⟨k, hj ▸ hk⟩ ha
  · subst hki
    rw [Function.update_self] at hk
    rw [Function.update_of_ne hji] at hj
    exact absurd ⟨j, hk ▸ hj⟩ ha
  · rw [Function.update_of_ne hji] at hj
    rw [Function.update_of_ne hki] at hk
    exact hd j k b hj hk

theorem count_store (h : t i = none) : count (Function.update t i (some a)) = count t + 1 := by
  have hset : (Finset.univ.filter fun j => (Function.update t i (some a) j).isSome = true) =
      insert i (Finset.univ.filter fun j => (t j).isSome = true) := by
    ext j
    by_cases hji : j = i
    · subst hji; simp
    · simp [hji]
  rw [count, hset, Finset.card_insert_of_notMem (by simp [h]), count]

theorem holds_clear (hd : Distinct t) (h : t i = some a) :
    Holds (Function.update t i none) b ↔ b ≠ a ∧ Holds t b := by
  constructor
  · rintro ⟨j, hj⟩
    have hji : j ≠ i := by
      rintro rfl
      rw [Function.update_self] at hj
      cases hj
    rw [Function.update_of_ne hji] at hj
    refine ⟨?_, j, hj⟩
    rintro rfl
    exact hji (hd j i b hj h)
  · rintro ⟨hne, j, hj⟩
    have hji : j ≠ i := by
      rintro rfl
      rw [h] at hj
      exact hne (Option.some.inj hj).symm
    exact ⟨j, by rw [Function.update_of_ne hji]; exact hj⟩

theorem distinct_clear (hd : Distinct t) : Distinct (Function.update t i none) := by
  intro j k b hj hk
  have key : ∀ {m}, Function.update t i none m = some b → t m = some b := by
    intro m hm
    by_cases hmi : m = i
    · subst hmi; simp at hm
    · rwa [Function.update_of_ne hmi] at hm
  exact hd j k b (key hj) (key hk)

theorem count_clear (h : t i = some a) : count (Function.update t i none) + 1 = count t := by
  have hset : (Finset.univ.filter fun j => (Function.update t i none j).isSome = true) =
      (Finset.univ.filter fun j => (t j).isSome = true).erase i := by
    ext j
    by_cases hji : j = i
    · subst hji; simp
    · simp [hji]
  rw [count, hset, Finset.card_erase_add_one (by simp [h]), count]

/-- The entries in use, in the order of the array. -/
def entries (t : Fin n → Option α) : List α := (List.finRange n).filterMap t

theorem mem_entries : a ∈ entries t ↔ Holds t a := by
  simp [entries, Holds]

theorem nodup_entries (hd : Distinct t) : (entries t).Nodup :=
  (List.nodup_finRange n).filterMap fun i j a hi hj => hd i j a hi hj

end Pointers

/-- An array that could hold every pointer has room for a missing one. -/
theorem exists_hole {t : Fin n → Option (Fin n)} {a : Fin n} (hd : Distinct t) (ha : ¬ Holds t a) :
    ∃ i, t i = none := by
  by_contra hfull
  have hsome : ∀ i, ∃ b, t i = some b := fun i =>
    Option.ne_none_iff_exists'.mp fun h => hfull ⟨i, h⟩
  choose f hf using hsome
  have hinj : Function.Injective f := fun i j hij =>
    hd i j (f i) (hf i) (by rw [hf j, hij])
  obtain ⟨i, hi⟩ := (Finite.injective_iff_surjective.mp hinj) a
  exact ha ⟨i, by rw [hf i, hi]⟩

/-- A duplicate-free array of pointers has at most as many entries in use as
there are pointers. -/
theorem count_le (t : Fin n → Option (Fin n)) : count t ≤ n := by
  have := Finset.card_filter_le (Finset.univ : Finset (Fin n)) fun i => (t i).isSome = true
  simpa [count] using this

end Lib.Slots
