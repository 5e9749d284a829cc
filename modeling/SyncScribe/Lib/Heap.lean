import Mathlib.Logic.Function.Basic
import SyncScribe.Lib.Run

/-!
Who owns the memory behind a pointer. A program keeps pointers in cells, to memory it
has allocated and to memory of its caller's. As long as every allocation is held by one
cell at most, and a cell is emptied when its memory is freed, nothing is freed twice;
memory of the caller's is another matter (`Held.mayFree_iff`).
-/

namespace Lib

/-- A pointer: to the caller's memory, of which `υ` says what is known, or to the `n`-th allocation. -/
inductive Pointer (υ : Type)
  | foreign (u : υ)
  | own (n : Nat)
  deriving DecidableEq

/-- What `malloc` and `free` have done so far. -/
structure Heap where
  next : Nat
  freed : List Nat

/-- `malloc`, which returns the allocation `h.next`. -/
def Heap.malloc (h : Heap) : Heap := { h with next := h.next + 1 }

/-- The `n`-th allocation is there to be used. -/
def Heap.Owns (h : Heap) (n : Nat) : Prop := n < h.next ∧ n ∉ h.freed

instance (h : Heap) (n : Nat) : Decidable (h.Owns n) := inferInstanceAs (Decidable (_ ∧ _))

section Held

variable {κ υ : Type}

/-- `free` of a pointer. What it does to memory of the caller's is not said. -/
def Heap.free (h : Heap) : Pointer υ → Heap
  | .foreign _ => h
  | .own n => { h with freed := n :: h.freed }

/-- The pointer is one that may be freed. -/
def Heap.MayFree (h : Heap) : Pointer υ → Prop
  | .foreign _ => False
  | .own n => h.Owns n

instance (h : Heap) : (p : Pointer υ) → Decidable (h.MayFree p)
  | .foreign _ => inferInstanceAs (Decidable False)
  | .own n => inferInstanceAs (Decidable (h.Owns n))

/-- The cells hold allocations that are there to be used, no two of them the same one. -/
structure Held (h : Heap) (cells : κ → Option (Pointer υ)) : Prop where
  bound : ∀ n ∈ h.freed, n < h.next
  owns : ∀ k n, cells k = some (.own n) → h.Owns n
  distinct : ∀ j k n, cells j = some (.own n) → cells k = some (.own n) → j = k

variable {h : Heap} {cells : κ → Option (Pointer υ)} {k : κ}

theorem held_empty : Held ⟨0, []⟩ (fun _ : κ => (none : Option (Pointer υ))) where
  bound := by simp
  owns := by simp
  distinct := by simp

theorem free_malloc (h : Heap) (p : Pointer υ) : h.malloc.free p = (h.free p).malloc := by
  cases p <;> rfl

@[simp] theorem free_next (h : Heap) (p : Pointer υ) : (h.free p).next = h.next := by
  cases p <;> rfl

/-- The memory of a cell may be freed exactly when it is not the caller's. -/
theorem Held.mayFree_iff (hh : Held h cells) {p : Pointer υ} (hp : cells k = some p) :
    h.MayFree p ↔ ∀ u, p ≠ .foreign u := by
  cases p with
  | foreign u =>
    constructor
    · intro hfalse
      exact hfalse.elim
    · intro hne
      exact absurd rfl (hne u)
  | own n =>
    constructor
    · intro _ u he
      cases he
    · intro _
      exact hh.owns k n hp

/-- An allocation that no cell holds yet. -/
theorem Held.malloc (hh : Held h cells) : Held h.malloc cells where
  bound := fun n hn => Nat.lt_succ_of_lt (hh.bound n hn)
  owns := fun k n hk => ⟨Nat.lt_succ_of_lt (hh.owns k n hk).1, (hh.owns k n hk).2⟩
  distinct := hh.distinct

variable [DecidableEq κ]

/-- A cell emptied after its memory was freed. -/
theorem Held.free (hh : Held h cells) {p : Pointer υ} (hp : cells k = some p) :
    Held (h.free p) (Function.update cells k none) := by
  have hother : ∀ j n, Function.update cells k none j = some (.own n) → j ≠ k ∧ cells j = some (.own n) := by
    intro j n hj
    by_cases hjk : j = k
    · rw [hjk, Function.update_self] at hj
      cases hj
    · rw [Function.update_of_ne hjk] at hj
      exact ⟨hjk, hj⟩
  constructor
  · intro n hn
    cases p with
    | foreign u => exact hh.bound n hn
    | own m =>
      rcases List.mem_cons.mp hn with rfl | hn
      · exact (hh.owns k n hp).1
      · exact hh.bound n hn
  · intro j n hj
    obtain ⟨hjk, hj⟩ := hother j n hj
    obtain ⟨hlt, hnot⟩ := hh.owns j n hj
    cases p with
    | foreign u => exact ⟨hlt, hnot⟩
    | own m =>
      refine ⟨hlt, ?_⟩
      intro hmem
      rcases List.mem_cons.mp hmem with rfl | hmem
      · exact hjk (hh.distinct j k n hj hp)
      · exact hnot hmem
  · intro i j n hi hj
    exact hh.distinct i j n (hother i n hi).2 (hother j n hj).2

/-- A cell emptied, or filled with memory of the caller's. -/
theorem Held.put (hh : Held h cells) (k : κ) {p : Option (Pointer υ)} (hp : ∀ n, p ≠ some (.own n)) :
    Held h (Function.update cells k p) := by
  have hother : ∀ j n, Function.update cells k p j = some (.own n) → cells j = some (.own n) := by
    intro j n hj
    by_cases hjk : j = k
    · rw [hjk, Function.update_self] at hj
      exact absurd hj (hp n)
    · rwa [Function.update_of_ne hjk] at hj
  exact ⟨hh.bound, fun j n hj => hh.owns j n (hother j n hj),
    fun i j n hi hj => hh.distinct i j n (hother i n hi) (hother j n hj)⟩

/-- A cell filled with what `malloc` has just returned. -/
theorem Held.putNew (hh : Held h cells) (k : κ) :
    Held h.malloc (Function.update cells k (some (.own h.next))) := by
  have hold : ∀ j n, cells j = some (.own n) → n < h.next := fun j n hj => (hh.owns j n hj).1
  have hcases : ∀ j n, Function.update cells k (some (.own h.next)) j = some (.own n) →
      (j = k ∧ n = h.next) ∨ (j ≠ k ∧ cells j = some (.own n)) := by
    intro j n hj
    by_cases hjk : j = k
    · rw [hjk, Function.update_self] at hj
      cases hj
      exact Or.inl ⟨hjk, rfl⟩
    · rw [Function.update_of_ne hjk] at hj
      exact Or.inr ⟨hjk, hj⟩
  constructor
  · intro n hn
    exact Nat.lt_succ_of_lt (hh.bound n hn)
  · intro j n hj
    rcases hcases j n hj with ⟨_, rfl⟩ | ⟨_, hj⟩
    · exact ⟨Nat.lt_succ_self _, fun hmem => Nat.lt_irrefl _ (hh.bound _ hmem)⟩
    · exact ⟨Nat.lt_succ_of_lt (hold j n hj), (hh.owns j n hj).2⟩
  · intro i j n hi hj
    rcases hcases i n hi with ⟨rfl, rfl⟩ | ⟨_, hi⟩
    · rcases hcases j _ hj with ⟨rfl, _⟩ | ⟨_, hj⟩
      · rfl
      · exact absurd (hold j _ hj) (Nat.lt_irrefl _)
    · rcases hcases j n hj with ⟨_, rfl⟩ | ⟨_, hj⟩
      · exact absurd (hold i _ hi) (Nat.lt_irrefl _)
      · exact hh.distinct i j n hi hj

end Held

end Lib
