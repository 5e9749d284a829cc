import Mathlib.Data.List.Infix
import Mathlib.Data.List.TakeWhile
import Mathlib.Tactic.Ring

/-!
Text as bytes: literals, decimal numbers as `printf` writes and a digit loop reads them,
the string at the start of a piece of memory, and the first occurrence of a word in it.
-/

namespace Lib

/-- The bytes of a literal. -/
def text (s : String) : List UInt8 := s.toUTF8.data.toList

/-! ## Decimal numbers -/

def isDigit (c : UInt8) : Bool := 48 ≤ c && c ≤ 57

/-- A number in decimal. -/
def decimal (n : Nat) : List UInt8 := (Nat.toDigits 10 n).map fun c => UInt8.ofNat c.toNat

/-- The number that digits stand for, behind those that stand for `acc`. -/
def decimalValue (acc : Nat) (ds : List UInt8) : Nat := ds.foldl (fun acc c => acc * 10 + (c.toNat - 48)) acc

/-- An integer in decimal, as `%d` writes it. -/
def decimalInt (i : Int) : List UInt8 := if i < 0 then 45 :: decimal i.natAbs else decimal i.natAbs

theorem toNat_digit {c : Char} (h : c.isDigit = true) :
    (UInt8.ofNat c.toNat).toNat = c.toNat ∧ 48 ≤ c.toNat ∧ c.toNat ≤ 57 := by
  obtain ⟨hlow, hhigh⟩ : 48 ≤ c.toNat ∧ c.toNat ≤ 57 := Char.isDigit_iff_toNat.mp h
  exact ⟨UInt8.toNat_ofNat_of_lt' (by simp only [UInt8.size]; omega), hlow, hhigh⟩

theorem isDigit_of_mem_decimal {n : Nat} {c : UInt8} (h : c ∈ decimal n) : isDigit c = true := by
  obtain ⟨d, hd, rfl⟩ := List.mem_map.mp h
  obtain ⟨heq, hlow, hhigh⟩ := toNat_digit (Nat.isDigit_of_mem_toDigits (by decide) (by decide) hd)
  rw [isDigit, Bool.and_eq_true, decide_eq_true_eq, decide_eq_true_eq, UInt8.le_iff_toNat_le, UInt8.le_iff_toNat_le, heq]
  exact ⟨hlow, hhigh⟩

/-- **A number is what its digits stand for.** -/
theorem decimalValue_decimal (n : Nat) : decimalValue 0 (decimal n) = n := by
  have hfold : ∀ (ds : List Char) (acc : Nat), (∀ d ∈ ds, d.isDigit = true) →
      decimalValue acc (ds.map fun c => UInt8.ofNat c.toNat) = Nat.ofDigitChars 10 ds acc := by
    intro ds
    induction ds with
    | nil => intro acc _; rw [Nat.ofDigitChars_nil]; rfl
    | cons d ds ih =>
      intro acc hds
      have hd := (toNat_digit (hds d List.mem_cons_self)).1
      rw [Nat.ofDigitChars_cons, ← ih _ fun x hx => hds x (List.mem_cons_of_mem _ hx), Nat.mul_comm]
      simp only [decimalValue, List.map_cons, List.foldl_cons, hd]
      rfl
  rw [decimal, hfold _ _ fun d hd => Nat.isDigit_of_mem_toDigits (by decide) (by decide) hd,
    Nat.ofDigitChars_ten_toDigits]

theorem length_decimal_le {n k : Nat} (hk : 0 < k) (h : n < 10 ^ k) : (decimal n).length ≤ k := by
  rw [decimal, List.length_map]
  exact (Nat.length_toDigits_le_iff (by decide) hk).mpr h

/-! ## Words in texts -/

section Occurrence

variable {α : Type} [DecidableEq α]

/-- Where a word first occurs in a text. -/
def firstOccurrence (w : List α) : List α → Option Nat
  | [] => if w = [] then some 0 else none
  | x :: xs => if w <+: x :: xs then some 0 else (firstOccurrence w xs).map (· + 1)

variable {w xs : List α}

theorem firstOccurrence_isSome : (firstOccurrence w xs).isSome = true ↔ w <:+: xs := by
  induction xs with
  | nil => by_cases h : w = [] <;> simp [firstOccurrence, h]
  | cons x xs ih =>
    rw [firstOccurrence, List.infix_cons_iff]
    split
    · rename_i h
      simp [h]
    · rename_i h
      simp [h, ih]

/-- The word is found where it first occurs. -/
theorem prefix_of_firstOccurrence {i : Nat} (h : firstOccurrence w xs = some i) : w <+: xs.drop i := by
  induction xs generalizing i with
  | nil =>
    by_cases hw : w = []
    · rw [hw]
      exact List.nil_prefix
    · simp [firstOccurrence, hw] at h
  | cons x xs ih =>
    rw [firstOccurrence] at h
    split at h
    · rename_i hpre
      cases h
      exact hpre
    · obtain ⟨j, hj, rfl⟩ := Option.map_eq_some_iff.mp h
      exact ih hj

/-- It stays the first one in a longer text. -/
theorem firstOccurrence_append {i : Nat} (h : firstOccurrence w xs = some i) (ys : List α) :
    firstOccurrence w (xs ++ ys) = some i := by
  induction xs generalizing i with
  | nil =>
    by_cases hw : w = []
    · subst hw
      simp only [firstOccurrence, ↓reduceIte] at h
      cases ys <;> simpa [firstOccurrence] using h
    · simp [firstOccurrence, hw] at h
  | cons x xs ih =>
    rw [firstOccurrence] at h
    rw [List.cons_append, firstOccurrence]
    split at h
    · rename_i hpre
      have hlonger : w <+: x :: (xs ++ ys) := hpre.trans (List.prefix_append (x :: xs) ys)
      rw [if_pos hlonger]
      exact h
    · rename_i hpre
      obtain ⟨j, hj, rfl⟩ := Option.map_eq_some_iff.mp h
      have hlen : w.length ≤ (x :: xs).length := by
        have hinf := firstOccurrence_isSome.mp (Option.isSome_iff_exists.mpr ⟨j, hj⟩)
        have hle := hinf.length_le
        rw [List.length_cons]
        omega
      have hnot : ¬ w <+: x :: (xs ++ ys) := by
        intro hw
        exact hpre (List.prefix_of_prefix_length_le hw (List.prefix_append (x :: xs) ys) hlen)
      rw [if_neg hnot, ih hj]
      rfl

end Occurrence

end Lib
