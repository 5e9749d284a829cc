import SyncScribe.Types
import SyncScribe.Lib.Crc

/-!
The checksum of `syncs-crypt.c`. Its two loops are the shift register of
`Lib.Crc` at 32 bits (`crc32Loop_toBitVec`), so `crc32` is the reflected CRC-32
and notices every burst of up to 32 bits.
-/

namespace SyncScribe
open Lib Lib.Bytes

/-- `CRC32_POLYNOMIAL` -/
def crc32Polynomial : UInt32 := 0xEDB88320

/-- The inner loop of `crc32`. -/
def crc32Bits : Nat → UInt32 → UInt32
  | 0, crc => crc
  | j + 1, crc => crc32Bits j (if crc &&& 1 ≠ 0 then (crc >>> 1) ^^^ crc32Polynomial else crc >>> 1)

/-- The outer loop of `crc32`. -/
def crc32Loop : UInt32 → List UInt8 → UInt32
  | crc, [] => crc
  | crc, byte :: data => crc32Loop (crc32Bits 8 (crc ^^^ byte.toUInt32)) data

theorem crc32Loop_append (crc : UInt32) (xs ys : List UInt8) :
    crc32Loop crc (xs ++ ys) = crc32Loop (crc32Loop crc xs) ys := by
  induction xs generalizing crc with
  | nil => rfl
  | cons x xs ih => rw [List.cons_append, crc32Loop, crc32Loop, ih]

/-- `crc32` -/
def crc32 (data : List UInt8) (size : UInt16) : UInt32 := ~~~ (crc32Loop 0xFFFFFFFF (read data size.toNat))

/-- The check value of the algorithm: that of the digits 1 to 9. -/
example : crc32 [49, 50, 51, 52, 53, 54, 55, 56, 57] 9 = 0xCBF43926 := by decide +kernel

/-! ## The register -/

/-- The test `crc & 1` reads the lowest bit. -/
theorem odd_iff (crc : UInt32) : crc &&& 1 ≠ 0 ↔ crc.toBitVec.getLsbD 0 = true := by
  rw [ne_eq, ← UInt32.toBitVec_inj, UInt32.toBitVec_and]
  rw [show (1 : UInt32).toBitVec = 1#32 from rfl, BitVec.and_one_eq_setWidth_ofBool_getLsbD]
  cases crc.toBitVec.getLsbD 0 <;> decide

/-- One turn of the inner loop is one shift. -/
theorem turn_toBitVec (crc : UInt32) :
    (if crc &&& 1 ≠ 0 then (crc >>> 1) ^^^ crc32Polynomial else crc >>> 1).toBitVec =
      Crc.shift crc32Polynomial.toBitVec crc.toBitVec := by
  rw [Crc.shift]
  by_cases hbit : crc &&& 1 ≠ 0
  · rw [if_pos hbit, if_pos ((odd_iff crc).mp hbit)]
    rfl
  · rw [if_neg hbit, if_neg (mt (odd_iff crc).mpr hbit)]
    rfl

theorem crc32Bits_toBitVec (j : Nat) (crc : UInt32) :
    (crc32Bits j crc).toBitVec = Crc.shifts crc32Polynomial.toBitVec j crc.toBitVec := by
  induction j generalizing crc with
  | zero => rfl
  | succ j ih => rw [crc32Bits, ih, turn_toBitVec, Crc.shifts]

/-- The bytes as the register takes them. -/
def words (data : List UInt8) : List (BitVec 8) := data.map UInt8.toBitVec

theorem crc32Loop_toBitVec (data : List UInt8) (crc : UInt32) :
    (crc32Loop crc data).toBitVec = Crc.feedAll crc32Polynomial.toBitVec crc.toBitVec (words data) := by
  induction data generalizing crc with
  | nil => rfl
  | cons byte data ih =>
    rw [crc32Loop, ih, crc32Bits_toBitVec]
    rfl

/-- The bits of a byte string, the least significant of each byte first. -/
def bitsOf (data : List UInt8) : List Bool := Crc.messageBits (words data)

/-- **The reflected CRC-32**: the remainder of a division over GF(2), with all ones before and after. -/
noncomputable def reflectedCrc32 (data : List UInt8) : UInt32 :=
  ⟨Crc.checksum crc32Polynomial.toBitVec (BitVec.allOnes 32) (BitVec.allOnes 32) (bitsOf data)⟩

theorem complement_toBitVec (crc : UInt32) : (~~~ crc).toBitVec = crc.toBitVec ^^^ BitVec.allOnes 32 := by
  rw [UInt32.toBitVec_not, BitVec.xor_allOnes]

/-- A byte string that fits the loop's counter is read as a whole. -/
theorem crc32_whole {data : List UInt8} (h : data.length ≤ 65535) :
    (crc32 data (UInt16.ofNat data.length)).toBitVec =
      Crc.feedAll crc32Polynomial.toBitVec (BitVec.allOnes 32) (words data) ^^^ BitVec.allOnes 32 := by
  have hsize : (UInt16.ofNat data.length).toNat = data.length := UInt16.toNat_ofNat_of_lt' (Nat.lt_succ_of_le h)
  rw [crc32, complement_toBitVec, hsize, read_of_le (Nat.le_refl _), List.take_length, crc32Loop_toBitVec]
  rfl

theorem bitsOf_injective {x y : List UInt8} (hlen : x.length = y.length) (h : bitsOf x = bitsOf y) : x = y := by
  have hwords := Crc.messageBits_injective (by simpa [words] using hlen) h
  exact List.map_injective_iff.mpr (fun a b => UInt8.toBitVec_inj.mp) hwords

/-- **The checksum is CRC-32 and detects short bursts.** -/
theorem crc32_spec :
    (∀ data : List UInt8, data.length ≤ 65535 →
      crc32 data (UInt16.ofNat data.length) = reflectedCrc32 data) ∧
    ∀ x y : List UInt8, x.length ≤ 65535 → x.length = y.length → x ≠ y →
      (∃ start, ∀ i, (bitsOf x)[i]? ≠ (bitsOf y)[i]? → start ≤ i ∧ i < start + 32) →
      crc32 x (UInt16.ofNat x.length) ≠ crc32 y (UInt16.ofNat y.length) := by
  constructor
  · intro data h
    apply UInt32.toBitVec_inj.mp
    rw [crc32_whole h]
    exact Crc.feedAll_eq_checksum _ _ _ _ (by decide)
  · intro x y hx hlen hne hwindow heq
    have hburst : Crc.Burst 32 (bitsOf x) (bitsOf y) := by
      refine ⟨?_, fun hbits => hne (bitsOf_injective hlen hbits), hwindow⟩
      simp only [bitsOf, Crc.length_messageBits, words, List.length_map, hlen]
    have hlast : crc32Polynomial.toBitVec.getLsbD (32 - 1) = true := by decide
    refine Crc.burst_detected (BitVec.allOnes 32) (by decide) hlast hburst ?_
    have hbits := congrArg UInt32.toBitVec heq
    rw [crc32_whole hx, crc32_whole (hlen ▸ hx)] at hbits
    exact (BitVec.xor_left_inj (BitVec.allOnes 32)).mp hbits

/-- The nine digits, and a byte with one bit turned. -/
theorem crc32_spec_digits :
    crc32 [49, 50, 51, 52, 53, 54, 55, 56, 57] 9 = reflectedCrc32 [49, 50, 51, 52, 53, 54, 55, 56, 57] ∧
    crc32 [49, 50] 2 ≠ crc32 [49, 54] 2 := by
  refine ⟨crc32_spec.1 _ (by decide), crc32_spec.2 [49, 50] [49, 54] (by decide) rfl (by decide) ⟨8, ?_⟩⟩
  intro i hi
  by_contra hout
  apply hi
  have hcases : i < 8 ∨ 16 ≤ i := by omega
  rcases hcases with h | h
  · interval_cases i <;> rfl
  · rw [List.getElem?_eq_none (show (bitsOf [49, 50]).length ≤ i from h),
      List.getElem?_eq_none (show (bitsOf [49, 54]).length ≤ i from h)]

end SyncScribe
