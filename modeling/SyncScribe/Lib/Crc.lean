import Mathlib.RingTheory.AdjoinRoot
import Mathlib.Algebra.CharP.Two
import Mathlib.Algebra.Field.ZMod

/-!
Cyclic redundancy checks, reflected: a shift register over GF(2) and what it
computes.

A bit string is a polynomial, its first bit the highest power (`bitPoly`), and a
register is the polynomial of its bits from the lowest on. One shift multiplies by
`X` modulo the generator (`class_shift`), so the register after a message is the
remainder of a division (`bits_feedAll`). As `X` is invertible modulo the generator,
an error no longer than the register is never a multiple of it (`burst_detected`).
-/

namespace Lib.Crc
open Polynomial

/-! ## Bit strings as polynomials -/

/-- The polynomial of a bit string, its first bit the coefficient of the highest power. -/
noncomputable def bitPoly : List Bool → (ZMod 2)[X]
  | [] => 0
  | b :: bs => (if b then X ^ bs.length else 0) + bitPoly bs

theorem bitPoly_append (as bs : List Bool) : bitPoly (as ++ bs) = X ^ bs.length * bitPoly as + bitPoly bs := by
  induction as with
  | nil => simp [bitPoly]
  | cons a as ih =>
    rw [List.cons_append, bitPoly, ih, bitPoly, List.length_append, pow_add]
    split <;> ring

/-- Exclusive or is addition. -/
theorem bitPoly_xor (as bs : List Bool) (h : as.length = bs.length) :
    bitPoly (List.zipWith xor as bs) = bitPoly as + bitPoly bs := by
  induction as generalizing bs with
  | nil =>
    rw [List.length_nil] at h
    rw [List.length_eq_zero_iff.mp h.symm]
    simp [bitPoly]
  | cons a as ih =>
    cases bs with
    | nil => cases h
    | cons b bs =>
      have hlen : as.length = bs.length := Nat.succ.inj h
      have htwo := CharTwo.add_self_eq_zero (X ^ bs.length : (ZMod 2)[X])
      rw [List.zipWith_cons_cons, bitPoly, bitPoly, bitPoly, ih bs hlen, List.length_zipWith, hlen, Nat.min_self]
      cases a <;> cases b <;> simp only [Bool.xor_true, Bool.xor_false, Bool.not_true, Bool.not_false,
        Bool.false_eq_true, ↓reduceIte]
      · ring
      · ring
      · ring
      · linear_combination -htwo

theorem coeff_bitPoly (bs : List Bool) (k : Nat) :
    (bitPoly bs).coeff k = if bs.reverse.getD k false then 1 else 0 := by
  induction bs with
  | nil => simp [bitPoly]
  | cons b bs ih =>
    rw [bitPoly, coeff_add, ih, List.reverse_cons, List.getD_eq_getElem?_getD, List.getD_eq_getElem?_getD,
      List.getElem?_append, List.length_reverse]
    rcases lt_trichotomy k bs.length with hk | rfl | hk
    · rw [if_pos hk]
      have hne : ¬ k = bs.length := by omega
      cases b <;> simp [coeff_X_pow, hne]
    · cases b <;> simp
    · have hne : ¬ k = bs.length := by omega
      have hle : ¬ k < bs.length := by omega
      have hpos : k - bs.length ≠ 0 := by omega
      rw [if_neg hle, List.getElem?_singleton, if_neg hpos]
      cases b <;> simp [coeff_X_pow, hne, hk.le]

theorem degree_bitPoly_lt (bs : List Bool) : (bitPoly bs).degree < bs.length := by
  rw [degree_lt_iff_coeff_zero]
  intro k hk
  rw [coeff_bitPoly, List.getD_eq_getElem?_getD, List.getElem?_eq_none (by simpa using hk)]
  simp

/-- Bit strings of one length with the same polynomial are the same. -/
theorem bitPoly_injective {as bs : List Bool} (hlen : as.length = bs.length) (h : bitPoly as = bitPoly bs) :
    as = bs := by
  have hrev : as.reverse = bs.reverse := by
    refine List.ext_getElem (by simpa using hlen) fun k hk hk' => ?_
    have hcoeff := congrArg (fun p => p.coeff k) h
    simp only [coeff_bitPoly, List.getD_eq_getElem?_getD, List.getElem?_eq_getElem hk,
      List.getElem?_eq_getElem hk', Option.getD_some] at hcoeff
    cases ha : as.reverse[k] <;> cases hb : bs.reverse[k] <;> simp [ha, hb] at hcoeff <;> rfl
  exact List.reverse_injective hrev

theorem bitPoly_replicate_false (n : Nat) : bitPoly (List.replicate n false) = 0 := by
  induction n with
  | zero => rfl
  | succ n ih => simp [List.replicate_succ, bitPoly, ih]

/-! ## Words -/

section Words

variable {w : Nat}

/-- The bits of a word, the lowest first. -/
def bits (x : BitVec w) : List Bool := (List.range w).map x.getLsbD

@[simp] theorem length_bits (x : BitVec w) : (bits x).length = w := by simp [bits]

theorem bits_injective {x y : BitVec w} (h : bits x = bits y) : x = y := by
  refine BitVec.eq_of_getLsbD_eq fun i hi => ?_
  exact List.map_inj_left.mp h i (List.mem_range.mpr hi)

theorem bits_xor (x y : BitVec w) : bits (x ^^^ y) = List.zipWith xor (bits x) (bits y) := by
  simp only [bits, List.zipWith_map, List.zipWith_self]
  refine List.map_congr_left fun i _ => ?_
  rw [BitVec.getLsbD_xor]

theorem bitPoly_bits_xor (x y : BitVec w) : bitPoly (bits (x ^^^ y)) = bitPoly (bits x) + bitPoly (bits y) := by
  rw [bits_xor, bitPoly_xor _ _ (by simp)]

/-- A shorter word in the low bits of a longer one. -/
theorem bits_setWidth {v : Nat} (x : BitVec v) (h : v ≤ w) :
    bits (x.setWidth w) = bits x ++ List.replicate (w - v) false := by
  refine List.ext_getElem (by simp; omega) fun i hi _ => ?_
  have hiw : i < w := by simpa using hi
  rw [List.getElem_append]
  split
  · rename_i hiv
    simp [bits, hiw]
  · rename_i hiv
    have hvi : v ≤ i := by simpa using hiv
    simp [bits, BitVec.getLsbD_of_ge x i hvi]

/-- The word whose bit `i` is the coefficient of the power `w - 1 - i`. -/
noncomputable def ofPoly (w : Nat) (p : (ZMod 2)[X]) : BitVec w :=
  (BitVec.ofBoolListLE ((List.range w).map fun i => decide (p.coeff (w - 1 - i) = 1))).setWidth w

theorem ofPoly_bitPoly (x : BitVec w) : ofPoly w (bitPoly (bits x)) = x := by
  refine BitVec.eq_of_getLsbD_eq fun i hi => ?_
  have hlt : w - 1 - i < (bits x).reverse.length := by
    rw [List.length_reverse, length_bits]
    omega
  have hidx : w - 1 - (w - 1 - i) = i := by omega
  have hcoeff : (bitPoly (bits x)).coeff (w - 1 - i) = if x.getLsbD i then 1 else 0 := by
    rw [coeff_bitPoly, List.getD_eq_getElem?_getD, List.getElem?_eq_getElem hlt, Option.getD_some,
      List.getElem_reverse]
    simp only [bits, List.getElem_map, List.getElem_range, List.length_map, List.length_range, hidx]
  rw [ofPoly, BitVec.getLsbD_setWidth, BitVec.getLsbD_ofBoolListLE, List.getD_eq_getElem?_getD, List.getElem?_map,
    List.getElem?_range hi, Option.map_some, Option.getD_some, hcoeff]
  cases x.getLsbD i <;> simp [hi]

end Words

/-! ## The shift register -/

section Register

variable {w : Nat} (poly : BitVec w)

/-- One shift: the lowest bit leaves, and the generator is subtracted if it was set. -/
def shift (r : BitVec w) : BitVec w := if r.getLsbD 0 then (r >>> 1) ^^^ poly else r >>> 1

def shifts : Nat → BitVec w → BitVec w
  | 0, r => r
  | n + 1, r => shifts n (shift poly r)

/-- A byte is added to the low bits, then shifted out. -/
def feed (r : BitVec w) (byte : BitVec 8) : BitVec w := shifts poly 8 (r ^^^ byte.setWidth w)

/-- The register after a message. -/
def feedAll (r : BitVec w) (data : List (BitVec 8)) : BitVec w := data.foldl (feed poly) r

/-- The bits of a message, byte by byte, each from its lowest bit on. -/
def messageBits (data : List (BitVec 8)) : List Bool := data.flatMap bits

/-- The generator: its highest power is left out of the word. -/
noncomputable def generator : (ZMod 2)[X] := X ^ w + bitPoly (bits poly)

/-- What a message leaves in a division by the generator, the register having started with `init`. -/
noncomputable def remainder (init : BitVec w) (bs : List Bool) : (ZMod 2)[X] :=
  (X ^ bs.length * bitPoly (bits init) + X ^ w * bitPoly bs) %ₘ generator poly

/-- **The reflected checksum** of a bit string. -/
noncomputable def checksum (init final : BitVec w) (bs : List Bool) : BitVec w :=
  ofPoly w (remainder poly init bs) ^^^ final

theorem degree_word_lt (r : BitVec w) : (bitPoly (bits r)).degree < w := by
  have h := degree_bitPoly_lt (bits r)
  rwa [length_bits] at h

theorem generator_monic : (generator poly).Monic := monic_X_pow_add (degree_word_lt poly)

theorem degree_generator : (generator poly).degree = w := by
  rw [generator, degree_add_eq_left_of_degree_lt] <;> rw [degree_X_pow]
  exact degree_word_lt poly

/-- The residue class of a polynomial. -/
noncomputable abbrev residue : (ZMod 2)[X] →+* AdjoinRoot (generator poly) := AdjoinRoot.mk (generator poly)

/-- A polynomial below the generator is the remainder of every polynomial of its class. -/
theorem eq_remainder {p q : (ZMod 2)[X]} (hp : p.degree < w) (h : residue poly p = residue poly q) :
    p = q %ₘ generator poly := by
  have hself : p %ₘ generator poly = p := by
    rw [modByMonic_eq_self_iff (generator_monic poly), degree_generator]
    exact hp
  rw [← hself]
  have hdvd : generator poly ∣ p %ₘ generator poly - q %ₘ generator poly := by
    rw [hself, ← AdjoinRoot.mk_eq_mk, h, AdjoinRoot.mk_eq_mk]
    have hq := dvd_modByMonic_sub q (generator poly)
    rw [← neg_sub]
    exact (dvd_neg).mpr hq
  have hlt : (p %ₘ generator poly - q %ₘ generator poly).degree < (generator poly).degree :=
    lt_of_le_of_lt (degree_sub_le _ _)
      (max_lt (degree_modByMonic_lt p (generator_monic poly)) (degree_modByMonic_lt q (generator_monic poly)))
  exact sub_eq_zero.mp (eq_zero_of_dvd_of_degree_lt hdvd hlt)

/-- The bits of a word moved down by one. -/
theorem bits_shiftRight (r : BitVec w) (h : 0 < w) :
    bits r ++ [false] = r.getLsbD 0 :: bits (r >>> 1) := by
  obtain ⟨n, rfl⟩ := Nat.exists_eq_succ_of_ne_zero (Nat.ne_of_gt h)
  have hshift : ∀ i, (r >>> 1).getLsbD i = r.getLsbD (i + 1) := by
    intro i
    rw [BitVec.getLsbD_ushiftRight, Nat.add_comm]
  have hlast : r.getLsbD (n + 1) = false := BitVec.getLsbD_of_ge r (n + 1) (Nat.le_refl _)
  calc bits r ++ [false] = (List.range (n + 1 + 1)).map r.getLsbD := by
        rw [List.range_succ, List.map_append, bits, List.map_singleton, hlast]
    _ = r.getLsbD 0 :: bits (r >>> 1) := by
        rw [List.range_succ_eq_map, List.map_cons, List.map_map, bits]
        congr 1
        exact List.map_congr_left fun i _ => (hshift i).symm

/-- **One shift** multiplies by `X`, up to a multiple of the generator. -/
theorem bitPoly_shift (r : BitVec w) (h : 0 < w) :
    X * bitPoly (bits r) =
      bitPoly (bits (shift poly r)) + if r.getLsbD 0 then generator poly else 0 := by
  have hmul : X * bitPoly (bits r) = (if r.getLsbD 0 then X ^ w else 0) + bitPoly (bits (r >>> 1)) := by
    have hcons : bitPoly (r.getLsbD 0 :: bits (r >>> 1)) =
        (if r.getLsbD 0 then X ^ w else 0) + bitPoly (bits (r >>> 1)) := by
      rw [bitPoly, length_bits]
    rw [← hcons, ← bits_shiftRight r h, bitPoly_append]
    simp [bitPoly]
  rw [hmul, shift]
  split
  · have htwo := CharTwo.add_self_eq_zero (bitPoly (bits poly))
    rw [bitPoly_bits_xor, generator]
    linear_combination -htwo
  · simp

theorem class_shift (r : BitVec w) (h : 0 < w) :
    residue poly (bitPoly (bits (shift poly r))) = AdjoinRoot.root (generator poly) * residue poly (bitPoly (bits r)) := by
  have hshift := congrArg (residue poly) (bitPoly_shift poly r h)
  have hzero : residue poly (if r.getLsbD 0 then generator poly else 0) = 0 := by
    split
    · exact AdjoinRoot.mk_self
    · exact map_zero _
  rw [map_mul, AdjoinRoot.mk_X, map_add, hzero, add_zero] at hshift
  exact hshift.symm

theorem class_shifts (n : Nat) (r : BitVec w) (h : 0 < w) :
    residue poly (bitPoly (bits (shifts poly n r))) =
      AdjoinRoot.root (generator poly) ^ n * residue poly (bitPoly (bits r)) := by
  induction n generalizing r with
  | zero => rw [shifts, pow_zero, one_mul]
  | succ n ih => rw [shifts, ih, class_shift poly r h, pow_succ, mul_assoc]

/-- **One byte** moves the register up by eight powers and adds the byte above it. -/
theorem class_feed (r : BitVec w) (byte : BitVec 8) (h : 8 ≤ w) :
    residue poly (bitPoly (bits (feed poly r byte))) =
      AdjoinRoot.root (generator poly) ^ 8 * residue poly (bitPoly (bits r)) +
        AdjoinRoot.root (generator poly) ^ w * residue poly (bitPoly (bits byte)) := by
  have hbyte : bitPoly (bits (byte.setWidth w)) = X ^ (w - 8) * bitPoly (bits byte) := by
    rw [bits_setWidth byte h, bitPoly_append, bitPoly_replicate_false, add_zero, List.length_replicate]
  have hw : AdjoinRoot.root (generator poly) ^ w =
      AdjoinRoot.root (generator poly) ^ 8 * AdjoinRoot.root (generator poly) ^ (w - 8) := by
    rw [← pow_add, Nat.add_sub_cancel' h]
  rw [feed, class_shifts poly 8 _ (by omega), bitPoly_bits_xor, hbyte, map_add, map_mul, map_pow, AdjoinRoot.mk_X, hw]
  ring

theorem messageBits_concat (data : List (BitVec 8)) (byte : BitVec 8) :
    messageBits (data ++ [byte]) = messageBits data ++ bits byte := by
  simp [messageBits]

theorem length_messageBits (data : List (BitVec 8)) : (messageBits data).length = 8 * data.length := by
  simp only [messageBits, List.length_flatMap, length_bits, List.map_const', List.sum_replicate, smul_eq_mul]
  omega

/-- A whole message: the induction adds one byte at the end. -/
theorem class_feedAll (init : BitVec w) (data : List (BitVec 8)) (h : 8 ≤ w) :
    residue poly (bitPoly (bits (feedAll poly init data))) =
      residue poly (X ^ (messageBits data).length * bitPoly (bits init) + X ^ w * bitPoly (messageBits data)) := by
  induction data using List.reverseRecOn with
  | nil => simp [feedAll, messageBits, bitPoly]
  | append_singleton data byte ih =>
    have hlast : feedAll poly init (data ++ [byte]) = feed poly (feedAll poly init data) byte := by
      simp [feedAll]
    rw [hlast, class_feed poly _ _ h, ih, messageBits_concat, List.length_append, length_bits, bitPoly_append,
      length_bits]
    simp only [map_add, map_mul, map_pow, AdjoinRoot.mk_X]
    ring

/-- **The register after a message is the remainder.** -/
theorem bits_feedAll (init : BitVec w) (data : List (BitVec 8)) (h : 8 ≤ w) :
    bitPoly (bits (feedAll poly init data)) = remainder poly init (messageBits data) :=
  eq_remainder poly (degree_word_lt _) (class_feedAll poly init data h)

theorem feedAll_eq_checksum (init final : BitVec w) (data : List (BitVec 8)) (h : 8 ≤ w) :
    feedAll poly init data ^^^ final = checksum poly init final (messageBits data) := by
  rw [checksum, ← bits_feedAll poly init data h, ofPoly_bitPoly]

end Register

/-! ## Bursts -/

/-- Two strings of one length that differ, and only in a window of `n` places. -/
structure Burst (n : Nat) (as bs : List Bool) : Prop where
  length : as.length = bs.length
  ne : as ≠ bs
  window : ∃ start, ∀ i, as[i]? ≠ bs[i]? → start ≤ i ∧ i < start + n

/-- What stands before the window and behind it is the same in both. -/
theorem Burst.split {n : Nat} {as bs : List Bool} (h : Burst n as bs) :
    ∃ before mid mid' after, as = before ++ (mid ++ after) ∧ bs = before ++ (mid' ++ after) ∧
      mid.length = mid'.length ∧ mid.length ≤ n ∧ mid ≠ mid' := by
  obtain ⟨start, hwindow⟩ := h.window
  have hsame : ∀ i, ¬ (start ≤ i ∧ i < start + n) → as[i]? = bs[i]? :=
    fun i hi => not_not.mp (mt (hwindow i) hi)
  have hbefore : as.take start = bs.take start := by
    refine List.ext_getElem? fun i => ?_
    rw [List.getElem?_take, List.getElem?_take]
    split
    · exact hsame i (by omega)
    · rfl
  have hafter : as.drop (start + n) = bs.drop (start + n) := by
    refine List.ext_getElem? fun i => ?_
    rw [List.getElem?_drop, List.getElem?_drop]
    exact hsame _ (by omega)
  have hsplit : ∀ cs : List Bool,
      cs = cs.take start ++ ((cs.drop start).take n ++ cs.drop (start + n)) := by
    intro cs
    rw [← List.drop_drop, List.take_append_drop, List.take_append_drop]
  refine ⟨as.take start, (as.drop start).take n, (bs.drop start).take n, as.drop (start + n), hsplit as, ?_, ?_,
    List.length_take_le _ _, ?_⟩
  · rw [hbefore, hafter]
    exact hsplit bs
  · simp [h.length]
  · intro hmid
    apply h.ne
    rw [hsplit as, hsplit bs, hbefore, hafter, hmid]

section Detection

variable {w : Nat} {poly : BitVec w}

/-- A generator with a constant term has no factor `X`. -/
theorem coprime_X (h : 0 < w) (hlast : poly.getLsbD (w - 1) = true) : IsCoprime (generator poly) X := by
  have hcoeff : (generator poly).coeff 0 = 1 := by
    have hrev : (bits poly).reverse.getD 0 false = true := by
      have hlt : 0 < (bits poly).reverse.length := by simpa using h
      rw [List.getD_eq_getElem?_getD, List.getElem?_eq_getElem hlt, Option.getD_some, List.getElem_reverse]
      simpa [bits] using hlast
    have hne : ¬ 0 = w := by omega
    rw [generator, coeff_add, coeff_bitPoly, hrev, coeff_X_pow, if_neg hne]
    simp
  obtain ⟨q, hq⟩ := X_dvd_sub_C (p := generator poly)
  rw [hcoeff, C_1] at hq
  exact ⟨1, -q, by linear_combination hq⟩

/-- The generator divides no difference of two short strings. -/
theorem eq_of_dvd {as bs : List Bool} (hlen : as.length = bs.length) (hw : as.length ≤ w)
    (h : generator poly ∣ bitPoly as - bitPoly bs) : as = bs := by
  have hdeg : ∀ cs : List Bool, cs.length ≤ w → (bitPoly cs).degree < (generator poly).degree := by
    intro cs hcs
    rw [degree_generator]
    exact lt_of_lt_of_le (degree_bitPoly_lt cs) (by exact_mod_cast hcs)
  have hlt := lt_of_le_of_lt (degree_sub_le (bitPoly as) (bitPoly bs)) (max_lt (hdeg as hw) (hdeg bs (hlen ▸ hw)))
  exact bitPoly_injective hlen (sub_eq_zero.mp (eq_zero_of_dvd_of_degree_lt h hlt))

theorem messageBits_injective {as bs : List (BitVec 8)} (hlen : as.length = bs.length)
    (h : messageBits as = messageBits bs) : as = bs := by
  induction as generalizing bs with
  | nil => exact (List.length_eq_zero_iff.mp hlen.symm).symm
  | cons a as ih =>
    cases bs with
    | nil => cases hlen
    | cons b bs =>
      simp only [messageBits, List.flatMap_cons] at h
      obtain ⟨hhead, htail⟩ := List.append_inj h (by simp)
      rw [bits_injective hhead, ih (Nat.succ.inj hlen) htail]

/-- **A burst no longer than the register is detected.** -/
theorem burst_detected (init : BitVec w) (hw : 8 ≤ w) (hlast : poly.getLsbD (w - 1) = true)
    {data data' : List (BitVec 8)} (h : Burst w (messageBits data) (messageBits data')) :
    feedAll poly init data ≠ feedAll poly init data' := by
  intro heq
  obtain ⟨before, mid, mid', after, hdata, hdata', hlen, hn, hne⟩ := h.split
  have hres := class_feedAll poly init data hw
  rw [heq, class_feedAll poly init data' hw, ← h.length, AdjoinRoot.mk_eq_mk, hdata, hdata'] at hres
  -- what is common to both messages cancels
  have hdiff : X ^ (before ++ (mid ++ after)).length * bitPoly (bits init) +
      X ^ w * bitPoly (before ++ (mid' ++ after)) -
      (X ^ (before ++ (mid ++ after)).length * bitPoly (bits init) +
        X ^ w * bitPoly (before ++ (mid ++ after))) =
      (bitPoly mid' - bitPoly mid) * X ^ (w + after.length) := by
    simp only [bitPoly_append, List.length_append, hlen, pow_add]
    ring
  rw [hdiff] at hres
  have hcop : IsCoprime (generator poly) (X ^ (w + after.length)) := (coprime_X (by omega) hlast).pow_right
  exact hne (eq_of_dvd hlen.symm (hlen ▸ hn) (hcop.dvd_of_dvd_mul_right hres)).symm

end Detection

end Lib.Crc
