import Mathlib.Data.List.Basic
import Mathlib.Tactic.Ring

/-!
Bytes in memory and little-endian words.

`leVal` and `leBytes` are the two directions between a byte string and the
number it stores; on words of a fixed width they are inverse (`leVal_leBytes`,
`leBytes_leVal`). `read` and `write` are the two halves of a `memcpy`: what lies
past the bytes we know of reads as zero, and a write past the end of a region
makes the region longer, so that an overrun is visible in its length.
-/

namespace Lib.Bytes

/-- The number stored by a little-endian byte string. -/
def leVal : List UInt8 → Nat
  | [] => 0
  | b :: bs => b.toNat + 256 * leVal bs

/-- The `n` low bytes of `v`, least significant first. -/
def leBytes : Nat → Nat → List UInt8
  | 0, _ => []
  | n + 1, v => UInt8.ofNat v :: leBytes n (v / 256)

@[simp] theorem length_leBytes (n v : Nat) : (leBytes n v).length = n := by
  induction n generalizing v with
  | zero => rfl
  | succ n ih => simp [leBytes, ih]

theorem leVal_lt (bs : List UInt8) : leVal bs < 256 ^ bs.length := by
  induction bs with
  | nil => simp [leVal]
  | cons b bs ih =>
    have hb : b.toNat < 256 := b.toNat_lt
    simp only [leVal, List.length_cons, Nat.pow_succ]
    omega

theorem leVal_leBytes (n v : Nat) : leVal (leBytes n v) = v % 256 ^ n := by
  induction n generalizing v with
  | zero => simp [leBytes, leVal, Nat.mod_one]
  | succ n ih =>
    have hb : (UInt8.ofNat v).toNat = v % 256 := by simp
    simp only [leBytes, leVal, ih, hb]
    rw [Nat.pow_succ, Nat.mul_comm (256 ^ n) 256, Nat.mod_mul]

theorem leBytes_leVal (bs : List UInt8) : leBytes bs.length (leVal bs) = bs := by
  induction bs with
  | nil => rfl
  | cons b bs ih =>
    have hb : b.toNat < 256 := b.toNat_lt
    have hdiv : (b.toNat + 256 * leVal bs) / 256 = leVal bs := by omega
    have hmod : UInt8.ofNat (b.toNat + 256 * leVal bs) = b := by
      apply UInt8.toNat_inj.mp
      simp only [UInt8.toNat_ofNat']
      omega
    simp only [leVal, List.length_cons, leBytes, hdiv, hmod, ih]

/-- A word is the value of its own bytes. -/
theorem leVal_leBytes_of_lt {n v : Nat} (h : v < 256 ^ n) : leVal (leBytes n v) = v := by
  rw [leVal_leBytes, Nat.mod_eq_of_lt h]

/-! ## Memory -/

/-- The `n` bytes at `src`; memory we know nothing of reads as zero. -/
def read (src : List UInt8) (n : Nat) : List UInt8 := (src ++ List.replicate n 0).take n

/-- `bytes` stored at offset `off` of `dst`. -/
def write (dst : List UInt8) (off : Nat) (bytes : List UInt8) : List UInt8 :=
  read dst off ++ bytes ++ dst.drop (off + bytes.length)

@[simp] theorem length_read (src : List UInt8) (n : Nat) : (read src n).length = n := by
  simp [read]

theorem read_of_le {src : List UInt8} {n : Nat} (h : n ≤ src.length) : read src n = src.take n := by
  simp [read, List.take_append_of_le_length h]

@[simp] theorem read_zero (src : List UInt8) : read src 0 = [] := by simp [read]

@[simp] theorem read_length_self (src : List UInt8) : read src src.length = src := by
  rw [read_of_le (Nat.le_refl _), List.take_length]

theorem take_read (src : List UInt8) {k n : Nat} (h : k ≤ n) : (read src n).take k = read src k := by
  simp only [read, List.take_take, Nat.min_eq_left h]
  by_cases hk : k ≤ src.length
  · rw [List.take_append_of_le_length hk, List.take_append_of_le_length hk]
  · have hs : src.length ≤ k := by omega
    rw [List.take_append, List.take_append, List.take_replicate, List.take_replicate]
    congr 2
    omega

theorem read_add (src : List UInt8) (m n : Nat) : read src (m + n) = read src m ++ read (src.drop m) n := by
  apply List.ext_getElem?
  intro i
  simp only [read, List.getElem?_take, List.getElem?_append, List.length_take, List.length_append,
    List.length_replicate, List.getElem?_drop, List.length_drop, List.getElem?_replicate]
  grind

/-- Bytes read where a block of them was stored. -/
theorem read_append {a b : List UInt8} {n : Nat} (h : a.length = n) : read (a ++ b) n = a := by
  rw [read_of_le (by simp [h]), ← h, List.take_left]

theorem read_append_left {a : List UInt8} (b : List UInt8) {n : Nat} (h : n ≤ a.length) :
    read (a ++ b) n = read a n := by
  rw [read_of_le (by simp; omega), read_of_le h, List.take_append_of_le_length h]

theorem length_write_of_le {dst : List UInt8} {off : Nat} {bytes : List UInt8}
    (h : off + bytes.length ≤ dst.length) : (write dst off bytes).length = dst.length := by
  simp only [write, List.length_append, length_read, List.length_drop]
  omega

theorem write_zero (dst bytes : List UInt8) : write dst 0 bytes = bytes ++ dst.drop bytes.length := by
  simp [write]

/-- What was just stored at the start of a region is what is read there. -/
theorem read_write_zero (dst bytes : List UInt8) : read (write dst 0 bytes) bytes.length = bytes := by
  rw [write_zero, read_of_le (by simp), List.take_left]

/-- The same for bytes copied from elsewhere. -/
theorem read_write_read (dst src : List UInt8) (n : Nat) :
    read (write dst 0 (read src n)) n = read src n := by
  have h := read_write_zero dst (read src n)
  rwa [length_read] at h

/-- As far as one reads. -/
theorem read_write_read_le (dst src : List UInt8) {m n : Nat} (h : m ≤ n) :
    read (write dst 0 (read src n)) m = read src m := by
  rw [← take_read _ h, read_write_read, take_read _ h]

theorem read_write_at (dst : List UInt8) (off : Nat) (bytes : List UInt8) :
    read (write dst off bytes) (off + bytes.length) = read dst off ++ bytes := by
  rw [write, read_append (by rw [List.length_append, length_read])]

/-- A store behind an offset, seen from there. -/
theorem drop_write (dst : List UInt8) (n off : Nat) (bytes : List UInt8) :
    (write dst (n + off) bytes).drop n = write (dst.drop n) off bytes := by
  rw [write, write, read_add, List.append_assoc, List.append_assoc, List.drop_left' (length_read dst n), List.drop_drop,
    List.append_assoc, Nat.add_assoc]

/-- A store shows what was stored. -/
theorem write_inj {dst : List UInt8} {off : Nat} {x y : List UInt8} (hlen : x.length = y.length)
    (h : write dst off x = write dst off y) : x = y := by
  simp only [write, hlen] at h
  rwa [List.append_assoc, List.append_assoc, List.append_cancel_left_eq, List.append_cancel_right_eq] at h

/-- `bytes` stored at an offset of `dst` that may be negative; `front` is the memory before `dst`, last byte first. -/
def writeAround (front dst : List UInt8) (off : Int) (bytes : List UInt8) : List UInt8 × List UInt8 :=
  (write front ((-off).toNat - bytes.length) (bytes.take (-off).toNat).reverse,
    write dst off.toNat (bytes.drop (-off).toNat))

@[simp] theorem writeAround_natCast (front dst : List UInt8) (off : Nat) (bytes : List UInt8) :
    writeAround front dst off bytes = (front, write dst off bytes) := by
  have hneg : (-(off : Int)).toNat = 0 := by omega
  rw [writeAround, hneg, Int.toNat_natCast, List.take_zero, List.drop_zero, List.reverse_nil, Nat.zero_sub, write_zero]
  rfl

theorem writeAround_inj {front dst : List UInt8} {off : Int} {x y : List UInt8} (hlen : x.length = y.length)
    (h : writeAround front dst off x = writeAround front dst off y) : x = y := by
  obtain ⟨hfront, hdst⟩ := Prod.mk.inj h
  rw [hlen] at hfront
  have htake := List.reverse_injective (write_inj (by simp [hlen]) hfront)
  have hdrop := write_inj (by simp [hlen]) hdst
  rw [← List.take_append_drop (-off).toNat x, htake, hdrop, List.take_append_drop]

/-- An effect that reads `k` bytes of a buffer, and shows the last of them, depends on nothing behind
`a` exactly when `a` holds all of them. -/
theorem depends_iff {β : Type} {F : List UInt8 → β} {a : List UInt8} {k : Nat}
    (hread : ∀ b b', read b k = read b' k → F b = F b')
    (hlast : ∀ b b', F b = F b' → (read b k).getLast? = (read b' k).getLast?) :
    (∀ r r', F (a ++ r) = F (a ++ r')) ↔ k ≤ a.length := by
  constructor
  · intro h
    by_contra hk
    -- the byte `k - 1` comes from behind `a`
    have heq := hlast _ _ (h (List.replicate (k - a.length) 0) (List.replicate (k - 1 - a.length) 0 ++ [1]))
    have hzero : read (a ++ List.replicate (k - a.length) 0) k = a ++ List.replicate (k - a.length) 0 := by
      rw [read_of_le (by simp; omega), List.take_of_length_le (by simp; omega)]
    have hone : read (a ++ (List.replicate (k - 1 - a.length) 0 ++ [1])) k =
        a ++ (List.replicate (k - 1 - a.length) 0 ++ [1]) := by
      rw [read_of_le (by simp; omega), List.take_of_length_le (by simp; omega)]
    rw [hzero, hone, ← List.append_assoc, List.getLast?_concat, List.getLast?_append,
      List.getLast?_replicate, if_neg (by omega)] at heq
    simp at heq
  · intro hk r r'
    apply hread
    rw [read_of_le (by simp; omega), read_of_le (by simp; omega), List.take_append_of_le_length hk,
      List.take_append_of_le_length hk]

/-! ## Pieces of memory -/

/-- The `n` bytes at offset `off`. -/
def slice (b : List UInt8) (off n : Nat) : List UInt8 := read (b.drop off) n

@[simp] theorem length_slice (b : List UInt8) (off n : Nat) : (slice b off n).length = n := length_read _ _

theorem getElem?_slice (b : List UInt8) (off n i : Nat) :
    (slice b off n)[i]? = if i < n then some (b.getD (off + i) 0) else none := by
  simp only [slice, read, List.getElem?_take, List.getElem?_append, List.length_drop, List.getElem?_drop,
    List.getElem?_replicate, List.getD_eq_getElem?_getD]
  split
  · split
    · rename_i h
      rw [List.getElem?_eq_getElem (by omega), Option.getD_some]
    · rename_i h
      rw [if_pos (by omega), List.getElem?_eq_none (by omega), Option.getD_none]
  · rfl

theorem getD_slice (b : List UInt8) (off n i : Nat) :
    (slice b off n).getD i 0 = if i < n then b.getD (off + i) 0 else 0 := by
  rw [List.getD_eq_getElem?_getD, getElem?_slice]
  split <;> rfl

/-- A store changes the bytes it covers and no others. -/
theorem getD_write (b : List UInt8) (off : Nat) (bs : List UInt8) (i : Nat) :
    (write b off bs).getD i 0 = if off ≤ i ∧ i < off + bs.length then bs.getD (i - off) 0 else b.getD i 0 := by
  simp only [write, read, List.getD_eq_getElem?_getD, List.getElem?_append, List.getElem?_take, List.length_append,
    List.length_take, List.length_replicate, List.getElem?_drop, List.getElem?_replicate]
  grind

/-- Pieces of two regions are equal when the bytes at their places are. -/
theorem slice_congr {b b' : List UInt8} {off off' n : Nat}
    (h : ∀ i < n, b.getD (off + i) 0 = b'.getD (off' + i) 0) : slice b off n = slice b' off' n := by
  apply List.ext_getElem?
  intro i
  rw [getElem?_slice, getElem?_slice]
  split
  · rename_i hi
    rw [h i hi]
  · rfl

theorem slice_slice (b : List UInt8) (off : Nat) {n off' m : Nat} (h : off' + m ≤ n) :
    slice (slice b off n) off' m = slice b (off + off') m := by
  refine slice_congr fun i hi => ?_
  rw [getD_slice, if_pos (by omega), Nat.add_assoc]

theorem slice_zero (b : List UInt8) (n : Nat) : slice b 0 n = read b n := by
  rw [slice, List.drop_zero]

theorem slice_read (b : List UInt8) {n off m : Nat} (h : off + m ≤ n) : slice (read b n) off m = slice b off m := by
  rw [← slice_zero, slice_slice b 0 h, Nat.zero_add]

/-- What was stored is found again. -/
theorem slice_write (b : List UInt8) (off : Nat) (bs : List UInt8) {off' n : Nat} (h : off' + n ≤ bs.length) :
    slice (write b off bs) (off + off') n = slice bs off' n := by
  refine slice_congr fun i hi => ?_
  rw [getD_write, if_pos (by omega)]
  congr 1
  omega

/-- What lies outside of a store stays. -/
theorem slice_write_of_disjoint (b : List UInt8) (off : Nat) (bs : List UInt8) {off' n : Nat}
    (h : off' + n ≤ off ∨ off + bs.length ≤ off') : slice (write b off bs) off' n = slice b off' n := by
  refine slice_congr fun i hi => ?_
  rw [getD_write, if_neg (by omega)]

/-! ### Fields -/

/-- Fields stored at their offsets, one after the other. -/
def stores (b : List UInt8) (fields : List (Nat × List UInt8)) : List UInt8 :=
  fields.foldl (fun b f => write b f.1 f.2) b

theorem slice_stores_of_disjoint (b : List UInt8) {fields : List (Nat × List UInt8)} {off n : Nat}
    (h : ∀ f ∈ fields, off + n ≤ f.1 ∨ f.1 + f.2.length ≤ off) : slice (stores b fields) off n = slice b off n := by
  induction fields generalizing b with
  | nil => rfl
  | cons f fields ih =>
    rw [stores, List.foldl_cons, ← stores, ih _ fun g hg => h g (List.mem_cons_of_mem _ hg),
      slice_write_of_disjoint b f.1 f.2 (h f List.mem_cons_self)]

/-- Fields that do not overlap are found again. -/
theorem slice_stores (b : List UInt8) {fields : List (Nat × List UInt8)}
    (hapart : fields.Pairwise fun f g => f.1 + f.2.length ≤ g.1) {f : Nat × List UInt8} (hf : f ∈ fields) :
    slice (stores b fields) f.1 f.2.length = f.2 := by
  induction fields generalizing b with
  | nil => cases hf
  | cons g fields ih =>
    obtain ⟨hhead, htail⟩ := List.pairwise_cons.mp hapart
    rw [stores, List.foldl_cons, ← stores]
    rcases List.mem_cons.mp hf with rfl | hf
    · have hself : slice (write b f.1 f.2) (f.1 + 0) f.2.length = slice f.2 0 f.2.length :=
        slice_write b f.1 f.2 (by omega)
      rw [Nat.add_zero] at hself
      rw [slice_stores_of_disjoint _ fun h hh => Or.inl (hhead h hh), hself, slice_zero, read_length_self]
    · exact ih _ htail hf

/-- The elements of a table of words. -/
theorem slice_flatMap {α : Type} (f : α → List UInt8) {k : Nat} (hf : ∀ x, (f x).length = k) (xs : List α) {i : Nat} {x : α}
    (hx : xs[i]? = some x) : slice (xs.flatMap f) (k * i) k = f x := by
  induction xs generalizing i with
  | nil => cases hx
  | cons y xs ih =>
    rw [List.flatMap_cons]
    cases i with
    | zero =>
      obtain rfl := Option.some.inj hx
      rw [Nat.mul_zero, slice_zero, read_append (hf y)]
    | succ i =>
      rw [slice, Nat.mul_succ, Nat.add_comm, ← List.drop_drop, List.drop_left' (hf y)]
      exact ih hx

/-! ### Copies byte by byte -/

theorem write_nil {dst : List UInt8} {off : Nat} (h : off ≤ dst.length) : write dst off [] = dst := by
  rw [write, read_of_le h, List.append_nil, List.length_nil, Nat.add_zero, List.take_append_drop]

/-- One byte more. -/
theorem read_succ (src : List UInt8) (n : Nat) : read src (n + 1) = read src n ++ [src.getD n 0] := by
  have hone : ∀ x : List UInt8, read x 1 = [x.getD 0 0] := by
    intro x
    cases x with
    | nil => rfl
    | cons b x => rfl
  rw [read_add, hone, List.getD_eq_getElem?_getD, List.getElem?_drop, Nat.add_zero, List.getD_eq_getElem?_getD]

end Lib.Bytes
