import SyncScribe.Packets
import SyncScribe.Lib.Run

/-!
The receive loop on the array it works in. `Packets.lean` has the loop on the bytes not
yet consumed; here are `buffer_head` and `buffer_recv`, the comparisons in `size_t`, the
mask written in place and the `memmove`. From a buffer that keeps less than a packet
the indices stay in the array, the loop ends, and what it keeps is less than a packet
again; and it does on the array what `receive` does on the bytes (`RecvBuffer.turn_holds`).
-/

namespace SyncScribe
open Lib Lib.Bytes

/-- The conversion of an `int` to `size_t`. -/
def toSize (x : Int) : Nat := (x % 18446744073709551616).toNat

/-- The variables of the loop. -/
structure Cursor where
  buffer : List UInt8
  head : Int
  recv : Int

/-- A packet given to the dispatcher, and where in the buffer it begins. -/
structure Dispatch where
  offset : Int
  packet : Packet

/-- How a round of the loop ends, and the variables after it. -/
inductive Round
  | stop (k : Cursor)
  | skip (k : Cursor)
  | dispatch (k : Cursor) (d : Dispatch)

def Round.cursor : Round → Cursor
  | .stop k | .skip k | .dispatch k _ => k

/-- One round of the `while` loop, its condition included. -/
def Cursor.round (k : Cursor) : Round :=
  if toSize (k.recv - k.head) < headerSize then .stop k
  else
    let h := Header.decode (k.buffer.drop k.head.toNat)
    if h.magic ≠ packetMagic then .skip { k with head := k.head + 1 }
    else if h.magicData ≠ packetMagicData then .skip { k with head := k.head + 1 }
    else
      let h := h.masked
      let buffer := write k.buffer (k.head.toNat + 57) (leBytes 2 h.dataSize.toNat)
      if toSize (k.recv - k.head) < headerSize + h.dataSize.toNat then .stop { k with buffer := buffer }
      else
        .dispatch ⟨buffer, k.head + (headerSize + h.dataSize.toNat : Nat), k.recv⟩
          ⟨k.head, ⟨h, buffer.drop (k.head.toNat + headerSize)⟩⟩

/-- The rounds of the loop and the variables at its end; `none` if it has not ended after as many rounds. -/
def packetRounds : Nat → Cursor → Option (List Round × Cursor)
  | 0, _ => none
  | n + 1, k =>
    match k.round with
    | .stop k' => some ([.stop k'], k')
    | .skip k' => (packetRounds n k').map fun r => (.skip k' :: r.1, r.2)
    | .dispatch k' d => (packetRounds n k').map fun r => (.dispatch k' d :: r.1, r.2)

/-- What stays of the buffer from one call of the handler to the next. -/
structure RecvBuffer where
  memory : List UInt8
  recv : Int

/-- The size offered to `recv`. -/
def RecvBuffer.room (b : RecvBuffer) : Nat := toSize (clientBufferSize - b.recv)

/-- The end of the handler: the rest moves to the front. -/
def Cursor.settle (k : Cursor) : RecvBuffer :=
  if k.head < k.recv then
    ⟨if k.head ≠ 0 then write k.buffer 0 (read (k.buffer.drop k.head.toNat) (toSize (k.recv - k.head))) else k.buffer,
      k.recv - k.head⟩
  else ⟨k.buffer, 0⟩

/-- The loop's variables after `recv` has stored the bytes. -/
def RecvBuffer.filled (b : RecvBuffer) (bytes : List UInt8) : Cursor :=
  ⟨write b.memory b.recv.toNat bytes, 0, b.recv + bytes.length⟩

/-- `syncs_client_handler`, and a round of `syncs_recv`, on the buffer: the rounds of the loop and the buffer
after it. A loop of more rounds than the array has bytes counts as endless. -/
def RecvBuffer.turn (b : RecvBuffer) : Recv → Option (List Round × RecvBuffer)
  | .again | .error => some ([], b)
  | .data bytes =>
    if bytes.length < headerSize then some ([], ⟨write b.memory b.recv.toNat bytes, b.recv⟩)
    else (packetRounds (clientBufferSize + 1) (b.filled bytes)).map fun r => (r.1, r.2.settle)

/-! ## Invariants -/

/-- The indices lie in the array, in order. -/
structure Cursor.InBounds (k : Cursor) : Prop where
  whole : k.buffer.length = clientBufferSize
  head : 0 ≤ k.head
  order : k.head ≤ k.recv
  recv : k.recv ≤ clientBufferSize

/-- The packet dispatched lies within the bytes received. -/
def Dispatch.Inside (d : Dispatch) (recv : Int) : Prop :=
  0 ≤ d.offset ∧ d.offset + (headerSize + d.packet.header.dataSize.toNat : Nat) ≤ recv

/-- What a round must keep. -/
def Round.Sound (r : Round) : Prop :=
  r.cursor.InBounds ∧ ∀ k d, r = .dispatch k d → d.Inside k.recv

/-- The most a call leaves in the buffer: a header and its data, less a byte. -/
def residueMaximum : Nat := headerSize + variableSizeMaximum - 1

/-- The array is whole, and less than a packet is kept in it. -/
structure RecvBuffer.Ok (b : RecvBuffer) : Prop where
  whole : b.memory.length = clientBufferSize
  low : 0 ≤ b.recv
  high : b.recv ≤ residueMaximum

/-- The bytes kept. -/
structure RecvBuffer.Holds (b : RecvBuffer) (bytes : List UInt8) : Prop where
  whole : b.memory.length = clientBufferSize
  recv : b.recv = bytes.length
  bytes : b.memory.take bytes.length = bytes

/-- A read may give as many bytes as it was offered room for. -/
def Recv.Fits (room : Nat) : Recv → Prop
  | .data bytes => bytes.length ≤ room
  | .again | .error => True

instance (room : Nat) : (r : Recv) → Decidable (r.Fits room)
  | .data bytes => inferInstanceAs (Decidable (bytes.length ≤ room))
  | .again => inferInstanceAs (Decidable True)
  | .error => inferInstanceAs (Decidable True)

/-- The bytes kept after a read, when `kept` were kept before it. -/
def Recv.leaves (kept : List UInt8) : Recv → List UInt8
  | .data bytes => if bytes.length < headerSize then kept else leftover (kept ++ bytes)
  | .again | .error => kept

/-- The packets dispatched at a read. -/
def Recv.yields (kept : List UInt8) : Recv → List Packet
  | .data bytes => if bytes.length < headerSize then [] else packets (kept ++ bytes)
  | .again | .error => []

/-- The bytes between `buffer_head` and `buffer_recv`. -/
def Cursor.pending (k : Cursor) : List UInt8 := (k.buffer.drop k.head.toNat).take (toSize (k.recv - k.head))

/-- The packets dispatched in the rounds. -/
def dispatched (rs : List Round) : List Dispatch :=
  rs.filterMap fun
    | .dispatch _ d => some d
    | .stop _ | .skip _ => none

section Rounds

variable {k : Cursor} {b : RecvBuffer}

theorem toSize_of_nonneg {x : Int} (h0 : 0 ≤ x) (h : x ≤ clientBufferSize) : (toSize x : Int) = x := by
  have hlt : x < 18446744073709551616 := lt_of_le_of_lt h (by decide)
  rw [toSize, Int.emod_eq_of_lt h0 hlt, Int.toNat_of_nonneg h0]

theorem Cursor.InBounds.toSize (h : k.InBounds) : (SyncScribe.toSize (k.recv - k.head) : Int) = k.recv - k.head :=
  toSize_of_nonneg (Int.sub_nonneg.mpr h.order) (by have := h.head; have := h.recv; omega)

theorem Cursor.InBounds.length_pending (h : k.InBounds) :
    k.pending.length = SyncScribe.toSize (k.recv - k.head) := by
  have hs := h.toSize
  have h0 := h.head
  have h1 := h.recv
  rw [Cursor.pending, List.length_take, List.length_drop, h.whole]
  omega

theorem Cursor.buffer_drop (k : Cursor) :
    k.buffer.drop k.head.toNat =
      k.pending ++ (k.buffer.drop k.head.toNat).drop (SyncScribe.toSize (k.recv - k.head)) :=
  (List.take_append_drop _ _).symm

/-- The mask written into the array is the mask written into the bytes pending. -/
theorem Cursor.drop_masked (hlen : headerSize ≤ k.pending.length) :
    (write k.buffer (k.head.toNat + 57) (leBytes 2 (Header.decode k.pending).masked.dataSize.toNat)).drop k.head.toNat =
      maskSize k.pending ++ (k.buffer.drop k.head.toNat).drop (SyncScribe.toSize (k.recv - k.head)) := by
  have hdec : Header.decode (k.buffer.drop k.head.toNat) = Header.decode k.pending := by
    rw [Cursor.buffer_drop, decode_append_left _ hlen]
  rw [drop_write, ← maskSize_append _ hlen, ← Cursor.buffer_drop, ← hdec]
  rfl

theorem Cursor.InBounds.pending_masked (h : k.InBounds) (hlen : headerSize ≤ k.pending.length) :
    Cursor.pending { k with
        buffer := write k.buffer (k.head.toNat + 57) (leBytes 2 (Header.decode k.pending).masked.dataSize.toNat) } =
      maskSize k.pending := by
  have hmask : (maskSize k.pending).length = SyncScribe.toSize (k.recv - k.head) := by
    rw [length_maskSize hlen, h.length_pending]
  rw [Cursor.pending, Cursor.drop_masked hlen, List.take_append_of_le_length (Nat.le_of_eq hmask.symm),
    List.take_of_length_le (Nat.le_of_eq hmask)]

/-- The bytes pending after the head has moved. -/
theorem Cursor.InBounds.pending_advance (h : k.InBounds) {buffer : List UInt8} (n : Nat)
    (hn : n ≤ k.pending.length) :
    Cursor.pending ⟨buffer, k.head + n, k.recv⟩ = (Cursor.pending { k with buffer := buffer }).drop n := by
  have hs := h.toSize
  have hlen := h.length_pending
  have h0 := h.head
  have h1 := h.recv
  have hrest : (SyncScribe.toSize (k.recv - (k.head + n)) : Int) = k.recv - (k.head + n) :=
    toSize_of_nonneg (by omega) (by omega)
  simp only [Cursor.pending, List.drop_take, List.drop_drop]
  congr 1
  · omega
  · congr 1
    omega

/-- **One round**: it decides by the bytes pending, keeps the indices in the array, and leaves of the bytes pending
what the loop on the bytes leaves. -/
theorem Cursor.InBounds.round (h : k.InBounds) :
    (packetLook k.pending = .wait ∧ ∃ k', k.round = .stop k' ∧ k'.InBounds ∧ k'.pending = packetSettle k.pending) ∨
    (packetLook k.pending = .skip ∧ ∃ k', k.round = .skip k' ∧ k'.InBounds ∧ k'.pending = k.pending.drop 1) ∨
    ∃ n f k' d, packetLook k.pending = .emit n f ∧ k.round = .dispatch k' d ∧ k'.InBounds ∧
      k'.pending = k.pending.drop n ∧ d.Inside k'.recv ∧ d.packet.frame = f := by
  have hs := h.toSize
  have hplen := h.length_pending
  have h0 := h.head
  have h1 := h.recv
  have hwhole := h.whole
  unfold Cursor.round
  by_cases hshort : k.pending.length < headerSize
  · have hsize : SyncScribe.toSize (k.recv - k.head) < headerSize := by omega
    rw [if_pos hsize]
    exact Or.inl ⟨packetLook_wait_iff.mpr (Or.inl hshort), k, rfl, h, (packetSettle_short hshort).symm⟩
  · have hlen : headerSize ≤ k.pending.length := Nat.not_lt.mp hshort
    have hsize : ¬ SyncScribe.toSize (k.recv - k.head) < headerSize := by omega
    have hdec : Header.decode (k.buffer.drop k.head.toNat) = Header.decode k.pending := by
      rw [Cursor.buffer_drop, decode_append_left _ hlen]
    have hcap : (headerSize : Int) ≤ k.recv - k.head := by omega
    have hstored :
        (write k.buffer (k.head.toNat + 57) (leBytes 2 (Header.decode k.pending).masked.dataSize.toNat)).length =
          clientBufferSize := by
      rw [length_write_of_le (by simp only [length_leBytes, headerSize] at *; omega), hwhole]
    have hmasked := h.pending_masked hlen
    have hbehind := Cursor.drop_masked hlen
    rw [if_neg hsize]
    simp only [hdec, ite_marked]
    by_cases hm : marked k.pending
    · rw [if_pos hm]
      by_cases hf : k.pending.length < frameLength k.pending
      · have hwait : SyncScribe.toSize (k.recv - k.head) <
            headerSize + (Header.decode k.pending).masked.dataSize.toNat := by
          simp only [frameLength] at hf
          omega
        rw [if_pos hwait]
        refine Or.inl ⟨packetLook_wait_iff.mpr (Or.inr ⟨hm, hf⟩), _, rfl, ⟨hstored, h0, h.order, h1⟩, ?_⟩
        rw [hmasked, packetSettle_marked hlen hm]
      · have hle : frameLength k.pending ≤ k.pending.length := Nat.not_lt.mp hf
        have hwait : ¬ SyncScribe.toSize (k.recv - k.head) <
            headerSize + (Header.decode k.pending).masked.dataSize.toNat := by
          simp only [frameLength] at hle
          omega
        have hin : k.head + (frameLength k.pending : Nat) ≤ k.recv := by omega
        rw [if_neg hwait]
        refine Or.inr (Or.inr ⟨frameLength k.pending, _, _, _,
          packetLook_emit_iff.mpr ⟨hlen, hm, hle, rfl, rfl⟩, rfl, ⟨hstored, ?_, hin, h1⟩, ?_, ⟨h0, hin⟩, ?_⟩)
        · simp only
          omega
        · exact (h.pending_advance _ hle).trans
            (by rw [hmasked, drop_maskSize (headerSize_le_frameLength _) hlen])
        · have hpayload : (Header.decode k.pending).masked.dataSize.toNat ≤ (k.pending.drop headerSize).length := by
            simp only [frameLength] at hle
            simp only [List.length_drop]
            omega
          simp only [Packet.frame, Packet.payload]
          rw [← List.drop_drop, hbehind, List.drop_append_of_le_length (by rwa [length_maskSize hlen]),
            drop_maskSize (Nat.le_refl _) hlen, read_append_left _ hpayload, read_of_le hpayload]
    · rw [if_neg hm]
      refine Or.inr (Or.inl ⟨packetLook_skip_iff.mpr ⟨hlen, hm⟩, _, rfl, ⟨hwhole, ?_, ?_, h1⟩, ?_⟩)
      · simp only
        omega
      · simp only [headerSize] at hcap
        simp only
        omega
      · exact h.pending_advance 1 (le_trans (by decide) hlen)

/-- **The loop ends**, after no more rounds than bytes are pending, with the indices in the array all the way;
it dispatches the packets of the bytes pending and leaves what they leave. -/
theorem packetRounds_spec (n : Nat) (k : Cursor) (h : k.InBounds) (hn : k.pending.length < n) :
    ∃ rs k', packetRounds n k = some (rs, k') ∧ k'.InBounds ∧ k'.pending = leftover k.pending ∧
      (∀ r ∈ rs, r.Sound) ∧ (dispatched rs).map (fun d => d.packet.frame) = packets k.pending := by
  induction n generalizing k with
  | zero => omega
  | succ n ih =>
    rcases h.round with ⟨hlook, k', hr, hk', hp⟩ | ⟨hlook, k', hr, hk', hp⟩ | ⟨m, f, k', d, hlook, hr, hk', hp, hin, hf⟩
    · have hw := packets_of_wait hlook
      refine ⟨[.stop k'], k', by rw [packetRounds, hr], hk', hp.trans hw.2.symm, ?_, hw.1.symm⟩
      rintro r hmem
      rw [List.mem_singleton.mp hmem]
      exact ⟨hk', fun _ _ he => by cases he⟩
    · have hs := packets_of_skip hlook
      have hpos : 0 < k.pending.length := List.length_pos_iff.mpr (packetLook_skip_ne_nil hlook)
      obtain ⟨rs, k'', hrs, hb, hleft, hall, hpk⟩ := ih k' hk' (by rw [hp, List.length_drop]; omega)
      refine ⟨.skip k' :: rs, k'', by simp only [packetRounds, hr, hrs, Option.map_some], hb, ?_, ?_, ?_⟩
      · rw [hleft, hp, ← hs.2]
      · rintro r hmem
        rcases List.mem_cons.mp hmem with rfl | hmem
        · exact ⟨hk', fun _ _ he => by cases he⟩
        · exact hall r hmem
      · exact hpk.trans (by rw [hp, ← hs.1])
    · have he := packets_of_emit hlook
      have hsize := packetLook_emit_size hlook
      obtain ⟨rs, k'', hrs, hb, hleft, hall, hpk⟩ := ih k' hk' (by rw [hp, List.length_drop]; omega)
      refine ⟨.dispatch k' d :: rs, k'', by simp only [packetRounds, hr, hrs, Option.map_some], hb, ?_, ?_, ?_⟩
      · rw [hleft, hp, ← he.2]
      · rintro r hmem
        rcases List.mem_cons.mp hmem with rfl | hmem
        · refine ⟨hk', ?_⟩
          intro k₀ d₀ heq
          cases heq
          exact hin
        · exact hall r hmem
      · have hcons : dispatched (.dispatch k' d :: rs) = d :: dispatched rs := rfl
        rw [hcons, List.map_cons, hpk, hf, hp, ← he.1]

/-- The rest is moved to the front. -/
theorem Cursor.InBounds.settle (h : k.InBounds) : k.settle.Holds k.pending := by
  have hs := h.toSize
  have hlen := h.length_pending
  have h0 := h.head
  have h1 := h.order
  have h2 := h.recv
  have hwhole := h.whole
  have hread : read (k.buffer.drop k.head.toNat) (SyncScribe.toSize (k.recv - k.head)) = k.pending := by
    rw [read_of_le (by rw [List.length_drop]; omega)]
    rfl
  unfold Cursor.settle
  by_cases hlt : k.head < k.recv
  · rw [if_pos hlt]
    by_cases hz : k.head = 0
    · rw [if_neg (not_not.mpr hz)]
      refine ⟨hwhole, by simp only; omega, ?_⟩
      rw [hlen]
      simp only [Cursor.pending, hz, Int.toNat_zero, List.drop_zero]
    · rw [if_pos hz, hread]
      refine ⟨?_, by simp only; omega, ?_⟩
      · rw [length_write_of_le (by rw [hlen, hwhole]; omega), hwhole]
      · rw [write_zero, List.take_left]
  · rw [if_neg hlt]
    have hnil : k.pending = [] := List.eq_nil_of_length_eq_zero (by omega)
    rw [hnil]
    exact ⟨hwhole, rfl, rfl⟩

/-! ## Calls -/

theorem leftover_length (stream : List UInt8) : (leftover stream).length ≤ residueMaximum := by
  have hwait : packetLook (leftover stream) = .wait := Framer.look_rest (F := packetFramer) stream
  rcases packetLook_wait_iff.mp hwait with h | ⟨_, h⟩
  · exact le_trans (Nat.le_of_lt h) (by decide)
  · have hmax := masked_size_le (Header.decode (leftover stream))
    simp only [frameLength, residueMaximum, headerSize, variableSizeMaximum] at *
    omega

theorem RecvBuffer.Ok.room (h : b.Ok) :
    (b.room : Int) = clientBufferSize - b.recv ∧ clientBufferSize - residueMaximum ≤ b.room := by
  have h0 := h.low
  have h1 := h.high
  have hroom : (b.room : Int) = clientBufferSize - b.recv := by
    refine toSize_of_nonneg ?_ (by omega)
    simp only [clientBufferSize, residueMaximum, headerSize, variableSizeMaximum] at *
    omega
  refine ⟨hroom, ?_⟩
  simp only [clientBufferSize, residueMaximum, headerSize, variableSizeMaximum] at *
  omega

theorem RecvBuffer.Holds.ok {bytes : List UInt8} (h : b.Holds bytes) (hlen : bytes.length ≤ residueMaximum) : b.Ok where
  whole := h.whole
  low := by rw [h.recv]; omega
  high := by rw [h.recv]; omega

theorem RecvBuffer.Ok.holds (h : b.Ok) : b.Holds (b.memory.take b.recv.toNat) := by
  have hlen : (b.memory.take b.recv.toNat).length = b.recv.toNat := by
    have hhigh := h.high
    have hwhole := h.whole
    simp only [residueMaximum, headerSize, variableSizeMaximum, clientBufferSize] at *
    rw [List.length_take]
    omega
  refine ⟨h.whole, ?_, by rw [hlen]⟩
  have hlow := h.low
  rw [hlen]
  omega

/-- What a read stores goes behind what is kept. -/
theorem RecvBuffer.Holds.filled {kept bytes : List UInt8} (h : b.Holds kept)
    (hroom : kept.length + bytes.length ≤ clientBufferSize) :
    (b.filled bytes).InBounds ∧ (b.filled bytes).pending = kept ++ bytes := by
  have hrecv : b.recv.toNat = kept.length := by rw [h.recv, Int.toNat_natCast]
  have hwhole := h.whole
  have hin : (b.filled bytes).InBounds := by
    refine ⟨?_, Int.le_refl _, ?_, ?_⟩
    · simp only [RecvBuffer.filled]
      rw [length_write_of_le (by rw [hrecv, hwhole]; exact hroom), hwhole]
    · simp only [RecvBuffer.filled, h.recv]
      omega
    · simp only [RecvBuffer.filled, h.recv]
      omega
  refine ⟨hin, ?_⟩
  have hsize := hin.toSize
  have htake : SyncScribe.toSize ((b.filled bytes).recv - (b.filled bytes).head) = kept.length + bytes.length := by
    simp only [RecvBuffer.filled, h.recv] at hsize ⊢
    omega
  rw [Cursor.pending, htake]
  simp only [RecvBuffer.filled, Int.toNat_zero, List.drop_zero, hrecv]
  have hkept : read b.memory kept.length = kept := by
    rw [read_of_le (by omega), h.bytes]
  rw [write, hkept, List.take_append_of_le_length (by rw [List.length_append]),
    List.take_of_length_le (by rw [List.length_append])]

/-- A turn as it should be: the loop ends, its indices stay in the array, what it dispatches lies in the bytes
received, and less than a packet is kept. -/
structure RecvBuffer.TurnSound (b : RecvBuffer) (r : Recv) (rs : List Round) (b' : RecvBuffer) : Prop where
  ends : b.turn r = some (rs, b')
  rounds : ∀ x ∈ rs, x.Sound
  ok : b'.Ok

theorem Recv.leaves_length {kept : List UInt8} (hkept : kept.length ≤ residueMaximum) (r : Recv) :
    (r.leaves kept).length ≤ residueMaximum := by
  cases r with
  | again => exact hkept
  | error => exact hkept
  | data bytes =>
    simp only [Recv.leaves]
    split
    · exact hkept
    · exact leftover_length _

/-- **A call of the handler** does on the array what the loop does on the bytes. -/
theorem RecvBuffer.Holds.turn {kept : List UInt8} (h : b.Holds kept) (hkept : kept.length ≤ residueMaximum) (r : Recv)
    (hfits : r.Fits b.room) :
    ∃ rs b', b.TurnSound r rs b' ∧ b'.Holds (r.leaves kept) ∧
      (dispatched rs).map (fun d => d.packet.frame) = r.yields kept := by
  have hok := h.ok hkept
  cases r with
  | again => exact ⟨[], b, ⟨rfl, fun _ hx => absurd hx List.not_mem_nil, hok⟩, h, rfl⟩
  | error => exact ⟨[], b, ⟨rfl, fun _ hx => absurd hx List.not_mem_nil, hok⟩, h, rfl⟩
  | data bytes =>
    have hroom : kept.length + bytes.length ≤ clientBufferSize := by
      have hr := hok.room.1
      have hrecv := h.recv
      simp only [Recv.Fits] at hfits
      omega
    obtain ⟨hin, hpending⟩ := h.filled hroom
    by_cases hlen : bytes.length < headerSize
    · -- the bytes lie in the array, but `buffer_recv` does not count them
      have hshort : RecvBuffer.Holds ⟨write b.memory b.recv.toNat bytes, b.recv⟩ kept := by
        refine ⟨hin.whole, h.recv, ?_⟩
        have hrecv : b.recv.toNat = kept.length := by rw [h.recv, Int.toNat_natCast]
        have hwhole := h.whole
        simp only [hrecv, write]
        rw [read_of_le (by omega), h.bytes, List.append_assoc, List.take_left]
      have hturn := hshort.ok hkept
      refine ⟨[], _, ⟨by rw [RecvBuffer.turn, if_pos hlen], fun _ hx => absurd hx List.not_mem_nil, hturn⟩, ?_, ?_⟩
      · simpa only [Recv.leaves, if_pos hlen] using hshort
      · simp only [Recv.yields, if_pos hlen]
        rfl
    · obtain ⟨rs, k', hrs, hb, hleft, hall, hpk⟩ := packetRounds_spec (clientBufferSize + 1) _ hin
        (by rw [hpending, List.length_append]; omega)
      rw [hpending] at hleft hpk
      have hsettled := hb.settle
      rw [hleft] at hsettled
      refine ⟨rs, k'.settle, ⟨?_, hall, hsettled.ok (leftover_length _)⟩, ?_, ?_⟩
      · rw [RecvBuffer.turn, if_neg hlen, hrs, Option.map_some]
      · simpa only [Recv.leaves, if_neg hlen] using hsettled
      · simpa only [Recv.yields, if_neg hlen] using hpk

end Rounds

/-! ## Every sequence of reads -/

/-- One read after the other on the same array. -/
def bufferStep (b : RecvBuffer) (r : Recv) : RecvBuffer × List Round :=
  match b.turn r with
  | some (rs, b') => (b', rs)
  | none => (b, [])

/-- A turn from a buffer as it should be leaves one. -/
theorem RecvBuffer.Ok.turn {b : RecvBuffer} (h : b.Ok) (r : Recv) (hfits : r.Fits b.room) :
    b.TurnSound r (bufferStep b r).2 (bufferStep b r).1 := by
  have hkept : (b.memory.take b.recv.toNat).length ≤ residueMaximum := by
    have hhigh := h.high
    have hlow := h.low
    rw [List.length_take]
    omega
  obtain ⟨rs, b', hsound, _⟩ := h.holds.turn hkept r hfits
  have hstep : bufferStep b r = (b', rs) := by simp only [bufferStep, hsound.ends]
  rw [hstep]
  exact hsound

end SyncScribe
