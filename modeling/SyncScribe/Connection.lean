import SyncScribe.Packets
import Mathlib.Data.List.SplitLengths
import Mathlib.Algebra.Order.BigOperators.Group.List

/-!
A TCP connection as a receive loop sees it, on either side: the bytes kept from
earlier reads, or nothing once the connection has ended. `connStep` is what one
`recv` does to it; the two sides differ in the packets that end a connection.

Reads shorter than a header are dropped. Without them the packets dispatched are
those of the stream (`dispatched_eq_packets`); for every way of cutting a stream
that contains such a read there is a stream of which a packet is lost
(`exists_lost`). `Socket.recv` takes as many of the bytes that wait as the buffer
has room for, so what is kept from earlier reads moves the boundaries of the later
ones (`exists_boundary`).
-/

namespace SyncScribe
open Lib Lib.Bytes

/-- One `recv` on a connection: the connection after it and the packets dispatched. -/
def connStep (ends : Packet → Bool) : Option (List UInt8) → Recv → Option (List UInt8) × List Packet
  | none, _ => (none, [])
  | some b, .again => (some b, [])
  | some _, .error => (none, [])
  | some b, .data bytes =>
    if bytes.length < headerSize then (if bytes.length = 0 then none else some b, [])
    else
      (if (packets (b ++ bytes)).any ends then none else some (leftover (b ++ bytes)),
        packets (b ++ bytes))

/-- The turns of a connection: what each `recv` gave, and the packets dispatched. -/
abbrev Turns := List (Recv × List Packet)

/-- The turns of a connection on which `rs` would arrive; it reads no further than its end. -/
def connTurns (ends : Packet → Bool) : Option (List UInt8) → List Recv → Turns
  | none, _ => []
  | some _, [] => []
  | some b, r :: rs => (r, (connStep ends (some b) r).2) :: connTurns ends (connStep ends (some b) r).1 rs

/-- The packets dispatched. -/
def Turns.dispatched (ts : Turns) : List Packet := ts.flatMap Prod.snd

/-- The non-empty reads. -/
def Turns.reads : Turns → List (List UInt8)
  | [] => []
  | (.data bytes, _) :: ts => if bytes = [] then Turns.reads ts else bytes :: Turns.reads ts
  | (.again, _) :: ts | (.error, _) :: ts => Turns.reads ts

section Turns

variable {ends : Packet → Bool}

@[simp] theorem connTurns_none (rs : List Recv) : connTurns ends none rs = [] := by
  cases rs <;> rfl

@[simp] theorem connTurns_nil (st : Option (List UInt8)) : connTurns ends st [] = [] := by
  cases st <;> rfl

theorem connTurns_cons (b : List UInt8) (r : Recv) (rs : List Recv) :
    connTurns ends (some b) (r :: rs) =
      (r, (connStep ends (some b) r).2) :: connTurns ends (connStep ends (some b) r).1 rs := rfl

/-- Where every read fills a header, the loop feeds its framer. -/
theorem dispatched_eq_feed (b : List UInt8) (rs : List Recv)
    (h : ∀ x ∈ (connTurns ends (some b) rs).reads, headerSize ≤ x.length) :
    (connTurns ends (some b) rs).dispatched =
      (packetFramer.feed b (connTurns ends (some b) rs).reads).1 := by
  induction rs generalizing b with
  | nil => rfl
  | cons r rs ih =>
    rw [connTurns_cons] at h ⊢
    cases r with
    | again => exact ih b h
    | error => simp [connStep, Turns.dispatched, Turns.reads, Framer.feed]
    | data bytes =>
      by_cases hnil : bytes = []
      · subst hnil
        simp [connStep, headerSize, Turns.dispatched, Turns.reads, Framer.feed]
      · simp only [Turns.reads, if_neg hnil, List.mem_cons, forall_eq_or_imp] at h ⊢
        obtain ⟨hlen, h⟩ := h
        simp only [connStep, if_neg (Nat.not_lt.mpr hlen)] at h ⊢
        rw [Framer.feed]
        simp only [Turns.dispatched, List.flatMap_cons]
        congr 1
        by_cases hend : (packets (b ++ bytes)).any ends = true
        · simp [hend, Turns.reads, Framer.feed]
        · rw [if_neg hend] at h ⊢
          exact ih _ h

/-- **Segmentation does not matter** when every read fills a header. -/
theorem dispatched_eq_packets (rs : List Recv)
    (h : ∀ x ∈ (connTurns ends (some []) rs).reads, headerSize ≤ x.length) :
    (connTurns ends (some []) rs).dispatched = packets (connTurns ends (some []) rs).reads.flatten := by
  rw [dispatched_eq_feed [] rs h, Framer.feed_frames]
  rfl

end Turns

/-! ## Bytes that start no packet -/

theorem field_byte (buf : List UInt8) (off : Nat) : UInt8.ofNat (field buf off 1) = buf.getD off 0 := by
  have hread : Lib.Bytes.read (buf.drop off) 1 = [buf.getD off 0] := by
    simp only [Lib.Bytes.read, List.getD_eq_getElem?_getD, ← List.head?_drop]
    cases buf.drop off <;> rfl
  rw [field, hread]
  simp [leVal]

theorem marked_iff (buf : List UInt8) :
    marked buf ↔ buf.getD 0 0 = packetMagic ∧ buf.getD 59 0 = packetMagicData := by
  simp only [marked, Header.decode, field_byte]

/-- A packet is found only where an `S` has the rest of a header behind it. -/
theorem exists_magic_of_mem_packets {x : List UInt8} {p : Packet} (h : p ∈ packets x) :
    ∃ k, x[k]? = some packetMagic ∧ k + headerSize ≤ x.length := by
  obtain ⟨k, n, hk⟩ := Framer.exists_emit_of_mem (F := packetFramer) h
  obtain ⟨hlen, hm, _⟩ := packetLook_emit_iff.mp hk
  have hmagic := ((marked_iff _).mp hm).1
  have hpos : 0 < headerSize := by decide
  rw [List.length_drop] at hlen
  refine ⟨k, ?_, by omega⟩
  rw [List.getD_eq_getElem?_getD, List.getElem?_drop, Nat.add_zero,
    List.getElem?_eq_getElem (by omega)] at hmagic
  rw [List.getElem?_eq_getElem (by omega), ← hmagic]
  rfl

/-- Bytes without an `S` before at least a header are skipped. -/
theorem packets_quiet_append {b x : List UInt8} (hb : packetMagic ∉ b) (hx : headerSize ≤ x.length) :
    packets (b ++ x) = packets x ∧ leftover (b ++ x) = leftover x := by
  induction b with
  | nil => exact ⟨rfl, rfl⟩
  | cons z b ih =>
    rw [List.mem_cons, not_or] at hb
    have hskip : packetLook (z :: b ++ x) = .skip := by
      refine packetLook_skip_iff.mpr ⟨by simp only [List.length_append]; omega, ?_⟩
      intro hm
      exact hb.1 ((marked_iff _).mp hm).1.symm
    have hs := packets_of_skip hskip
    rw [hs.1, hs.2]
    exact ih hb.2

theorem packets_ne_nil_of_marked {x : List UInt8} (hm : marked x)
    (hlen : headerSize + variableSizeMaximum ≤ x.length) : packets x ≠ [] := by
  have hsize := masked_size_le (Header.decode x)
  have hlook := packetLook_emit_iff.mpr ⟨by omega, hm, by simp only [frameLength]; omega, rfl, rfl⟩
  rw [(packets_of_emit hlook).1]
  exact List.cons_ne_nil _ _

/-- Bytes kept with an `S` can become a packet by bytes that hold none. -/
theorem exists_completion {b : List UInt8} (hw : packetLook b = .wait) (hb : packetMagic ∈ b) :
    ∃ x : List UInt8, headerSize ≤ x.length ∧ x.length ≤ 2 * (headerSize + variableSizeMaximum) ∧
      packetMagic ∉ x ∧ packets (b ++ x) ≠ [] := by
  have hmax : variableSizeMaximum = 511 := rfl
  have hhead : headerSize = 60 := rfl
  have hzero : ∀ n : Nat, packetMagic ∉ List.replicate n (0 : UInt8) := by
    intro n hn
    exact absurd (List.eq_of_mem_replicate hn) (by decide)
  obtain ⟨n, hn, hn'⟩ : ∃ n : Nat, headerSize + variableSizeMaximum ≤ n ∧ n ≤ headerSize + variableSizeMaximum :=
    ⟨_, Nat.le_refl _, Nat.le_refl _⟩
  by_cases hlen : b.length < headerSize
  · obtain ⟨u, v, rfl, hu⟩ := List.eq_append_cons_of_mem hb
    rw [List.length_append, List.length_cons] at hlen
    -- the last byte of the header that the `S` starts
    refine ⟨List.replicate (58 - v.length) 0 ++ packetMagicData :: List.replicate n 0, ?_, ?_, ?_, ?_⟩
    · simp
      omega
    · simp
      omega
    · rw [List.mem_append, List.mem_cons, not_or, not_or]
      exact ⟨hzero _, by decide, hzero _⟩
    · rw [List.append_assoc, (packets_quiet_append hu (by simp; omega)).1]
      refine packets_ne_nil_of_marked ((marked_iff _).mpr ⟨rfl, ?_⟩) (by simp; omega)
      have hpos : 59 = (packetMagic :: v ++ List.replicate (58 - v.length) (0 : UInt8)).length := by
        simp
        omega
      rw [← List.append_assoc, List.getD_eq_getElem?_getD, hpos, List.getElem?_append_right (Nat.le_refl _),
        Nat.sub_self]
      rfl
  · obtain ⟨hm, _⟩ := (packetLook_wait_iff.mp hw).resolve_left hlen
    refine ⟨List.replicate n 0, by simp; omega, by simp; omega, hzero _, ?_⟩
    exact packets_ne_nil_of_marked ((marked_append _ (Nat.not_lt.mp hlen)).mpr hm) (by simp; omega)

/-- The smallest packet: a header of no message. -/
def probe : List UInt8 := (Packet.make 0 .zero []).header.encode

theorem probe_eq : probe = packetMagic :: (List.replicate 58 0 ++ [packetMagicData]) := by decide

theorem length_probe : probe.length = headerSize := Header.length_encode _

theorem packets_probe_ne_nil (more : List UInt8) : packets (probe ++ more) ≠ [] := by
  have hdec : Header.decode (probe ++ more) = (Packet.make 0 .zero []).header := decode_encode _ _
  have hm : marked (probe ++ more) := by
    rw [marked, hdec]
    exact ⟨rfl, rfl⟩
  have hlen : headerSize ≤ (probe ++ more).length := by
    rw [List.length_append, length_probe]
    omega
  have hframe : frameLength (probe ++ more) = headerSize := by
    rw [frameLength, hdec]
    decide
  have hlook := packetLook_emit_iff.mpr ⟨hlen, hm, by omega, rfl, rfl⟩
  rw [(packets_of_emit hlook).1]
  exact List.cons_ne_nil _ _

/-! ## A packet lost at a read boundary -/

section Lost

variable (ends : Packet → Bool)

/-- The reads that are not dropped. -/
def longReads (reads : List (List UInt8)) : List (List UInt8) :=
  reads.filter fun x => headerSize ≤ x.length

/-- Where the long reads hold no packet, every read is taken and nothing is dispatched. -/
theorem connTurns_idle (b : List UInt8) (reads : List (List UInt8)) (hne : ∀ x ∈ reads, x ≠ [])
    (h : (packetFramer.feed b (longReads reads)).1 = []) :
    (connTurns ends (some b) (reads.map .data)).reads = reads ∧
      (connTurns ends (some b) (reads.map .data)).dispatched = [] := by
  induction reads generalizing b with
  | nil => exact ⟨rfl, rfl⟩
  | cons x reads ih =>
    simp only [List.mem_cons, forall_eq_or_imp] at hne
    have hlen : x.length ≠ 0 := fun h0 => hne.1 (List.length_eq_zero_iff.mp h0)
    rw [List.map_cons, connTurns_cons]
    simp only [Turns.reads, if_neg hne.1, Turns.dispatched, List.flatMap_cons]
    by_cases hx : x.length < headerSize
    · have hlong : longReads (x :: reads) = longReads reads := by
        simp [longReads, hx]
      rw [hlong] at h
      have hrest := ih b hne.2 h
      simp only [connStep, if_pos hx, if_neg hlen, List.nil_append]
      exact ⟨by rw [hrest.1], hrest.2⟩
    · have hlong : longReads (x :: reads) = x :: longReads reads := by
        simp [longReads, Nat.not_lt.mp hx]
      rw [hlong, Framer.feed, List.append_eq_nil_iff] at h
      have hnone : packets (b ++ x) = [] := h.1
      have hrest := ih _ hne.2 h.2
      simp only [connStep, if_neg hx, hnone, List.any_nil, Bool.false_eq_true, ↓reduceIte,
        List.nil_append]
      exact ⟨by rw [show leftover (b ++ x) = (packetFramer.scan (b ++ x)).2 from rfl, hrest.1], hrest.2⟩

theorem splitLengths_append {α : Type} (as bs : List Nat) (l : List α) :
    (as ++ bs).splitLengths l = as.splitLengths l ++ bs.splitLengths (l.drop as.sum) := by
  induction as generalizing l with
  | nil => simp
  | cons a as ih => simp [ih, List.drop_drop]

theorem flatten_splitLengths_take {α : Type} (as : List Nat) (l : List α) :
    (as.splitLengths l).flatten = l.take as.sum := by
  induction as generalizing l with
  | nil => simp
  | cons a as ih => simp [ih, List.take_add]

/-- Zeros around one packet that starts at `pos`. -/
def lonePacket (pos rest : Nat) : List UInt8 :=
  List.replicate pos 0 ++ (probe ++ List.replicate rest 0)

theorem length_lonePacket (pos rest : Nat) : (lonePacket pos rest).length = pos + headerSize + rest := by
  simp [lonePacket, length_probe]
  omega

theorem packets_lonePacket_ne_nil (pos rest : Nat) : packets (lonePacket pos rest) ≠ [] := by
  have hquiet : packetMagic ∉ List.replicate pos (0 : UInt8) := by
    intro h
    exact absurd (List.eq_of_mem_replicate h) (by decide)
  rw [lonePacket, (packets_quiet_append hquiet (by simp [length_probe])).1]
  exact packets_probe_ne_nil _

theorem lonePacket_magic {pos rest k : Nat} (h : (lonePacket pos rest)[k]? = some packetMagic) : k = pos := by
  have hzero : ∀ n : Nat, packetMagic ∉ List.replicate n (0 : UInt8) := by
    intro n hn
    exact absurd (List.eq_of_mem_replicate hn) (by decide)
  have htail : packetMagic ∉ List.replicate 58 (0 : UInt8) ++ [packetMagicData] := by decide
  by_contra hk
  rw [lonePacket, probe_eq] at h
  rcases Nat.lt_or_gt_of_ne hk with hlt | hgt
  · rw [List.getElem?_append_left (by simpa using hlt)] at h
    exact hzero _ (List.mem_of_getElem? h)
  · rw [List.getElem?_append_right (by simp; omega), List.length_replicate, List.cons_append,
      List.getElem?_cons, if_neg (by omega)] at h
    rcases List.mem_append.mp (List.mem_of_getElem? h) with hm | hm
    · exact htail hm
    · exact hzero _ hm

theorem lonePacket_take_magic {pos rest n k : Nat}
    (h : ((lonePacket pos rest).take n)[k]? = some packetMagic) : k < n ∧ k = pos := by
  rw [List.getElem?_take] at h
  split at h
  · rename_i hlt
    exact ⟨hlt, lonePacket_magic h⟩
  · cases h

/-- The long reads of a cut whose first short piece has length `x`. -/
theorem longReads_splitLengths {pre post : List Nat} {x : Nat} {stream : List UInt8}
    (hpre : ∀ n ∈ pre, headerSize ≤ n) (hx : x < headerSize) (hlen : pre.sum ≤ stream.length) :
    longReads ((pre ++ x :: post).splitLengths stream) =
      pre.splitLengths stream ++ longReads (post.splitLengths (stream.drop (pre.sum + x))) := by
  have hkeep : longReads (pre.splitLengths stream) = pre.splitLengths stream := by
    rw [longReads, List.filter_eq_self]
    intro r hr
    have hmem : r.length ∈ pre := by
      rw [← List.map_splitLengths_length stream pre hlen]
      exact List.mem_map_of_mem hr
    simpa using hpre _ hmem
  have hdrop : ¬ headerSize ≤ ((stream.drop pre.sum).take x).length := by
    simp only [List.length_take]
    omega
  rw [splitLengths_append, List.splitLengths_cons, List.drop_drop]
  simp only [longReads, List.filter_append, List.filter_cons, decide_eq_true_eq, if_neg hdrop] at hkeep ⊢
  rw [hkeep]

/-- In that cut no packet is found when the lone packet starts in the short piece, or ends with the
stream. -/
theorem packets_longReads {pre post : List Nat} {x pos rest : Nat} (hpre : ∀ n ∈ pre, headerSize ≤ n)
    (hx0 : 0 < x) (hx : x < headerSize) (hsum : pre.sum + (x + post.sum) = pos + headerSize + rest)
    (hwhere : pos = pre.sum ∨ (rest = 0 ∧ x + post.sum < headerSize)) :
    packets (longReads ((pre ++ x :: post).splitLengths (lonePacket pos rest))).flatten = [] := by
  have hlen : pre.sum ≤ (lonePacket pos rest).length := by
    rw [length_lonePacket]
    omega
  rw [List.eq_nil_iff_forall_not_mem]
  intro p hp
  obtain ⟨k, hk, hroom⟩ := exists_magic_of_mem_packets hp
  rw [longReads_splitLengths hpre hx hlen, List.flatten_append, flatten_splitLengths_take] at hk hroom
  rcases hwhere with rfl | ⟨rfl, hpost⟩
  · -- the only `S` is in the piece that is dropped
    rcases List.mem_append.mp (List.mem_of_getElem? hk) with hm | hm
    · obtain ⟨j, hj⟩ := List.mem_iff_getElem?.mp hm
      have := lonePacket_take_magic hj
      omega
    · obtain ⟨r, hr, hm⟩ := List.mem_flatten.mp hm
      have hmem : packetMagic ∈ (lonePacket pre.sum rest).drop (pre.sum + x) := by
        refine List.mem_of_mem_take (i := post.sum) ?_
        rw [← flatten_splitLengths_take]
        exact List.mem_flatten.mpr ⟨r, List.mem_of_mem_filter hr, hm⟩
      obtain ⟨j, hj⟩ := List.mem_iff_getElem?.mp hmem
      rw [List.getElem?_drop] at hj
      have := lonePacket_magic hj
      omega
  · -- nothing behind the long pieces is read, and they end inside the header
    have hnone : longReads (post.splitLengths ((lonePacket pos 0).drop (pre.sum + x))) = [] := by
      rw [longReads, List.filter_eq_nil_iff]
      intro r hr
      have hle : ∀ n ∈ post, n ≤ post.sum := fun n hn => List.le_sum_of_mem hn
      have := List.length_mem_splitLengths _ _ _ hle r hr
      simp only [decide_eq_true_eq]
      omega
    rw [hnone, List.flatten_nil, List.append_nil] at hk hroom
    have := lonePacket_take_magic hk
    rw [List.length_take] at hroom
    omega

/-- **For every cut with a short read there is a stream of which a packet is lost.** -/
theorem exists_lost {sizes : List Nat} (hpos : ∀ n ∈ sizes, 0 < n) (hshort : ∃ n ∈ sizes, n < headerSize)
    (hsum : headerSize ≤ sizes.sum) :
    ∃ reads : List (List UInt8), reads.map List.length = sizes ∧
      (connTurns ends (some []) (reads.map .data)).reads = reads ∧
      (connTurns ends (some []) (reads.map .data)).dispatched = [] ∧ packets reads.flatten ≠ [] := by
  obtain ⟨pre, x, post, rfl, hpre, hx⟩ :
      ∃ pre x post, sizes = pre ++ x :: post ∧ (∀ n ∈ pre, headerSize ≤ n) ∧ x < headerSize := by
    cases hf : sizes.find? (fun n => n < headerSize) with
    | none =>
      obtain ⟨n, hn, hlt⟩ := hshort
      rw [List.find?_eq_none] at hf
      exact absurd hlt (by simpa using hf n hn)
    | some x =>
      obtain ⟨hx, pre, post, heq, hpre⟩ := List.find?_eq_some_iff_append.mp hf
      refine ⟨pre, x, post, heq, ?_, by simpa using hx⟩
      intro n hn
      simpa using hpre n hn
  have hx0 : 0 < x := hpos x (by simp)
  rw [List.sum_append, List.sum_cons] at hsum
  -- the packet starts in the short read if it fits behind it, else it ends with the stream
  let pos := min pre.sum (pre.sum + (x + post.sum) - headerSize)
  let stream := lonePacket pos (pre.sum + (x + post.sum) - headerSize - pos)
  have hlen : stream.length = (pre ++ x :: post).sum := by
    simp only [stream, length_lonePacket, List.sum_append, List.sum_cons, pos]
    omega
  have hflat : ((pre ++ x :: post).splitLengths stream).flatten = stream := by
    rw [flatten_splitLengths_take, ← hlen, List.take_length]
  have hmap : ((pre ++ x :: post).splitLengths stream).map List.length = pre ++ x :: post :=
    List.map_splitLengths_length _ _ (Nat.le_of_eq hlen.symm)
  have hne : ∀ r ∈ (pre ++ x :: post).splitLengths stream, r ≠ [] := by
    rintro r hr rfl
    have h0 : 0 ∈ pre ++ x :: post := by
      rw [← hmap]
      exact List.mem_map.mpr ⟨[], hr, rfl⟩
    exact absurd (hpos 0 h0) (Nat.lt_irrefl 0)
  have hidle : packets (longReads ((pre ++ x :: post).splitLengths stream)).flatten = [] :=
    packets_longReads hpre hx0 hx (by simp only [pos]; omega) (by simp only [pos]; omega)
  have hturns := connTurns_idle ends [] _ hne (by rw [Framer.feed_frames]; exact hidle)
  exact ⟨_, hmap, hturns.1, hturns.2, by rw [hflat]; exact packets_lonePacket_ne_nil _ _⟩

end Lost

/-! ## Sockets -/

/-- A connected socket: the bytes that wait to be read, and whether the peer has closed its side. -/
structure Socket where
  waiting : List UInt8
  finished : Bool

/-- `recv` into a place for `room` bytes. -/
def Socket.recv (k : Socket) (room : Nat) : Recv × Socket :=
  if k.waiting = [] then (if k.finished then .data [] else .again, k)
  else (.data (k.waiting.take room), { k with waiting := k.waiting.drop room })

/-- What a receive loop that keeps the bytes offers to `recv`. -/
def readRoom (kept : List UInt8) : Nat := clientBufferSize - kept.length

theorem length_lt_of_wait {b : List UInt8} (h : packetLook b = .wait) :
    b.length < headerSize + variableSizeMaximum := by
  rcases packetLook_wait_iff.mp h with hlen | ⟨_, hlen⟩
  · simp only [headerSize, variableSizeMaximum] at *
    omega
  · have hmax := masked_size_le (Header.decode b)
    simp only [frameLength] at hlen
    omega

/-- **Bytes that start no packet lose one** all the same: they take the room from the last byte of a packet that
fits the empty buffer, and that byte alone is too short a read. -/
theorem exists_boundary {b : List UInt8} (hne : b ≠ []) (hw : packetLook b = .wait) (hb : packetMagic ∉ b) :
    ∃ x : List UInt8, x.length = readRoom b + 1 ∧ readRoom b + 1 ≤ clientBufferSize ∧
      packets x ≠ [] ∧ packets (b ++ x.take (readRoom b)) = [] := by
  have hpos : 0 < b.length := List.length_pos_of_ne_nil hne
  have hlen := length_lt_of_wait hw
  have hroom : readRoom b = clientBufferSize - b.length := rfl
  simp only [headerSize, variableSizeMaximum] at hlen
  simp only [clientBufferSize] at hroom ⊢
  refine ⟨lonePacket (readRoom b + 1 - headerSize) 0, ?_, by omega, packets_lonePacket_ne_nil _ _, ?_⟩
  · rw [length_lonePacket]
    simp only [headerSize]
    omega
  · rw [List.eq_nil_iff_forall_not_mem]
    intro p hp
    obtain ⟨k, hk, hfits⟩ := exists_magic_of_mem_packets hp
    rw [List.length_append, List.length_take] at hfits
    have hbehind : b.length ≤ k := by
      by_contra hlt
      rw [List.getElem?_append_left (Nat.not_le.mp hlt)] at hk
      exact hb (List.mem_of_getElem? hk)
    rw [List.getElem?_append_right hbehind] at hk
    have hat := (lonePacket_take_magic hk).2
    simp only [headerSize] at hat hfits
    omega

end SyncScribe
