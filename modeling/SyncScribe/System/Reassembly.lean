import Mathlib.Data.List.Count
import SyncScribe.Client.Machine
import SyncScribe.System.ListTransfer
import SyncScribe.System.OwnBytes

/-!
The reassembly of lists from packets of any peer. A list takes a packet by its sequence
number and its number in the reply, copies `data_size` bytes behind the entries it has,
and moves that place on by `id.c[2]`. Both numbers are those of the peer: the place, the
copy and the count of the caller are right as long as a packet brings the entries it
counts, and no more bytes than there is room for.
-/

namespace SyncScribe
open Lib Lib.Bytes

/-! ## Copies -/

/-- A copy to the entries of a list: the offset of its first byte, and its length. -/
structure Copy where
  offset : Int
  size : Nat

/-- The copy of a packet that the list takes. -/
def ListBuffer.copyOf (l : ListName) (b : ListBuffer) (p : Packet) : Option Copy :=
  if b.accepts p.header then some ⟨b.recv * l.entrySize, p.header.dataSize.toNat⟩ else none

/-- Every byte of the entry has been copied. -/
def Copied (l : ListName) (copies : List Copy) (i : Nat) : Prop :=
  ∀ j < l.entrySize, ∃ c ∈ copies,
    c.offset ≤ (i * l.entrySize + j : Nat) ∧ (i * l.entrySize + j : Nat) < c.offset + c.size

instance (l : ListName) (copies : List Copy) (i : Nat) : Decidable (Copied l copies i) :=
  inferInstanceAs (Decidable (∀ j < _, _))

/-- The number of entries that have been copied. -/
def copiedEntries (l : ListName) (copies : List Copy) : Nat :=
  (List.range l.maximum).countP fun i => decide (Copied l copies i)

/-- A client, with the copies to each of its lists since the last request for it was sent. -/
structure Reassembly where
  client : Connect
  copies : ListName → List Copy

def reassemblyStart (cid addr : List UInt8) : Reassembly := ⟨connectCreate cid addr, fun _ => []⟩

/-- The copies after an act. -/
def Reassembly.copiesAfter (st : Reassembly) : ClientAct → ListName → List Copy
  | .packet _ p => fun l =>
    if p.lists l then st.copies l ++ ((st.client.lists l).copyOf l p).toList else st.copies l
  | .requestList _ l => if st.client.socketfd < 0 then st.copies else Function.update st.copies l []
  | _ => st.copies

def reassemblyStep (st : Reassembly) (a : ClientAct) : Reassembly × List ClientObs :=
  (⟨(clientAct st.client a).1, st.copiesAfter a⟩, (clientAct st.client a).2)

/-! ## What is asked of an act -/

/-- The place for the next entries is one of the list or its end, a packet is copied to the memory that was
allocated, and a count that is returned is one of entries that were copied. -/
structure Reassembled (st : Reassembly) (a : ClientAct) : Prop where
  recv : ∀ l, 0 ≤ ((clientAct st.client a).1.lists l).recv ∧ ((clientAct st.client a).1.lists l).recv ≤ l.maximum
  copy : ∀ env p l info c, a = .packet env p → p.lists l = true → (st.client.lists l).info = some info →
    (st.client.lists l).copyOf l p = some c →
      info.length = l.maximum * l.entrySize ∧ 0 ≤ c.offset ∧ c.offset + c.size ≤ info.length
  count : ∀ inetAddr l, a = .requestListEnd inetAddr l →
    (requestListEnd inetAddr st.client l).2.1 ≤ copiedEntries l (st.copies l)

/-- A packet that a list takes brings the entries it counts, and there is room for all its bytes. -/
def ClientAct.fits (s : Connect) : ClientAct → Prop
  | .packet _ p => ∀ l, p.lists l = true → (s.lists l).accepts p.header = true →
      0 ≤ charInt (p.header.id.c 2) ∧ charInt (p.header.id.c 2) * l.entrySize ≤ p.header.dataSize.toNat ∧
        (s.lists l).recv * l.entrySize + p.header.dataSize.toNat ≤ l.maximum * l.entrySize
  | _ => True

/-! ## One list -/

theorem entrySize_pos (l : ListName) : 0 < l.entrySize := by cases l <;> decide

/-- What holds of a list between the acts. -/
structure ListBuffer.Sound (l : ListName) (b : ListBuffer) (copies : List Copy) : Prop where
  low : 0 ≤ b.recv
  high : b.recv ≤ l.maximum
  info : ∀ info, b.info = some info → info.length = l.maximum * l.entrySize
  copied : ∀ i : Nat, i < b.recv → Copied l copies i

section Sound

variable {l : ListName} {b : ListBuffer} {copies : List Copy}

theorem sound_init (l : ListName) : ListBuffer.init.Sound l [] where
  low := Int.le_refl 0
  high := Int.natCast_nonneg _
  info := fun _ h => by cases h
  copied := fun i h => absurd h (Int.not_lt.mpr (Int.natCast_nonneg i))

theorem ListBuffer.Sound.alloc (h : b.Sound l copies) : (b.alloc l).Sound l copies where
  low := h.low
  high := h.high
  info := by
    intro info hinfo
    simp only [ListBuffer.alloc, Option.some.injEq] at hinfo
    rw [← hinfo]
    cases hb : b.info with
    | none => exact List.length_replicate
    | some mem => exact h.info mem hb
  copied := h.copied

theorem ListBuffer.Sound.request (h : b.Sound l copies) : b.request.Sound l [] where
  low := Int.le_refl 0
  high := Int.natCast_nonneg _
  info := h.info
  copied := fun i hi => absurd hi (Int.not_lt.mpr (Int.natCast_nonneg i))

theorem ListBuffer.Sound.free (h : b.Sound l copies) : ListBuffer.Sound l { b with info := none } copies where
  low := h.low
  high := h.high
  info := fun _ hinfo => by cases hinfo
  copied := h.copied

/-- The addresses of the entries received are in the memory of the list. -/
theorem length_replaceLoopback (inetAddr : List UInt8 → UInt32) (addr info : List UInt8) {n : Nat}
    (hn : n * ListName.channels.entrySize ≤ info.length) :
    (replaceLoopback inetAddr addr info n).length = info.length := by
  induction n with
  | zero => rfl
  | succ n ih =>
    have hentry : n * 46 + 46 ≤ info.length := by
      simpa only [ListName.entrySize, Nat.succ_mul] using hn
    have hlen := ih (by simp only [ListName.entrySize]; omega)
    simp only [replaceLoopback]
    split
    · rw [length_write_of_le, hlen]
      rw [length_leBytes, hlen]
      simp only [ListName.entrySize]
      omega
    · exact hlen

theorem ListBuffer.Sound.replace (h : b.Sound .channels copies) (inetAddr : List UInt8 → UInt32) (addr : List UInt8) :
    ListBuffer.Sound .channels
      { b with info := b.info.map fun info => replaceLoopback inetAddr addr info b.recv.toNat } copies where
  low := h.low
  high := h.high
  info := by
    intro info hinfo
    obtain ⟨mem, hmem, rfl⟩ := Option.map_eq_some_iff.mp hinfo
    have hlen := h.info mem hmem
    rw [length_replaceLoopback, hlen]
    have hle : b.recv.toNat ≤ ListName.channels.maximum := Int.toNat_le.mpr h.high
    rw [hlen]
    exact Nat.mul_le_mul_right _ hle
  copied := h.copied

/-- Entries stay copied. -/
theorem Copied.append {i : Nat} (h : Copied l copies i) (more : List Copy) : Copied l (copies ++ more) i := by
  intro j hj
  obtain ⟨c, hc, hbyte⟩ := h j hj
  exact ⟨c, List.mem_append_left _ hc, hbyte⟩

theorem accepts_iff {p : Packet} :
    b.accepts p.header = true ↔
      (∃ info, b.info = some info) ∧ p.header.id.c 3 = b.sequence ∧ p.header.id.c 0 = b.waitPacket := by
  simp only [ListBuffer.accepts, Bool.and_eq_true, beq_iff_eq, Option.isSome_iff_exists, and_assoc]

/-- **A packet that fits** leaves the list sound. -/
theorem ListBuffer.Sound.accept (h : b.Sound l copies) {p : Packet} (hfits : b.accepts p.header = true →
      0 ≤ charInt (p.header.id.c 2) ∧ charInt (p.header.id.c 2) * l.entrySize ≤ p.header.dataSize.toNat ∧
        b.recv * l.entrySize + p.header.dataSize.toNat ≤ l.maximum * l.entrySize) :
    (b.accept l p).Sound l (copies ++ (b.copyOf l p).toList) := by
  by_cases hacc : b.accepts p.header = true
  · obtain ⟨hpos, hcount, hroom⟩ := hfits hacc
    obtain ⟨⟨info, hinfo⟩, h3, h0⟩ := accepts_iff.mp hacc
    obtain ⟨n, hn⟩ := Int.eq_ofNat_of_zero_le h.low
    obtain ⟨k, hk⟩ := Int.eq_ofNat_of_zero_le hpos
    rw [hk] at hcount
    rw [hn] at hroom
    have hcopy : b.copyOf l p = some ⟨(n * l.entrySize : Nat), p.header.dataSize.toNat⟩ := by
      rw [ListBuffer.copyOf, if_pos hacc, hn, Int.natCast_mul]
    have hk' : k * l.entrySize ≤ p.header.dataSize.toNat := by exact_mod_cast hcount
    have hroom' : n * l.entrySize + p.header.dataSize.toNat ≤ l.maximum * l.entrySize := by exact_mod_cast hroom
    have hnk : n + k ≤ l.maximum := by
      refine Nat.le_of_mul_le_mul_right ?_ (entrySize_pos l)
      rw [Nat.add_mul]
      omega
    rw [accept_next hinfo h3 h0, hcopy, hn, hk, ← Int.natCast_mul, writeAround_natCast]
    constructor
    · exact Int.natCast_nonneg (n + k)
    · exact Int.ofNat_le.mpr hnk
    · intro info' hinfo'
      cases hinfo'
      have hlen := h.info info hinfo
      rw [length_write_of_le (by rw [Packet.payload, length_read, hlen]; exact hroom'), hlen]
    · intro i hi
      by_cases hold : i < n
      · exact (h.copied i (by rw [hn]; exact Int.ofNat_lt.mpr hold)).append _
      · have hik : i < n + k := Int.ofNat_lt.mp hi
        intro j hj
        refine ⟨_, List.mem_append_right _ (List.mem_singleton_self _), ?_, ?_⟩
        · have hle : n * l.entrySize ≤ i * l.entrySize := Nat.mul_le_mul_right _ (Nat.le_of_not_lt hold)
          exact Int.ofNat_le.mpr (by omega)
        · have hle : (i + 1) * l.entrySize ≤ (n + k) * l.entrySize := Nat.mul_le_mul_right _ hik
          rw [Nat.add_mul, Nat.add_mul, Nat.one_mul] at hle
          refine Int.ofNat_lt.mpr ?_
          change i * l.entrySize + j < n * l.entrySize + p.header.dataSize.toNat
          omega
  · have hrej : b.accepts p.header = false := by simpa using hacc
    have hsame : b.accept l p = b := ListBuffer.accept_rejected (h := p.header) (b := p.buffer) hrej
    rw [hsame, ListBuffer.copyOf, if_neg hacc]
    simpa using h

/-- **The count** of a sound list is one of entries that were copied. -/
theorem ListBuffer.Sound.count (h : b.Sound l copies) : (b.recv % 2 ^ 32).toNat ≤ copiedEntries l copies := by
  obtain ⟨n, hn⟩ := Int.eq_ofNat_of_zero_le h.low
  have hle : n ≤ l.maximum := Int.ofNat_le.mp (hn ▸ h.high)
  have hmax : l.maximum ≤ 256 := by cases l <;> decide
  have hword : (b.recv % 2 ^ 32).toNat = n := by omega
  have hall : ∀ i ∈ List.range n, decide (Copied l copies i) = true := by
    intro i hi
    exact decide_eq_true (h.copied i (by rw [hn]; exact Int.ofNat_lt.mpr (List.mem_range.mp hi)))
  calc (b.recv % 2 ^ 32).toNat = (List.range n).length := by rw [hword, List.length_range]
    _ = (List.range n).countP fun i => decide (Copied l copies i) := (List.countP_eq_length.mpr hall).symm
    _ ≤ copiedEntries l copies := (List.range_sublist.mpr hle).countP_le

end Sound

/-! ## Acts -/

/-- What holds of a client between the acts. -/
def Reassembly.Sound (st : Reassembly) : Prop := ∀ l, (st.client.lists l).Sound l (st.copies l)

section Acts

variable {st : Reassembly}

/-- An act that leaves the lists alone. -/
theorem Reassembly.Sound.congr (h : st.Sound) {s : Connect} (hs : s.lists = st.client.lists) :
    Reassembly.Sound ⟨s, st.copies⟩ := by
  intro l
  rw [hs]
  exact h l

/-- An act that changes one list. -/
theorem Reassembly.Sound.setList (h : st.Sound) (l : ListName) {b : ListBuffer} {copies : List Copy}
    (hb : b.Sound l copies) : Reassembly.Sound ⟨st.client.setList l b, Function.update st.copies l copies⟩ := by
  intro m
  by_cases hm : m = l
  · subst hm
    simpa only [Connect.setList_same, Function.update_self] using hb
  · simpa only [Connect.setList_of_ne _ _ hm, Function.update_of_ne hm] using h m

theorem Reassembly.Sound.setList_same (h : st.Sound) (l : ListName) {b : ListBuffer} (hb : b.Sound l (st.copies l)) :
    Reassembly.Sound ⟨st.client.setList l b, st.copies⟩ := by
  have hset := h.setList l hb
  rwa [Function.update_eq_self] at hset

/-- **One act** of the client. -/
theorem Reassembly.Sound.act (h : st.Sound) (a : ClientAct) (ha : a.fits st.client) :
    (reassemblyStep st a).1.Sound := by
  by_cases hl : a.lists = true
  · cases a with
    | requestList env l =>
      simp only [reassemblyStep, clientAct, SyncScribe.requestList, Reassembly.copiesAfter]
      split
      · exact h.setList_same l (h l).alloc
      · exact h.setList l (h l).alloc.request
    | requestListEnd inetAddr l =>
      refine h.setList_same l ?_
      cases l with
      | channels => exact (h .channels).replace inetAddr st.client.addr
      | events => exact h .events
      | clients => exact h .clients
    | freeList l => exact h.setList_same l (h l).free
    | packet env p =>
      intro l
      simp only [reassemblyStep, clientAct, Connect.call?, Reassembly.copiesAfter]
      rw [processPacket_lists]
      split
      · rename_i hp
        exact (h l).accept (ha l hp)
      · exact h l
    | _ => cases hl
  · have hlists : (clientAct st.client a).1.lists = st.client.lists := by
      by_cases hs : a.subscribes = true
      · rw [clientAct_subscribes hs]
      · exact (clientAct_frame (by simpa using hs) (by simpa using hl)).2.1
    have hcopies : st.copiesAfter a = st.copies := by
      cases a <;> first | rfl | exact absurd rfl hl
    rw [reassemblyStep, hcopies]
    exact h.congr hlists

/-- What the invariant and the condition give of an act. -/
theorem Reassembly.Sound.reassembled (h : st.Sound) (a : ClientAct) (ha : a.fits st.client) : Reassembled st a where
  recv := fun l => ⟨(h.act a ha l).low, (h.act a ha l).high⟩
  copy := by
    rintro env p l info c rfl hp hinfo hcopy
    have hlen := (h l).info info hinfo
    refine ⟨hlen, ?_⟩
    unfold ListBuffer.copyOf at hcopy
    split at hcopy
    · rename_i hacc
      cases hcopy
      obtain ⟨_, _, hroom⟩ := ha l hp hacc
      rw [hlen, Int.natCast_mul]
      exact ⟨Int.mul_nonneg (h l).low (Int.natCast_nonneg _), hroom⟩
    · cases hcopy
  count := by
    rintro inetAddr l rfl
    have hcount := (h l).count
    cases l <;> exact hcount

end Acts

/-- **List reassembly is safe** from every peer whose packets fit. -/
theorem reassembly_safe (cid addr : List UInt8) (as : List ClientAct)
    (h : Along reassemblyStep (fun st a => a.fits st.client) (reassemblyStart cid addr) as) :
    Along reassemblyStep Reassembled (reassemblyStart cid addr) as := by
  have hstep : ∀ (st : Reassembly) a, st.Sound → ClientAct.fits st.client a → (reassemblyStep st a).1.Sound :=
    fun _ a hs ha => hs.act a ha
  exact along_of_invariant hstep (fun _ a hs ha => hs.reassembled a ha) as _ (fun l => sound_init l) h

/-- The first packet of a reply to the first request for the channels, which is also the last: the number of its entries
by `id.c[2]`, and its bytes. -/
def onlyPacket (count : UInt8) (payload : List UInt8) : ClientAct :=
  .packet .calm (Packet.make Msg.channelList.code (Id.ofBytes [0, 1, count, 1, 1]) payload)

/-- The channels are requested, the packet arrives, and the call returns. -/
def oneReply (count : UInt8) (payload : List UInt8) : List ClientAct :=
  [.sockets 3 (-1), .requestList .calm .channels, onlyPacket count payload, .requestListEnd (fun _ => 7) .channels]

theorem reassembly_safe_one :
    Along reassemblyStep Reassembled (reassemblyStart [] []) (oneReply 1 (List.replicate 46 7)) := by
  refine reassembly_safe [] [] _ ⟨trivial, trivial, ?_, trivial, trivial⟩
  intro l
  cases l <;> decide +kernel

/-- A packet that counts a hundred channels and brings none. -/
theorem oneReply_unsafe : ¬ Along reassemblyStep Reassembled (reassemblyStart [] []) (oneReply 100 []) := by
  rintro ⟨_, _, h, _⟩
  have hhigh := (h.recv .channels).2
  revert hhigh
  decide +kernel

end SyncScribe
