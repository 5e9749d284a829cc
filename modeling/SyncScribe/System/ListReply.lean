import SyncScribe.Server.Output
import SyncScribe.Client.Process

/-!
One list reply, sent and put together again. The loop of the server and the
three cases of the client are followed in lockstep: after every round, what the
client has made of the packets sent so far and what the packet under way holds
are the occupied slots seen so far, in order (`Lockstep`).
-/

namespace SyncScribe
open Lib Lib.Bytes Lib.Slots

/-! ## Entries, as the application reads them -/

/-- `struct syncs_event_info`, without `time`, which the server never stores. -/
structure EventInfo where
  id : Id
  type : UInt32
  shortData : List UInt8
  dataSize : UInt16
  count : UInt32
  consumersCount : UInt32
  producersCount : UInt32
  deriving DecidableEq, Repr

def EventInfo.decode (b : List UInt8) : EventInfo where
  id := Id.ofBytes b
  type := UInt32.ofNat (field b 32 4)
  shortData := slice b 36 variableInfoSizeMaximum
  dataSize := UInt16.ofNat (field b 68 2)
  count := UInt32.ofNat (field b 78 4)
  consumersCount := UInt32.ofNat (field b 82 4)
  producersCount := UInt32.ofNat (field b 86 4)

/-- `struct syncs_client_info` -/
structure ClientInfo where
  id : Id
  eventSubscribe : UInt32
  eventWrite : UInt32
  rxEventCount : UInt32
  txEventCount : UInt32
  ip : UInt32
  deriving DecidableEq, Repr

def ClientInfo.decode (b : List UInt8) : ClientInfo where
  id := Id.ofBytes b
  eventSubscribe := UInt32.ofNat (field b 32 4)
  eventWrite := UInt32.ofNat (field b 36 4)
  rxEventCount := UInt32.ofNat (field b 40 4)
  txEventCount := UInt32.ofNat (field b 44 4)
  ip := UInt32.ofNat (field b 48 4)

/-- `struct syncs_channel_info` -/
structure ChannelInfo where
  id : Id
  anonsCount : UInt32
  requestCount : UInt32
  ip : UInt32
  port : UInt16
  deriving DecidableEq, Repr

def ChannelInfo.decode (b : List UInt8) : ChannelInfo where
  id := Id.ofBytes b
  anonsCount := UInt32.ofNat (field b 32 4)
  requestCount := UInt32.ofNat (field b 36 4)
  ip := UInt32.ofNat (field b 40 4)
  port := UInt16.ofNat (field b 44 2)

/-- The entry of an event: all the fields the server fills, of `short_data` as far as there is data. -/
structure EventInfo.Shows (x : EventInfo) (ev : Event) : Prop where
  id : x.id = ev.id
  type : x.type = ev.dataType
  dataSize : x.dataSize = ev.dataSize.toUInt16
  count : x.count = ev.count
  consumersCount : x.consumersCount = ev.consumersCount
  producersCount : x.producersCount = ev.producersCount
  shortData : x.shortData.take (min ev.dataSize.toNat variableInfoSizeMaximum) =
    read ev.data (min ev.dataSize.toNat variableInfoSizeMaximum)

/-- The entry of a client. -/
def clientInfo (cl : Client) : ClientInfo :=
  ⟨cl.id, cl.eventSubscribe, cl.eventWrite, cl.rxEventCount, cl.txEventCount, cl.addr.ip⟩

/-- The entry of a channel. -/
def channelInfo (ch : Channel) : ChannelInfo :=
  ⟨ch.id, ch.anonsCount, ch.requestCount, ch.ticket.ip, ch.ticket.port⟩

/-! ## The three lists -/

/-- The server's side of a list. -/
def ListName.kind : (l : ListName) → ListKind l.maximum
  | .events => eventKind
  | .clients => clientKind
  | .channels => channelKind

/-- The occupied slots, in order. -/
def ListName.occupied (l : ListName) (s : Server) : List (Fin l.maximum) :=
  (List.finRange l.maximum).filter (l.kind.occupied s)

theorem occupied_length_le (l : ListName) (s : Server) : (l.occupied s).length ≤ l.maximum := by
  have hle := List.length_filter_le (l.kind.occupied s) (List.finRange l.maximum)
  rwa [List.length_finRange] at hle

/-- The server after `m` more packets to the client `c`. -/
def Server.advance (s : Server) (c : ClientIx) (m : Nat) : Server :=
  s.modifyClient c fun cl => { cl with txEventCount := cl.txEventCount + UInt32.ofNat m }

/-- The bytes `b` are the entry of slot `i` of the server `s`. -/
def Shown (s : Server) : (l : ListName) → Fin l.maximum → List UInt8 → Prop
  | .events, i, b => (EventInfo.decode b).Shows (s.events i)
  | .clients, i, b => ClientInfo.decode b = clientInfo (s.clients i)
  | .channels, i, b => ChannelInfo.decode b = channelInfo (s.channels i)

section Entries

variable {s : Server} {c : ClientIx} {l : ListName}

theorem kind_entrySize (l : ListName) : l.kind.entrySize = l.entrySize := by
  cases l <;> rfl

theorem kind_msg (l : ListName) : l.kind.msg = l.msg := by
  cases l <;> rfl

theorem kind_perPacket (l : ListName) : 0 < l.kind.perPacket ∧ l.kind.perPacket < 128 := by
  cases l <;> decide

theorem advance_zero (s : Server) (c : ClientIx) : s.advance c 0 = s := by
  simp [Server.advance, Server.modifyClient]

theorem sendCounted_advance (s : Server) (c : ClientIx) (m : Nat) (p : Packet) :
    (sendCounted (s.advance c m) c p).1 = s.advance c (m + 1) := by
  simp [sendCounted, Server.advance, Server.modifyClient, UInt32.ofNat_add, UInt32.add_assoc]

theorem advance_clients (s : Server) (c : ClientIx) (m : Nat) (i : ClientIx) :
    (s.advance c m).clients i =
      { s.clients i with
        txEventCount := if i = c then (s.clients i).txEventCount + UInt32.ofNat m else (s.clients i).txEventCount } := by
  rw [Server.advance, Server.modifyClient_clients]
  split
  · rename_i h
    rw [h]
  · rfl

/-- Sending changes no slot from free to occupied or back. -/
theorem occupied_advance (s : Server) (c : ClientIx) (m : Nat) (i : Fin l.maximum) :
    l.kind.occupied (s.advance c m) i = l.kind.occupied s i := by
  have hclients : ∀ i, ((s.advance c m).clients i).connected = (s.clients i).connected := by
    intro i
    rw [advance_clients]
    rfl
  cases l with
  | events => rfl
  | clients => exact hclients i
  | channels => rfl

theorem field_slice (b : List UInt8) (off : Nat) {n o m : Nat} (h : o + m ≤ n) :
    field (slice b off n) o m = leVal (slice b (off + o) m) :=
  congrArg leVal (slice_slice b off h)

/-- An identifier is that of its first 32 bytes. -/
theorem ofBytes_slice (b : List UInt8) (off : Nat) {n : Nat} (h : 32 ≤ n) :
    Id.ofBytes (slice b off n) = Id.ofBytes (slice b off 32) := by
  have hword : ∀ o k, o + 8 ≤ k → read ((slice b off k).drop o) 8 = slice b (off + o) 8 :=
    fun o k ho => slice_slice b off ho
  have h0 : ∀ k, 8 ≤ k → read (slice b off k) 8 = slice b off 8 := by
    intro k hk
    simpa using hword 0 k (by omega)
  simp only [Id.ofBytes, h0 n (by omega), h0 32 (by omega), hword _ n (by omega : 8 + 8 ≤ n),
    hword _ n (by omega : 16 + 8 ≤ n), hword _ n (by omega : 24 + 8 ≤ n), hword _ 32 (by omega : 8 + 8 ≤ 32),
    hword _ 32 (by omega : 16 + 8 ≤ 32), hword _ 32 (by omega : 24 + 8 ≤ 32)]

/-- The whole of what was stored. -/
theorem slice_write_self (b : List UInt8) (off : Nat) {bs : List UInt8} {n : Nat} (h : bs.length = n) :
    slice (write b off bs) off n = bs := by
  have hs := slice_write b off bs (show 0 + n ≤ bs.length by omega)
  rw [Nat.add_zero, slice_zero, ← h, read_length_self] at hs
  rw [← h]
  exact hs

/-- The stores into an event's entry end up where the application reads them. -/
theorem eventInfo_shows (ev : Event) (buf : List UInt8) (off : Nat) :
    (EventInfo.decode (slice (fillEventInfo ev buf off) off 90)).Shows ev := by
  have h4 : ∀ w : UInt32, (leBytes 4 w.toNat).length = 4 := fun w => length_leBytes _ _
  have h2 : (leBytes 2 ev.dataSize.toUInt16.toNat).length = 2 := length_leBytes _ _
  have hi := ev.id.length_bytes
  have hdata : (read ev.data (min ev.dataSize.toNat variableInfoSizeMaximum)).length ≤ 32 := by
    rw [length_read]
    exact Nat.min_le_right _ _
  have hid : slice (fillEventInfo ev buf off) off 32 = ev.id.bytes := by
    simp (disch := grind) only [fillEventInfo, slice_write_of_disjoint, slice_write_self]
  have htype : slice (fillEventInfo ev buf off) (off + 32) 4 = leBytes 4 ev.dataType.toNat := by
    simp (disch := grind) only [fillEventInfo, slice_write_of_disjoint, slice_write_self]
  have hsize : slice (fillEventInfo ev buf off) (off + 68) 2 = leBytes 2 ev.dataSize.toUInt16.toNat := by
    simp (disch := grind) only [fillEventInfo, slice_write_of_disjoint, slice_write_self]
  have hcount : slice (fillEventInfo ev buf off) (off + 78) 4 = leBytes 4 ev.count.toNat := by
    simp (disch := grind) only [fillEventInfo, slice_write_of_disjoint, slice_write_self]
  have hconsumers : slice (fillEventInfo ev buf off) (off + 82) 4 = leBytes 4 ev.consumersCount.toNat := by
    simp (disch := grind) only [fillEventInfo, slice_write_of_disjoint, slice_write_self]
  have hproducers : slice (fillEventInfo ev buf off) (off + 86) 4 = leBytes 4 ev.producersCount.toNat := by
    simp (disch := grind) only [fillEventInfo, slice_write_of_disjoint, slice_write_self]
  constructor <;> simp only [EventInfo.decode]
  · rw [ofBytes_slice _ _ (by omega), hid, ← List.append_nil ev.id.bytes, Id.ofBytes_bytes]
  · rw [field_slice _ _ (by omega), htype, word32_roundtrip]
  · rw [field_slice _ _ (by omega), hsize, word16_roundtrip]
  · rw [field_slice _ _ (by omega), hcount, word32_roundtrip]
  · rw [field_slice _ _ (by omega), hconsumers, word32_roundtrip]
  · rw [field_slice _ _ (by omega), hproducers, word32_roundtrip]
  · rw [slice_slice _ _ (by simp only [variableInfoSizeMaximum]; omega), slice, take_read _ (Nat.min_le_right _ _)]
    exact slice_write_self _ _ (length_read _ _)

/-- The stores into an entry leave those before it alone. -/
theorem fillEventInfo_before (ev : Event) (buf : List UInt8) {off o m : Nat} (h : o + m ≤ off) :
    slice (fillEventInfo ev buf off) o m = slice buf o m := by
  simp (disch := omega) only [fillEventInfo, slice_write_of_disjoint]

theorem clientInfo_decode (cl : Client) : ClientInfo.decode (clientInfoBytes cl) = clientInfo cl := by
  have h4 : ∀ w : UInt32, (leBytes 4 w.toNat).length = 4 := fun w => length_leBytes _ _
  have hi := cl.id.length_bytes
  simp only [ClientInfo.decode, clientInfoBytes, clientInfo, List.append_assoc, Id.ofBytes_bytes]
  rw [show (32 : Nat) = 32 + 0 from rfl, field_skip _ _ hi, field_append (h4 _), word32_roundtrip]
  rw [show (36 : Nat) = 32 + (4 + 0) from rfl, field_skip _ _ hi, field_skip _ _ (h4 _), field_append (h4 _),
    word32_roundtrip]
  rw [show (40 : Nat) = 32 + (4 + (4 + 0)) from rfl, field_skip _ _ hi, field_skip _ _ (h4 _),
    field_skip _ _ (h4 _), field_append (h4 _), word32_roundtrip]
  rw [show (44 : Nat) = 32 + (4 + (4 + (4 + 0))) from rfl, field_skip _ _ hi, field_skip _ _ (h4 _),
    field_skip _ _ (h4 _), field_skip _ _ (h4 _), field_append (h4 _), word32_roundtrip]
  rw [show (48 : Nat) = 32 + (4 + (4 + (4 + (4 + 0)))) from rfl, field_skip _ _ hi, field_skip _ _ (h4 _),
    field_skip _ _ (h4 _), field_skip _ _ (h4 _), field_skip _ _ (h4 _),
    ← List.append_nil (leBytes 4 cl.addr.ip.toNat), field_append (h4 _), word32_roundtrip]

theorem channelInfo_decode (ch : Channel) : ChannelInfo.decode (channelInfoBytes ch) = channelInfo ch := by
  have h4 : ∀ w : UInt32, (leBytes 4 w.toNat).length = 4 := fun w => length_leBytes _ _
  have h2 : (leBytes 2 ch.ticket.port.toNat).length = 2 := length_leBytes _ _
  have hi := ch.id.length_bytes
  simp only [ChannelInfo.decode, channelInfoBytes, channelInfo, List.append_assoc, Id.ofBytes_bytes]
  rw [show (32 : Nat) = 32 + 0 from rfl, field_skip _ _ hi, field_append (h4 _), word32_roundtrip]
  rw [show (36 : Nat) = 32 + (4 + 0) from rfl, field_skip _ _ hi, field_skip _ _ (h4 _), field_append (h4 _),
    word32_roundtrip]
  rw [show (40 : Nat) = 32 + (4 + (4 + 0)) from rfl, field_skip _ _ hi, field_skip _ _ (h4 _),
    field_skip _ _ (h4 _), field_append (h4 _), word32_roundtrip]
  rw [show (44 : Nat) = 32 + (4 + (4 + (4 + 0))) from rfl, field_skip _ _ hi, field_skip _ _ (h4 _),
    field_skip _ _ (h4 _), field_skip _ _ (h4 _), ← List.append_nil (leBytes 2 ch.ticket.port.toNat),
    field_append h2, word16_roundtrip]

theorem fill_before (s : Server) (i : Fin l.maximum) (buf : List UInt8) {off o m : Nat} (h : o + m ≤ off) :
    slice (l.kind.fill s i buf off) o m = slice buf o m := by
  cases l with
  | events => exact fillEventInfo_before _ buf h
  | clients => exact slice_write_of_disjoint _ _ _ (Or.inl h)
  | channels => exact slice_write_of_disjoint _ _ _ (Or.inl h)

theorem fill_shown (s : Server) (i : Fin l.maximum) (buf : List UInt8) (off : Nat) :
    Shown s l i (slice (l.kind.fill s i buf off) off l.entrySize) := by
  cases l with
  | events => exact eventInfo_shows _ buf off
  | clients =>
    have hlen : (clientInfoBytes (s.clients i)).length = 52 := by simp [clientInfoBytes]
    exact (congrArg ClientInfo.decode (slice_write_self buf off hlen)).trans (clientInfo_decode _)
  | channels =>
    have hlen : (channelInfoBytes (s.channels i)).length = 46 := by simp [channelInfoBytes]
    exact (congrArg ChannelInfo.decode (slice_write_self buf off hlen)).trans (channelInfo_decode _)

end Entries

/-! ## Packets, as the client takes them -/

/-- The packet an output puts on the connection of the client `c`. -/
def Out.packetTo (c : ClientIx) : Out → Option Packet
  | .send c' p => if c' = c then some p.frame else none
  | .sendto .. | .call .. => none

/-- The packets sent to the client `c`. -/
def sentTo (c : ClientIx) (os : List Out) : List Packet := os.filterMap (Out.packetTo c)

theorem sentTo_append (c : ClientIx) (os os' : List Out) : sentTo c (os ++ os') = sentTo c os ++ sentTo c os' :=
  List.filterMap_append

theorem sentTo_send (c : ClientIx) (p : Packet) : sentTo c [.send c p] = [p.frame] := by
  simp [sentTo, Out.packetTo]

theorem mem_sentTo {c : ClientIx} {os : List Out} {p : Packet} (h : p ∈ sentTo c os) :
    ∃ p', .send c p' ∈ os ∧ p = p'.frame := by
  obtain ⟨o, ho, hp⟩ := List.mem_filterMap.mp h
  cases o with
  | send c' p' =>
    simp only [Out.packetTo] at hp
    split at hp
    · rename_i hc
      subst hc
      exact ⟨p', ho, (Option.some.inj hp).symm⟩
    · cases hp
  | sendto a p' => cases hp
  | call cb args id data => cases hp

section Accept

variable {l : ListName} {b : ListBuffer} {p : Packet}

/-- The client sees the frame of a packet only. -/
theorem accept_congr {p' : Packet} (hh : p'.header = p.header) (hp : p'.payload = p.payload) :
    b.accept l p' = b.accept l p := by
  rw [Packet.payload, Packet.payload, hh] at hp
  simp only [ListBuffer.accept, hh, hp]

theorem payload_frame (p : Packet) : p.frame.payload = p.payload := by
  simp only [Packet.payload, Packet.frame]
  rw [read_of_le (by rw [length_read]), take_read _ (Nat.le_refl _)]

theorem accept_frame : b.accept l p.frame = b.accept l p :=
  accept_congr rfl (payload_frame p)

theorem accept_sequence : (b.accept l p).sequence = b.sequence := by
  unfold ListBuffer.accept
  split
  · rfl
  · split
    · rfl
    · split <;> rfl

/-- A packet of another request changes nothing. -/
theorem accept_of_ne (h : p.header.id.c 3 ≠ b.sequence) : b.accept l p = b := by
  unfold ListBuffer.accept
  split
  · rfl
  · rw [if_pos h]

/-- The next packet of the current request. -/
theorem accept_next {info : List UInt8} (hinfo : b.info = some info) (h3 : p.header.id.c 3 = b.sequence)
    (h0 : p.header.id.c 0 = b.waitPacket) :
    b.accept l p =
      { b with
        info := some (writeAround b.front info (b.recv * l.entrySize) p.payload).2
        front := (writeAround b.front info (b.recv * l.entrySize) p.payload).1
        recv := b.recv + charInt (p.header.id.c 2)
        waitPacket := b.waitPacket + 1
        wait := if p.header.id.c 4 = 1 then false else b.wait } := by
  simp only [ListBuffer.accept, hinfo, h3, h0, Packet.payload, ne_eq, not_true_eq_false, ↓reduceIte]

end Accept

/-! ## Lockstep -/

/-- `n` entries of the given size, one after the other. -/
def Entries (R : Nat → List UInt8 → Prop) (size n : Nat) (mem : List UInt8) : Prop :=
  ∀ j < n, R j (slice mem (j * size) size)

/-- Entries behind which others are copied. -/
theorem Entries.write {R : Nat → List UInt8 → Prop} {size n m : Nat} {mem buf : List UInt8}
    (h : Entries R size n mem) (hb : Entries (fun j => R (n + j)) size m buf) :
    Entries R size (n + m) (write mem (n * size) (read buf (m * size))) := by
  intro j hj
  by_cases hn : j < n
  · have hend : j * size + size ≤ n * size := by
      rw [← Nat.succ_mul]
      exact Nat.mul_le_mul_right _ hn
    rw [slice_write_of_disjoint _ _ _ (Or.inl hend)]
    exact h j hn
  · obtain ⟨i, rfl⟩ := Nat.exists_eq_add_of_le (Nat.le_of_not_lt hn)
    have him : i < m := by omega
    have hend : i * size + size ≤ m * size := by
      rw [← Nat.succ_mul]
      exact Nat.mul_le_mul_right _ him
    rw [Nat.add_mul, slice_write _ _ _ (by rw [length_read]; exact hend), slice_read _ hend]
    exact hb i him

/-- The entry at position `j` is that of the `j`-th slot of the list. The transmit counter of the
requester has advanced by the packets sent before. -/
def Listed (l : ListName) (c : ClientIx) (s : Server) (seen : List (Fin l.maximum)) (j : Nat) (b : List UInt8) :
    Prop :=
  ∀ i, seen[j]? = some i → Shown (s.advance c (j / l.kind.perPacket)) l i b

/-- The server after the occupied slots `seen`, and what the client, in state `b` at the start, has made
of the packets sent. -/
structure Lockstep (l : ListName) (c : ClientIx) (s : Server) (b : ListBuffer) (seen : List (Fin l.maximum))
    (st : ListState) : Prop where
  server : st.server = s.advance c st.out.length
  sequence : st.packet.header.id.c 3 = b.sequence
  more : st.packet.header.id.c 4 = 0
  sent : ∀ p ∈ sentTo c st.out, p.header.id.c 3 = b.sequence ∧ p.header.id.c 4 = 0
  count : st.count < l.kind.perPacket
  total : seen.length = st.out.length * l.kind.perPacket + st.count
  received : ∃ info, (sentTo c st.out).foldl (ListBuffer.accept l) b =
      ⟨some info, b.sequence, st.packet.header.id.c 0, (st.out.length * l.kind.perPacket : Nat), true, b.front⟩ ∧
    Entries (Listed l c s seen) l.entrySize (st.out.length * l.kind.perPacket) info
  filled : Entries (fun j => Listed l c s seen (st.out.length * l.kind.perPacket + j)) l.entrySize st.count
    st.packet.buffer

section Loop

variable {l : ListName} {c : ClientIx} {s : Server} {b : ListBuffer} {seen : List (Fin l.maximum)} {st : ListState}

/-- Earlier entries do not depend on the slots that follow. -/
theorem Listed.append {j : Nat} {bs : List UInt8} (h : Listed l c s seen j bs) (hj : j < seen.length)
    (more : List (Fin l.maximum)) : Listed l c s (seen ++ more) j bs := by
  intro i hi
  rw [List.getElem?_append_left hj] at hi
  exact h i hi

/-- The slot is entered behind those already in the packet. -/
theorem Lockstep.fill (h : Lockstep l c s b seen st) (i : Fin l.maximum) :
    Entries (fun j => Listed l c s (seen ++ [i]) (st.out.length * l.kind.perPacket + j)) l.entrySize (st.count + 1)
      (l.kind.fill st.server i st.packet.buffer (st.count * l.entrySize)) := by
  have htotal := h.total
  intro j hj
  by_cases hlast : j = st.count
  · subst hlast
    intro x hx
    rw [← htotal, List.getElem?_concat_length] at hx
    cases hx
    have hdiv : (st.out.length * l.kind.perPacket + st.count) / l.kind.perPacket = st.out.length := by
      rw [Nat.mul_comm, Nat.mul_add_div (kind_perPacket l).1, Nat.div_eq_of_lt h.count, Nat.add_zero]
    rw [hdiv, ← h.server]
    exact fill_shown st.server i _ _
  · have hlt : j < st.count := by omega
    have hend : j * l.entrySize + l.entrySize ≤ st.count * l.entrySize := by
      rw [← Nat.succ_mul]
      exact Nat.mul_le_mul_right _ hlt
    rw [fill_before _ _ _ hend]
    exact (h.filled j hlt).append (by omega) [i]

theorem stampCount_c (p : Packet) (count j : Nat) :
    (stampCount l.kind count p).header.id.c j = if j = 2 then UInt8.ofNat count else p.header.id.c j :=
  Id.c_setC _ _ _ (by omega) _

/-- `data_size` holds the size of the entries. -/
theorem stampCount_payload (p : Packet) {count : Nat} (hc : count ≤ l.kind.perPacket) :
    (stampCount l.kind count p).payload = read p.buffer (count * l.entrySize) := by
  have hle : count * l.kind.entrySize ≤ variableSizeMaximum :=
    le_trans (Nat.mul_le_mul_right _ hc) (Nat.div_mul_le_self _ _)
  have hlt : count * l.kind.entrySize < 2 ^ 16 := by
    simp only [variableSizeMaximum] at hle
    omega
  simp only [Packet.payload, stampCount]
  rw [UInt16.toNat_ofNat', Nat.mod_eq_of_lt hlt, kind_entrySize]

/-- **One packet**: the entries in it are put behind those received. -/
theorem accept_stampCount {R : Nat → List UInt8 → Prop} {info : List UInt8} {q w : UInt8} {n count : Nat}
    {p : Packet} {front : List UInt8} (hc : count ≤ l.kind.perPacket) (h3 : p.header.id.c 3 = q)
    (h0 : p.header.id.c 0 = w) (hinfo : Entries R l.entrySize n info)
    (hp : Entries (fun j => R (n + j)) l.entrySize count p.buffer) :
    ∃ info', ListBuffer.accept l ⟨some info, q, w, n, true, front⟩ (stampCount l.kind count p).frame =
        ⟨some info', q, w + 1, (n + count : Nat), !(p.header.id.c 4 == 1), front⟩ ∧
      Entries R l.entrySize (n + count) info' := by
  have hper := (kind_perPacket l).2
  refine ⟨write info (n * l.entrySize) (read p.buffer (count * l.entrySize)), ?_, hinfo.write hp⟩
  have hnat : ((stampCount l.kind count p).header.id.c 2).toNat = count := by
    rw [stampCount_c, if_pos rfl, UInt8.toNat_ofNat', Nat.mod_eq_of_lt (by omega)]
  have h2 : charInt ((stampCount l.kind count p).header.id.c 2) = count := by
    rw [charInt_of_lt (by omega), hnat]
  have h4 : (stampCount l.kind count p).header.id.c 4 = p.header.id.c 4 := stampCount_c p count 4
  rw [accept_frame, accept_next rfl (by rw [stampCount_c]; exact h3) (by rw [stampCount_c]; exact h0), h2, h4,
    stampCount_payload p hc]
  simp only [← Int.natCast_mul, writeAround_natCast, Int.natCast_add]
  by_cases hlast : p.header.id.c 4 = 1
  · simp [hlast]
  · simp [hlast]

/-- The entries received so far stay those of their slots. -/
theorem Lockstep.received_append (h : Lockstep l c s b seen st) (more : List (Fin l.maximum)) :
    ∃ info, (sentTo c st.out).foldl (ListBuffer.accept l) b =
        ⟨some info, b.sequence, st.packet.header.id.c 0, (st.out.length * l.kind.perPacket : Nat), true, b.front⟩ ∧
      Entries (Listed l c s (seen ++ more)) l.entrySize (st.out.length * l.kind.perPacket) info := by
  obtain ⟨info, hb, hinfo⟩ := h.received
  have htotal := h.total
  exact ⟨info, hb, fun j hj => (hinfo j hj).append (by omega) more⟩

/-- A slot that leaves room in the packet. -/
theorem Lockstep.enter (h : Lockstep l c s b seen st) (i : Fin l.maximum) (hroom : st.count + 1 < l.kind.perPacket) :
    Lockstep l c s b (seen ++ [i])
      { st with
        packet := { st.packet with buffer := l.kind.fill st.server i st.packet.buffer (st.count * l.entrySize) }
        count := st.count + 1 } where
  server := h.server
  sequence := h.sequence
  more := h.more
  sent := h.sent
  count := hroom
  total := by simp only [List.length_append, List.length_singleton, h.total, Nat.add_assoc]
  received := h.received_append [i]
  filled := h.fill i

/-- A full packet is sent, and the next one begins. -/
theorem Lockstep.flush (h : Lockstep l c s b seen st) (i : Fin l.maximum) (hfull : st.count + 1 = l.kind.perPacket)
    {p : Packet} (hh : p.header = st.packet.header)
    (hp : p.buffer = l.kind.fill st.server i st.packet.buffer (st.count * l.entrySize)) :
    Lockstep l c s b (seen ++ [i])
      { server := (sendCounted st.server c (stampCount l.kind (st.count + 1) p)).1
        packet := { stampCount l.kind (st.count + 1) p with
          header := { (stampCount l.kind (st.count + 1) p).header with
            id := (stampCount l.kind (st.count + 1) p).header.id.setC 0
              ((stampCount l.kind (st.count + 1) p).header.id.c 0 + 1) } }
        count := 0
        out := st.out ++ [.send c (stampCount l.kind (st.count + 1) p)] } := by
  have hc : ∀ j, j ≠ 2 → (stampCount l.kind (st.count + 1) p).header.id.c j = st.packet.header.id.c j := by
    intro j hj
    rw [stampCount_c, if_neg hj, hh]
  have hlen : (st.out ++ [Out.send c (stampCount l.kind (st.count + 1) p)]).length = st.out.length + 1 := by simp
  have hn : (st.out.length + 1) * l.kind.perPacket = st.out.length * l.kind.perPacket + (st.count + 1) := by
    rw [Nat.succ_mul, hfull]
  have hframe : ∀ j, (stampCount l.kind (st.count + 1) p).frame.header.id.c j =
      (stampCount l.kind (st.count + 1) p).header.id.c j := fun _ => rfl
  constructor <;> simp only [hlen]
  · rw [h.server, sendCounted_advance]
  · rw [Id.c_setC _ _ _ (by omega), if_neg (by omega), hc 3 (by omega), h.sequence]
  · rw [Id.c_setC _ _ _ (by omega), if_neg (by omega), hc 4 (by omega), h.more]
  · intro x hx
    rw [sentTo_append, sentTo_send, List.mem_append, List.mem_singleton] at hx
    rcases hx with hx | rfl
    · exact h.sent x hx
    · rw [hframe, hframe, hc 3 (by omega), hc 4 (by omega)]
      exact ⟨h.sequence, h.more⟩
  · exact (kind_perPacket l).1
  · rw [List.length_append, List.length_singleton, h.total, hn]
    omega
  · obtain ⟨info, hb, hinfo⟩ := h.received_append [i]
    obtain ⟨info', hacc, hinfo'⟩ := accept_stampCount (p := p) (Nat.le_of_eq hfull) (by rw [hh, h.sequence])
      (by rw [hh]) hinfo (by rw [hp]; exact h.fill i)
    refine ⟨info', ?_, by rw [hn]; exact hinfo'⟩
    rw [sentTo_append, sentTo_send, List.foldl_append, hb, List.foldl_cons, List.foldl_nil, hacc, hn, hh, h.more,
      Id.c_setC _ _ _ (by omega), if_pos rfl, hc 0 (by omega)]
    rfl
  · intro j hj
    omega

theorem listStep_lockstep (h : Lockstep l c s b seen st) (i : Fin l.maximum) :
    Lockstep l c s b (seen ++ [i].filter (l.kind.occupied s)) (listStep l.kind c st i) := by
  have hocc : l.kind.occupied st.server i = l.kind.occupied s i := by rw [h.server, occupied_advance]
  have hcount := h.count
  unfold listStep
  rw [hocc]
  by_cases ho : l.kind.occupied s i = true
  · rw [if_pos ho, List.filter_cons_of_pos ho, List.filter_nil]
    by_cases hroom : st.count + 1 < l.kind.perPacket
    · simp only [kind_entrySize, ge_iff_le, if_neg (Nat.not_le_of_lt hroom)]
      exact h.enter i hroom
    · simp only [kind_entrySize, ge_iff_le, if_pos (Nat.le_of_not_lt hroom)]
      exact h.flush i (by omega) rfl rfl
  · rw [if_neg ho, List.filter_cons_of_neg ho, List.filter_nil, List.append_nil]
    exact h

theorem foldl_listStep_lockstep (is : List (Fin l.maximum)) (h : Lockstep l c s b seen st) :
    Lockstep l c s b (seen ++ is.filter (l.kind.occupied s)) (is.foldl (listStep l.kind c) st) := by
  induction is generalizing seen st with
  | nil => simpa using h
  | cons i is ih =>
    have hstep := ih (listStep_lockstep h i)
    rwa [List.append_assoc, ← List.filter_append, List.singleton_append] at hstep

/-- At the start of the loop. -/
theorem lockstep_start (env : Env) (s : Server) (c : ClientIx) (hb : b.info.isSome = true) (hw : b.waitPacket = 0)
    (hr : b.recv = 0) (hwait : b.wait = true) :
    Lockstep l c s b [] ⟨s, listPacket env l.kind s b.sequence, 0, []⟩ := by
  obtain ⟨info, hinfo⟩ := Option.isSome_iff_exists.mp hb
  have hc : ∀ j, (listPacket env l.kind s b.sequence).header.id.c j =
      if j = 4 then 0 else if j = 3 then b.sequence else
        (((env.stack.header.id.setC 0 0).setC 1
          (UInt8.ofNat ((l.kind.total s).toNat / l.kind.perPacket + 1)))).c j := by
    intro j
    simp only [listPacket]
    rw [Id.c_setC _ _ _ (by omega), Id.c_setC _ _ _ (by omega)]
  have h0 : (listPacket env l.kind s b.sequence).header.id.c 0 = 0 := by
    rw [hc, if_neg (by omega), if_neg (by omega), Id.c_setC _ _ _ (by omega), if_neg (by omega),
      Id.c_setC _ _ _ (by omega), if_pos rfl]
  constructor <;> simp only [List.length_nil, Nat.zero_mul, sentTo, List.filterMap_nil, List.foldl_nil]
  · exact (advance_zero s c).symm
  · rw [hc, if_neg (by omega), if_pos rfl]
  · rw [hc, if_pos rfl]
  · intro p hp
    cases hp
  · exact (kind_perPacket l).1
  · refine ⟨info, ?_, fun j hj => absurd hj (Nat.not_lt_zero j)⟩
    rw [h0, ← hw, Int.natCast_zero, ← hr, ← hinfo, ← hwait]
  · intro j hj
    omega

end Loop

/-! ## The whole reply -/

/-- The packets of the reply to a request with the given sequence number. -/
def reply (l : ListName) (env : Env) (s : Server) (c : ClientIx) (sequence : UInt8) : List Packet :=
  sentTo c (sendList env l.kind s c sequence).2

/-- The packets of a reply to the request `q`: only the last one is marked as such. -/
structure Stamped (l : ListName) (q : UInt8) (ps : List Packet) : Prop where
  each : ∀ p ∈ ps, p.header.msg = l.msg ∧ p.header.id.c 3 = q ∧ p.header.dataSize.toNat ≤ variableSizeMaximum
  payload : ∀ p ∈ ps, p.header.dataSize.toNat ≤ p.buffer.length
  marks : ∃ init last, ps = init ++ [last] ∧ last.header.id.c 4 = 1 ∧ ∀ p ∈ init, p.header.id.c 4 ≠ 1

theorem reply_header {l : ListName} {env : Env} {s : Server} {c : ClientIx} {q : UInt8} {p : Packet}
    (hp : p ∈ reply l env s c q) :
    p.header.msg = l.msg ∧ p.header.dataSize.toNat ≤ variableSizeMaximum := by
  obtain ⟨p', hp', rfl⟩ := mem_sentTo hp
  obtain ⟨p'', he, hh, hsize⟩ := sendList_out env (kind_perPacket l).1 s q _ hp'
  cases he
  refine ⟨?_, hsize⟩
  change Msg.ofWord p'.header.type = l.msg
  rw [hh.type, kind_msg, Msg.ofWord_code]

section Reply

variable (l : ListName) (env : Env) (s : Server) (c : ClientIx)

/-- The state of the loop when it ends. -/
def listEnd (q : UInt8) : ListState :=
  (List.finRange l.maximum).foldl (listStep l.kind c) ⟨s, listPacket env l.kind s q, 0, []⟩

/-- The packet that is sent last, but for its count. -/
def lastPacket (q : UInt8) : Packet :=
  { (listEnd l env s c q).packet with header := { (listEnd l env s c q).packet.header with
    id := (listEnd l env s c q).packet.header.id.setC 4 1 } }

theorem reply_eq (q : UInt8) :
    reply l env s c q =
      sentTo c (listEnd l env s c q).out ++
        [(stampCount l.kind (listEnd l env s c q).count (lastPacket l env s c q)).frame] := by
  rw [← sentTo_send c, ← sentTo_append]
  rfl

theorem lastPacket_c (q : UInt8) (j : Nat) :
    (lastPacket l env s c q).header.id.c j = if j = 4 then 1 else (listEnd l env s c q).packet.header.id.c j :=
  Id.c_setC _ _ _ (by omega) _

theorem listEnd_lockstep {b : ListBuffer} (hb : b.info.isSome = true) (hw : b.waitPacket = 0) (hr : b.recv = 0)
    (hwait : b.wait = true) : Lockstep l c s b (l.occupied s) (listEnd l env s c b.sequence) :=
  foldl_listStep_lockstep (List.finRange l.maximum) (lockstep_start env s c hb hw hr hwait)

/-- **The packets of a reply** fit their buffers, and only the last one has `id.c[4] = 1`. -/
theorem reply_stamped (q : UInt8) : Stamped l q (reply l env s c q) := by
  have h := listEnd_lockstep l env s c (b := ⟨some [], q, 0, 0, true, []⟩) rfl rfl rfl rfl
  have hlast : ∀ j, j ≠ 2 → (stampCount l.kind (listEnd l env s c q).count (lastPacket l env s c q)).frame.header.id.c j =
      if j = 4 then 1 else (listEnd l env s c q).packet.header.id.c j := by
    intro j hj
    rw [← lastPacket_c]
    exact (stampCount_c _ _ j).trans (if_neg hj)
  refine ⟨?_, ?_, sentTo c (listEnd l env s c q).out, _, reply_eq l env s c q, ?_, ?_⟩
  · intro p hp
    obtain ⟨hmsg, hsize⟩ := reply_header hp
    refine ⟨hmsg, ?_, hsize⟩
    rw [reply_eq, List.mem_append, List.mem_singleton] at hp
    rcases hp with hp | rfl
    · exact (h.sent p hp).1
    · rw [hlast 3 (by omega), if_neg (by omega)]
      exact h.sequence
  · intro p hp
    obtain ⟨p', _, rfl⟩ := mem_sentTo hp
    exact Nat.le_of_eq (length_read _ _).symm
  · rw [hlast 4 (by omega), if_pos rfl]
  · intro p hp
    rw [(h.sent p hp).2]
    decide

/-- **What the client has after a whole reply** to its request: as many entries as there are occupied
slots, those of the slots, in order. -/
theorem reply_accepted {b : ListBuffer} (hb : b.info.isSome = true) (hw : b.waitPacket = 0) (hr : b.recv = 0)
    (hwait : b.wait = true) :
    ∃ info w, (reply l env s c b.sequence).foldl (ListBuffer.accept l) b =
        ⟨some info, b.sequence, w, (l.occupied s).length, false, b.front⟩ ∧
      Entries (Listed l c s (l.occupied s)) l.entrySize (l.occupied s).length info := by
  have h := listEnd_lockstep l env s c hb hw hr hwait
  obtain ⟨info, hbuf, hinfo⟩ := h.received
  have h0 : (lastPacket l env s c b.sequence).header.id.c 0 = (listEnd l env s c b.sequence).packet.header.id.c 0 := by
    rw [lastPacket_c, if_neg (by omega)]
  have h3 : (lastPacket l env s c b.sequence).header.id.c 3 = b.sequence := by
    rw [lastPacket_c, if_neg (by omega), h.sequence]
  have h4 : (lastPacket l env s c b.sequence).header.id.c 4 = 1 := by
    rw [lastPacket_c, if_pos rfl]
  have hfilled : Entries (fun j => Listed l c s (l.occupied s)
      ((listEnd l env s c b.sequence).out.length * l.kind.perPacket + j)) l.entrySize
      (listEnd l env s c b.sequence).count (lastPacket l env s c b.sequence).buffer := by
    simp only [lastPacket]
    exact h.filled
  obtain ⟨info', hacc, hinfo'⟩ := accept_stampCount (Nat.le_of_lt h.count) h3 h0 hinfo hfilled
  refine ⟨info', (listEnd l env s c b.sequence).packet.header.id.c 0 + 1, ?_, ?_⟩
  · rw [reply_eq, List.foldl_append, hbuf, List.foldl_cons, List.foldl_nil, hacc, h4, h.total, beq_self_eq_true,
      Bool.not_true]
  · rw [h.total]
    exact hinfo'

end Reply

end SyncScribe
