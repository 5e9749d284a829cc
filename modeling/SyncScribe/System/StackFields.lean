import SyncScribe.Client.Machine
import SyncScribe.Server.FanOut
import SyncScribe.System.ListReply
import SyncScribe.System.OwnBytes
import SyncScribe.System.Wire

/-!
Packets built on the stack. A sender fills some fields of an uninitialised packet
and a receiver reads some; the two agree when the receiver is `Blind` to what the
packet held before. For the packets of the server: always for the status, the
reply to a READ and the lists of clients and channels. An EVENT is sent with the
`update_counter` that was on the stack, and an entry of the event list with its
`time`; the client takes both.
-/

namespace SyncScribe
open Lib Lib.Bytes Lib.Slots

/-! ## Receivers that do not see the stack -/

/-- The contents of an uninitialised `struct syncs_packet`. -/
abbrev Scratch := { p : Packet // p.buffer.length = eventDataSizeMaximum }

/-- Contents with the given counter, and the given byte throughout the payload. -/
def Scratch.filled (counter : UInt64) (v : UInt8) : Scratch :=
  ⟨⟨⟨0, 0, 0, .zero, ⟨0, 0⟩, counter, 0, 0⟩, List.replicate eventDataSizeMaximum v⟩, List.length_replicate⟩

/-- The same call with other contents of its packet. -/
def Env.on (env : Env) (x : Scratch) : Env := { env with stack := x.1 }

/-- A packet as the receiver finds it in its buffer. -/
def Packet.arrival (p : Packet) (beyond : List UInt8) : Packet :=
  ⟨(Header.decode p.wire).masked, p.wire.drop headerSize ++ beyond⟩

/-- Each of the packets, received in the state `cl`, has the same effect whatever was on the stack. -/
def Blind (env : ClientEnv) (beyond : List UInt8) (cl : Connect) (sent : Scratch → List Packet) : Prop :=
  ∀ x x', (sent x).map (fun p => processPacket env cl (p.arrival beyond)) =
    (sent x').map fun p => processPacket env cl (p.arrival beyond)

section Arrival

variable {env : ClientEnv} {beyond : List UInt8} {cl : Connect} {p p' : Packet}

theorem Packet.wire_eq (p : Packet) :
    p.wire = p.header.encode ++ Lib.Bytes.read p.buffer (p.header.dataSize.toNat &&& packetSizeMask) :=
  read_encode _ _ _

theorem Packet.arrival_header (p : Packet) (beyond : List UInt8) : (p.arrival beyond).header = p.header.masked := by
  simp only [arrival, wire_eq, decode_encode]

@[simp] theorem Packet.arrival_msg (p : Packet) (beyond : List UInt8) : (p.arrival beyond).header.msg = p.header.msg := by
  rw [arrival_header]
  rfl

@[simp] theorem Packet.arrival_id (p : Packet) (beyond : List UInt8) : (p.arrival beyond).header.id = p.header.id := by
  rw [arrival_header]
  rfl

@[simp] theorem Packet.arrival_updateCounter (p : Packet) (beyond : List UInt8) :
    (p.arrival beyond).header.updateCounter = p.header.updateCounter := by
  rw [arrival_header]
  rfl

@[simp] theorem Packet.arrival_dataSize (p : Packet) (beyond : List UInt8) :
    (p.arrival beyond).header.dataSize = p.header.masked.dataSize := by
  rw [arrival_header]

/-- The receiver's mask leaves of the size what the sender's does, or less. -/
theorem masked_size_le_wire (h : Header) : h.masked.dataSize.toNat ≤ h.dataSize.toNat &&& packetSizeMask := by
  simp only [Header.masked, UInt16.toNat_and]
  have hmask : (UInt16.ofNat variableSizeMaximum).toNat = packetSizeMask &&& variableSizeMaximum := by decide
  rw [hmask, ← Nat.and_assoc]
  exact Nat.and_le_left

theorem masked_size_le_self (h : Header) : h.masked.dataSize.toNat ≤ h.dataSize.toNat := by
  simp only [Header.masked, UInt16.toNat_and]
  exact Nat.and_le_left

/-- The payload, as the receiver reads it. -/
@[simp] theorem Packet.arrival_payload (p : Packet) (beyond : List UInt8) :
    (p.arrival beyond).payload = Lib.Bytes.read p.buffer p.header.masked.dataSize.toNat := by
  have hle := masked_size_le_wire p.header
  have hdrop : p.wire.drop headerSize =
      Lib.Bytes.read p.buffer (p.header.dataSize.toNat &&& packetSizeMask) := by
    rw [wire_eq, ← p.header.length_encode, List.drop_left]
  rw [payload, arrival_dataSize]
  simp only [arrival, hdrop]
  rw [read_append_left _ (by rwa [length_read]), read_of_le (by rwa [length_read]), take_read _ hle]

theorem blind_single {f : Scratch → Packet}
    (h : ∀ x x', processPacket env cl ((f x).arrival beyond) = processPacket env cl ((f x').arrival beyond)) :
    Blind env beyond cl fun x => [f x] := by
  intro x x'
  rw [List.map_singleton, List.map_singleton, h x x']

end Arrival

/-! ## Single packets -/

section Single

variable {cenv : ClientEnv} {beyond : List UInt8} {cl : Connect} (env : Env) (s : Server)

/-- An EVENT with the counter of the stack is noticed by every slot of its identifier. -/
theorem event_blind_iff {f : Scratch → Packet} {id : Id} (hmsg : ∀ x, (f x).header.msg = .event)
    (hid : ∀ x, (f x).header.id = id) (hcounter : ∀ x, (f x).header.updateCounter = x.1.header.updateCounter) :
    (Blind cenv beyond cl fun x => [f x]) ↔ cl.findEvent id = none := by
  have hprocess : ∀ x, processPacket cenv cl ((f x).arrival beyond) = processEvent cl ((f x).arrival beyond) := by
    intro x
    simp only [processPacket, Packet.arrival_msg, hmsg]
  constructor
  · intro h
    cases hf : cl.findEvent id with
    | none => rfl
    | some e =>
      have hstored : ∀ x, ((processEvent cl ((f x).arrival beyond)).1.events e).updateCounter =
          x.1.header.updateCounter := by
        intro x
        simp only [processEvent, Packet.arrival_id, hid, hf, Packet.arrival_updateCounter, hcounter]
        split <;> simp [Connect.setEvent]
      have heq := h (.filled 0 0) (.filled 1 0)
      simp only [List.map_cons, List.map_nil, List.cons.injEq, and_true, hprocess] at heq
      have hcount := congrArg (fun r => (r.1.events e).updateCounter) heq
      simp only [hstored] at hcount
      exact absurd hcount (by decide)
  · intro hnone
    refine blind_single fun x x' => ?_
    rw [hprocess, hprocess]
    simp only [processEvent, Packet.arrival_id, hid, hnone]

theorem eventPacket_blind_iff {ev : Event} (ht : ev.dataType &&& typeVarMask = ev.dataType) (flags : UInt32) :
    (Blind cenv beyond cl fun x => [eventPacket (env.on x) s ev flags]) ↔ cl.findEvent ev.id = none := by
  refine event_blind_iff (fun x => eventPacket_msg ht) (fun x => eventPacket_id _ _ _ _) (fun x => ?_)
  simp only [eventPacket]
  split <;> rfl

theorem resendPacket_blind_iff (ev : Event) :
    (Blind cenv beyond cl fun x => [resendPacket (env.on x) ev]) ↔ cl.findEvent ev.id = none :=
  event_blind_iff (fun _ => Msg.ofWord_or .event (by decide)) (fun _ => rfl) (fun _ => rfl)

theorem statusPacket_blind (code : UInt64) : Blind cenv beyond cl fun x => [statusPacket (env.on x) s code] := by
  refine blind_single fun x x' => ?_
  have hmsg : ∀ x, (statusPacket (env.on x) s code).header.msg = .serverStatus := fun _ => Msg.ofWord_code _
  simp only [processPacket, processError, Packet.arrival_msg, hmsg, Packet.arrival_id, Packet.arrival_updateCounter]
  rfl

/-- A ticket is no message to the client. -/
theorem ticketPacket_blind (id : Id) (ch : Channel) :
    Blind cenv beyond cl fun x => [ticketPacket (env.on x) id ch] := by
  refine blind_single fun x x' => ?_
  have hmsg : ∀ x, (ticketPacket (env.on x) id ch).header.msg = .empty := by
    intro x
    change Msg.ofWord channelTicket = .empty
    decide
  simp only [processPacket, Packet.arrival_msg, hmsg]

theorem readPacket_blind (id : Id) : Blind cenv beyond cl fun x => [readPacket (env.on x) s id] := by
  refine blind_single fun x x' => ?_
  have hid : ∀ x, (readPacket (env.on x) s id).header.id = id := by
    intro x
    unfold readPacket
    split <;> rfl
  have hsize : (readPacket (env.on x) s id).header.masked.dataSize =
      (readPacket (env.on x') s id).header.masked.dataSize := by
    unfold readPacket
    split <;> rfl
  have hpayload : ((readPacket (env.on x) s id).arrival beyond).payload =
      ((readPacket (env.on x') s id).arrival beyond).payload := by
    rw [Packet.arrival_payload, Packet.arrival_payload, ← hsize]
    cases hf : findEvent s id with
    | none =>
      have hzero : (readPacket (env.on x) s id).header.masked.dataSize.toNat = 0 := by
        simp only [readPacket, hf, Header.masked]
        decide
      rw [hzero, read_zero, read_zero]
    | some e =>
      have hle : (readPacket (env.on x) s id).header.masked.dataSize.toNat ≤ (s.events e).dataSize.toNat := by
        refine le_trans (masked_size_le_self _) ?_
        simp only [readPacket, hf, UInt32.toNat_toUInt16]
        exact Nat.mod_le _ _
      have hbuffer : ∀ x, (readPacket (env.on x) s id).buffer =
          write x.1.buffer 0 (Lib.Bytes.read (s.events e).data (s.events e).dataSize.toNat) := by
        intro x
        simp only [readPacket, hf]
        rfl
      rw [hbuffer, hbuffer, read_write_read_le _ _ hle, read_write_read_le _ _ hle]
  rw [Packet.payload, Packet.payload, Packet.arrival_dataSize, Packet.arrival_dataSize, hsize] at hpayload
  simp only [processPacket, Packet.arrival_msg, readPacket_msg, processRead, Packet.arrival_id, hid, Packet.arrival_dataSize,
    hsize, hpayload]

end Single

/-! ## The packets of a list -/

/-- The `j`-th packet of a reply to the request `q` with `n` entries, as far as it is defined. -/
structure PacketAt (l : ListName) (n : Nat) (q : UInt8) (j : Nat) (p : Packet) : Prop where
  msg : p.header.msg = l.msg
  number : p.header.id.c 0 = UInt8.ofNat j
  count : p.header.id.c 2 = UInt8.ofNat (min l.kind.perPacket (n - j * l.kind.perPacket))
  sequence : p.header.id.c 3 = q
  last : p.header.id.c 4 = if j = n / l.kind.perPacket then 1 else 0
  size : p.header.dataSize = UInt16.ofNat (min l.kind.perPacket (n - j * l.kind.perPacket) * l.kind.entrySize)

/-- Packets are numbered as they are sent, and sent when they are full. -/
structure Numbered (l : ListName) (c : ClientIx) (st : ListState) : Prop where
  count : st.count < l.kind.perPacket
  number : st.packet.header.id.c 0 = UInt8.ofNat st.out.length
  length : (sentTo c st.out).length = st.out.length
  sent : ∀ j p, (sentTo c st.out)[j]? = some p → p.header.id.c 0 = UInt8.ofNat j ∧
    p.header.id.c 2 = UInt8.ofNat l.kind.perPacket ∧
    p.header.dataSize = UInt16.ofNat (l.kind.perPacket * l.kind.entrySize)

section Lists

variable {l : ListName} {c : ClientIx} {s : Server} {q : UInt8} {st st' : ListState}

theorem listStep_numbered (h : Numbered l c st) (i : Fin l.maximum) : Numbered l c (listStep l.kind c st i) := by
  have hcount := h.count
  unfold listStep
  split
  · simp only
    split
    · rename_i hfull
      have hlen : (sentTo c (st.out ++ [Out.send c (stampCount l.kind (st.count + 1)
          ⟨st.packet.header, l.kind.fill st.server i st.packet.buffer (st.count * l.kind.entrySize)⟩)])).length =
          st.out.length + 1 := by
        rw [sentTo_append, sentTo_send, List.length_append, h.length, List.length_singleton]
      refine ⟨(kind_perPacket l).1, ?_, ?_, ?_⟩
      · simp only [sendCounted, List.length_append, List.length_singleton, UInt8.ofNat_add]
        rw [Id.c_setC _ _ _ (by omega), if_pos rfl, stampCount_c, if_neg (by omega), h.number]
        rfl
      · simp only [sendCounted, List.length_append, List.length_singleton]
        exact hlen
      · intro j p hp
        simp only [sendCounted, sentTo_append, sentTo_send, List.getElem?_append, h.length] at hp
        split at hp
        · exact h.sent j p hp
        · rename_i hj
          have hj0 : j - st.out.length = 0 := by
            by_contra hne
            rw [List.getElem?_eq_none (by simp only [List.length_singleton]; omega)] at hp
            cases hp
          rw [hj0, List.getElem?_cons_zero, Option.some.injEq] at hp
          subst hp
          have hper : st.count + 1 = l.kind.perPacket := by omega
          refine ⟨?_, ?_, ?_⟩
          · change (stampCount l.kind (st.count + 1) _).header.id.c 0 = _
            rw [stampCount_c, if_neg (by omega), show j = st.out.length by omega]
            exact h.number
          · change (stampCount l.kind (st.count + 1) _).header.id.c 2 = _
            rw [stampCount_c, if_pos rfl, hper]
          · change UInt16.ofNat ((st.count + 1) * l.kind.entrySize) = _
            rw [hper]
    · rename_i hroom
      exact ⟨by simpa using hroom, h.number, h.length, h.sent⟩
  · exact h

theorem foldl_listStep_numbered (is : List (Fin l.maximum)) (h : Numbered l c st) :
    Numbered l c (is.foldl (listStep l.kind c) st) := by
  induction is generalizing st with
  | nil => exact h
  | cons i is ih => exact ih (listStep_numbered h i)

theorem listEnd_numbered (l : ListName) (env : Env) (s : Server) (c : ClientIx) (q : UInt8) :
    Numbered l c (listEnd l env s c q) := by
  refine foldl_listStep_numbered _ ⟨(kind_perPacket l).1, ?_, rfl, fun j p hp => ?_⟩
  · simp only [listPacket]
    rw [Id.c_setC _ _ _ (by omega), if_neg (by omega), Id.c_setC _ _ _ (by omega), if_neg (by omega),
      Id.c_setC _ _ _ (by omega), if_neg (by omega), Id.c_setC _ _ _ (by omega), if_pos rfl]
    rfl
  · simp [sentTo] at hp

/-- The entries fill the packets sent, and the last one holds the rest. -/
theorem listEnd_total (l : ListName) (env : Env) (s : Server) (c : ClientIx) (q : UInt8) :
    (l.occupied s).length = (listEnd l env s c q).out.length * l.kind.perPacket + (listEnd l env s c q).count :=
  (listEnd_lockstep l env s c (b := ⟨some [], q, 0, 0, true, []⟩) rfl rfl rfl rfl).total

theorem listEnd_packets (l : ListName) (env : Env) (s : Server) (c : ClientIx) (q : UInt8) :
    (listEnd l env s c q).out.length = (l.occupied s).length / l.kind.perPacket := by
  rw [listEnd_total l env s c q, Nat.mul_comm, Nat.mul_add_div (kind_perPacket l).1,
    Nat.div_eq_of_lt (listEnd_numbered l env s c q).count, Nat.add_zero]

theorem reply_length (l : ListName) (env : Env) (s : Server) (c : ClientIx) (q : UInt8) :
    (reply l env s c q).length = (l.occupied s).length / l.kind.perPacket + 1 := by
  rw [reply_eq, List.length_append, (listEnd_numbered l env s c q).length, listEnd_packets, List.length_singleton]

/-- **The headers of a reply** do not depend on the stack where they matter. -/
theorem reply_at {env : Env} {j : Nat} {p : Packet} (hp : (reply l env s c q)[j]? = some p) :
    PacketAt l (l.occupied s).length q j p := by
  have hnum := listEnd_numbered l env s c q
  have hlock := listEnd_lockstep l env s c (b := ⟨some [], q, 0, 0, true, []⟩) rfl rfl rfl rfl
  have htotal := listEnd_total l env s c q
  have hpackets := listEnd_packets l env s c q
  have hcount := hnum.count
  have hmsg := (reply_header (List.mem_of_getElem? hp)).1
  rw [reply_eq, List.getElem?_append, hnum.length] at hp
  split at hp
  · rename_i hj
    obtain ⟨h0, h2, hsize⟩ := hnum.sent j p hp
    obtain ⟨h3, h4⟩ := hlock.sent p (List.mem_of_getElem? hp)
    have hfull : min l.kind.perPacket ((l.occupied s).length - j * l.kind.perPacket) = l.kind.perPacket := by
      have hle : (j + 1) * l.kind.perPacket ≤ (listEnd l env s c q).out.length * l.kind.perPacket :=
        Nat.mul_le_mul_right _ hj
      rw [Nat.succ_mul] at hle
      omega
    refine ⟨hmsg, h0, ?_, h3, ?_, ?_⟩
    · rw [hfull, h2]
    · rw [h4, if_neg (by omega)]
    · rw [hfull, hsize]
  · rename_i hj
    have hj' : j = (listEnd l env s c q).out.length := by
      by_contra hne
      rw [List.getElem?_eq_none (by simp only [List.length_singleton]; omega)] at hp
      cases hp
    subst hj'
    rw [Nat.sub_self, List.getElem?_cons_zero, Option.some.injEq] at hp
    subst hp
    have hrest : min l.kind.perPacket ((l.occupied s).length -
        (listEnd l env s c q).out.length * l.kind.perPacket) = (listEnd l env s c q).count := by
      omega
    have hc : ∀ k, k ≠ 2 → (stampCount l.kind (listEnd l env s c q).count (lastPacket l env s c q)).frame.header.id.c k =
        if k = 4 then 1 else (listEnd l env s c q).packet.header.id.c k := by
      intro k hk
      rw [← lastPacket_c]
      exact (stampCount_c _ _ k).trans (if_neg hk)
    refine ⟨hmsg, ?_, ?_, ?_, ?_, ?_⟩
    · rw [hc 0 (by omega), if_neg (by omega), hnum.number]
    · rw [hrest]
      exact (stampCount_c _ _ 2).trans (if_pos rfl)
    · rw [hc 3 (by omega), if_neg (by omega)]
      exact hlock.sequence
    · rw [hc 4 (by omega), if_pos rfl, if_pos hpackets]
    · rw [hrest]
      rfl

theorem reply_payload {env : Env} {p : Packet} (hp : p ∈ reply l env s c q) : p.payload = p.buffer := by
  obtain ⟨p', _, rfl⟩ := mem_sentTo hp
  exact payload_frame p'

/-- The size of a packet of a list survives the mask. -/
theorem arrival_payload_reply {env : Env} {p : Packet} (hp : p ∈ reply l env s c q) (beyond : List UInt8) :
    (p.arrival beyond).payload = p.buffer := by
  rw [Packet.arrival_payload, masked_eq_of_le (reply_header hp).2, ← reply_payload hp]
  exact (congrArg (Lib.Bytes.read · _) (reply_payload hp)).trans rfl

theorem processPacket_listed (env : ClientEnv) (cl : Connect) {p : Packet} (hmsg : p.header.msg = l.msg) :
    processPacket env cl p = (processList cl l p, []) := by
  cases l with
  | events => simp only [processPacket, hmsg, ListName.msg]
  | clients => simp only [processPacket, hmsg, ListName.msg]
  | channels => simp only [processPacket, hmsg, ListName.msg]

/-- Two packets in the same place of a list are taken alike when their entries are the same. -/
theorem PacketAt.accept_eq {n j : Nat} {p p' : Packet} {b : ListBuffer} {beyond : List UInt8} (h : PacketAt l n q j p)
    (h' : PacketAt l n q j p')
    (hpay : b.accepts p.header = true → (p.arrival beyond).payload = (p'.arrival beyond).payload) :
    b.accept l (p.arrival beyond) = b.accept l (p'.arrival beyond) := by
  have hacc : b.accepts p'.header = b.accepts p.header := by
    simp only [ListBuffer.accepts, h.sequence, h'.sequence, h.number, h'.number]
  have harr : ∀ p : Packet, b.accepts (p.arrival beyond).header = b.accepts p.header := by
    intro p
    simp only [ListBuffer.accepts, Packet.arrival_id]
  cases ha : b.accepts p.header with
  | false =>
    exact (ListBuffer.accept_rejected ((harr p).trans ha)).trans
      (ListBuffer.accept_rejected ((harr p').trans (hacc.trans ha))).symm
  | true =>
    have hp := hpay ha
    simp only [ListBuffer.accepts, Bool.and_eq_true, beq_iff_eq] at ha
    obtain ⟨mem, hmem⟩ := Option.isSome_iff_exists.mp ha.1.1
    have h3 : p'.header.id.c 3 = b.sequence := by rw [h'.sequence, ← h.sequence, ha.1.2]
    have h0 : p'.header.id.c 0 = b.waitPacket := by rw [h'.number, ← h.number, ha.2]
    rw [accept_next hmem (by rw [Packet.arrival_id]; exact ha.1.2) (by rw [Packet.arrival_id]; exact ha.2),
      accept_next hmem (by rw [Packet.arrival_id]; exact h3) (by rw [Packet.arrival_id]; exact h0), hp]
    simp only [Packet.arrival_id, h.count, h'.count, h.last, h'.last]

/-- A reply is unseen when the entries that are taken are the same. -/
theorem reply_blind {cenv : ClientEnv} {beyond : List UInt8} {cl : Connect} (env : Env)
    (hpay : ∀ (x x' : Scratch) (j : Nat) (p p' : Packet), (reply l (env.on x) s c q)[j]? = some p →
      (reply l (env.on x') s c q)[j]? = some p' → (cl.lists l).accepts p.header = true → p.buffer = p'.buffer) :
    Blind cenv beyond cl fun x => reply l (env.on x) s c q := by
  intro x x'
  apply List.ext_getElem?
  intro j
  rw [List.getElem?_map, List.getElem?_map]
  cases hp : (reply l (env.on x) s c q)[j]? with
  | none =>
    have hlen := List.getElem?_eq_none_iff.mp hp
    rw [reply_length] at hlen
    rw [List.getElem?_eq_none (by rw [reply_length]; exact hlen)]
  | some p =>
    have hlen := (List.getElem?_eq_some_iff.mp hp).1
    rw [reply_length, ← reply_length l (env.on x') s c q] at hlen
    obtain ⟨p', hp'⟩ : ∃ p', (reply l (env.on x') s c q)[j]? = some p' := ⟨_, List.getElem?_eq_getElem hlen⟩
    have hat := reply_at hp
    have hat' := reply_at hp'
    have haccept : (cl.lists l).accept l (p.arrival beyond) = (cl.lists l).accept l (p'.arrival beyond) := by
      refine hat.accept_eq hat' fun ha => ?_
      rw [arrival_payload_reply (List.mem_of_getElem? hp), arrival_payload_reply (List.mem_of_getElem? hp')]
      exact hpay x x' j p p' hp hp' ha
    rw [hp', Option.map_some, Option.map_some, processPacket_listed _ _ ((p.arrival_msg _).trans hat.msg),
      processPacket_listed _ _ ((p'.arrival_msg _).trans hat'.msg), processList, processList, haccept]

/-! ### Entries that are stored as a whole -/

/-- Two replies under way whose entries are the same. -/
structure Alike (l : ListName) (c : ClientIx) (st st' : ListState) : Prop where
  server : st.server = st'.server
  count : st.count = st'.count
  room : st.count < l.kind.perPacket
  filled : Lib.Bytes.read st.packet.buffer (st.count * l.entrySize) =
    Lib.Bytes.read st'.packet.buffer (st.count * l.entrySize)
  sent : (sentTo c st.out).map Packet.buffer = (sentTo c st'.out).map Packet.buffer

theorem fill_alike (hl : l ≠ .events) (s : Server) (i : Fin l.maximum) {buf buf' : List UInt8} {n : Nat}
    (h : Lib.Bytes.read buf (n * l.entrySize) = Lib.Bytes.read buf' (n * l.entrySize)) :
    Lib.Bytes.read (l.kind.fill s i buf (n * l.kind.entrySize)) ((n + 1) * l.entrySize) =
      Lib.Bytes.read (l.kind.fill s i buf' (n * l.kind.entrySize)) ((n + 1) * l.entrySize) := by
  have hwrite : ∀ bytes : List UInt8, bytes.length = l.entrySize →
      Lib.Bytes.read (write buf (n * l.entrySize) bytes) ((n + 1) * l.entrySize) =
        Lib.Bytes.read (write buf' (n * l.entrySize) bytes) ((n + 1) * l.entrySize) := by
    intro bytes hlen
    have hat := read_write_at buf (n * l.entrySize) bytes
    have hat' := read_write_at buf' (n * l.entrySize) bytes
    rw [hlen, ← Nat.succ_mul] at hat hat'
    rw [hat, hat', h]
  rw [kind_entrySize]
  cases l with
  | events => exact absurd rfl hl
  | clients => exact hwrite _ (by simp [clientInfoBytes, ListName.entrySize])
  | channels => exact hwrite _ (by simp [channelInfoBytes, ListName.entrySize])

theorem listStep_alike (hl : l ≠ .events) (h : Alike l c st st') (i : Fin l.maximum) :
    Alike l c (listStep l.kind c st i) (listStep l.kind c st' i) := by
  have hfill := fill_alike hl st.server i h.filled
  have hroom := h.room
  unfold listStep
  rw [← h.server, ← h.count]
  split
  · simp only
    split
    · rename_i hfull
      refine ⟨rfl, rfl, (kind_perPacket l).1, ?_, ?_⟩
      · simp only [Nat.zero_mul, read_zero]
      · simp only [sendCounted, sentTo_append, sentTo_send, List.map_append, List.map_cons, List.map_nil, h.sent,
          Packet.frame, stampCount_payload _ (show st.count + 1 ≤ l.kind.perPacket by omega), hfill]
    · rename_i hnot
      exact ⟨rfl, rfl, by simpa using hnot, hfill, h.sent⟩
  · exact ⟨h.server, h.count, h.room, h.filled, h.sent⟩

theorem foldl_listStep_alike (hl : l ≠ .events) (is : List (Fin l.maximum)) (h : Alike l c st st') :
    Alike l c (is.foldl (listStep l.kind c) st) (is.foldl (listStep l.kind c) st') := by
  induction is generalizing st st' with
  | nil => exact h
  | cons i is ih => exact ih (listStep_alike hl h i)

theorem reply_alike (hl : l ≠ .events) (env env' : Env) (s : Server) (c : ClientIx) (q : UInt8) :
    (reply l env s c q).map Packet.buffer = (reply l env' s c q).map Packet.buffer := by
  have hend : Alike l c (listEnd l env s c q) (listEnd l env' s c q) :=
    foldl_listStep_alike hl _ ⟨rfl, rfl, (kind_perPacket l).1, by simp only [Nat.zero_mul, read_zero], rfl⟩
  have hlast : ∀ env : Env, (lastPacket l env s c q).buffer = (listEnd l env s c q).packet.buffer := by
    intro env
    simp only [lastPacket]
  have hroom' := hend.room
  rw [hend.count] at hroom'
  rw [reply_eq, reply_eq, List.map_append, List.map_append, hend.sent, List.map_singleton, List.map_singleton,
    Packet.frame, Packet.frame, stampCount_payload _ hend.room.le, stampCount_payload _ hroom'.le, hlast, hlast,
    hend.filled, hend.count]

theorem reply_blind_of_ne {cenv : ClientEnv} {beyond : List UInt8} {cl : Connect} (hl : l ≠ .events) (env : Env) :
    Blind cenv beyond cl fun x => reply l (env.on x) s c q := by
  refine reply_blind env fun x x' j p p' hp hp' _ => ?_
  have hmap := congrArg (fun bs => bs[j]?) (reply_alike hl (env.on x) (env.on x') s c q)
  simp only [List.getElem?_map, hp, hp', Option.map_some, Option.some.injEq] at hmap
  exact hmap

/-! ### Entries of events -/

/-- The bytes of `time` in the first entry of a packet. -/
def timeBytes (p : Packet) : List UInt8 := slice p.buffer 70 8

/-- `time` is still what it was on the stack. -/
structure Stale (c : ClientIx) (x : Packet) (st : ListState) : Prop where
  count : st.count < eventKind.perPacket
  filled : timeBytes st.packet = timeBytes x
  sent : ∀ p ∈ sentTo c st.out, timeBytes p = timeBytes x

/-- No store into an entry reaches `time`. -/
theorem fillEventInfo_time (ev : Event) (buf : List UInt8) (n : Nat) :
    slice (fillEventInfo ev buf (n * 90)) 70 8 = slice buf 70 8 := by
  have h4 : ∀ w : UInt32, (leBytes 4 w.toNat).length = 4 := fun w => length_leBytes _ _
  have h2 : (leBytes 2 ev.dataSize.toUInt16.toNat).length = 2 := length_leBytes _ _
  have hi := ev.id.length_bytes
  have hdata : (Lib.Bytes.read ev.data (min ev.dataSize.toNat variableInfoSizeMaximum)).length ≤ 32 := by
    rw [length_read]
    exact Nat.min_le_right _ _
  cases n with
  | zero => simp (disch := grind) only [fillEventInfo, slice_write_of_disjoint]
  | succ n => exact fillEventInfo_before ev buf (by omega)

/-- The frame of a packet with an entry shows `time`. -/
theorem timeBytes_frame (n : Nat) (hn : 0 < n) (hle : n ≤ eventKind.perPacket) (p : Packet) :
    timeBytes (stampCount eventKind n p).frame = timeBytes p := by
  have hpay : (stampCount eventKind n p).payload = Lib.Bytes.read p.buffer (n * 90) :=
    stampCount_payload (l := .events) p hle
  rw [timeBytes, Packet.frame, hpay, slice_read _ (by omega), timeBytes]

theorem listStep_stale {x : Packet} (h : Stale c x st) (i : EventIx) : Stale c x (listStep eventKind c st i) := by
  have hcount := h.count
  have htime : ∀ hd : Header, timeBytes ⟨hd, eventKind.fill st.server i st.packet.buffer (st.count * eventKind.entrySize)⟩ =
      timeBytes x := fun _ => (fillEventInfo_time _ _ _).trans h.filled
  unfold listStep
  split
  · simp only
    split
    · refine ⟨(kind_perPacket .events).1, htime _, ?_⟩
      intro p hp
      simp only [sendCounted, sentTo_append, sentTo_send, List.mem_append, List.mem_singleton] at hp
      rcases hp with hp | rfl
      · exact h.sent p hp
      · rw [timeBytes_frame _ (Nat.succ_pos _) hcount]
        exact htime _
    · rename_i hroom
      exact ⟨by simpa using hroom, htime _, h.sent⟩
  · exact h

theorem foldl_listStep_stale {x : Packet} (is : List EventIx) (h : Stale c x st) :
    Stale c x (is.foldl (listStep eventKind c) st) := by
  induction is generalizing st with
  | nil => exact h
  | cons i is ih => exact ih (listStep_stale h i)

/-- **Every packet of the event list with an entry** carries eight bytes of the stack. -/
theorem reply_time {env : Env} {j : Nat} {p : Packet} (hp : (reply .events env s c q)[j]? = some p)
    (hj : 5 * j < (ListName.events.occupied s).length) : timeBytes p = timeBytes env.stack := by
  have hend : Stale c env.stack (listEnd .events env s c q) :=
    foldl_listStep_stale _ ⟨(kind_perPacket .events).1, rfl, fun p hp => by simp [sentTo] at hp⟩
  have hnum := listEnd_numbered .events env s c q
  have htotal := listEnd_total .events env s c q
  have hper : ListName.events.kind.perPacket = 5 := by decide
  rw [hper] at htotal
  rw [reply_eq, List.getElem?_append, hnum.length] at hp
  split at hp
  · exact hend.sent p (List.mem_of_getElem? hp)
  · rename_i hout
    have hlast : (lastPacket .events env s c q).buffer = (listEnd .events env s c q).packet.buffer := by
      simp only [lastPacket]
    have hp' := List.mem_of_getElem? hp
    rw [List.mem_singleton] at hp'
    rw [hp']
    refine (timeBytes_frame _ (by omega) hend.count.le _).trans ?_
    rw [← hend.filled, timeBytes, hlast, timeBytes]

/-- The packet that is awaited is in the reply. -/
theorem exists_awaited (env : Env) (c : ClientIx) (q : UInt8) {j : Nat} (hj : (ListName.events.occupied s).length > 5 * j) :
    ∃ p, (reply .events env s c q)[j]? = some p := by
  have hper : ListName.events.kind.perPacket = 5 := by decide
  refine ⟨_, List.getElem?_eq_getElem ?_⟩
  rw [reply_length, hper]
  omega

/-- A packet of a list that is awaited is stored, whatever the place. -/
theorem stored_of_awaited {cenv : ClientEnv} {beyond : List UInt8} {cl : Connect} {env : Env} {mem : List UInt8}
    {p : Packet} (hmem : (cl.lists l).info = some mem) (hseq : (cl.lists l).sequence = q)
    (hp : (reply l env s c q)[(cl.lists l).waitPacket.toNat]? = some p) :
    (((processPacket cenv cl (p.arrival beyond)).1.lists l).front,
        ((processPacket cenv cl (p.arrival beyond)).1.lists l).info) =
      ((writeAround (cl.lists l).front mem ((cl.lists l).recv * l.entrySize) p.buffer).1,
        some (writeAround (cl.lists l).front mem ((cl.lists l).recv * l.entrySize) p.buffer).2) := by
  have hat := reply_at hp
  have h3 : (p.arrival beyond).header.id.c 3 = (cl.lists l).sequence := by
    rw [Packet.arrival_id, hat.sequence, hseq]
  have h0 : (p.arrival beyond).header.id.c 0 = (cl.lists l).waitPacket := by
    rw [Packet.arrival_id, hat.number, UInt8.ofNat_toNat]
  rw [processPacket_listed _ _ ((p.arrival_msg _).trans hat.msg), processList, Connect.setList_same,
    accept_next hmem h3 h0, arrival_payload_reply (List.mem_of_getElem? hp)]

/-- Packets in the same place of two replies have the same length. -/
theorem length_buffer_eq {env env' : Env} {j : Nat} {p p' : Packet} (hp : (reply l env s c q)[j]? = some p)
    (hp' : (reply l env' s c q)[j]? = some p') : p.buffer.length = p'.buffer.length := by
  rw [← reply_payload (List.mem_of_getElem? hp), ← reply_payload (List.mem_of_getElem? hp'), Packet.payload,
    Packet.payload, length_read, length_read, (reply_at hp).size, (reply_at hp').size]

/-- A packet of the event list that is taken, and has an entry, shows its `time`. -/
theorem reply_events_seen {cenv : ClientEnv} {beyond : List UInt8} {cl : Connect} {env : Env}
    (hinfo : (cl.lists .events).info ≠ none) (hseq : (cl.lists .events).sequence = q)
    (hmore : (ListName.events.occupied s).length > 5 * (cl.lists .events).waitPacket.toNat) :
    ¬ Blind cenv beyond cl fun x => reply .events (env.on x) s c q := by
  intro h
  obtain ⟨mem, hmem⟩ := Option.ne_none_iff_exists'.mp hinfo
  have htime : ∀ x x' : Scratch, timeBytes x.1 = timeBytes x'.1 := by
    intro x x'
    obtain ⟨p, hp⟩ := exists_awaited (env.on x) c q hmore
    obtain ⟨p', hp'⟩ := exists_awaited (env.on x') c q hmore
    have heq := congrArg (fun rs => rs[(cl.lists .events).waitPacket.toNat]?) (h x x')
    simp only [List.getElem?_map, hp, hp', Option.map_some, Option.some.injEq] at heq
    have hstored := congrArg (fun r => ((r.1.lists .events).front, (r.1.lists .events).info)) heq
    simp only [stored_of_awaited hmem hseq hp, stored_of_awaited hmem hseq hp', Prod.mk.injEq, Option.some.injEq]
      at hstored
    have hbuffer : p.buffer = p'.buffer :=
      writeAround_inj (length_buffer_eq hp hp') (Prod.ext hstored.1 hstored.2)
    calc timeBytes x.1 = timeBytes p := (reply_time hp hmore).symm
      _ = timeBytes p' := by rw [timeBytes, hbuffer, timeBytes]
      _ = timeBytes x'.1 := reply_time hp' hmore
  have hones := htime (.filled 0 0) (.filled 0 1)
  exact absurd hones (by decide +kernel)

/-- A packet of the event list that is taken, but has no entry, shows nothing. -/
theorem reply_events_unseen {cenv : ClientEnv} {beyond : List UInt8} {cl : Connect} (env : Env)
    (h : (cl.lists .events).info = none ∨ (cl.lists .events).sequence ≠ q ∨
      (ListName.events.occupied s).length ≤ 5 * (cl.lists .events).waitPacket.toNat) :
    Blind cenv beyond cl fun x => reply .events (env.on x) s c q := by
  have hper : ListName.events.kind.perPacket = 5 := by decide
  refine reply_blind env fun x x' j p p' hp hp' hacc => ?_
  have hat := reply_at hp
  simp only [ListBuffer.accepts, Bool.and_eq_true, beq_iff_eq] at hacc
  have hempty : (ListName.events.occupied s).length ≤ 5 * j := by
    have hj : j < 256 := by
      have hlen := (List.getElem?_eq_some_iff.mp hp).1
      have hmax := occupied_length_le .events s
      have hmaximum : ListName.events.maximum = 256 := rfl
      rw [reply_length, hper] at hlen
      omega
    have hw : (cl.lists .events).waitPacket.toNat = j := by
      rw [← hacc.2, hat.number, UInt8.toNat_ofNat', Nat.mod_eq_of_lt hj]
    rcases h with hnone | hseq | hle
    · rw [hnone] at hacc
      exact absurd hacc.1.1 (by simp)
    · exact absurd (hacc.1.2.symm.trans hat.sequence) hseq
    · rwa [hw] at hle
  have hzero : p.buffer.length = 0 := by
    rw [← reply_payload (List.mem_of_getElem? hp), Packet.payload, length_read, hat.size, hper,
      show min 5 ((ListName.events.occupied s).length - j * 5) = 0 by omega, Nat.zero_mul]
    rfl
  have hzero' := (length_buffer_eq hp hp').symm.trans hzero
  rw [List.length_eq_zero_iff.mp hzero, List.length_eq_zero_iff.mp hzero']

/-- **When the event list is unseen**: it is not expected, or the packets that would be taken have no entry. -/
theorem reply_events_blind_iff {cenv : ClientEnv} {beyond : List UInt8} {cl : Connect} (env : Env) :
    (Blind cenv beyond cl fun x => reply .events (env.on x) s c q) ↔
      (cl.lists .events).info = none ∨ (cl.lists .events).sequence ≠ q ∨
        (ListName.events.occupied s).length ≤ 5 * (cl.lists .events).waitPacket.toNat := by
  refine ⟨fun h => ?_, reply_events_unseen env⟩
  by_contra hnot
  simp only [not_or, not_not, Nat.not_le] at hnot
  obtain ⟨hinfo, hseq, hmore⟩ := hnot
  exact reply_events_seen hinfo hseq hmore h

end Lists

/-! ## All packets of the server -/

/-- **When a client sees nothing of the server's stack**, for each kind of packet the server sends. -/
theorem stack_unseen_iff (sid : List UInt8) (acts : List Act) (env : Env) (cenv : ClientEnv) (beyond : List UInt8)
    (cl : Connect) (c : ClientIx) (q : UInt8) :
    (∀ e flags, (Blind cenv beyond cl fun x =>
        [eventPacket (env.on x) (run act (serverCreate sid) acts).1 ((run act (serverCreate sid) acts).1.events e) flags]) ↔
      cl.findEvent ((run act (serverCreate sid) acts).1.events e).id = none) ∧
    (∀ e, (Blind cenv beyond cl fun x => [resendPacket (env.on x) ((run act (serverCreate sid) acts).1.events e)]) ↔
      cl.findEvent ((run act (serverCreate sid) acts).1.events e).id = none) ∧
    (∀ code, Blind cenv beyond cl fun x => [statusPacket (env.on x) (run act (serverCreate sid) acts).1 code]) ∧
    (∀ id, Blind cenv beyond cl fun x => [readPacket (env.on x) (run act (serverCreate sid) acts).1 id]) ∧
    (∀ id k, Blind cenv beyond cl fun x =>
      [ticketPacket (env.on x) id ((run act (serverCreate sid) acts).1.channels k)]) ∧
    (Blind cenv beyond cl fun x => reply .clients (env.on x) (run act (serverCreate sid) acts).1 c q) ∧
    (Blind cenv beyond cl fun x => reply .channels (env.on x) (run act (serverCreate sid) acts).1 c q) ∧
    ((Blind cenv beyond cl fun x => reply .events (env.on x) (run act (serverCreate sid) acts).1 c q) ↔
      (cl.lists .events).info = none ∨ (cl.lists .events).sequence ≠ q ∨
        (ListName.events.occupied (run act (serverCreate sid) acts).1).length ≤
          5 * (cl.lists .events).waitPacket.toNat) := by
  have htyped := fun e => ((run_tableInv sid acts).slots e).typed
  generalize (run act (serverCreate sid) acts).1 = s at htyped ⊢
  exact ⟨fun e flags => eventPacket_blind_iff env s (htyped e) flags, fun e => resendPacket_blind_iff env _,
    fun code => statusPacket_blind env s code, fun id => readPacket_blind env s id,
    fun id k => ticketPacket_blind env id _, reply_blind_of_ne (by decide) env, reply_blind_of_ne (by decide) env,
    reply_events_blind_iff env⟩

/-- One client subscribes to `a` and another writes it. -/
def watchedRun (x : Scratch) : List Act :=
  [.accept (some (3, ⟨1, 2⟩)), .accept (some (4, ⟨5, 6⟩)),
    .packet (Env.calm.on x) 0 (Packet.make (Msg.subscribe.code ||| typeForce) (idstr [97]) []),
    .packet (Env.calm.on x) 1 (Packet.make Msg.write.code (idstr [97]) [7])]

/-- The subscriber. -/
def watcher : Connect := (run clientAct (connectCreate [] []) [.subscribe .calm 0 [97] (some 7) 9]).1

/-- The subscriber keeps a counter that was on the server's stack. -/
theorem watchedRun_seen :
    ¬ Blind .calm [] watcher fun x => sentTo 0 (run act (serverCreate []) (watchedRun x)).2 := by
  intro h
  have heq := congrArg (List.map fun r => (r.1.events 0).updateCounter)
    (h (.filled 5 0) (.filled 6 0))
  exact absurd heq (by decide +kernel)

end SyncScribe
