import SyncScribe.Server.Session
import SyncScribe.Server.Output
import SyncScribe.Client.Process

/-!
The packet format on the wire. Every sender of either side computes the number of
bytes it sends on its own; for all of them it is that of the header and of
`data_size` more (`clientSender_framed`, `serverSender_framed`). So a stream of
such packets, with bytes other than `S` between them, is received as these packets
(`turns_arrived`).
-/

namespace SyncScribe
open Lib Lib.Bytes

/-- The bytes `syncs_client_send` transmits: `SYNCS_PACKET_SIZE` of the packet. -/
def Packet.wire (p : Packet) : List UInt8 := read (p.header.encode ++ p.buffer) p.size

/-- The bytes `syncs_connect_send` transmits. -/
def Outgoing.wire (o : Outgoing) : List UInt8 := read (o.packet.header.encode ++ o.packet.buffer) o.size

/-- `bytes` are the packet `p`: its header and the payload the header announces. -/
structure Framed (p : Packet) (bytes : List UInt8) : Prop where
  magic : p.header.magic = packetMagic
  magicData : p.header.magicData = packetMagicData
  size : p.header.dataSize.toNat ≤ variableSizeMaximum
  bytes : bytes = p.header.encode ++ p.payload

theorem read_encode (h : Header) (buf : List UInt8) (n : Nat) :
    read (h.encode ++ buf) (headerSize + n) = h.encode ++ read buf n := by
  have hlen := h.length_encode
  unfold Lib.Bytes.read
  rw [List.append_assoc, ← hlen, List.take_length_add_append, List.take_append, List.take_append,
    List.take_replicate, List.take_replicate]
  congr 3
  omega

/-! ## Scanning a stream of packets -/

section Stream

variable {p : Packet} {bytes : List UInt8}

theorem Framed.length (h : Framed p bytes) : bytes.length = headerSize + p.header.dataSize.toNat := by
  rw [h.bytes, List.length_append, Header.length_encode, Packet.payload, length_read]

theorem Framed.decode (h : Framed p bytes) (more : List UInt8) : Header.decode (bytes ++ more) = p.header := by
  rw [h.bytes, List.append_assoc, decode_encode]

theorem Framed.masked (h : Framed p bytes) : p.header.masked = p.header := masked_eq_of_le h.size

theorem Framed.marked (h : Framed p bytes) (more : List UInt8) : SyncScribe.marked (bytes ++ more) := by
  rw [SyncScribe.marked, h.decode]
  exact ⟨h.magic, h.magicData⟩

theorem Framed.frameLength (h : Framed p bytes) (more : List UInt8) :
    SyncScribe.frameLength (bytes ++ more) = bytes.length := by
  rw [SyncScribe.frameLength, h.decode, h.masked, h.length]

/-- The packet at the head of a buffer. -/
theorem Framed.packets (h : Framed p bytes) (more : List UInt8) :
    SyncScribe.packets (bytes ++ more) = p.frame :: SyncScribe.packets more := by
  have hlen : headerSize ≤ (bytes ++ more).length := by
    rw [List.length_append, h.length]
    omega
  have hlook := packetLook_emit_iff.mpr
    ⟨hlen, h.marked more, by rw [h.frameLength, List.length_append]; omega, rfl, rfl⟩
  rw [(packets_of_emit hlook).1, h.frameLength, List.drop_left, h.decode, h.masked]
  congr 1
  have hpay : p.payload.length = p.header.dataSize.toNat := length_read _ _
  rw [Packet.frame, h.bytes, List.append_assoc, ← Header.length_encode p.header, List.drop_left, ← hpay,
    List.take_left]

/-- An incomplete packet at the end of a buffer, behind bytes that start none. -/
theorem Framed.packets_take (h : Framed p bytes) {noise : List UInt8} (hn : packetMagic ∉ noise)
    (more : List UInt8) {t : Nat} (ht : t < (noise ++ bytes).length) :
    SyncScribe.packets ((noise ++ (bytes ++ more)).take t) = [] := by
  have h60 : headerSize = 60 := rfl
  rw [List.length_append] at ht
  by_cases hhead : t < noise.length + headerSize
  · -- no `S` has a whole header behind it
    rw [List.eq_nil_iff_forall_not_mem]
    intro q hq
    obtain ⟨k, hk, hroom⟩ := exists_magic_of_mem_packets hq
    rw [List.length_take] at hroom
    rw [List.getElem?_take, if_pos (by omega), List.getElem?_append_left (by omega)] at hk
    exact hn (List.mem_of_getElem? hk)
  · -- the header is complete and the payload is not
    have hsplit : (noise ++ (bytes ++ more)).take t = noise ++ bytes.take (t - noise.length) := by
      rw [List.take_append, List.take_of_length_le (by omega), List.take_append_of_le_length (by omega)]
    have hlen : (bytes.take (t - noise.length)).length = t - noise.length := by
      rw [List.length_take]
      omega
    have hrest : bytes.take (t - noise.length) ++ bytes.drop (t - noise.length) = bytes ++ [] := by
      rw [List.take_append_drop, List.append_nil]
    have hm : SyncScribe.marked (bytes.take (t - noise.length)) := by
      rw [← marked_append (bytes.drop (t - noise.length)) (by omega), hrest]
      exact h.marked []
    have hf : SyncScribe.frameLength (bytes.take (t - noise.length)) = bytes.length := by
      rw [← frameLength_append (bytes.drop (t - noise.length)) (by omega), hrest, h.frameLength]
    rw [hsplit, (packets_quiet_append hn (by omega)).1]
    exact (packets_of_wait (packetLook_wait_iff.mpr (Or.inr ⟨hm, by omega⟩))).1

/-- A message: bytes that start no packet, then the packet. -/
structure Message where
  noise : List UInt8
  packet : Packet
  wire : List UInt8

/-- The messages one after the other, and bytes behind the last one. -/
def stream : List Message → List UInt8 → List UInt8
  | [], tail => tail
  | m :: ms, tail => m.noise ++ (m.wire ++ stream ms tail)

/-- The packets that are complete in the first `t` bytes of the stream. -/
def arrived : Nat → List Message → List Packet
  | _, [] => []
  | t, m :: ms =>
    if t < (m.noise ++ m.wire).length then []
    else m.packet.frame :: arrived (t - (m.noise ++ m.wire).length) ms

/-- Every message is a packet behind bytes without an `S`. -/
def Proper (ms : List Message) : Prop := ∀ m ∈ ms, packetMagic ∉ m.noise ∧ Framed m.packet m.wire

theorem packets_take_stream (ms : List Message) (tail : List UInt8) (h : Proper ms)
    (htail : packetMagic ∉ tail) (t : Nat) :
    SyncScribe.packets ((stream ms tail).take t) = arrived t ms := by
  induction ms generalizing t with
  | nil =>
    rw [stream, arrived, List.eq_nil_iff_forall_not_mem]
    intro q hq
    obtain ⟨k, hk, _⟩ := exists_magic_of_mem_packets hq
    exact htail (List.mem_of_mem_take (List.mem_of_getElem? hk))
  | cons m ms ih =>
    obtain ⟨hn, hf⟩ := h m (by simp)
    rw [stream, arrived]
    split
    · rename_i ht
      exact hf.packets_take hn _ ht
    · rename_i ht
      rw [Nat.not_lt, List.length_append] at ht
      have hlen := hf.length
      have hsplit : (m.noise ++ (m.wire ++ stream ms tail)).take t =
          m.noise ++ (m.wire ++ (stream ms tail).take (t - (m.noise.length + m.wire.length))) := by
        rw [List.take_append, List.take_of_length_le (by omega), List.take_append,
          List.take_of_length_le (by omega), Nat.sub_sub]
      rw [hsplit, (packets_quiet_append hn (by rw [List.length_append]; omega)).1, hf.packets,
        ih (fun m' hm' => h m' (by simp [hm'])), List.length_append]

theorem arrived_of_le (ms : List Message) (tail : List UInt8) {t : Nat} (ht : (stream ms tail).length ≤ t) :
    arrived t ms = ms.map fun m => m.packet.frame := by
  induction ms generalizing t with
  | nil => rfl
  | cons m ms ih =>
    simp only [stream, List.length_append] at ht
    rw [arrived, if_neg (by rw [List.length_append]; omega), List.map_cons,
      ih (by rw [List.length_append]; omega)]

end Stream

/-! ## Receiving a stream of packets -/

section Receive

variable (ends : Packet → Bool)

/-- A connection reads what arrives up to its end. -/
theorem reads_prefix (b : List UInt8) (chunks : List (List UInt8)) (hlong : ∀ x ∈ chunks, headerSize ≤ x.length) :
    (connTurns ends (some b) (chunks.map .data)).reads <+: chunks ∧
      ((connTurns ends (some b) (chunks.map .data)).reads = chunks ∨
        ∃ p ∈ (connTurns ends (some b) (chunks.map .data)).dispatched, ends p = true) := by
  induction chunks generalizing b with
  | nil => exact ⟨List.prefix_rfl, Or.inl rfl⟩
  | cons x chunks ih =>
    simp only [List.mem_cons, forall_eq_or_imp] at hlong
    have hne : x ≠ [] := by
      rintro rfl
      exact absurd hlong.1 (by decide)
    rw [List.map_cons, connTurns_cons]
    simp only [Turns.reads, if_neg hne, Turns.dispatched, List.flatMap_cons, connStep,
      if_neg (Nat.not_lt.mpr hlong.1), List.mem_append]
    by_cases hend : (packets (b ++ x)).any ends = true
    · rw [if_pos hend, connTurns_none]
      obtain ⟨p, hp, hpe⟩ := List.any_eq_true.mp hend
      exact ⟨List.prefix_cons_inj x |>.mpr List.nil_prefix, Or.inr ⟨p, Or.inl hp, hpe⟩⟩
    · rw [if_neg hend]
      obtain ⟨hpre, hor⟩ := ih (leftover (b ++ x)) hlong.2
      refine ⟨(List.prefix_cons_inj x).mpr hpre, ?_⟩
      rcases hor with heq | ⟨p, hp, hpe⟩
      · exact Or.inl (by rw [heq])
      · exact Or.inr ⟨p, Or.inr hp, hpe⟩

/-- **A stream of packets is received as these packets**: those that are complete in the bytes read,
and all bytes are read unless a packet ends the connection. -/
theorem turns_arrived (ms : List Message) (tail : List UInt8) (h : Proper ms) (htail : packetMagic ∉ tail)
    (chunks : List (List UInt8)) (hlong : ∀ x ∈ chunks, headerSize ≤ x.length)
    (hstream : chunks.flatten = stream ms tail) :
    (connTurns ends (some []) (chunks.map .data)).dispatched =
        arrived (connTurns ends (some []) (chunks.map .data)).reads.flatten.length ms ∧
      ((connTurns ends (some []) (chunks.map .data)).reads = chunks ∨
        ∃ p ∈ (connTurns ends (some []) (chunks.map .data)).dispatched, ends p = true) := by
  obtain ⟨hpre, hor⟩ := reads_prefix ends [] chunks hlong
  refine ⟨?_, hor⟩
  obtain ⟨rest, hrest⟩ := hpre
  have htake : (connTurns ends (some []) (chunks.map .data)).reads.flatten =
      (stream ms tail).take (connTurns ends (some []) (chunks.map .data)).reads.flatten.length := by
    have hcat : (connTurns ends (some []) (chunks.map .data)).reads.flatten ++ rest.flatten = stream ms tail := by
      rw [← List.flatten_append, hrest, hstream]
    rw [← hcat, List.take_left]
  rw [dispatched_eq_packets _ fun x hx => hlong x (hrest ▸ List.mem_append_left _ hx), htake,
    packets_take_stream ms tail h htail, ← htake]

/-- The whole list arrives where no packet of it ends the connection. -/
theorem turns_all (ms : List Message) (tail : List UInt8) (h : Proper ms) (htail : packetMagic ∉ tail)
    (chunks : List (List UInt8)) (hlong : ∀ x ∈ chunks, headerSize ≤ x.length)
    (hstream : chunks.flatten = stream ms tail) (hgo : ∀ m ∈ ms, ends m.packet.frame = false) :
    (connTurns ends (some []) (chunks.map .data)).dispatched = ms.map fun m => m.packet.frame := by
  obtain ⟨heq, hor⟩ := turns_arrived ends ms tail h htail chunks hlong hstream
  have hmem : ∀ (t : Nat) (ms : List Message), ∀ p ∈ arrived t ms, ∃ m ∈ ms, m.packet.frame = p := by
    intro t ms
    induction ms generalizing t with
    | nil => simp [arrived]
    | cons m ms ih =>
      intro p hp
      rw [arrived] at hp
      split at hp
      · cases hp
      · rcases List.mem_cons.mp hp with rfl | hp
        · exact ⟨m, by simp, rfl⟩
        · obtain ⟨m', hm', rfl⟩ := ih _ p hp
          exact ⟨m', by simp [hm'], rfl⟩
  have hreads := hor.resolve_right (by
    rintro ⟨p, hp, hpe⟩
    rw [heq] at hp
    obtain ⟨m, hm, rfl⟩ := hmem _ ms p hp
    rw [hgo m hm] at hpe
    cases hpe)
  rw [heq, hreads, hstream, arrived_of_le ms tail (Nat.le_refl _)]

end Receive

/-! ## Senders -/

/-- The packets of the client, each with the number of bytes sent; a written payload has at most 511
bytes. -/
inductive ClientSender : Outgoing → Prop
  | write (env : ClientEnv) (flags : UInt32) (cid : List UInt8) (data : Option (List UInt8)) (dataSize : UInt32)
      (h : (writeSize flags dataSize).toNat ≤ variableSizeMaximum) :
      ClientSender (writeRequest env flags cid data dataSize)
  | define (env : ClientEnv) (cid : List UInt8) (flags : UInt32) : ClientSender (defineRequest env cid flags)
  | undefine (env : ClientEnv) (cid : List UInt8) : ClientSender (undefineRequest env cid)
  | subscribe (env : ClientEnv) (id : Id) (flags : UInt32) (updateCounter : UInt64) :
      ClientSender (subscribeRequest env id flags updateCounter)
  | unsubscribe (env : ClientEnv) (id : Id) (flags : UInt32) : ClientSender (unsubscribeRequest env id flags)
  | clientId (env : ClientEnv) (id : Id) : ClientSender (clientIdRequest env id)
  | read (env : ClientEnv) (cid : List UInt8) (flags : UInt32) : ClientSender (readRequest env cid flags)
  | list (env : ClientEnv) (l : ListName) (sequence : UInt8) : ClientSender (listRequest env l sequence)
  | channelAnons (env : ClientEnv) (id : Id) (ticket : Ticket) : ClientSender (channelAnonsRequest env id ticket)
  | channelRequest (env : ClientEnv) (cid : List UInt8) : ClientSender (channelRequestRequest env cid)

/-- The packets of the server, for events with at most 511 bytes of data. -/
inductive ServerSender : Packet → Prop
  | event (env : Env) (s : Server) (ev : Event) (flags : UInt32) (h : ev.dataSize.toNat ≤ variableSizeMaximum) :
      ServerSender (eventPacket env s ev flags)
  | resend (env : Env) (ev : Event) (h : ev.dataSize.toNat ≤ variableSizeMaximum) :
      ServerSender (resendPacket env ev)
  | status (env : Env) (s : Server) (code : UInt64) : ServerSender (statusPacket env s code)
  | read (env : Env) (s : Server) (id : Id)
      (h : ∀ e, findEvent s id = some e → (s.events e).dataSize.toNat ≤ variableSizeMaximum) :
      ServerSender (readPacket env s id)
  | eventlist (env : Env) (s : Server) (c : ClientIx) (sequance : UInt8) (p : Packet)
      (h : .send c p ∈ (clientSendEventlist env s c sequance).2) : ServerSender p
  | clientlist (env : Env) (s : Server) (c : ClientIx) (sequance : UInt8) (p : Packet)
      (h : .send c p ∈ (clientSendClientlist env s c sequance).2) : ServerSender p
  | channellist (env : Env) (s : Server) (c : ClientIx) (sequance : UInt8) (p : Packet)
      (h : .send c p ∈ (clientSendChannellist env s c sequance).2) : ServerSender p
  | ticket (env : Env) (id : Id) (ch : Channel) : ServerSender (ticketPacket env id ch)

theorem Outgoing.framed {o : Outgoing} (hm : o.packet.header.magic = packetMagic)
    (hd : o.packet.header.magicData = packetMagicData)
    (hs : o.packet.header.dataSize.toNat ≤ variableSizeMaximum)
    (hsize : o.size = headerSize + o.packet.header.dataSize.toNat) : Framed o.packet o.wire :=
  ⟨hm, hd, hs, by rw [Outgoing.wire, hsize, read_encode, Packet.payload]⟩

/-- The twelve bits of `SYNCS_PACKET_SIZE` hold the sizes considered. -/
theorem Packet.framed {p : Packet} (hm : p.header.magic = packetMagic)
    (hd : p.header.magicData = packetMagicData) (hs : p.header.dataSize.toNat ≤ variableSizeMaximum) :
    Framed p p.wire := by
  have hmask : p.header.dataSize.toNat &&& packetSizeMask = p.header.dataSize.toNat := by
    rw [show packetSizeMask = 2 ^ 12 - 1 by decide, Nat.and_two_pow_sub_one_eq_mod, Nat.mod_eq_of_lt]
    simp only [variableSizeMaximum] at hs
    omega
  exact ⟨hm, hd, hs, by rw [Packet.wire, Packet.size, hmask, read_encode, Packet.payload]⟩

theorem closes_of_msg {p : Packet} {m : Msg} (h : p.header.msg = m) (hm : m ≠ .clientId) : p.closes = false := by
  simp [Packet.closes, Header.unsupported, h, hm]

/-- **Every sender of the client sends a packet**, and none that closes the connection. -/
theorem clientSender_framed {o : Outgoing} (h : ClientSender o) :
    Framed o.packet o.wire ∧ o.packet.closes = false := by
  have hzero : (0 : UInt16).toNat ≤ variableSizeMaximum := by decide
  cases h with
  | write env flags cid data dataSize hsize =>
    have hmsg : (writeRequest env flags cid data dataSize).packet.header.msg = .write := by
      unfold writeRequest
      dsimp only
      split
      · split <;> exact msg_request .write flags
      · exact msg_request .write flags
    refine ⟨?_, closes_of_msg hmsg (by decide)⟩
    unfold writeRequest
    dsimp only
    split
    · split
      · refine Outgoing.framed rfl rfl ?_ rfl
        simp only [variableSizeMaximum] at hsize ⊢
        rw [UInt32.toNat_toUInt16, UInt32.toNat_and]
        exact le_trans (Nat.mod_le _ _) Nat.and_le_right
      · exact Outgoing.framed rfl rfl hzero rfl
    · exact Outgoing.framed rfl rfl hzero rfl
  | define env cid flags =>
    exact ⟨Outgoing.framed rfl rfl hzero rfl, closes_of_msg (msg_request .define flags) (by decide)⟩
  | undefine env cid =>
    exact ⟨Outgoing.framed rfl rfl hzero rfl, closes_of_msg (Msg.ofWord_code .define) (by decide)⟩
  | subscribe env id flags updateCounter =>
    exact ⟨Outgoing.framed rfl rfl hzero rfl, closes_of_msg (msg_request .subscribe flags) (by decide)⟩
  | unsubscribe env id flags =>
    exact ⟨Outgoing.framed rfl rfl hzero rfl, closes_of_msg (msg_request .unsubscribe flags) (by decide)⟩
  | clientId env id =>
    refine ⟨Outgoing.framed rfl rfl hzero rfl, ?_⟩
    simp [Packet.closes, Header.unsupported, clientIdRequest]
  | read env cid flags =>
    exact ⟨Outgoing.framed rfl rfl hzero rfl,
      closes_of_msg (Msg.ofWord_or .read (and_and_eq_zero flags (by decide))) (by decide)⟩
  | list env l sequence =>
    exact ⟨Outgoing.framed rfl rfl hzero rfl,
      closes_of_msg (Msg.ofWord_code l.msg) (by cases l <;> decide)⟩
  | channelAnons env id ticket =>
    exact ⟨Outgoing.framed rfl rfl (show ticketSize ≤ _ by decide) rfl,
      closes_of_msg (Msg.ofWord_or .channel (y := SyncScribe.channelAnons) (by decide)) (by decide)⟩
  | channelRequest env cid =>
    exact ⟨Outgoing.framed rfl rfl hzero rfl,
      closes_of_msg (Msg.ofWord_or .channel (y := SyncScribe.channelRequest) (by decide)) (by decide)⟩

theorem listPacket_framed {n : Nat} {k : ListKind n} (hk : 0 < k.perPacket) {env : Env} {s : Server}
    {c : ClientIx} {sequance : UInt8} {p : Packet} (h : .send c p ∈ (sendList env k s c sequance).2) :
    Framed p p.wire := by
  obtain ⟨q, hq, hhead, hsize⟩ := sendList_out env hk s sequance _ h
  cases hq
  exact Packet.framed hhead.magic hhead.magicData hsize

/-- **Every sender of the server sends a packet.** -/
theorem serverSender_framed {p : Packet} (h : ServerSender p) : Framed p p.wire := by
  have hzero : (0 : UInt16).toNat ≤ variableSizeMaximum := by decide
  cases h with
  | event env s ev flags hsize =>
    have hfit : ev.dataSize.toUInt16.toNat ≤ variableSizeMaximum := by
      rw [toUInt16_toNat hsize]
      exact hsize
    unfold eventPacket
    dsimp only
    split
    · exact Packet.framed rfl rfl hfit
    · exact Packet.framed rfl rfl hfit
  | resend env ev hsize =>
    refine Packet.framed rfl rfl ?_
    exact (toUInt16_toNat hsize).symm ▸ hsize
  | status env s code => exact Packet.framed rfl rfl hzero
  | read env s id hsize =>
    unfold readPacket
    dsimp only
    split
    · rename_i e he
      refine Packet.framed rfl rfl ?_
      exact (toUInt16_toNat (hsize e he)).symm ▸ hsize e he
    · exact Packet.framed rfl rfl hzero
  | eventlist env s c sequance _ hp => exact listPacket_framed (by decide) hp
  | clientlist env s c sequance _ hp => exact listPacket_framed (by decide) hp
  | channellist env s c sequance _ hp => exact listPacket_framed (by decide) hp
  | ticket env id ch => exact Packet.framed rfl rfl (show ticketSize ≤ _ by decide)

/-! ## Both directions -/

/-- A packet of the client on the wire, behind some noise. -/
def clientMessage (m : List UInt8 × Outgoing) : Message := ⟨m.1, m.2.packet, m.2.wire⟩

/-- A packet of the server on the wire, behind some noise. -/
def serverMessage (m : List UInt8 × Packet) : Message := ⟨m.1, m.2, m.2.wire⟩

/-- Noise without an `S`, and a packet of a sender. -/
def FromClient (ms : List (List UInt8 × Outgoing)) : Prop :=
  ∀ m ∈ ms, packetMagic ∉ m.1 ∧ ClientSender m.2

def FromServer (ms : List (List UInt8 × Packet)) : Prop :=
  ∀ m ∈ ms, packetMagic ∉ m.1 ∧ ServerSender m.2

/-- `chunks` deliver the messages, each of them at least as long as a header. -/
structure Delivers (chunks : List (List UInt8)) (ms : List Message) : Prop where
  long : ∀ x ∈ chunks, headerSize ≤ x.length
  bytes : ∃ tail, packetMagic ∉ tail ∧ chunks.flatten = stream ms tail

theorem FromClient.proper {ms : List (List UInt8 × Outgoing)} (h : FromClient ms) :
    Proper (ms.map clientMessage) := by
  intro m hm
  obtain ⟨x, hx, rfl⟩ := List.mem_map.mp hm
  exact ⟨(h x hx).1, (clientSender_framed (h x hx).2).1⟩

theorem FromServer.proper {ms : List (List UInt8 × Packet)} (h : FromServer ms) :
    Proper (ms.map serverMessage) := by
  intro m hm
  obtain ⟨x, hx, rfl⟩ := List.mem_map.mp hm
  exact ⟨(h x hx).1, serverSender_framed (h x hx).2⟩

/-- **Decoding undoes encoding, also after noise.** The server dispatches what the client sent. The
client dispatches what the server sent as far as it reads: everything, unless it is told that its
version or its key is refused, and then the packets complete by the end of that read. -/
theorem decode_undoes_encode :
    (∀ (s : Server) (c : ClientIx), (s.clients c).tcp = true → (s.clients c).buffer = [] →
      ∀ ms, FromClient ms → ∀ chunks, Delivers chunks (ms.map clientMessage) →
      ∀ is, received c is = chunks.map .data →
        (session c s is).dispatched = ms.map fun m => m.2.packet.frame) ∧
    (∀ s : Connect, s.onexit = false →
      ∀ ms, FromServer ms → ∀ chunks, Delivers chunks (ms.map serverMessage) →
      ∀ rs, rs.map ClientRead.result = chunks.map .data →
        (recvTurns ⟨s, [], false⟩ rs).dispatched =
            arrived (recvTurns ⟨s, [], false⟩ rs).reads.flatten.length (ms.map serverMessage) ∧
          ((recvTurns ⟨s, [], false⟩ rs).reads = chunks ∨
            ∃ p ∈ (recvTurns ⟨s, [], false⟩ rs).dispatched, p.stops = true) ∧
          ((∀ m ∈ ms, m.2.stops = false) →
            (recvTurns ⟨s, [], false⟩ rs).dispatched = ms.map fun m => m.2.frame)) := by
  refine ⟨?_, ?_⟩
  · intro s c htcp hbuf ms hms chunks hdel is his
    obtain ⟨tail, htail, hstream⟩ := hdel.bytes
    have hconn : s.connection c = some [] := by simp [Server.connection, htcp, hbuf]
    have hgo : ∀ m ∈ ms.map clientMessage, m.packet.frame.closes = false := by
      intro m hm
      obtain ⟨x, hx, rfl⟩ := List.mem_map.mp hm
      exact (clientSender_framed (hms x hx).2).2
    rw [session_eq_connTurns, hconn, his, turns_all _ _ tail hms.proper htail chunks hdel.long hstream hgo,
      List.map_map]
    rfl
  · intro s hexit ms hms chunks hdel rs hrs
    obtain ⟨tail, htail, hstream⟩ := hdel.bytes
    have hconn : (⟨s, [], false⟩ : Receiver).connection = some [] := by
      simp [Receiver.connection, Receiver.reading, hexit]
    rw [recvTurns_eq_connTurns, hconn, hrs]
    obtain ⟨harr, hor⟩ := turns_arrived Packet.stops _ tail hms.proper htail chunks hdel.long hstream
    refine ⟨harr, hor, ?_⟩
    intro hno
    have hgo : ∀ m ∈ ms.map serverMessage, m.packet.frame.stops = false := by
      intro m hm
      obtain ⟨x, hx, rfl⟩ := List.mem_map.mp hm
      exact hno x hx
    rw [turns_all _ _ tail hms.proper htail chunks hdel.long hstream hgo, List.map_map]
    rfl

/-- A subscription and a write of the client, with noise between them, in one read. -/
def requestsSent : List (List UInt8 × Outgoing) :=
  [([], subscribeRequest .calm (idstr [97]) typeVarAny 0),
    ([1, 2], writeRequest .calm typeVarString [97] (some [83, 68, 0]) 3)]

theorem requestsSent_dispatched :
    (session 0 (run handleStep (serverCreate []) [.accept (some (3, ⟨1, 2⟩))]).1
        [.tcp (fun _ => .calm) 0 (.data (stream (requestsSent.map clientMessage) []))]).dispatched =
      requestsSent.map fun m => m.2.packet.frame := by
  refine decode_undoes_encode.1 _ 0 (by decide +kernel) (by decide +kernel) requestsSent ?_
    [stream (requestsSent.map clientMessage) []] ⟨by decide +kernel, [], by simp, by simp⟩ _ rfl
  intro m hm
  simp only [requestsSent, List.mem_cons, List.not_mem_nil, or_false] at hm
  rcases hm with rfl | rfl
  · exact ⟨by simp, .subscribe _ _ _ _⟩
  · exact ⟨by decide, .write .calm typeVarString [97] (some [83, 68, 0]) 3 (by decide)⟩

/-- The server refuses the version of a client and then reports success, in two reads. -/
theorem refused_client_stops :
    (recvTurns ⟨connectCreate [] [], [], false⟩
        [⟨fun _ => .calm, [], .data (statusPacket .calm (serverCreate []) errorNotsupport).wire⟩,
          ⟨fun _ => .calm, [], .data (statusPacket .calm (serverCreate []) errorNotfound).wire⟩]).dispatched ≠
      [(statusPacket .calm (serverCreate []) errorNotsupport).frame,
        (statusPacket .calm (serverCreate []) errorNotfound).frame] := by
  decide +kernel

end SyncScribe
