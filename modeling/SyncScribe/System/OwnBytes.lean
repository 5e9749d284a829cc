import SyncScribe.Client.Process
import SyncScribe.Server.Calls
import SyncScribe.Server.Marker

/-!
Messages and the bytes behind them. The handlers of a packet read its payload
straight from the receive buffer: so many bytes as the header says, or a whole
ticket. `serverReads` and `clientReads` say how many a packet makes them read in
the state it meets; its effect is its own exactly when it carries that many.
-/

namespace SyncScribe
open Lib Lib.Bytes Lib.Slots

/-! ## What is read -/

/-- `syncs_client_write` gets as far as storing. -/
def acceptsWrite (s : Server) (id : Id) (flags : UInt32) : Bool :=
  match openEvent s id flags (flags &&& typeVarMask) with
  | .ok (s, e) => flags &&& typeVarMask == (s.events e).dataType
  | .error _ => false

/-- `syncs_add_channel` gets as far as storing. -/
def acceptsChannel (s : Server) (id : Id) : Bool := (findChannel s id).isSome || (createChannel s id).isSome

/-- The number of bytes behind the header that `syncs_client_process_packet` reads. -/
def serverReads (s : Server) (h : Header) : Nat :=
  match h.msg with
  | .write => if acceptsWrite s h.id h.type then h.dataSize.toNat else 0
  | .channel =>
    if h.type &&& channelMask = channelAnons ∧ acceptsChannel s h.id = true then ticketSize else 0
  | _ => 0

/-- A packet of a list is taken. -/
def ListBuffer.accepts (b : ListBuffer) (h : Header) : Bool :=
  b.info.isSome && h.id.c 3 == b.sequence && h.id.c 0 == b.waitPacket

/-- The number of bytes behind the header that `syncs_process_packet` reads. -/
def clientReads (s : Connect) (h : Header) : Nat :=
  match h.msg with
  | .event =>
    match s.findEvent h.id with
    | some e => if (s.events e).cb.isSome || (s.events e).data.isSome then h.dataSize.toNat else 0
    | none => 0
  | .read => if s.readWait && idcmp h.id s.readId then h.dataSize.toNat else 0
  | .eventList => if (s.lists .events).accepts h then h.dataSize.toNat else 0
  | .clientList => if (s.lists .clients).accepts h then h.dataSize.toNat else 0
  | .channelList => if (s.lists .channels).accepts h then h.dataSize.toNat else 0
  | _ => 0

/-! ## The server -/

section Server

variable {env : Env} {s : Server} {c : ClientIx} {h : Header} {b b' : List UInt8}

theorem clientWrite_congr {id : Id} {flags size : UInt32} (hb : Lib.Bytes.read b size.toNat = Lib.Bytes.read b' size.toNat) :
    clientWrite env s c id flags b size = clientWrite env s c id flags b' size := by
  simp only [clientWrite, clientWriteEvent, writeStore, hb]

/-- A write that is not accepted reads nothing. -/
theorem clientWrite_rejected {id : Id} {flags size : UInt32} (hacc : acceptsWrite s id flags = false) :
    clientWrite env s c id flags b size = clientWrite env s c id flags b' size := by
  unfold acceptsWrite at hacc
  unfold clientWrite
  split
  · rfl
  · rename_i s' e ho
    rw [ho] at hacc
    have hne : flags &&& typeVarMask ≠ (s'.events e).dataType := by simpa using hacc
    simp only [clientWriteEvent, if_pos hne]

theorem addChannel_congr {id : Id} (hb : Lib.Bytes.read b ticketSize = Lib.Bytes.read b' ticketSize) :
    addChannel s c id b = addChannel s c id b' := by
  simp only [addChannel, hb]

theorem addChannel_rejected {id : Id} (hacc : acceptsChannel s id = false) :
    addChannel s c id b = addChannel s c id b' := by
  simp only [acceptsChannel, Bool.or_eq_false_iff, Option.isSome_eq_false_iff, Option.isNone_iff_eq_none] at hacc
  simp only [addChannel, hacc.1, hacc.2]

/-- **What is not read does not matter.** -/
theorem clientProcessPacket_congr (hb : Lib.Bytes.read b (serverReads s h) = Lib.Bytes.read b' (serverReads s h)) :
    clientProcessPacket env s c ⟨h, b⟩ = clientProcessPacket env s c ⟨h, b'⟩ := by
  cases hm : h.msg
  all_goals simp only [clientProcessPacket, clientDispatch, hm]
  case write =>
    simp only [serverReads, hm] at hb
    have heq : clientWrite env s c h.id h.type b h.dataSize.toUInt32 =
        clientWrite env s c h.id h.type b' h.dataSize.toUInt32 := by
      cases hacc : acceptsWrite s h.id h.type with
      | false => exact clientWrite_rejected hacc
      | true =>
        rw [hacc, if_pos rfl] at hb
        exact clientWrite_congr (by rwa [UInt16.toNat_toUInt32])
    rw [heq]
  case channel =>
    simp only [serverReads, hm] at hb
    have heq : h.type &&& channelMask = channelAnons → addChannel s c h.id b = addChannel s c h.id b' := by
      intro ha
      cases hacc : acceptsChannel s h.id with
      | false => exact addChannel_rejected hacc
      | true =>
        rw [if_pos ⟨ha, hacc⟩] at hb
        exact addChannel_congr hb
    have hchan : clientChannel env s c ⟨h, b⟩ = clientChannel env s c ⟨h, b'⟩ := by
      by_cases ha : h.type &&& channelMask = channelAnons
      · simp only [clientChannel, if_pos ha, heq ha]
      · simp only [clientChannel, if_neg ha]
    rw [hchan]

theorem clientWrite_shows {id : Id} {flags size : UInt32} (hacc : acceptsWrite s id flags = true)
    (heq : (clientWrite env s c id flags b size).server.events = (clientWrite env s c id flags b' size).server.events) :
    Lib.Bytes.read b size.toNat = Lib.Bytes.read b' size.toNat := by
  unfold acceptsWrite at hacc
  split at hacc
  · rename_i s' e ho
    have htype : flags &&& typeVarMask = (s'.events e).dataType := by simpa using hacc
    have hstored : ∀ x : List UInt8, ((clientWrite env s c id flags x size).server.events e).data =
        write (s'.events e).data 0 (Lib.Bytes.read x size.toNat) := by
      intro x
      have hnot : ¬ flags &&& typeVarMask ≠ (s'.events e).dataType := not_not.mpr htype
      simp only [clientWrite, ho, clientWriteEvent, if_neg hnot]
      rw [(sendEvent_quiet _ _ _ _).events]
      simp [writeStore]
    have hw : write (s'.events e).data 0 (Lib.Bytes.read b size.toNat) =
        write (s'.events e).data 0 (Lib.Bytes.read b' size.toNat) := by
      rw [← hstored, ← hstored, heq]
    exact write_inj (by simp) hw
  · cases hacc

/-- The flags of a ticket are its last four bytes. -/
theorem ticket_shows {x y : List UInt8}
    (hf : (Ticket.decode (Lib.Bytes.read x ticketSize)).flags = (Ticket.decode (Lib.Bytes.read y ticketSize)).flags) :
    (Lib.Bytes.read x ticketSize).getLast? = (Lib.Bytes.read y ticketSize).getLast? := by
  have hfield : ∀ z : List UInt8, field (Lib.Bytes.read z ticketSize) 6 4 < 2 ^ 32 := by
    intro z
    have := leVal_lt (Lib.Bytes.read ((Lib.Bytes.read z ticketSize).drop 6) 4)
    rw [length_read] at this
    exact this
  have hval : field (Lib.Bytes.read x ticketSize) 6 4 = field (Lib.Bytes.read y ticketSize) 6 4 := by
    have := congrArg UInt32.toNat hf
    simp only [Ticket.decode] at this
    rwa [UInt32.toNat_ofNat_of_lt' (hfield x), UInt32.toNat_ofNat_of_lt' (hfield y)] at this
  have hdrop : ∀ z : List UInt8, Lib.Bytes.read ((Lib.Bytes.read z ticketSize).drop 6) 4 =
      (Lib.Bytes.read z ticketSize).drop 6 := by
    intro z
    rw [read_of_le (by simp [ticketSize]), List.take_of_length_le (by simp [ticketSize])]
  have hbytes : (Lib.Bytes.read x ticketSize).drop 6 = (Lib.Bytes.read y ticketSize).drop 6 := by
    have hx := leBytes_leVal (Lib.Bytes.read ((Lib.Bytes.read x ticketSize).drop 6) 4)
    have hy := leBytes_leVal (Lib.Bytes.read ((Lib.Bytes.read y ticketSize).drop 6) 4)
    rw [length_read] at hx hy
    rw [← hdrop x, ← hdrop y, ← hx, ← hy]
    exact congrArg (leBytes 4) hval
  have hlast := congrArg List.getLast? hbytes
  rwa [List.getLast?_drop, List.getLast?_drop, if_neg (by simp [ticketSize]), if_neg (by simp [ticketSize])] at hlast

theorem addChannel_shows {id : Id} (hacc : acceptsChannel s id = true)
    (heq : (addChannel s c id b).server.channels = (addChannel s c id b').server.channels) :
    (Lib.Bytes.read b ticketSize).getLast? = (Lib.Bytes.read b' ticketSize).getLast? := by
  have hslot : ∃ k, ∀ x : List UInt8, ((addChannel s c id x).server.channels k).ticket.flags =
      (Ticket.decode (Lib.Bytes.read x ticketSize)).flags := by
    cases hf : findChannel s id with
    | some k =>
      refine ⟨k, fun x => ?_⟩
      simp [addChannel, hf, Server.setChannel, addChannelStore]
    | none =>
      cases hc : createChannel s id with
      | none => simp [acceptsChannel, hf, hc] at hacc
      | some r =>
        obtain ⟨s', k⟩ := r
        refine ⟨k, fun x => ?_⟩
        simp [addChannel, hf, hc, Server.setChannel, addChannelStore]
  obtain ⟨k, hk⟩ := hslot
  exact ticket_shows (by rw [← hk, ← hk, heq])

/-- **What is read shows**: at least its last byte. -/
theorem clientProcessPacket_shows
    (heq : (clientProcessPacket env s c ⟨h, b⟩).server = (clientProcessPacket env s c ⟨h, b'⟩).server) :
    (Lib.Bytes.read b (serverReads s h)).getLast? = (Lib.Bytes.read b' (serverReads s h)).getLast? := by
  cases hm : h.msg
  case write =>
    simp only [serverReads, hm]
    cases hacc : acceptsWrite s h.id h.type with
    | false => simp
    | true =>
      have hevents := congrArg Server.events heq
      simp only [clientProcessPacket, clientDispatch, hm, Server.modifyClient_events] at hevents
      have hbytes := clientWrite_shows hacc hevents
      rw [UInt16.toNat_toUInt32] at hbytes
      rw [if_pos rfl, hbytes]
  case channel =>
    simp only [serverReads, hm]
    split
    · rename_i hacc
      have hchannels := congrArg Server.channels heq
      simp only [clientProcessPacket, clientDispatch, hm, Server.modifyClient_channels, clientChannel,
        if_pos hacc.1] at hchannels
      exact addChannel_shows hacc.2 hchannels
    · simp
  all_goals simp only [serverReads, hm, read_zero]

/-- **When a packet's effect is its own**, on a buffer that begins with `a` behind the header. -/
theorem packet_own_iff (env : Env) (s : Server) (c : ClientIx) (h : Header) (a : List UInt8) :
    (∀ rest rest', clientProcessPacket env s c ⟨h, a ++ rest⟩ = clientProcessPacket env s c ⟨h, a ++ rest'⟩) ↔
      serverReads s h ≤ a.length :=
  depends_iff (fun _ _ hb => clientProcessPacket_congr hb)
    (fun _ _ heq => clientProcessPacket_shows (congrArg Res.server heq))

/-! ### Datagrams -/

/-- The number of bytes behind the header that `syncs_uclient_process_packet` reads. -/
def udpReads (s : Server) (addr : SockAddr) (h : Header) : Nat :=
  match uclientOf s addr h with
  | some (s, _) => serverReads s h
  | none => 0

/-- The memory behind the received bytes reaches the calls through the packet only. -/
theorem sendEventLoop_beyond (env : Env) (r : List UInt8) (ev : Event) (flags : UInt32) (p : Packet)
    (is : List (Fin clientMaximum)) (s : Server) :
    sendEventLoop { env with beyond := r } ev flags p is s = sendEventLoop env ev flags p is s := by
  induction is generalizing s with
  | nil => rfl
  | cons i is ih =>
    simp only [sendEventLoop, ih]
    rfl

theorem clientProcessPacket_beyond (env : Env) (r : List UInt8) (s : Server) (c : ClientIx) (p : Packet) :
    clientProcessPacket { env with beyond := r } s c p = clientProcessPacket env s c p := by
  have hwrite : ∀ id flags data size, clientWrite { env with beyond := r } s c id flags data size =
      clientWrite env s c id flags data size := by
    intro id flags data size
    simp only [clientWrite, clientWriteEvent, sendEvent, sendEventLoop_beyond]
    rfl
  cases hm : p.header.msg
  all_goals simp only [clientProcessPacket, clientDispatch, hm]
  case write => rw [hwrite]
  case subscribe => simp only [clientSubscribe, resendEvent, resendPacket]
  case read => simp only [clientRead, readPacket]
  case clientList => simp only [clientSendClientlist, sendList, listPacket]
  case eventList => simp only [clientSendEventlist, sendList, listPacket]
  case channelList => simp only [clientSendChannellist, sendList, listPacket]
  case clientId => simp only [clientIdentify, sendServerStatus, statusPacket]
  case channel => simp only [clientChannel, clientChannelRequest, ticketPacket]

theorem uclientProcessPacket_beyond (env : Env) (r : List UInt8) (s : Server) (addr : SockAddr) (p : Packet) :
    uclientProcessPacket { env with beyond := r } s addr p = uclientProcessPacket env s addr p := by
  simp only [uclientProcessPacket, clientProcessPacket_beyond]
  rfl

theorem uclientProcessPacket_own_iff (env : Env) (s : Server) (addr : SockAddr) (h : Header) (a : List UInt8) :
    (∀ rest rest', uclientProcessPacket env s addr ⟨h, a ++ rest⟩ = uclientProcessPacket env s addr ⟨h, a ++ rest'⟩) ↔
      udpReads s addr h ≤ a.length := by
  refine @depends_iff _ (fun b => uclientProcessPacket env s addr ⟨h, b⟩) a _ ?_ ?_
  · intro b b' hb
    simp only [udpReads] at hb
    simp only [uclientProcessPacket]
    cases hu : uclientOf s addr h with
    | none => rfl
    | some sc =>
      simp only [hu] at hb
      simp only [clientProcessPacket_congr hb]
  · intro b b' heq
    simp only [uclientProcessPacket] at heq
    simp only [udpReads]
    cases hu : uclientOf s addr h with
    | none => simp
    | some sc =>
      simp only [hu, Res.mk.injEq] at heq
      exact clientProcessPacket_shows heq.1

/-- **When a datagram's effect is its own.** -/
theorem datagram_own_iff (env : Env) (s : Server) (addr : SockAddr) (bytes : List UInt8)
    (hlen : headerSize ≤ bytes.length) :
    (∀ rest rest', udpHandler { env with beyond := rest } s addr (.data bytes) =
        udpHandler { env with beyond := rest' } s addr (.data bytes)) ↔
      (marked bytes → udpReads s addr (Header.decode bytes).masked ≤ bytes.length - headerSize) := by
  have hshort : ¬ bytes.length < headerSize := Nat.not_lt.mpr hlen
  by_cases hm : marked bytes
  · have hhandler : ∀ rest, udpHandler { env with beyond := rest } s addr (.data bytes) =
        uclientProcessPacket env s addr ⟨(Header.decode bytes).masked, bytes.drop headerSize ++ rest⟩ := by
      intro rest
      simp only [udpHandler, ite_marked, if_neg hshort, if_pos hm]
      exact uclientProcessPacket_beyond env rest s addr _
    simp only [hhandler, hm, forall_const]
    rw [uclientProcessPacket_own_iff, List.length_drop]
  · simp only [hm, false_implies, iff_true]
    intro rest rest'
    simp only [udpHandler, ite_marked, if_neg hshort, if_neg hm]

end Server

/-! ## The client -/

section Client

variable {env : ClientEnv} {s : Connect} {h : Header} {b b' : List UInt8}

/-- An accepted list packet is copied, whatever the place. -/
theorem ListBuffer.accept_accepted {l : ListName} {buf : ListBuffer} {mem : List UInt8} (hinfo : buf.info = some mem)
    (hacc : buf.accepts h = true) : ((buf.accept l ⟨h, b⟩).front, (buf.accept l ⟨h, b⟩).info) =
      ((writeAround buf.front mem (buf.recv * l.entrySize) (Lib.Bytes.read b h.dataSize.toNat)).1,
        some (writeAround buf.front mem (buf.recv * l.entrySize) (Lib.Bytes.read b h.dataSize.toNat)).2) := by
  simp only [ListBuffer.accepts, Bool.and_eq_true, beq_iff_eq] at hacc
  simp [ListBuffer.accept, hinfo, hacc.1.2, hacc.2]

theorem ListBuffer.accept_rejected {l : ListName} {buf : ListBuffer} (hacc : buf.accepts h = false) :
    buf.accept l ⟨h, b⟩ = buf := by
  unfold ListBuffer.accept
  split
  · rfl
  · rename_i info hinfo
    split
    · rfl
    · rename_i h3
      split
      · rfl
      · rename_i h0
        simp [ListBuffer.accepts, hinfo, not_not.mp h3, not_not.mp h0] at hacc

theorem ListBuffer.accept_congr (l : ListName) (buf : ListBuffer)
    (hb : Lib.Bytes.read b (if buf.accepts h then h.dataSize.toNat else 0) =
      Lib.Bytes.read b' (if buf.accepts h then h.dataSize.toNat else 0)) :
    buf.accept l ⟨h, b⟩ = buf.accept l ⟨h, b'⟩ := by
  cases hacc : buf.accepts h with
  | false => rw [accept_rejected hacc, accept_rejected hacc]
  | true =>
    rw [hacc, if_pos rfl] at hb
    simp only [ListBuffer.accept, hb]

theorem ListBuffer.accept_shows (l : ListName) (buf : ListBuffer)
    (heq : buf.accept l ⟨h, b⟩ = buf.accept l ⟨h, b'⟩) :
    Lib.Bytes.read b (if buf.accepts h then h.dataSize.toNat else 0) =
      Lib.Bytes.read b' (if buf.accepts h then h.dataSize.toNat else 0) := by
  cases hacc : buf.accepts h with
  | false => simp
  | true =>
    obtain ⟨mem, hmem⟩ : ∃ mem, buf.info = some mem := by
      simp only [ListBuffer.accepts, Bool.and_eq_true] at hacc
      exact Option.isSome_iff_exists.mp hacc.1.1
    have hcopy := congrArg (fun r => (r.front, r.info)) heq
    simp only [accept_accepted hmem hacc, Prod.mk.injEq, Option.some.injEq] at hcopy
    rw [if_pos rfl]
    exact writeAround_inj (by simp) (Prod.ext hcopy.1 hcopy.2)

/-- No type word passes the mask of `syncs_channel_process_packet`. -/
theorem typeChannelMask_ne (type : UInt32) : type &&& typeChannelMask ≠ channelTicket := by
  intro heq
  have hzero : type &&& typeChannelMask &&& channelTicket = 0 := and_and_eq_zero type (by decide)
  rw [heq] at hzero
  exact absurd hzero (by decide)

theorem processEvent_congr {e : EventIx} (hf : s.findEvent h.id = some e)
    (hb : (s.events e).cb.isSome = true ∨ (s.events e).data.isSome = true →
      Lib.Bytes.read b h.dataSize.toNat = Lib.Bytes.read b' h.dataSize.toNat) :
    processEvent s ⟨h, b⟩ = processEvent s ⟨h, b'⟩ := by
  by_cases hread : (s.events e).cb.isSome = true ∨ (s.events e).data.isSome = true
  · simp only [processEvent, hb hread]
  · rw [not_or] at hread
    have hcb : (s.events e).cb = none := by simpa using hread.1
    have hdata : (s.events e).data = none := by simpa using hread.2
    simp only [processEvent, hf, hcb, hdata]

theorem processEvent_shows {e : EventIx} (hf : s.findEvent h.id = some e)
    (hread : (s.events e).cb.isSome = true ∨ (s.events e).data.isSome = true)
    (heq : processEvent s ⟨h, b⟩ = processEvent s ⟨h, b'⟩) :
    Lib.Bytes.read b h.dataSize.toNat = Lib.Bytes.read b' h.dataSize.toNat := by
  cases hdata : (s.events e).data with
  | some mem =>
    have hmem : ∀ x, ((processEvent s ⟨h, x⟩).1.events e).data =
        some (write mem 0 (Lib.Bytes.read x h.dataSize.toNat)) := by
      intro x
      simp [processEvent, hf, hdata, Connect.setEvent]
    have hw := congrArg (fun r => (r.1.events e).data) heq
    simp only [hmem, Option.some.injEq] at hw
    exact write_inj (by simp) hw
  | none =>
    obtain ⟨cb, hcb⟩ : ∃ cb, (s.events e).cb = some cb := by
      rw [hdata] at hread
      exact Option.isSome_iff_exists.mp (hread.resolve_right (by simp))
    have hout : ∀ x, (processEvent s ⟨h, x⟩).2 =
        [.call cb (s.events e).args (s.events e).id (Lib.Bytes.read x h.dataSize.toNat)] := by
      intro x
      simp [processEvent, hf, hdata, hcb]
    have hcall := congrArg Prod.snd heq
    rw [hout, hout, List.singleton_inj, ClientOut.call.injEq] at hcall
    exact hcall.2.2.2

/-- **What is not read does not matter** to the client. -/
theorem processPacket_congr (hb : Lib.Bytes.read b (clientReads s h) = Lib.Bytes.read b' (clientReads s h)) :
    processPacket env s ⟨h, b⟩ = processPacket env s ⟨h, b'⟩ := by
  cases hm : h.msg
  all_goals simp only [processPacket, hm]
  all_goals simp only [clientReads, hm] at hb
  case event =>
    cases hf : s.findEvent h.id with
    | none => simp only [processEvent, hf]
    | some e =>
      refine processEvent_congr hf fun hread => ?_
      simp only [hf] at hb
      rwa [if_pos (by simpa using hread)] at hb
  case channel => simp only [channelProcessPacket, if_neg (typeChannelMask_ne h.type)]
  case read =>
    by_cases hacc : (s.readWait && idcmp h.id s.readId) = true
    · rw [if_pos hacc] at hb
      simp only [processRead, hb]
    · simp only [processRead, if_neg hacc]
  case eventList => simp only [processList, ListBuffer.accept_congr .events (s.lists .events) hb]
  case clientList => simp only [processList, ListBuffer.accept_congr .clients (s.lists .clients) hb]
  case channelList => simp only [processList, ListBuffer.accept_congr .channels (s.lists .channels) hb]
  all_goals rfl

/-- **What is read shows.** -/
theorem processPacket_shows (heq : processPacket env s ⟨h, b⟩ = processPacket env s ⟨h, b'⟩) :
    Lib.Bytes.read b (clientReads s h) = Lib.Bytes.read b' (clientReads s h) := by
  have hlist : ∀ l, (processList s l ⟨h, b⟩, ([] : List ClientOut)) = (processList s l ⟨h, b'⟩, []) →
      (s.lists l).accept l ⟨h, b⟩ = (s.lists l).accept l ⟨h, b'⟩ := by
    intro l hl
    have := congrArg (fun r => r.1.lists l) hl
    simpa only [processList, Connect.setList_same] using this
  cases hm : h.msg
  all_goals simp only [processPacket, hm] at heq
  all_goals simp only [clientReads, hm]
  case event =>
    cases hf : s.findEvent h.id with
    | none => simp
    | some e =>
      simp only
      split
      · rename_i hread
        exact processEvent_shows hf (by simpa using hread) heq
      · simp
  case read =>
    split
    · rename_i hacc
      have hdata := congrArg (fun r => r.1.readData) heq
      simp only [processRead, if_pos hacc] at hdata
      exact write_inj (by simp) hdata
    · simp
  case eventList => exact ListBuffer.accept_shows .events (s.lists .events) (hlist .events heq)
  case clientList => exact ListBuffer.accept_shows .clients (s.lists .clients) (hlist .clients heq)
  case channelList => exact ListBuffer.accept_shows .channels (s.lists .channels) (hlist .channels heq)
  all_goals simp only [read_zero]

/-- **When the effect of a datagram on the client is its own.** -/
theorem clientDatagram_own_iff (env : ClientEnv) (s : Connect) (bytes : List UInt8)
    (hlen : headerSize ≤ bytes.length) :
    (∀ rest rest', udpRecvStep env rest s (.data bytes) = udpRecvStep env rest' s (.data bytes)) ↔
      (marked bytes → clientReads s (Header.decode bytes).masked ≤ bytes.length - headerSize) := by
  have hshort : ¬ bytes.length < headerSize := Nat.not_lt.mpr hlen
  by_cases hm : marked bytes
  · have hstep : ∀ rest, udpRecvStep env rest s (.data bytes) =
        ((processPacket env s ⟨(Header.decode bytes).masked, bytes.drop headerSize ++ rest⟩).1,
          (processPacket env s ⟨(Header.decode bytes).masked, bytes.drop headerSize ++ rest⟩).2, false) := by
      intro rest
      simp only [udpRecvStep, ite_marked, if_neg hshort, if_pos hm]
    have hown := @depends_iff _ (fun b => processPacket env s ⟨(Header.decode bytes).masked, b⟩)
      (bytes.drop headerSize) (clientReads s (Header.decode bytes).masked)
      (fun _ _ hb => processPacket_congr hb) (fun _ _ heq => by rw [processPacket_shows heq])
    rw [List.length_drop] at hown
    simp only [hm, forall_const, ← hown, hstep, Prod.mk.injEq, and_true]
    refine forall_congr' fun rest => forall_congr' fun rest' => ?_
    rw [Prod.ext_iff]
  · simp only [hm, false_implies, iff_true]
    intro rest rest'
    simp only [udpRecvStep, ite_marked, if_neg hshort, if_neg hm]

end Client

/-! ## All three receivers -/

/-- **When a message's effect depends on its own bytes only**: on a frame of the TCP loop of the server, on a
datagram to the server, and on a datagram to the client. -/
theorem message_own_bytes_iff (env : Env) (s : Server) (c : ClientIx) (h : Header) (payload : List UInt8)
    (addr : SockAddr) (cenv : ClientEnv) (cl : Connect) (bytes : List UInt8) (hlen : headerSize ≤ bytes.length) :
    ((∀ rest rest', clientProcessPacket env s c ⟨h, payload ++ rest⟩ =
        clientProcessPacket env s c ⟨h, payload ++ rest'⟩) ↔ serverReads s h ≤ payload.length) ∧
    ((∀ rest rest', udpHandler { env with beyond := rest } s addr (.data bytes) =
        udpHandler { env with beyond := rest' } s addr (.data bytes)) ↔
      (marked bytes → udpReads s addr (Header.decode bytes).masked ≤ bytes.length - headerSize)) ∧
    ((∀ rest rest', udpRecvStep cenv rest cl (.data bytes) = udpRecvStep cenv rest' cl (.data bytes)) ↔
      (marked bytes → clientReads cl (Header.decode bytes).masked ≤ bytes.length - headerSize)) :=
  ⟨packet_own_iff env s c h payload, datagram_own_iff env s addr bytes hlen, clientDatagram_own_iff cenv cl bytes hlen⟩

/-- The server with one client. -/
def greeted : Server := (run act (serverCreate []) [.accept (some (3, ⟨1, 2⟩))]).1

/-- The announcement of the channel `a` with its ticket. -/
def wholeAnnouncement : Packet :=
  Packet.make (Msg.channel.code ||| channelAnons) (idstr [97]) (Ticket.encode ⟨0, 80, 1⟩)

theorem wholeAnnouncement_own : headerSize ≤ wholeAnnouncement.header.encode.length ∧
    ∀ rest rest',
      clientProcessPacket .calm greeted 0 ⟨wholeAnnouncement.header, wholeAnnouncement.buffer ++ rest⟩ =
        clientProcessPacket .calm greeted 0 ⟨wholeAnnouncement.header, wholeAnnouncement.buffer ++ rest'⟩ :=
  ⟨by decide, (message_own_bytes_iff .calm greeted 0 wholeAnnouncement.header wholeAnnouncement.buffer ⟨1, 2⟩ .calm
    (connectCreate [] []) wholeAnnouncement.header.encode (by decide)).1.mpr (by decide +kernel)⟩

/-- The announcement of the channel `a` without a payload. -/
def bareAnnouncement : Header := (Packet.make (Msg.channel.code ||| channelAnons) (idstr [97]) []).header

/-- The ticket of the channel comes from behind the message. -/
theorem bareAnnouncement_foreign : ¬ ∀ rest rest',
    clientProcessPacket .calm greeted 0 ⟨bareAnnouncement, [] ++ rest⟩ =
      clientProcessPacket .calm greeted 0 ⟨bareAnnouncement, [] ++ rest'⟩ := by
  rw [packet_own_iff]
  decide +kernel

end SyncScribe
