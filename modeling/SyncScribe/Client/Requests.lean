import SyncScribe.Client.State

/-!
What the client sends: the packet each call builds and the number of bytes of it
that it hands to `syncs_connect_send`, and the calls of the application.

A packet is built on the stack, field by field, so what its other bytes held
before is part of the environment of the call, as is the outcome of the send.
Calls that wait for an answer are modelled up to the wait; what they return is
read off the state in which it ends.
-/

namespace SyncScribe
open Lib.Bytes Lib.Slots

/-- What a call of the client finds around it. -/
structure ClientEnv where
  /-- the contents of the uninitialised packet of the call -/
  stack : Packet
  /-- what `syncs_blocking_send` returns -/
  sendResult : Int

/-- Zeroed memory and sends that succeed. -/
def ClientEnv.calm : ClientEnv := ⟨⟨⟨0, 0, 0, .zero, ⟨0, 0⟩, 0, 0, 0⟩, []⟩, 0⟩

/-- A packet with the number of its bytes to be sent. -/
structure Outgoing where
  packet : Packet
  size : Nat

/-- What the client does to the outside. -/
inductive ClientOut
  /-- `syncs_blocking_send` on the TCP socket -/
  | tcp (o : Outgoing)
  /-- `syncs_udp_send` -/
  | udp (o : Outgoing)
  /-- the call of a subscriber -/
  | call (cb args : Nat) (id : Id) (data : List UInt8)

/-- `syncs_connect_send` -/
def connectSend (env : ClientEnv) (s : Connect) (o : Outgoing) : Int × List ClientOut :=
  if s.socketfd > 0 then (env.sendResult, [.tcp o])
  else if s.usocketfd > 0 then (0, [.udp o])
  else (-1, [])

/-! ## Packets -/

/-- The flags a client may put into the type word. -/
def requestMask : UInt32 := typeVarMask ||| typeFlagsMask

/-- A request for a message is of no other. -/
theorem msg_request (m : Msg) (flags : UInt32) : Msg.ofWord (m.code ||| (flags &&& requestMask)) = m :=
  Msg.ofWord_or m (and_and_eq_zero flags (by decide))

/-- The flags of a request keep the bits the mask leaves. -/
theorem request_bits (m : Msg) (flags : UInt32) {mask : UInt32} (hm : m.code &&& mask = 0)
    (hr : requestMask &&& mask = mask) : (m.code ||| (flags &&& requestMask)) &&& mask = flags &&& mask := by
  rw [or_and_distrib, hm, UInt32.zero_or, UInt32.and_assoc, hr]

/-- The number of bytes `syncs_write` copies. -/
def writeSize (flags dataSize : UInt32) : UInt32 :=
  if dataSize = 0 then getSizeByType flags else dataSize

/-- The `memcpy` of `syncs_write` stays within its `packet.buffer`. -/
def WriteCopies (flags : UInt32) (data : Option (List UInt8)) (dataSize : UInt32) : Prop :=
  data = none ∨ (writeSize flags dataSize).toNat ≤ eventDataSizeMaximum

instance (flags : UInt32) (data : Option (List UInt8)) (dataSize : UInt32) :
    Decidable (WriteCopies flags data dataSize) :=
  inferInstanceAs (Decidable (_ ∨ _))

/-- The packet of `syncs_write`, for bytes that its buffer takes; `data` is `NULL` or the memory pointed to. -/
def writeRequest (env : ClientEnv) (flags : UInt32) (cid : List UInt8) (data : Option (List UInt8))
    (dataSize : UInt32) : Outgoing :=
  let h := env.stack.header.fill (idstr cid) (Msg.write.code ||| (flags &&& requestMask))
  match data with
  | some d =>
    if writeSize flags dataSize ≠ 0 then
      let h := { h with dataSize := (writeSize flags dataSize &&& UInt32.ofNat variableSizeMaximum).toUInt16 }
      ⟨⟨h, write env.stack.buffer 0 (read d (writeSize flags dataSize).toNat)⟩, headerSize + h.dataSize.toNat⟩
    else ⟨⟨{ h with dataSize := 0 }, env.stack.buffer⟩, headerSize⟩
  | none => ⟨⟨{ h with dataSize := 0 }, env.stack.buffer⟩, headerSize⟩

/-- A request without payload. -/
def bareRequest (env : ClientEnv) (id : Id) (type : UInt32) : Outgoing :=
  ⟨⟨env.stack.header.fillRequest id type, env.stack.buffer⟩, headerSize⟩

/-- The packet of `syncs_define`. -/
def defineRequest (env : ClientEnv) (cid : List UInt8) (flags : UInt32) : Outgoing :=
  bareRequest env (idstr cid) (Msg.define.code ||| (flags &&& requestMask))

/-- The packet of `syncs_undefine`: its type is that of a define. -/
def undefineRequest (env : ClientEnv) (cid : List UInt8) : Outgoing :=
  bareRequest env (idstr cid) Msg.define.code

/-- The packet of `syncs_client_send_subscribe`. -/
def subscribeRequest (env : ClientEnv) (id : Id) (flags : UInt32) (updateCounter : UInt64) : Outgoing :=
  let o := bareRequest env id (Msg.subscribe.code ||| (flags &&& requestMask))
  { o with packet := { o.packet with header := { o.packet.header with updateCounter := updateCounter } } }

/-- The packet of `syncs_client_send_unsubscribe`. -/
def unsubscribeRequest (env : ClientEnv) (id : Id) (flags : UInt32) : Outgoing :=
  bareRequest env id (Msg.unsubscribe.code ||| (flags &&& requestMask))

/-- The packet of `syncs_client_send_id`. -/
def clientIdRequest (env : ClientEnv) (id : Id) : Outgoing :=
  let o := bareRequest env id Msg.clientId.code
  { o with packet := { o.packet with header := { o.packet.header with
    sync := ⟨versionMajor, versionMinor⟩ } } }

/-- The packet of `syncs_read`. -/
def readRequest (env : ClientEnv) (cid : List UInt8) (flags : UInt32) : Outgoing :=
  bareRequest env (idstr cid) (Msg.read.code ||| (flags &&& typeVarMask))

def ListName.msg : ListName → Msg
  | .events => .eventList
  | .clients => .clientList
  | .channels => .channelList

/-- The packet of `syncs_request_eventslist`, `_clientslist` and `_channelslist`: only the first
character of its identifier is stored. -/
def listRequest (env : ClientEnv) (l : ListName) (sequence : UInt8) : Outgoing :=
  ⟨⟨{ env.stack.header with id := env.stack.header.id.setC 0 sequence }.fillBasicRequest l.msg.code,
    env.stack.buffer⟩, headerSize⟩

/-- The packet of `syncs_client_send_channel_anons`. -/
def channelAnonsRequest (env : ClientEnv) (id : Id) (ticket : Ticket) : Outgoing :=
  ⟨⟨{ env.stack.header.fill id (Msg.channel.code ||| channelAnons) with
      dataSize := UInt16.ofNat ticketSize }, write env.stack.buffer 0 ticket.encode⟩,
    headerSize + ticketSize⟩

/-- The packet of `syncs_channel_request`. -/
def channelRequestRequest (env : ClientEnv) (cid : List UInt8) : Outgoing :=
  bareRequest env (idstr cid) (Msg.channel.code ||| channelRequest)

/-! ## Calls -/

/-- `syncs_write`, its copy done -/
def clientWriteSend (env : ClientEnv) (s : Connect) (flags : UInt32) (cid : List UInt8)
    (data : Option (List UInt8)) (dataSize : UInt32) : Int × List ClientOut :=
  connectSend env s (writeRequest env flags cid data dataSize)

/-- `syncs_write`; `none` when the copy runs past `packet.buffer` over the frame of the call. -/
def clientWriteCall (env : ClientEnv) (s : Connect) (flags : UInt32) (cid : List UInt8)
    (data : Option (List UInt8)) (dataSize : UInt32) : Option (Int × List ClientOut) :=
  if WriteCopies flags data dataSize then some (clientWriteSend env s flags cid data dataSize) else none

/-- `syncs_define` -/
def clientDefine (env : ClientEnv) (s : Connect) (cid : List UInt8) (flags : UInt32) : List ClientOut :=
  (connectSend env s (defineRequest env cid flags)).2

/-- `syncs_undefine` -/
def clientUndefine (env : ClientEnv) (s : Connect) (cid : List UInt8) : List ClientOut :=
  (connectSend env s (undefineRequest env cid)).2

/-- The sending half of `syncs_read`; `none` for the refusal `-EBADFD`. -/
def clientReadCall (env : ClientEnv) (s : Connect) (flags : UInt32) (cid : List UInt8) :
    Option (Connect × List ClientOut) :=
  if s.socketfd < 0 then none
  else
    some ({ s with readWait := true, readId := idstr cid }, (connectSend env s (readRequest env cid flags)).2)

/-- The announcements of `syncs_send_id` for the given slots of the event table. -/
def sendSubscriptions (env : ClientEnv) (s : Connect) : List EventIx → List ClientOut
  | [] => []
  | e :: es =>
    if (s.events e).live then
      (connectSend env s
        (subscribeRequest env (s.events e).id (s.events e).flags (s.events e).updateCounter)).2 ++
        sendSubscriptions env s es
    else sendSubscriptions env s es

/-- The announcements of `syncs_send_id` for the given channels. -/
def sendChannels (env : ClientEnv) (s : Connect) : List ChannelIx → List ClientOut
  | [] => []
  | k :: ks =>
    if (s.channels k).live then
      (connectSend env s (channelAnonsRequest env (s.channels k).id (s.channels k).ticket)).2 ++
        sendChannels env s ks
    else sendChannels env s ks

/-- `syncs_send_id` -/
def sendId (env : ClientEnv) (s : Connect) : List ClientOut :=
  (connectSend env s (clientIdRequest env s.id)).2 ++
    (sendSubscriptions env s (List.finRange eventMaximum) ++ sendChannels env s (List.finRange channelMaximum))

/-- The end of every subscribing call: the slot gets its identifier and flags, and the server is told
if there is a connection. -/
def subscribeSlot (env : ClientEnv) (s : Connect) (e : EventIx) (ev : ClientEvent) (flags : UInt32)
    (cid : List UInt8) : Connect × List ClientOut :=
  let ev := { ev with flags := flags, id := idstr cid }
  (s.setEvent e ev,
    if s.socketfd ≥ 0 then (connectSend env s (subscribeRequest env ev.id flags ev.updateCounter)).2 else [])

/-- `syncs_subscribe_event`; `none` for the refusal `-ENOMEM`. -/
def subscribeEvent (env : ClientEnv) (s : Connect) (flags : UInt32) (cid : List UInt8) (cb : Option Nat)
    (args : Nat) : Option (Connect × List ClientOut) :=
  (s.getEventStr cid).map fun e =>
    subscribeSlot env s e { s.events e with cb := cb, args := args } flags cid

/-- `syncs_subscribe_event_sync_user` -/
def subscribeEventSyncUser (env : ClientEnv) (s : Connect) (flags : UInt32) (cid : List UInt8)
    (userData : Option (List UInt8)) (userDataSize : UInt32) : Option (Connect × List ClientOut) :=
  (s.getEventStr cid).map fun e =>
    subscribeSlot env s e { s.events e with data := userData, dataUserSize := userDataSize } flags cid

/-- `syncs_subscribe_event_sync`; `eventData` is what `malloc` returned. -/
def subscribeEventSync (env : ClientEnv) (s : Connect) (flags : UInt32) (cid : List UInt8)
    (eventData : Option (List UInt8)) : Option (Connect × List ClientOut) :=
  (s.getEventStr cid).map fun e =>
    subscribeSlot env s e
      { s.events e with data := eventData, dataUserSize := UInt32.ofNat eventDataSizeMaximum } flags cid

/-- `syncs_unsubscribe_event` -/
def unsubscribeEvent (env : ClientEnv) (s : Connect) (cid : List UInt8) : Connect × List ClientOut :=
  match s.findEvent (idstr cid) with
  | some e =>
    (s.setEvent e { s.events e with id := (s.events e).id.free },
      (connectSend env s (unsubscribeRequest env (s.events e).id (s.events e).flags)).2)
  | none => (s, [])

/-- `syncs_channel_anons`; `none` where the table is full and the call runs through a null pointer. -/
def channelAnonsCall (env : ClientEnv) (s : Connect) (cid : List UInt8) (flags : UInt32) (port : UInt16) :
    Option (Connect × List ClientOut) :=
  s.findFreeChannel.map fun k =>
    let ch : ConnectChannel := ⟨idstr cid, ⟨0, port, flags⟩⟩
    ({ s with channels := Function.update s.channels k ch },
      if s.socketfd ≥ 0 then (connectSend env s (channelAnonsRequest env ch.id ch.ticket)).2 else [])

/-- The sending half of `syncs_channel_request`; `none` for the refusal `-EBADFD`. -/
def channelRequestCall (env : ClientEnv) (s : Connect) (cid : List UInt8) : Option (Connect × List ClientOut) :=
  if s.socketfd < 0 then none
  else some ({ s with ticketId := idstr cid }, (connectSend env s (channelRequestRequest env cid)).2)

/-! ## Waiting for an event -/

/-- What `syncs_wait_event` gives its caller. -/
structure Waited where
  id : Id
  flags : UInt32
  data : List UInt8
  deriving DecidableEq, Repr

/-- `syncs_wait_event` for a buffer of `size` bytes. With nothing pending the call waits until its
timeout and returns `NULL`; a packet that arrives in the meantime comes before the call. Where `data`
is `NULL` and bytes are asked for, the source reads through a null pointer. -/
def waitEvent (s : Connect) (size : Nat) : Option Waited × Connect :=
  match s.eventsQueue with
  | none => (none, s)
  | some e =>
    let ev := s.events e
    (some ⟨ev.id, ev.flags, read (ev.data.getD []) (min size ev.dataSize.toNat)⟩,
      { s with eventsQueue := none, eventWait := true })

/-! ## List requests -/

/-- `sizeof` of the packed entry. -/
def ListName.entrySize : ListName → Nat
  | .events => 90
  | .clients => 52
  | .channels => 46

/-- The number of entries `calloc` makes room for. -/
def ListName.maximum : ListName → Nat
  | .events => eventMaximum
  | .clients => clientMaximum
  | .channels => channelMaximum

/-- The allocation of the entries, if there are none yet. -/
def ListBuffer.alloc (l : ListName) (b : ListBuffer) : ListBuffer :=
  { b with info := some (b.info.getD (List.replicate (l.maximum * l.entrySize) 0)) }

/-- What a request stores into its fields. -/
def ListBuffer.request (b : ListBuffer) : ListBuffer :=
  { b with sequence := b.sequence + 1, recv := 0, waitPacket := 0, wait := true }

/-- The sending half of `syncs_request_eventslist`, `_clientslist` and `_channelslist`; without a
connection the call ends here and returns `NULL`. -/
def requestList (env : ClientEnv) (s : Connect) (l : ListName) : Connect × Option (List ClientOut) :=
  let b := (s.lists l).alloc l
  if s.socketfd < 0 then (s.setList l b, none)
  else (s.setList l b.request, some (connectSend env s (listRequest env l b.request.sequence)).2)

/-- `htonl(INADDR_LOOPBACK)` -/
def loopback : UInt32 := 0x0100007f

section Ends

/- `inet_addr` of the C library. -/
variable (inetAddr : List UInt8 → UInt32)

/-- The address `syncs_request_channelslist` returns for one it received. -/
def channelAddr (addr : List UInt8) (ip : UInt32) : UInt32 :=
  if ip = loopback ∧ addr.getD 0 0 ≠ 0 then inetAddr addr else ip

/-- The loop of `syncs_request_channelslist` over the first entries; the field `ip` is at offset 40. -/
def replaceLoopback (addr info : List UInt8) : Nat → List UInt8
  | 0 => info
  | n + 1 =>
    let info := replaceLoopback addr info n
    let off := n * ListName.channels.entrySize + 40
    if UInt32.ofNat (field info off 4) = loopback ∧ addr.getD 0 0 ≠ 0 then
      write info off (leBytes 4 (inetAddr addr).toNat)
    else info

/-- The end of `syncs_request_eventslist`, `_clientslist` and `_channelslist` after a wait that did
not time out: the fields it leaves, the count (a `uint32_t`), and the list it returns. -/
def requestListEnd (s : Connect) (l : ListName) : Connect × Nat × Option (List UInt8) :=
  let b := s.lists l
  let b :=
    match l with
    | .channels => { b with info := b.info.map fun info => replaceLoopback inetAddr s.addr info b.recv.toNat }
    | .events | .clients => b
  (s.setList l b, (b.recv % 2 ^ 32).toNat, b.info)

/-- The address in the ticket `syncs_channel_request` returns. -/
def ticketAddr (addr : List UInt8) (ip : UInt32) : UInt32 := if ip = loopback then inetAddr addr else ip

/-- The end of `syncs_channel_request`: its wait times out while `ticket_wait` is set, and else the
ticket is that of the last reply taken. -/
def channelRequestEnd (s : Connect) : Except Int Ticket :=
  if s.ticketWait then .error (-110)
  else .ok { s.ticketData with ip := ticketAddr inetAddr s.addr s.ticketData.ip }

end Ends

/-- `syncs_free_eventslist`, `syncs_free_clientslist`, `syncs_free_channelslist` -/
def freeList (s : Connect) (l : ListName) : Connect := s.setList l { s.lists l with info := none }

end SyncScribe
