import SyncScribe.Server.Lists

/-!
Channels, and the dispatch of one packet (`syncs_client_process_packet`,
`syncs_uclient_process_packet`).
-/

namespace SyncScribe
open Lib.Bytes Lib.Slots

/-! ## Channels -/

/-- The stores of `syncs_add_channel` into its channel. -/
def addChannelStore (ch : Channel) (c : ClientIx) (addr : SockAddr) (ticket : Ticket) : Channel :=
  { ch with
    anonsCount := ch.anonsCount + 1
    ticket := { ticket with ip := addr.ip }
    producer := some c
    producersCount := if ch.producer = some c then ch.producersCount else ch.producersCount + 1 }

/-- `syncs_add_channel`; `data` is the memory behind the header, read for a whole ticket. -/
def addChannel (s : Server) (c : ClientIx) (id : Id) (data : List UInt8) : Res :=
  let ticket := Ticket.decode (read data ticketSize)
  let addr := (s.clients c).addr
  match findChannel s id with
  | some k => ⟨s.setChannel k (addChannelStore (s.channels k) c addr ticket), [], 0⟩
  | none =>
    match createChannel s id with
    | none => ⟨s, [], -1⟩
    | some (s, k) => ⟨s.setChannel k (addChannelStore (s.channels k) c addr ticket), [], 0⟩

/-- The packet `syncs_client_channel_request` answers with. -/
def ticketPacket (env : Env) (id : Id) (ch : Channel) : Packet where
  header := { env.stack.header.fill id channelTicket with dataSize := UInt16.ofNat ticketSize }
  buffer := write env.stack.buffer 0 ch.ticket.encode

/-- `syncs_client_channel_request` -/
def clientChannelRequest (env : Env) (s : Server) (c : ClientIx) (id : Id) : Res :=
  match findChannel s id with
  | none => ⟨s, [], -1⟩
  | some k => ⟨s, [.send c (ticketPacket env id (s.channels k))], 0⟩

/-- `syncs_client_channel` -/
def clientChannel (env : Env) (s : Server) (c : ClientIx) (p : Packet) : Res :=
  if p.header.type &&& channelMask = channelAnons then
    { addChannel s c p.header.id p.buffer with ret := 0 }
  else if p.header.type &&& channelMask = channelRequest then
    { clientChannelRequest env s c p.header.id with ret := 0 }
  else ⟨s, [], -1⟩

/-! ## Dispatch -/

/-- A `CLIENT_ID` of a version the server does not support. -/
def Header.unsupported (h : Header) : Bool := h.msg == .clientId && h.sync.data0 != versionMajor

/-- The `SYNCS_TYPE_CLIENT_ID` case: a status reply, then for another major version the close of
the connection, and in any case the identity of the client. -/
def clientIdentify (env : Env) (s : Server) (c : ClientIx) (h : Header) : Server × List Out :=
  let r :=
    if h.sync.data0 ≠ versionMajor then
      let r := sendServerStatus env s c errorNotsupport
      (closeClientSocket r.1 c, r.2)
    else sendServerStatus env s c errorNotfound
  (r.1.modifyClient c fun cl =>
    { cl with
      id := h.id
      version := ((h.sync.data0 &&& 0xff) <<< 8) ||| (h.sync.data1 &&& 0xff) }, r.2)

/-- The switch of `syncs_client_process_packet`; `none` is its default case. -/
def clientDispatch (env : Env) (s : Server) (c : ClientIx) (p : Packet) : Option (Server × List Out) :=
  let h := p.header
  match h.msg with
  | .subscribe =>
    let r := clientSubscribe env s c h.id h.type h.updateCounter
    some (r.server, r.out)
  | .unsubscribe => some (clientUnsubscribe s c h.id, [])
  | .define => some ((addEvent s h.id h.type none h.dataSize.toUInt32).server, [])
  | .undefine => some (freeEvent s h.id, [])
  | .write =>
    let r := clientWrite env s c h.id h.type p.buffer h.dataSize.toUInt32
    some (r.server, r.out)
  | .read => some (clientRead env s c h.id)
  | .clientList => some (clientSendClientlist env s c (h.id.c 0))
  | .eventList => some (clientSendEventlist env s c (h.id.c 0))
  | .clientId => some (clientIdentify env s c h)
  | .channel =>
    let r := clientChannel env s c p
    some (r.server, r.out)
  | .channelList => some (clientSendChannellist env s c (h.id.c 0))
  | _ => none

/-- `syncs_client_process_packet` -/
def clientProcessPacket (env : Env) (s : Server) (c : ClientIx) (p : Packet) : Res :=
  match clientDispatch env s c p with
  | none => ⟨s, [], -1⟩
  | some (s, out) =>
    ⟨s.modifyClient c fun cl => { cl with rxEventCount := cl.rxEventCount + 1 }, out, 0⟩

/-! ## Datagrams -/

/-- `syncs_add_uclient` -/
def addUclient (s : Server) (addr : SockAddr) : Option (Server × ClientIx) :=
  match getFreeClient s with
  | none => none
  | some c =>
    let s := s.modifyClient c fun cl =>
      { cl with
        addr := addr, socketfd := udpSocketStub, eventSubscribe := 0, rxEventCount := 0
        txEventCount := 0, eventWrite := 0 }
    some ({ s with uclientCount := s.uclientCount + 1, clientCount := s.clientCount + 1 }, c)

/-- How `syncs_uclient_process_packet` finds the client of a datagram: by its address, and for a
`CLIENT_ID` by its identifier or in a new slot. `none` means the datagram is refused. -/
def uclientOf (s : Server) (addr : SockAddr) (h : Header) : Option (Server × ClientIx) :=
  match findUclientAddr s addr with
  | some c => some (s, c)
  | none =>
    if h.msg = .clientId then
      match findUclientId s h.id with
      | some c => some (s.modifyClient c fun cl => { cl with addr := addr }, c)
      | none => addUclient s addr
    else none

/-- `syncs_uclient_process_packet` -/
def uclientProcessPacket (env : Env) (s : Server) (addr : SockAddr) (p : Packet) : Res :=
  match uclientOf s addr p.header with
  | some (s, c) => { clientProcessPacket env s c p with ret := 0 }
  | none =>
    if p.header.msg = .clientId then ⟨s, [], -1⟩
    else ⟨s, [.sendto addr (statusPacket env s errorUnknownclient)], -1⟩

/-- `syncs_add_client`; `accepted` is what `accept` gave, `none` for its error. -/
def addClient (s : Server) (accepted : Option (Nat × SockAddr)) : Server :=
  match getFreeClient s, accepted with
  | none, _ => s
  | some _, none => s
  | some c, some (fd, addr) =>
    let s := s.modifyClient c fun cl =>
      { cl with
        addr := addr, socketfd := fd, eventSubscribe := 0, rxEventCount := 0
        txEventCount := 0, eventWrite := 0 }
    { s with clientCount := s.clientCount + 1 }

end SyncScribe
