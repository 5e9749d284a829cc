import SyncScribe.Server.State

/-!
The server's operations on events: sending, subscribing, defining, reading,
writing, and the calls of the server's own application (`syncs_server_*`).

Every call that sends builds its packet on the stack, field by field. What the
fields held before is part of the environment of the call (`Env.stack`), and so
are the clock, the outcome of the sends and the memory behind the received bytes.
-/

namespace SyncScribe
open Lib.Bytes Lib.Slots

structure Timespec where
  sec : Int
  nsec : Int
  deriving DecidableEq, Repr

/-- What a call finds around it. -/
structure Env where
  /-- the contents of the uninitialised `struct syncs_packet` of the call -/
  stack : Packet
  /-- the reading of `CLOCK_REALTIME` -/
  clock : Timespec
  /-- whether `syncs_blocking_send` to this client's socket fails -/
  sendFails : ClientIx → Bool
  /-- the memory that follows the bytes received -/
  beyond : List UInt8

/-- Zeroed memory, a clock at its epoch, and sends that succeed. -/
def Env.calm : Env where
  stack := ⟨⟨0, 0, 0, .zero, ⟨0, 0⟩, 0, 0, 0⟩, []⟩
  clock := ⟨0, 0⟩
  sendFails := fun _ => false
  beyond := []

/-- What the server does to the outside. -/
inductive Out
  /-- `syncs_client_send(c, packet)` -/
  | send (c : ClientIx) (p : Packet)
  /-- the `sendto` of `syncs_send_udp_server_status` -/
  | sendto (addr : SockAddr) (p : Packet)
  /-- the call of a local subscriber -/
  | call (cb args : Nat) (id : Id) (data : List UInt8)
  deriving DecidableEq

/-- The result of a call: the state it leaves, what it did, and its return value. -/
structure Res where
  server : Server
  out : List Out
  ret : Int

/-- The return value of `syncs_client_send`. -/
def clientSend (env : Env) (s : Server) (c : ClientIx) : Int :=
  if (s.clients c).socketfd > -1 then (if env.sendFails c then -1 else 0)
  else if (s.clients c).socketfd = udpSocketStub then 0
  else -1

/-! ## Sending -/

/-- `syncs_sync_calculate` -/
def syncCalculate (now : Timespec) (offsetS offsetMs : Int) : Syncdata :=
  let sec := now.sec + offsetS
  let nsec := now.nsec + offsetMs * 1000000
  if nsec > 1000000000 then ⟨UInt32.ofInt (sec + 1), UInt32.ofInt (nsec - 1000000000)⟩
  else ⟨UInt32.ofInt sec, UInt32.ofInt nsec⟩

/-- The packet `syncs_send_event` builds. -/
def eventPacket (env : Env) (s : Server) (ev : Event) (flags : UInt32) : Packet where
  header :=
    let h := { env.stack.header.fill ev.id (Msg.event.code ||| ev.dataType) with
      dataSize := ev.dataSize.toUInt16 }
    if flags &&& typeSync ≠ 0 then
      { h with type := h.type ||| typeSync, sync := syncCalculate env.clock 0 s.syncOffset }
    else h
  buffer := write env.stack.buffer 0 (read ev.data ev.dataSize.toNat)

/-- Whether the loop of `syncs_send_event` sends to the consumer `c`. -/
def sendsTo (ev : Event) (flags : UInt32) (c : ClientIx) : Bool :=
  !(some c == ev.producer && flags &&& typeEcho == 0)

/-- The loop of `syncs_send_event` over the given entries of `consumers`. -/
def sendEventLoop (env : Env) (ev : Event) (flags : UInt32) (p : Packet) :
    List (Fin clientMaximum) → Server → Server × List Out
  | [], s => (s, [])
  | i :: is, s =>
    match ev.consumers i with
    | none => sendEventLoop env ev flags p is s
    | some c =>
      if sendsTo ev flags c then
        let s := s.modifyClient c fun cl => { cl with txEventCount := cl.txEventCount + 1 }
        let s :=
          if clientSend env s c ≠ 0 then
            s.modifyClient c fun cl => { cl with txError := cl.txError + 1 }
          else s
        let r := sendEventLoop env ev flags p is s
        (r.1, .send c p :: r.2)
      else sendEventLoop env ev flags p is s

/-- `syncs_send_event` -/
def sendEvent (env : Env) (s : Server) (e : EventIx) (flags : UInt32) : Server × List Out :=
  sendEventLoop env (s.events e) flags (eventPacket env s (s.events e) flags)
    (List.finRange clientMaximum) s

/-- `syncs_client_send`, then `c->tx_event_count++`. -/
def sendCounted (s : Server) (c : ClientIx) (p : Packet) : Server × List Out :=
  (s.modifyClient c fun cl => { cl with txEventCount := cl.txEventCount + 1 }, [.send c p])

/-- The packet `syncs_resend_event` builds. -/
def resendPacket (env : Env) (ev : Event) : Packet where
  header := { env.stack.header.fill ev.id (Msg.event.code ||| statusLost) with
    dataSize := ev.dataSize.toUInt16 }
  buffer := write env.stack.buffer 0 (read ev.data ev.dataSize.toNat)

/-- `syncs_resend_event` -/
def resendEvent (env : Env) (s : Server) (c : ClientIx) (e : EventIx) : Server × List Out :=
  sendCounted s c (resendPacket env (s.events e))

/-- The packet of `syncs_send_server_status` and `syncs_send_udp_server_status`. -/
def statusPacket (env : Env) (s : Server) (code : UInt64) : Packet where
  header := { env.stack.header.fillRequest (idstr s.id.bytes) Msg.serverStatus.code with
    updateCounter := code }
  buffer := env.stack.buffer

/-- `syncs_send_server_status` -/
def sendServerStatus (env : Env) (s : Server) (c : ClientIx) (code : UInt64) : Server × List Out :=
  sendCounted s c (statusPacket env s code)

/-! ## The events of the clients -/

/-- The opening of every call that may create its event: `syncs_find_event`, else under
`SYNCS_TYPE_FORCE` `syncs_create_event` and the type the caller gives it (0 is what
`syncs_event_init` left). -/
def openEvent (s : Server) (id : Id) (flags dataType : UInt32) : Except Int (Server × EventIx) :=
  match findEvent s id with
  | some e => .ok (s, e)
  | none =>
    if flags &&& typeForce = 0 then .error (-1)
    else
      match createEvent s id with
      | none => .error (-2)
      | some (s, e) => .ok (s.setEvent e { s.events e with dataType := dataType }, e)

/-- The type gate of `syncs_client_subscribe`. -/
def subscribeAdmits (flags dataType : UInt32) : Bool :=
  dataType &&& typeVarMask == typeVarAny || flags &&& typeVarMask == typeVarAny ||
    flags &&& typeVarMask == dataType

/-- `syncs_client_subscribe` -/
def clientSubscribe (env : Env) (s : Server) (c : ClientIx) (id : Id) (flags : UInt32)
    (updateCounter : UInt64) : Res :=
  match openEvent s id flags (flags &&& typeVarMask) with
  | .error r => ⟨s, [], r⟩
  | .ok (s, e) =>
    if subscribeAdmits flags (s.events e).dataType then
      let s := (addClientToEvent s c e).2
      if updateCounter < (s.events e).updateCounter then
        let r := resendEvent env s c e
        ⟨r.1, r.2, 0⟩
      else ⟨s, [], 0⟩
    else ⟨s, [], -3⟩

/-- `syncs_client_unsubscribe` -/
def clientUnsubscribe (s : Server) (c : ClientIx) (id : Id) : Server :=
  match findEvent s id with
  | some e => removeClientFromEvent s c e
  | none => s

/-- The stores of `syncs_add_event` into its event; `data` is `NULL` or the memory pointed to. -/
def addEventStore (ev : Event) (flags : UInt32) (data : Option (List UInt8)) (size : UInt32) : Event :=
  let dataSize :=
    if 1 < size.toNat ∧ size.toNat < variableSizeMaximum then size else getSizeByType flags
  { ev with
    dataType := flags &&& typeVarMask
    dataSize := dataSize
    data :=
      match data with
      | none => ev.data
      | some d => write ev.data 0 (read d dataSize.toNat) }

/-- `syncs_add_event` -/
def addEvent (s : Server) (id : Id) (flags : UInt32) (data : Option (List UInt8)) (size : UInt32) : Res :=
  match findEvent s id with
  | some e =>
    if flags &&& typeForce = 0 then ⟨s, [], -2⟩
    else ⟨s.setEvent e (addEventStore (s.events e) flags data size), [], 0⟩
  | none =>
    match createEvent s id with
    | none => ⟨s, [], -1⟩
    | some (s, e) => ⟨s.setEvent e (addEventStore (s.events e) flags data size), [], 0⟩

/-- The packet `syncs_client_read` answers with. -/
def readPacket (env : Env) (s : Server) (id : Id) : Packet :=
  let h := env.stack.header.fill id Msg.read.code
  match findEvent s id with
  | some e =>
    { header := { h with
        dataSize := (s.events e).dataSize.toUInt16
        type := h.type ||| ((s.events e).dataType &&& typeVarMask) }
      buffer := write env.stack.buffer 0 (read (s.events e).data (s.events e).dataSize.toNat) }
  | none =>
    { header := { h with type := h.type ||| typeVarNotDefined, dataSize := 0 }
      buffer := env.stack.buffer }

/-- `syncs_client_read` -/
def clientRead (env : Env) (s : Server) (c : ClientIx) (id : Id) : Server × List Out :=
  sendCounted s c (readPacket env s id)

/-- The stores of `syncs_client_write` into its event. -/
def writeStore (s : Server) (c : ClientIx) (ev : Event) (data : List UInt8) (dataSize : UInt32) : Event :=
  { ev with
    producer := some c
    producersCount := if ev.producer = some c then ev.producersCount else ev.producersCount + 1
    count := ev.count + 1
    data := write ev.data 0 (read data dataSize.toNat)
    dataSize := dataSize
    updateCounter := s.updateCounter }

/-- The call of the local subscriber of an event, if it has one. -/
def callLocal (ev : Event) (id : Id) : List Out :=
  match ev.cb with
  | some cb => [.call cb ev.args id (read ev.data ev.dataSize.toNat)]
  | none => []

/-- `syncs_client_write` from the type check on. -/
def clientWriteEvent (env : Env) (s : Server) (c : ClientIx) (e : EventIx) (id : Id) (flags : UInt32)
    (data : List UInt8) (dataSize : UInt32) : Res :=
  if flags &&& typeVarMask ≠ (s.events e).dataType then ⟨s, [], -3⟩
  else
    let ev := writeStore s c (s.events e) data dataSize
    let s := (s.setEvent e ev).modifyClient c fun cl => { cl with eventWrite := cl.eventWrite + 1 }
    let s := { s with updateCounter := s.updateCounter + 1 }
    let r := sendEvent env s e (flags &&& (typeVarMask ||| typeSync ||| typeEcho))
    ⟨r.1, callLocal ev id ++ r.2, 0⟩

/-- `syncs_client_write` -/
def clientWrite (env : Env) (s : Server) (c : ClientIx) (id : Id) (flags : UInt32)
    (data : List UInt8) (dataSize : UInt32) : Res :=
  match openEvent s id flags (flags &&& typeVarMask) with
  | .error r => ⟨s, [], r⟩
  | .ok (s, e) => clientWriteEvent env s c e id flags data dataSize

/-! ## The server's own application -/

/-- `syncs_server_subscribe_event` -/
def serverSubscribeEvent (s : Server) (flags : UInt32) (cid : List UInt8) (cb : Option Nat) (args : Nat) : Res :=
  match openEvent s (idstr cid) flags 0 with
  | .error r => ⟨s, [], r⟩
  | .ok (s, e) => ⟨s.setEvent e { s.events e with args := args, cb := cb }, [], 0⟩

/-- `syncs_server_unsubscribe_event` -/
def serverUnsubscribeEvent (s : Server) (cid : List UInt8) : Server :=
  match findEvent s (idstr cid) with
  | some e => s.setEvent e { s.events e with cb := none, args := 0 }
  | none => s

/-- The number of bytes `syncs_server_write` copies. -/
def serverWriteSize (flags dataSize : UInt32) : UInt32 :=
  if dataSize = 0 then getSizeByType flags else dataSize

/-- The stores of `syncs_server_write` into its event. -/
def serverWriteStore (ev : Event) (data : List UInt8) (dataSize : UInt32) : Event :=
  { ev with
    data := write ev.data 0 (read data dataSize.toNat)
    dataSize := dataSize
    producer := none
    producersCount := if ev.producer = none then ev.producersCount else ev.producersCount + 1 }

/-- `syncs_server_write` -/
def serverWrite (env : Env) (s : Server) (flags : UInt32) (cid : List UInt8) (data : List UInt8)
    (dataSize : UInt32) : Res :=
  match openEvent s (idstr cid) flags 0 with
  | .error r => ⟨s, [], r⟩
  | .ok (s, e) =>
    let s := s.setEvent e (serverWriteStore (s.events e) data (serverWriteSize flags dataSize))
    let r := sendEvent env s e flags
    ⟨r.1, r.2, 0⟩

/-- `syncs_server_define` -/
def serverDefine (s : Server) (cid : List UInt8) (flags : UInt32) (data : Option (List UInt8)) (size : UInt32) : Res :=
  if size.toNat > variableSizeMaximum then ⟨s, [], -5⟩
  else addEvent s (idstr cid) flags data size

/-- `syncs_server_undefine` -/
def serverUndefine (s : Server) (cid : List UInt8) : Server := freeEvent s (idstr cid)

end SyncScribe
