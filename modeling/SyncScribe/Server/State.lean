import SyncScribe.Types
import SyncScribe.Lib.Slots

/-!
The server's state (`syncs-server-types.h`) and the operations on single slots.

A pointer into one of the server's tables is the index of the slot. Left out of
the records: the epoll handles, the back pointer to the server, the keys and
the socket of the server itself, which no operation below reads. The pair of
`buffer` and `buffer_recv` of a client is the list of the bytes received and not
yet consumed; `data` of an event is its memory, 511 bytes unless something wrote
past its end.
-/

namespace SyncScribe
open Lib.Bytes Lib.Slots

abbrev ClientIx := Fin clientMaximum
abbrev EventIx := Fin eventMaximum
abbrev ChannelIx := Fin channelMaximum

instance : NeZero clientMaximum := ⟨by decide⟩
instance : NeZero eventMaximum := ⟨by decide⟩
instance : NeZero channelMaximum := ⟨by decide⟩

/-- The parts of a `sockaddr_in` that are read. -/
structure SockAddr where
  ip : UInt32
  port : UInt16
  deriving DecidableEq, Repr

/-- `struct syncs_client` -/
structure Client where
  id : Id
  socketfd : Int
  addr : SockAddr
  eventSubscribe : UInt32
  eventWrite : UInt32
  rxEventCount : UInt32
  txEventCount : UInt32
  txError : UInt32
  version : UInt32
  buffer : List UInt8

/-- `struct syncs_event`; `cb` and `args` are the local subscriber, as opaque pointers. -/
structure Event where
  id : Id
  data : List UInt8
  dataType : UInt32
  dataSize : UInt32
  count : UInt32
  updateCounter : UInt64
  consumersCount : UInt32
  producersCount : UInt32
  consumers : Fin clientMaximum → Option ClientIx
  producer : Option ClientIx
  cb : Option Nat
  args : Nat

/-- `struct syncs_channel` -/
structure Channel where
  id : Id
  ticket : Ticket
  anonsCount : UInt32
  requestCount : UInt32
  producersCount : UInt32
  producer : Option ClientIx

/-- `struct syncs_server` -/
structure Server where
  id : Id
  events : EventIx → Event
  clients : ClientIx → Client
  channels : ChannelIx → Channel
  channelCount : UInt32
  eventCount : UInt32
  clientCount : UInt32
  uclientCount : UInt32
  syncOffset : Int
  updateCounter : UInt64

/-- A slot is in use when the first word of its identifier is not the marker. -/
def Event.live (e : Event) : Bool := e.id.i0 != freeMark
def Channel.live (c : Channel) : Bool := c.id.i0 != freeMark
def Client.connected (c : Client) : Bool := c.socketfd != -1

/-! ## The initial state: `calloc`, then `syncs_server_structure_init` -/

def Client.init : Client where
  id := .zero
  socketfd := -1
  addr := ⟨0, 0⟩
  eventSubscribe := 0
  eventWrite := 0
  rxEventCount := 0
  txEventCount := 0
  txError := 0
  version := 0
  buffer := []

def Event.init : Event where
  id := Id.zero.free
  data := List.replicate variableSizeMaximum 0
  dataType := 0
  dataSize := 0
  count := 0
  updateCounter := 0
  consumersCount := 0
  producersCount := 0
  consumers := fun _ => none
  producer := none
  cb := none
  args := 0

def Channel.init : Channel where
  id := Id.zero.free
  ticket := ⟨0, 0, 0⟩
  anonsCount := 0
  requestCount := 0
  producersCount := 0
  producer := none

/-- `syncs_server_create`, for a server of the given name. -/
def serverCreate (cid : List UInt8) : Server where
  id := idstr cid
  events := fun _ => .init
  clients := fun _ => .init
  channels := fun _ => .init
  channelCount := 0
  eventCount := 0
  clientCount := 0
  uclientCount := 0
  syncOffset := defaultSyncOffsetMs
  updateCounter := 0

/-! ## Slot updates -/

namespace Server

variable (s : Server)

def setEvent (e : EventIx) (ev : Event) : Server := { s with events := Function.update s.events e ev }

def setChannel (k : ChannelIx) (ch : Channel) : Server :=
  { s with channels := Function.update s.channels k ch }

def modifyClient (c : ClientIx) (f : Client → Client) : Server :=
  { s with clients := Function.update s.clients c (f (s.clients c)) }

@[simp] theorem setEvent_same (e : EventIx) (ev : Event) : (s.setEvent e ev).events e = ev := by
  simp [setEvent]

theorem setEvent_of_ne {e i : EventIx} (ev : Event) (h : i ≠ e) :
    (s.setEvent e ev).events i = s.events i := by
  simp [setEvent, h]

@[simp] theorem setEvent_clients (e : EventIx) (ev : Event) :
    (s.setEvent e ev).clients = s.clients := rfl
@[simp] theorem setEvent_channels (e : EventIx) (ev : Event) :
    (s.setEvent e ev).channels = s.channels := rfl
@[simp] theorem setEvent_updateCounter (e : EventIx) (ev : Event) :
    (s.setEvent e ev).updateCounter = s.updateCounter := rfl
@[simp] theorem setChannel_events (k : ChannelIx) (ch : Channel) :
    (s.setChannel k ch).events = s.events := rfl
@[simp] theorem setChannel_clients (k : ChannelIx) (ch : Channel) :
    (s.setChannel k ch).clients = s.clients := rfl
@[simp] theorem setChannel_updateCounter (k : ChannelIx) (ch : Channel) :
    (s.setChannel k ch).updateCounter = s.updateCounter := rfl
@[simp] theorem modifyClient_events (c : ClientIx) (f : Client → Client) :
    (s.modifyClient c f).events = s.events := rfl
@[simp] theorem modifyClient_channels (c : ClientIx) (f : Client → Client) :
    (s.modifyClient c f).channels = s.channels := rfl
@[simp] theorem modifyClient_updateCounter (c : ClientIx) (f : Client → Client) :
    (s.modifyClient c f).updateCounter = s.updateCounter := rfl

theorem modifyClient_clients (c i : ClientIx) (f : Client → Client) :
    (s.modifyClient c f).clients i = if i = c then f (s.clients c) else s.clients i := by
  simp [modifyClient, Function.update_apply]

end Server

/-! ## Searching and allocating -/

/-- `syncs_get_free_client` -/
def getFreeClient (s : Server) : Option ClientIx := first fun c => (s.clients c).socketfd == -1

/-- `syncs_find_event` -/
def findEvent (s : Server) (id : Id) : Option EventIx := first fun e => idcmp (s.events e).id id

/-- `syncs_find_channel` -/
def findChannel (s : Server) (id : Id) : Option ChannelIx := first fun k => idcmp (s.channels k).id id

/-- `syncs_find_uclient_id` -/
def findUclientId (s : Server) (id : Id) : Option ClientIx :=
  first fun c => (s.clients c).socketfd == udpSocketStub && idcmp (s.clients c).id id

/-- `syncs_find_uclient_addr` -/
def findUclientAddr (s : Server) (addr : SockAddr) : Option ClientIx :=
  first fun c => (s.clients c).socketfd == udpSocketStub && (s.clients c).addr.ip == addr.ip &&
    (s.clients c).addr.port == addr.port

/-- `syncs_event_init` -/
def eventInit (ev : Event) (id : Id) : Event :=
  { ev with
    id := id, data := write ev.data 0 [0], dataType := 0, dataSize := 0, count := 0
    updateCounter := 0, consumersCount := 0, producersCount := 0, consumers := fun _ => none
    producer := none, cb := none, args := 0 }

/-- `syncs_create_event` -/
def createEvent (s : Server) (id : Id) : Option (Server × EventIx) :=
  match first fun e => (s.events e).id.i0 == freeMark with
  | some e =>
    some ({ s.setEvent e (eventInit (s.events e) id) with eventCount := s.eventCount + 1 }, e)
  | none => none

/-- `syncs_channel_init` -/
def channelInit (ch : Channel) (id : Id) : Channel :=
  { ch with id := id, producer := none, anonsCount := 0, producersCount := 0, requestCount := 0 }

/-- `syncs_create_channel` -/
def createChannel (s : Server) (id : Id) : Option (Server × ChannelIx) :=
  match first fun k => (s.channels k).id.i0 == freeMark with
  | some k =>
    some ({ s.setChannel k (channelInit (s.channels k) id) with channelCount := s.channelCount + 1 }, k)
  | none => none

/-- `syncs_free_event` -/
def freeEvent (s : Server) (id : Id) : Server :=
  match findEvent s id with
  | some e =>
    { s.setEvent e { s.events e with id := (s.events e).id.free } with eventCount := s.eventCount - 1 }
  | none => s

/-- `syncs_add_client_to_event` -/
def addClientToEvent (s : Server) (c : ClientIx) (e : EventIx) : Int × Server :=
  match first fun i => (s.events e).consumers i == some c with
  | some _ => (0, s)
  | none =>
    match first fun i => ((s.events e).consumers i).isNone with
    | some i =>
      (0, (s.setEvent e
        { s.events e with
          consumers := Function.update (s.events e).consumers i (some c)
          consumersCount := (s.events e).consumersCount + 1 }).modifyClient c
        fun cl => { cl with eventSubscribe := cl.eventSubscribe + 1 })
    | none => (-1, s)

/-- `syncs_remove_client_from_event` -/
def removeClientFromEvent (s : Server) (c : ClientIx) (e : EventIx) : Server :=
  match first fun i => (s.events e).consumers i == some c with
  | some i =>
    (s.setEvent e
      { s.events e with
        consumers := Function.update (s.events e).consumers i none
        consumersCount := (s.events e).consumersCount - 1 }).modifyClient c
      fun cl => { cl with eventSubscribe := cl.eventSubscribe - 1 }
  | none => s

/-- The loop of `syncs_remove_client_from_events` over the given slots. -/
def removeClientFromEventsLoop (c : ClientIx) : List EventIx → Server → Server
  | [], s => s
  | e :: es, s =>
    removeClientFromEventsLoop c es (if (s.events e).live then removeClientFromEvent s c e else s)

/-- `syncs_remove_client_from_events` -/
def removeClientFromEvents (s : Server) (c : ClientIx) : Server :=
  removeClientFromEventsLoop c (List.finRange eventMaximum) s

/-- `syncs_remove_channels_of_client`: every iteration looks at its own slot only. -/
def removeChannelsOfClient (s : Server) (c : ClientIx) : Server :=
  { s with
    channels := fun k =>
      if (s.channels k).live && (s.channels k).producer == some c then
        { s.channels k with id := (s.channels k).id.free }
      else s.channels k }

/-- `syncs_close_client_socket` -/
def closeClientSocket (s : Server) (c : ClientIx) : Server :=
  (removeChannelsOfClient (removeClientFromEvents s c) c).modifyClient c
    fun cl => { cl with socketfd := -1 }

end SyncScribe
