import SyncScribe.Server.State

/-!
The client's state (`syncs-client-types.h`) and the operations on its tables.

Left out of the record: threads, mutexes and condition variables, keys, the
address of the UDP server, and the receive buffer, which `syncs_recv` keeps track
of in local variables. The fields of the three list requests (`eventlist_*` and
`events_info`, and so on) have the same meaning for each list and are one record.
-/

namespace SyncScribe
open Lib.Bytes Lib.Slots

/-- `struct syncs_client_event`; `data` is `NULL` or the memory pointed to. -/
structure ClientEvent where
  id : Id
  cb : Option Nat
  args : Nat
  updateCounter : UInt64
  flags : UInt32
  data : Option (List UInt8)
  dataSize : UInt32
  dataUserSize : UInt32

/-- `struct syncs_connect_channel` -/
structure ConnectChannel where
  id : Id
  ticket : Ticket

/-- The lists a client can request. -/
inductive ListName
  | events
  | clients
  | channels
  deriving DecidableEq, Repr

/-- The fields of one list request; `info` is `NULL` or the memory of the entries. The `char`
fields are bytes; `recv` is an `int` and may be negative, so that entries are copied in front of that memory. -/
structure ListBuffer where
  info : Option (List UInt8)
  sequence : UInt8
  waitPacket : UInt8
  recv : Int
  wait : Bool
  /-- the memory in front of the entries, its last byte first -/
  front : List UInt8
  deriving DecidableEq, Repr

/-- `struct syncs_connect` -/
structure Connect where
  id : Id
  serverId : Id
  addr : List UInt8
  socketfd : Int
  usocketfd : Int
  onexit : Bool
  ready : Bool
  readData : List UInt8
  readSize : Nat
  readId : Id
  readWait : Bool
  eventWait : Bool
  eventsQueue : Option EventIx
  ticketData : Ticket
  ticketId : Id
  ticketWait : Bool
  events : EventIx → ClientEvent
  channels : ChannelIx → ConnectChannel
  lists : ListName → ListBuffer

/-- A slot is in use when the first word of its identifier is not the marker. -/
def ClientEvent.live (e : ClientEvent) : Bool := e.id.i0 != freeMark
def ConnectChannel.live (c : ConnectChannel) : Bool := c.id.i0 != freeMark

/-! ## The initial state: `calloc`, then `syncs_connect_structure_init` -/

def ClientEvent.init : ClientEvent where
  id := Id.zero.free
  cb := none
  args := 0
  updateCounter := 0
  flags := 0
  data := none
  dataSize := 0
  dataUserSize := 0

def ListBuffer.init : ListBuffer := ⟨none, 0, 0, 0, false, []⟩

/-- `syncs_connect`, for a client of the given name and the server's address. -/
def connectCreate (cid addr : List UInt8) : Connect where
  id := idstr cid
  serverId := .zero
  addr := addr
  socketfd := -1
  usocketfd := -1
  onexit := false
  ready := false
  readData := List.replicate variableSizeMaximum 0
  readSize := 0
  readId := .zero
  readWait := false
  eventWait := true
  eventsQueue := none
  ticketData := ⟨0, 0, 0⟩
  ticketId := .zero
  ticketWait := false
  events := fun _ => .init
  channels := fun _ => ⟨Id.zero.free, ⟨0, 0, 0⟩⟩
  lists := fun _ => .init

/-! ## Slots -/

namespace Connect

variable (s : Connect)

def setEvent (e : EventIx) (ev : ClientEvent) : Connect :=
  { s with events := Function.update s.events e ev }

def setList (l : ListName) (b : ListBuffer) : Connect :=
  { s with lists := Function.update s.lists l b }

@[simp] theorem setList_same (l : ListName) (b : ListBuffer) : (s.setList l b).lists l = b := by
  simp [setList]

theorem setList_of_ne {l m : ListName} (b : ListBuffer) (h : m ≠ l) :
    (s.setList l b).lists m = s.lists m := by
  simp [setList, h]

@[simp] theorem setEvent_lists (e : EventIx) (ev : ClientEvent) :
    (s.setEvent e ev).lists = s.lists := rfl
@[simp] theorem setEvent_onexit (e : EventIx) (ev : ClientEvent) :
    (s.setEvent e ev).onexit = s.onexit := rfl
@[simp] theorem setEvent_socketfd (e : EventIx) (ev : ClientEvent) :
    (s.setEvent e ev).socketfd = s.socketfd := rfl
@[simp] theorem setList_onexit (l : ListName) (b : ListBuffer) :
    (s.setList l b).onexit = s.onexit := rfl
@[simp] theorem setList_events (l : ListName) (b : ListBuffer) :
    (s.setList l b).events = s.events := rfl

/-- `syncs_find_event` -/
def findEvent (id : Id) : Option EventIx := first fun e => idcmp (s.events e).id id

/-- `syncs_find_event_str` -/
def findEventStr (cid : List UInt8) : Option EventIx := first fun e => idcmpStr (s.events e).id cid

/-- `syncs_get_free_event` -/
def getFreeEvent : Option EventIx := first fun e => (s.events e).id.i0 == freeMark

/-- `syncs_get_event_str` -/
def getEventStr (cid : List UInt8) : Option EventIx :=
  match s.findEventStr cid with
  | none => s.getFreeEvent
  | some e => some e

/-- `syncs_find_free_channel` -/
def findFreeChannel : Option ChannelIx := first fun k => (s.channels k).id.i0 == freeMark

end Connect

end SyncScribe
