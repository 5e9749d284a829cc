import SyncScribe.Server.Events

/-!
The three list replies (`syncs_client_send_clientlist`, `_eventlist`,
`_channellist`). They are one loop over the slots of a table that collects
entries in the payload and sends it whenever it is full, then a last packet,
possibly empty, marked by `id.c[4] = 1`. The functions differ in the table, the
entry and its size (`ListKind`).
-/

namespace SyncScribe
open Lib.Bytes Lib.Slots

/-- What distinguishes one list reply from another. -/
structure ListKind (n : Nat) where
  msg : Msg
  /-- `sizeof` of the packed entry -/
  entrySize : Nat
  occupied : Server → Fin n → Bool
  /-- the stores into the entry at the given offset of the payload -/
  fill : Server → Fin n → List UInt8 → Nat → List UInt8
  /-- the counter from which `id.c[1]` is computed -/
  total : Server → UInt32

namespace ListKind

variable {n : Nat} (k : ListKind n)

/-- The number of entries that fit a packet. -/
def perPacket : Nat := variableSizeMaximum / k.entrySize

end ListKind

/-- `id.c[2]` and `data_size` of a packet with `count` entries. -/
def stampCount (k : ListKind n) (count : Nat) (p : Packet) : Packet :=
  { p with header := { p.header with
      id := p.header.id.setC 2 (UInt8.ofNat count)
      dataSize := UInt16.ofNat (count * k.entrySize) } }

/-- The state of the loop: the packet being filled, the entries in it, and what was sent. -/
structure ListState where
  server : Server
  packet : Packet
  count : Nat
  out : List Out

/-- One slot: an occupied one is entered, and a full packet is sent. -/
def listStep (k : ListKind n) (c : ClientIx) (st : ListState) (i : Fin n) : ListState :=
  if k.occupied st.server i then
    let p := { st.packet with
      buffer := k.fill st.server i st.packet.buffer (st.count * k.entrySize) }
    if st.count + 1 ≥ k.perPacket then
      let p := stampCount k (st.count + 1) p
      let r := sendCounted st.server c p
      { server := r.1
        packet := { p with header := { p.header with
          id := p.header.id.setC 0 (p.header.id.c 0 + 1) } }
        count := 0
        out := st.out ++ r.2 }
    else { st with packet := p, count := st.count + 1 }
  else st

/-- The packet the loop starts with. -/
def listPacket (env : Env) (k : ListKind n) (s : Server) (sequance : UInt8) : Packet :=
  { env.stack with header := { env.stack.header with
      magic := packetMagic
      magicData := packetMagicData
      type := k.msg.code
      id := (((env.stack.header.id.setC 0 0).setC 1
        (UInt8.ofNat ((k.total s).toNat / k.perPacket + 1))).setC 3 sequance).setC 4 0 } }

/-- The whole reply; the last packet carries the entries left over, if any. -/
def sendList (env : Env) (k : ListKind n) (s : Server) (c : ClientIx) (sequance : UInt8) :
    Server × List Out :=
  let st := (List.finRange n).foldl (listStep k c) ⟨s, listPacket env k s sequance, 0, []⟩
  let p := { st.packet with header := { st.packet.header with
    id := st.packet.header.id.setC 4 1 } }
  let r := sendCounted st.server c (stampCount k st.count p)
  (r.1, st.out ++ r.2)

/-! ## The three tables -/

/-- `struct syncs_client_info`: 52 bytes, all of them stored. -/
def clientInfoBytes (cl : Client) : List UInt8 :=
  cl.id.bytes ++ leBytes 4 cl.eventSubscribe.toNat ++ leBytes 4 cl.eventWrite.toNat ++
    leBytes 4 cl.rxEventCount.toNat ++ leBytes 4 cl.txEventCount.toNat ++ leBytes 4 cl.addr.ip.toNat

def clientKind : ListKind clientMaximum where
  msg := .clientList
  entrySize := 52
  occupied s i := (s.clients i).connected
  fill s i buf off := write buf off (clientInfoBytes (s.clients i))
  total s := s.clientCount

/-- The stores into a `struct syncs_event_info` of 90 bytes: `time` is never stored and
`short_data` only as far as the event has data. -/
def fillEventInfo (ev : Event) (buf : List UInt8) (off : Nat) : List UInt8 :=
  let buf := write buf off ev.id.bytes
  let buf := write buf (off + 82) (leBytes 4 ev.consumersCount.toNat)
  let buf := write buf (off + 78) (leBytes 4 ev.count.toNat)
  let buf := write buf (off + 68) (leBytes 2 ev.dataSize.toUInt16.toNat)
  let buf := write buf (off + 86) (leBytes 4 ev.producersCount.toNat)
  let buf := write buf (off + 32) (leBytes 4 ev.dataType.toNat)
  write buf (off + 36) (read ev.data (min ev.dataSize.toNat variableInfoSizeMaximum))

def eventKind : ListKind eventMaximum where
  msg := .eventList
  entrySize := 90
  occupied s i := (s.events i).live
  fill s i := fillEventInfo (s.events i)
  total s := s.eventCount

/-- `struct syncs_channel_info`: 46 bytes, all of them stored. -/
def channelInfoBytes (ch : Channel) : List UInt8 :=
  ch.id.bytes ++ leBytes 4 ch.anonsCount.toNat ++ leBytes 4 ch.requestCount.toNat ++
    leBytes 4 ch.ticket.ip.toNat ++ leBytes 2 ch.ticket.port.toNat

def channelKind : ListKind channelMaximum where
  msg := .channelList
  entrySize := 46
  occupied s i := (s.channels i).live
  fill s i buf off := write buf off (channelInfoBytes (s.channels i))
  total s := s.channelCount

/-- `syncs_client_send_clientlist` -/
def clientSendClientlist (env : Env) := sendList env clientKind

/-- `syncs_client_send_eventlist` -/
def clientSendEventlist (env : Env) := sendList env eventKind

/-- `syncs_client_send_channellist` -/
def clientSendChannellist (env : Env) := sendList env channelKind

end SyncScribe
