import SyncScribe.Client.Requests
import SyncScribe.Connection

/-!
What the client receives: the dispatch of one packet (`syncs_process_packet`) and
the receive loop of a connection (`syncs_recv`).
-/

namespace SyncScribe
open Lib Lib.Bytes Lib.Slots

/-- `syncs_process_event` -/
def processEvent (s : Connect) (p : Packet) : Connect × List ClientOut :=
  match s.findEvent p.header.id with
  | none => (s, [])
  | some e =>
    let ev := s.events e
    let data := read p.buffer p.header.dataSize.toNat
    let out :=
      match ev.cb with
      | some cb => [.call cb ev.args ev.id data]
      | none => []
    match ev.data with
    | some mem =>
      let ev := { ev with
        data := some (write mem 0 data), dataSize := p.header.dataSize.toUInt32
        updateCounter := p.header.updateCounter }
      ({ s.setEvent e ev with eventsQueue := some e, eventWait := false }, out)
    | none => (s.setEvent e { ev with updateCounter := p.header.updateCounter }, out)

/-- `syncs_channel_process_packet` -/
def channelProcessPacket (s : Connect) (p : Packet) : Connect :=
  if p.header.type &&& typeChannelMask = channelTicket then
    if s.ticketWait && idcmp p.header.id s.ticketId then
      { s with ticketData := Ticket.decode (read p.buffer ticketSize), ticketWait := false }
    else s
  else s

/-- `syncs_process_error` -/
def processError (env : ClientEnv) (s : Connect) (p : Packet) : Connect × List ClientOut :=
  if p.header.updateCounter = errorNotsupport then ({ s with onexit := true }, [])
  else if p.header.updateCounter = errorCrypt then ({ s with onexit := true }, [])
  else if p.header.updateCounter = errorUnknownclient then (s, sendId env s)
  else (s, [])

/-- The `SYNCS_TYPE_READ` case. -/
def processRead (s : Connect) (p : Packet) : Connect :=
  if s.readWait && idcmp p.header.id s.readId then
    { s with
      readSize := p.header.dataSize.toNat
      readData := write s.readData 0 (read p.buffer p.header.dataSize.toNat)
      readWait := false }
  else s

/-- A `char` as the `int` it is converted to. -/
def charInt (b : UInt8) : Int := b.toInt8.toInt

theorem charInt_of_lt {b : UInt8} (h : b.toNat < 128) : charInt b = b.toNat := by
  have hmsb : 2 * b.toBitVec.toNat < 2 ^ 8 := by
    rw [UInt8.toNat_toBitVec]
    omega
  exact BitVec.toInt_eq_toNat_of_lt hmsb

/-- The `SYNCS_TYPE_EVENT_LIST`, `_CLIENT_LIST` and `_CHANNEL_LIST` cases, on the fields of the list. -/
def ListBuffer.accept (l : ListName) (b : ListBuffer) (p : Packet) : ListBuffer :=
  match b.info with
  | none => b
  | some info =>
    if p.header.id.c 3 ≠ b.sequence then b
    else if p.header.id.c 0 ≠ b.waitPacket then b
    else
      let mem := writeAround b.front info (b.recv * l.entrySize) (read p.buffer p.header.dataSize.toNat)
      { b with
        info := some mem.2
        front := mem.1
        recv := b.recv + charInt (p.header.id.c 2)
        waitPacket := b.waitPacket + 1
        wait := if p.header.id.c 4 = 1 then false else b.wait }

def processList (s : Connect) (l : ListName) (p : Packet) : Connect :=
  s.setList l ((s.lists l).accept l p)

/-- `syncs_process_packet`; the wait until the time of a SYNC event is left out. -/
def processPacket (env : ClientEnv) (s : Connect) (p : Packet) : Connect × List ClientOut :=
  match p.header.msg with
  | .event => processEvent s p
  | .channel => (channelProcessPacket s p, [])
  | .serverStatus => processError env { s with serverId := p.header.id } p
  | .read => (processRead s p, [])
  | .eventList => (processList s .events p, [])
  | .clientList => (processList s .clients p, [])
  | .channelList => (processList s .channels p, [])
  | _ => (s, [])

/-! ### What a packet leaves alone -/

theorem processEvent_frame (s : Connect) (p : Packet) :
    (processEvent s p).1 =
      { s with
        events := (processEvent s p).1.events, eventsQueue := (processEvent s p).1.eventsQueue
        eventWait := (processEvent s p).1.eventWait } := by
  unfold processEvent
  split
  · rfl
  · simp only
    split <;> rfl

theorem channelProcessPacket_frame (s : Connect) (p : Packet) :
    channelProcessPacket s p =
      { s with
        ticketData := (channelProcessPacket s p).ticketData
        ticketWait := (channelProcessPacket s p).ticketWait } := by
  unfold channelProcessPacket
  split
  · split <;> rfl
  · rfl

theorem processError_frame (env : ClientEnv) (s : Connect) (p : Packet) :
    (processError env s p).1 = { s with onexit := (processError env s p).1.onexit } := by
  unfold processError
  split
  · rfl
  · split
    · rfl
    · split <;> rfl

theorem processRead_frame (s : Connect) (p : Packet) :
    processRead s p =
      { s with
        readSize := (processRead s p).readSize, readData := (processRead s p).readData
        readWait := (processRead s p).readWait } := by
  unfold processRead
  split <;> rfl

/-! ## The receive loop -/

/-- The packet loop of a read under way. -/
structure Receiving where
  connect : Connect
  out : List ClientOut
  frames : List Packet

/-- The dispatcher of `syncs_recv`; `beyond` is the memory behind the bytes received. -/
def receivePacket (env : Nat → ClientEnv) (beyond : List UInt8) (st : Receiving) (p : Packet) : Receiving :=
  let p := { p with buffer := p.buffer ++ beyond }
  let r := processPacket (env st.frames.length) st.connect p
  ⟨r.1, st.out ++ r.2, st.frames ++ [p.frame]⟩

/-- `syncs_recv` between two reads: the bytes in its buffer, and whether it was left by a `break`. -/
structure Receiver where
  connect : Connect
  buffer : List UInt8
  stopped : Bool

/-- The `while` loop goes on. -/
def Receiver.reading (st : Receiver) : Bool := !st.stopped && !st.connect.onexit

/-- A read as `syncs_recv` finds it. -/
structure ClientRead where
  env : Nat → ClientEnv
  beyond : List UInt8
  result : Recv

/-- One round of the loop of `syncs_recv`: the receiver after it, what it did, the packets dispatched. -/
def recvStep (st : Receiver) (r : ClientRead) : Receiver × List ClientOut × List Packet :=
  match r.result with
  | .again => (st, [], [])
  | .error => ({ st with stopped := true }, [], [])
  | .data bytes =>
    if bytes.length < headerSize then
      if bytes.length = 0 then ({ st with stopped := true }, [], []) else (st, [], [])
    else
      let x := receive (receivePacket r.env r.beyond) ⟨st.connect, [], []⟩ (st.buffer ++ bytes)
      (⟨x.1.connect, x.2, false⟩, x.1.out, x.1.frames)

/-- The beginning of `syncs_recv`: the announcement, then an empty buffer. -/
def recvStart (env : ClientEnv) (s : Connect) : Receiver × List ClientOut :=
  (⟨{ s with ready := true }, [], false⟩, sendId env s)

/-- The turns of `syncs_recv` on the given reads. -/
def recvTurns : Receiver → List ClientRead → Turns
  | _, [] => []
  | st, r :: rs =>
    if st.reading then (r.result, (recvStep st r).2.2) :: recvTurns (recvStep st r).1 rs else []

/-- One round of the loop of `syncs_udprecv`, and whether the loop is left by a `break`; `beyond` is
what earlier datagrams left in the buffer behind this one. -/
def udpRecvStep (env : ClientEnv) (beyond : List UInt8) (s : Connect) : Recv → Connect × List ClientOut × Bool
  | .again => (s, [], false)
  | .error => (s, [], true)
  | .data bytes =>
    if bytes.length < headerSize then (s, [], bytes.length == 0)
    else if (Header.decode bytes).magic ≠ packetMagic then (s, [], false)
    else if (Header.decode bytes).magicData ≠ packetMagicData then (s, [], false)
    else
      let r := processPacket env s ⟨(Header.decode bytes).masked, bytes.drop headerSize ++ beyond⟩
      (r.1, r.2, false)

/-! ## The loop is that of a connection -/

/-- The packets after which `syncs_recv` reads no more. -/
def Packet.stops (p : Packet) : Bool :=
  p.header.msg == .serverStatus &&
    (p.header.updateCounter == errorNotsupport || p.header.updateCounter == errorCrypt)

theorem processPacket_onexit (env : ClientEnv) (s : Connect) (p : Packet) :
    (processPacket env s p).1.onexit = (s.onexit || p.stops) := by
  have hother : p.header.msg ≠ .serverStatus → (s.onexit || p.stops) = s.onexit := by
    intro hm
    simp [Packet.stops, hm]
  cases hm : p.header.msg
  case serverStatus =>
    simp only [processPacket, hm, processError, Packet.stops, beq_self_eq_true, Bool.true_and]
    split
    · rename_i h
      simp [h]
    · rename_i h1
      split
      · rename_i h
        simp [h]
      · rename_i h2
        split <;> simp [h1, h2]
  all_goals
    rw [hother (by rw [hm]; decide)]
    simp only [processPacket, hm]
  case event => rw [processEvent_frame]
  case channel => rw [channelProcessPacket_frame]
  case read => rw [processRead_frame]
  all_goals rfl

theorem foldl_receivePacket_onexit (env : Nat → ClientEnv) (beyond : List UInt8) (ps : List Packet)
    (st : Receiving) :
    (ps.foldl (receivePacket env beyond) st).connect.onexit = (st.connect.onexit || ps.any Packet.stops) := by
  induction ps generalizing st with
  | nil => simp
  | cons p ps ih =>
    rw [List.foldl_cons, ih, List.any_cons, ← Bool.or_assoc]
    congr 1
    exact processPacket_onexit _ _ _

/-- The connection of a receiver. -/
def Receiver.connection (st : Receiver) : Option (List UInt8) :=
  if st.reading then some st.buffer else none

theorem recvStep_frames (st : Receiver) (r : ClientRead) {bytes : List UInt8} (hr : r.result = .data bytes)
    (hlen : ¬ bytes.length < headerSize) : (recvStep st r).2.2 = packets (st.buffer ++ bytes) := by
  have h := receive_frames (receivePacket r.env r.beyond) Receiving.frames
    (by
      intro st p hp
      simp only [receivePacket, Packet.frame, Packet.payload]
      rw [read_append_left _ hp])
    ⟨st.connect, [], []⟩ (st.buffer ++ bytes)
  simp only [recvStep, hr, if_neg hlen]
  exact h.1

/-- **A round of `syncs_recv` is a step of the receive loop.** -/
theorem recvStep_connection (st : Receiver) (hread : st.reading = true) (r : ClientRead) :
    (recvStep st r).2.2 = (connStep Packet.stops (some st.buffer) r.result).2 ∧
      (recvStep st r).1.connection = (connStep Packet.stops (some st.buffer) r.result).1 := by
  have hconn : st.connection = some st.buffer := by simp [Receiver.connection, hread]
  cases hr : r.result with
  | again => simp only [recvStep, hr, connStep, hconn, and_self]
  | error => simp [recvStep, hr, connStep, Receiver.connection, Receiver.reading]
  | data bytes =>
    by_cases hlen : bytes.length < headerSize
    · by_cases h0 : bytes.length = 0
      · simp only [recvStep, hr, connStep, if_pos hlen, if_pos h0, true_and]
        simp [Receiver.connection, Receiver.reading]
      · simp only [recvStep, hr, connStep, if_pos hlen, if_neg h0, hconn, and_self]
    · refine ⟨?_, ?_⟩
      · simp only [connStep, if_neg hlen]
        exact recvStep_frames st r hr hlen
      · have hexit : st.connect.onexit = false := by
          simp only [Receiver.reading, Bool.and_eq_true, Bool.not_eq_true'] at hread
          exact hread.2
        simp only [recvStep, hr, if_neg hlen, connStep, receive_eq_foldl, Receiver.connection,
          Receiver.reading, foldl_receivePacket_onexit, hexit, Bool.not_false, Bool.true_and,
          Bool.false_or, any_rawPackets Packet.stops (fun _ => rfl)]
        cases (packets (st.buffer ++ bytes)).any Packet.stops <;> rfl

/-- **The turns of `syncs_recv` are those of its connection.** -/
theorem recvTurns_eq_connTurns (st : Receiver) (rs : List ClientRead) :
    recvTurns st rs = connTurns Packet.stops st.connection (rs.map ClientRead.result) := by
  induction rs generalizing st with
  | nil => rw [recvTurns, List.map_nil, connTurns_nil]
  | cons r rs ih =>
    rw [recvTurns, List.map_cons]
    by_cases hread : st.reading = true
    · obtain ⟨hf, hn⟩ := recvStep_connection st hread r
      rw [if_pos hread, ih, hf, hn, Receiver.connection, if_pos hread, connTurns_cons]
    · rw [if_neg hread, Receiver.connection, if_neg hread, connTurns_none]

end SyncScribe
