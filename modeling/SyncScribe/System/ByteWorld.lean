import SyncScribe.Encryption
import SyncScribe.NetCommon
import SyncScribe.System.World

/-!
The system over bytes. A connection carries bytes, and a read of either end takes as
many of them as there are by then: the server handles a read with `handleStep`, a
client with `recvStep`, each with the bytes it kept of the read before. What is sent
goes on the stream by `syncs_blocking_send`, and a call that fails may leave a part of
its packet there. The packets of a read are those of the stream that have arrived
(`Spells.read`), whatever the boundaries of the reads.
-/

namespace SyncScribe
open Lib Lib.Bytes

/-! ## The system -/

/-- A client in its receive loop, the server's slot of its connection, the bytes on their way on it, and whether
the server still holds it. -/
structure BytePeer where
  receiver : Receiver
  slot : ClientIx
  linked : Bool
  toServer : List UInt8
  toClient : List UInt8

structure ByteWorld (κ : Type) where
  server : Server
  peers : κ → BytePeer

/-- How `send` answers `syncs_blocking_send`, packet by packet of a step. -/
abbrev Net := Nat → SendBehaviour

/-- No call of `send` fails. -/
def Net.Whole (net : Net) : Prop := ∀ i n, net i n ≠ none

/-- Packets are sent one after the other: the stream after them. -/
def putAll (net : Net) (packets : List (List UInt8)) (stream : List UInt8) : List UInt8 :=
  (blockingSends (packets.zipIdx.map fun x => (net x.2, x.1)) stream).2

theorem putAll_whole {net : Net} (h : net.Whole) (packets : List (List UInt8)) (stream : List UInt8) :
    putAll net packets stream = stream ++ packets.flatten := by
  rw [putAll, blockingSends_whole]
  · simp [List.map_map, Function.comp_def]
  · intro call hcall n
    obtain ⟨x, _, rfl⟩ := List.mem_map.mp hcall
    exact h x.2 n

/-- Each step has the answers to what is sent in it, on the connection of a client or on all of them. -/
inductive ByteStep (κ : Type)
  /-- the application of a client makes a call -/
  | call (k : κ) (a : ClientAct) (net : Net)
  /-- `syncs_send_id` at the start of `syncs_recv` -/
  | announce (k : κ) (env : ClientEnv) (net : Net)
  /-- `syncs_tcpclient_open` and the accept of the server -/
  | connect (k : κ) (fd fd' : Nat) (addr : SockAddr)
  /-- the server reads `n` bytes of a connection, or what there is -/
  | serve (k : κ) (env : Nat → Env) (n : Nat) (net : κ → Net)
  /-- the client reads -/
  | receive (k : κ) (env : Nat → ClientEnv) (beyond : List UInt8) (n : Nat) (net : Net)
  /-- the server finds the connection broken -/
  | drop (k : κ)
  /-- the client finds it broken -/
  | lose (k : κ)
  /-- the server handles something else -/
  | other (i : Input) (net : κ → Net)
  /-- the process of the server starts again -/
  | restart (cid : List UInt8)

/-- The packets the server sends to a slot, each as its bytes. -/
def bytesTo (c : ClientIx) (out : List Out) : List (List UInt8) :=
  out.filterMap fun
    | .send c' p => if c' = c then some p.wire else none
    | .sendto .. | .call .. => none

/-- The packets a client sends on its connection. -/
def bytesHanded (obs : List ClientObs) : List (List UInt8) := (tcpHanded obs).map Outgoing.wire

/-- The EVENTs of the writes the server accepts along its acts. -/
def logged : Server → List Act → List Delivery
  | _, [] => []
  | s, a :: as => wrote s a ++ logged (act s a).1 as

/-- The server sends. -/
def BytePeer.hear (pr : BytePeer) (net : Net) (out : List Out) : BytePeer :=
  if pr.linked then { pr with toClient := putAll net (bytesTo pr.slot out) pr.toClient } else pr

/-- The client sends; while the server does not hold the connection, what it sends goes nowhere. -/
def BytePeer.sends (pr : BytePeer) (net : Net) (obs : List ClientObs) : BytePeer :=
  { pr with toServer := if pr.linked then putAll net (bytesHanded obs) pr.toServer else pr.toServer }

section System

variable {κ : Type}

/-- What can be seen of a client that acts. -/
def clientSeen (k : κ) (obs : List ClientObs) : List (WorldObs κ) :=
  ((tcpHanded obs).map fun o => .sent k o.packet.frame) ++ obs.map (.client k)

/-- The server handles an input. -/
def ByteWorld.handle (w : ByteWorld κ) (who : Option κ) (net : κ → Net) (i : Input) :
    ByteWorld κ × List (WorldObs κ) :=
  (⟨(handleStep w.server i).1, fun k => (w.peers k).hear (net k) (handleStep w.server i).2⟩,
    (logged w.server (i.acts w.server)).map (.wrote who))

variable [DecidableEq κ]

def ByteWorld.setPeer (w : ByteWorld κ) (k : κ) (pr : BytePeer) : ByteWorld κ :=
  { w with peers := Function.update w.peers k pr }

@[simp] theorem ByteWorld.setPeer_same (w : ByteWorld κ) (k : κ) (pr : BytePeer) : (w.setPeer k pr).peers k = pr :=
  Function.update_self ..

theorem ByteWorld.setPeer_other {w : ByteWorld κ} {k j : κ} {pr : BytePeer} (h : j ≠ k) :
    (w.setPeer k pr).peers j = w.peers j := Function.update_of_ne h ..

/-- A client makes a call. -/
def ByteWorld.clientActs (w : ByteWorld κ) (k : κ) (a : ClientAct) (net : Net) :
    ByteWorld κ × List (WorldObs κ) :=
  let pr := w.peers k
  let r := clientAct pr.receiver.connect a
  (w.setPeer k ({ pr with receiver := { pr.receiver with connect := r.1 } }.sends net r.2), clientSeen k r.2)

/-- `send` takes all it is offered. -/
def Net.calm : Net := fun _ _ => some clientBufferSize

theorem Net.calm_whole : Net.calm.Whole := fun _ _ h => by cases h

def byteStep (w : ByteWorld κ) : ByteStep κ → ByteWorld κ × List (WorldObs κ)
  | .call k a net => if a.byApplication then w.clientActs k a net else (w, [])
  | .announce k env net =>
    if 0 ≤ (w.peers k).receiver.connect.socketfd then w.clientActs k (.sendId env) net else (w, [])
  | .connect k fd fd' addr =>
    let cl := (w.peers k).receiver.connect
    if cl.socketfd < 0 && !cl.onexit then
      match getFreeClient w.server with
      | some c =>
        -- an accept sends nothing
        let r := w.handle none (fun _ => .calm) (.accept (some (fd', addr)))
        (r.1.setPeer k ⟨⟨{ cl with socketfd := fd }, [], false⟩, c, true, [], []⟩, r.2)
      | none => (w, [])
    else (w, [])
  | .serve k env n net =>
    let pr := w.peers k
    if pr.linked && !(pr.toServer.take n).isEmpty then
      (w.setPeer k { pr with toServer := pr.toServer.drop n }).handle (some k) net
        (.tcp env pr.slot (.data (pr.toServer.take n)))
    else (w, [])
  | .receive k env beyond n net =>
    let pr := w.peers k
    if pr.receiver.reading && !(pr.toClient.take n).isEmpty then
      let r := recvStep pr.receiver ⟨env, beyond, .data (pr.toClient.take n)⟩
      (w.setPeer k ({ pr with receiver := r.1, toClient := pr.toClient.drop n }.sends net (r.2.1.map .out)),
        r.2.2.map (.processed k) ++ clientSeen k (r.2.1.map .out))
    else (w, [])
  | .drop k =>
    let pr := w.peers k
    if pr.linked then
      (w.setPeer k { pr with linked := false, toServer := [] }).handle none (fun _ => .calm)
        (.tcp (fun _ => .calm) pr.slot .error)
    else (w, [])
  | .lose k =>
    let pr := w.peers k
    (w.setPeer k { pr with
      receiver := ⟨{ pr.receiver.connect with socketfd := -1 }, [], false⟩
      linked := false, toServer := [], toClient := [] }, [])
  | .other i net => w.handle none net i
  | .restart cid => (⟨serverCreate cid, fun k => { w.peers k with linked := false, toServer := [] }⟩, [])

/-- Clients that never were connected, and a new server. -/
def ByteWorld.start (clients : κ → Connect) (cid : List UInt8) : ByteWorld κ :=
  ⟨serverCreate cid, fun k => ⟨⟨clients k, [], false⟩, 0, false, [], []⟩⟩

/-- A read gives nothing, or as many bytes as a header. -/
def longRead (bytes : List UInt8) : Prop := bytes = [] ∨ headerSize ≤ bytes.length

instance (bytes : List UInt8) : Decidable (longRead bytes) := inferInstanceAs (Decidable (_ ∨ _))

/-- What is asked of the steps: sends that do not fail, reads that are not shorter than a header, a slot without bytes
of an earlier connection for a new one, and what is asked over packets. -/
def ByteWorld.allows (w : ByteWorld κ) : ByteStep κ → Prop
  | .call _ a net =>
    (∀ env flags cid data dataSize, a = .write env flags cid data dataSize → (idstr cid).good) ∧ a.Copies ∧
      a.fails = false ∧ net.Whole
  | .announce _ env net => env.sendResult = 0 ∧ net.Whole
  | .connect .. => ∀ c, getFreeClient w.server = some c → (w.server.clients c).buffer = []
  | .serve k env n net =>
    longRead ((w.peers k).toServer.take n) ∧ (∀ m j, (env m).sendFails (w.peers j).slot = false) ∧ ∀ j, (net j).Whole
  | .receive k env _ n net =>
    longRead ((w.peers k).toClient.take n) ∧ (∀ m, (env m).sendResult = 0) ∧ net.Whole
  | .other i net =>
    Along act (fun s a => a.fits ∧ a.bounded s) w.server (i.acts w.server) ∧
      (∀ k, (w.peers k).linked = true → ¬ i.isFor (w.peers k).slot) ∧
      (∀ k, (w.peers k).linked = true → ∀ a ∈ i.acts w.server, a.fails (w.peers k).slot = false) ∧
      ∀ k, (net k).Whole
  | .drop _ | .lose _ | .restart _ => True

end System

/-! ## Bytes of packets -/

/-- A packet as either end sends it, with nothing behind it. -/
structure Packet.Whole (p : Packet) : Prop where
  framed : Framed p p.wire
  alone : p.frame = p

/-- The bytes are those of the packets, one after the other. -/
structure Spells (bytes : List UInt8) (ps : List Packet) : Prop where
  bytes_eq : bytes = ps.flatMap Packet.wire
  whole : ∀ p ∈ ps, p.Whole

section Spells

variable {p : Packet} {ps qs : List Packet} {b x rest bytes : List UInt8}

theorem frame_frame (p : Packet) : p.frame.frame = p.frame := congrArg (Packet.mk p.header) (payload_frame p)

/-- What is sent of a packet is all there is to it. -/
theorem Framed.frame (h : Framed p x) : p.frame.Whole ∧ p.frame.wire = x := by
  have hframed : Framed p.frame p.frame.wire := Packet.framed h.magic h.magicData h.size
  refine ⟨⟨hframed, frame_frame p⟩, ?_⟩
  rw [hframed.bytes, h.bytes, payload_frame]
  rfl

theorem spells_nil : Spells [] [] := ⟨rfl, fun _ h => absurd h List.not_mem_nil⟩

theorem Spells.append {bytes' : List UInt8} (h : Spells bytes ps) (h' : Spells bytes' qs) :
    Spells (bytes ++ bytes') (ps ++ qs) := by
  refine ⟨by rw [h.bytes_eq, h'.bytes_eq, List.flatMap_append], ?_⟩
  intro p hp
  rcases List.mem_append.mp hp with hp | hp
  · exact h.whole p hp
  · exact h'.whole p hp

/-- The size in the header of a packet under way needs no mask. -/
theorem maskSize_self (hlen : headerSize ≤ b.length) (h : (Header.decode b).masked = Header.decode b) :
    maskSize b = b := by
  have h60 : 60 ≤ b.length := hlen
  have hsize : (Header.decode b).dataSize.toNat = field b 57 2 := UInt16.toNat_ofNat_of_lt' (field_lt b 57 2)
  rw [maskSize, h, hsize, leBytes_field]
  exact write_slice (by omega)

/-- Part of a packet is kept as it is. -/
theorem Framed.part (h : Framed p x) (hb : b <+: x) (hlt : b.length < x.length) :
    SyncScribe.packets b = [] ∧ SyncScribe.leftover b = b := by
  obtain ⟨more, rfl⟩ := hb
  by_cases hlen : b.length < headerSize
  · obtain ⟨hnone, hrest⟩ := packets_of_wait (packetLook_wait_iff.mpr (Or.inl hlen))
    exact ⟨hnone, hrest.trans (packetSettle_short hlen)⟩
  · have hlen := Nat.not_lt.mp hlen
    have hdec : Header.decode b = p.header := by
      rw [← decode_append_left more hlen]
      simpa using h.decode []
    have hm : SyncScribe.marked b := by
      rw [SyncScribe.marked, hdec]
      exact ⟨h.magic, h.magicData⟩
    have hframe : SyncScribe.frameLength b = (b ++ more).length := by
      rw [SyncScribe.frameLength, hdec, h.masked, h.length]
    obtain ⟨hnone, hrest⟩ := packets_of_wait (packetLook_wait_iff.mpr (Or.inr ⟨hm, by omega⟩))
    refine ⟨hnone, hrest.trans ?_⟩
    rw [packetSettle_marked hlen hm]
    exact maskSize_self hlen (by rw [hdec, h.masked])

/-- The bytes left over behind a packet. -/
theorem Framed.leftover (h : Framed p x) (more : List UInt8) :
    SyncScribe.leftover (x ++ more) = SyncScribe.leftover more := by
  have hlen : headerSize ≤ (x ++ more).length := by
    rw [List.length_append, h.length]
    omega
  have hlook := packetLook_emit_iff.mpr
    ⟨hlen, h.marked more, by rw [h.frameLength, List.length_append]; omega, rfl, rfl⟩
  rw [(packets_of_emit hlook).2, h.frameLength, List.drop_left]

/-- **A read of a stream of packets.** The packets found in its first bytes are the first of the stream, and the
bytes kept are the beginning of the rest. -/
theorem Spells.read (h : Spells (b ++ rest) ps) :
    ∃ qs, ps = packets b ++ qs ∧ Spells (leftover b ++ rest) qs := by
  induction ps generalizing b with
  | nil =>
    obtain ⟨rfl, rfl⟩ := List.append_eq_nil_iff.mp h.bytes_eq
    have hshort : packetLook [] = .wait := packetLook_wait_iff.mpr (Or.inl (by decide))
    obtain ⟨hnone, hrest⟩ := packets_of_wait hshort
    refine ⟨[], by rw [hnone]; rfl, ?_⟩
    rw [hrest, packetSettle_short (by decide)]
    exact spells_nil
  | cons p ps ih =>
    have hp := h.whole p (by simp)
    have hrest : ∀ q ∈ ps, q.Whole := fun q hq => h.whole q (by simp [hq])
    have hbytes := h.bytes_eq
    rw [List.flatMap_cons] at hbytes
    rcases List.append_eq_append_iff.mp hbytes with ⟨more, hwire, htail⟩ | ⟨more, hb, htail⟩
    · by_cases hmore : more = []
      · -- the read ends with the packet
        subst hmore
        rw [List.append_nil] at hwire
        rw [List.nil_append] at htail
        obtain ⟨qs, hqs, hspells⟩ := ih (b := []) ⟨by rw [List.nil_append, htail], hrest⟩
        refine ⟨qs, ?_, ?_⟩
        · rw [← hwire, ← List.append_nil p.wire, hp.framed.packets, hp.alone, List.cons_append, ← hqs]
        · rw [← hwire, ← List.append_nil p.wire, hp.framed.leftover]
          exact hspells
      · -- the read ends in the packet
        have hlt : b.length < p.wire.length := by
          have hpos := List.length_pos_iff.mpr hmore
          rw [hwire, List.length_append]
          omega
        obtain ⟨hnone, hleft⟩ := hp.framed.part ⟨more, hwire.symm⟩ hlt
        refine ⟨p :: ps, by rw [hnone, List.nil_append], ?_⟩
        rw [hleft]
        exact h
    · obtain ⟨qs, hqs, hspells⟩ := ih (b := more) ⟨htail.symm, hrest⟩
      refine ⟨qs, ?_, ?_⟩
      · rw [hb, hp.framed.packets, hp.alone, List.cons_append, ← hqs]
      · rw [hb, hp.framed.leftover]
        exact hspells

end Spells

end SyncScribe
