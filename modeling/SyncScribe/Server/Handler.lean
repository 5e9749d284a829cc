import SyncScribe.Server.Process
import SyncScribe.Packets
import SyncScribe.Lib.Run

/-!
The server as a machine, at two grains.

An `Input` is what the event loop hands to a handler: a connection to accept,
the result of a `recv` on a client's socket or on the UDP socket, or a call of
the server's own application. An `Act` is finer: one packet processed for one
client, one close, and so on. A handler's call is a list of acts
(`handle_eq_acts`), so what every run of acts keeps every run of inputs keeps.
-/

namespace SyncScribe
open Lib Lib.Bytes

/-! ## Acts -/

inductive Act
  /-- `syncs_add_client` -/
  | accept (accepted : Option (Nat × SockAddr))
  /-- `syncs_client_process_packet` -/
  | packet (env : Env) (c : ClientIx) (p : Packet)
  /-- `syncs_uclient_process_packet` -/
  | datagram (env : Env) (addr : SockAddr) (p : Packet)
  /-- `syncs_close_client_socket` -/
  | close (c : ClientIx)
  /-- the end of `syncs_client_handler`: the unconsumed bytes go back to the slot -/
  | keep (c : ClientIx) (buffer : List UInt8)
  | serverWrite (env : Env) (flags : UInt32) (cid data : List UInt8) (dataSize : UInt32)
  | serverDefine (cid : List UInt8) (flags : UInt32) (data : Option (List UInt8)) (size : UInt32)
  | serverUndefine (cid : List UInt8)
  | serverSubscribeEvent (flags : UInt32) (cid : List UInt8) (cb : Option Nat) (args : Nat)
  | serverUnsubscribeEvent (cid : List UInt8)
  /-- `syncs_server_set_sync_offset` -/
  | setSyncOffset (ms : Int)

/-- One act of the server. -/
def act (s : Server) : Act → Server × List Out
  | .accept accepted => (addClient s accepted, [])
  | .packet env c p => ((clientProcessPacket env s c p).server, (clientProcessPacket env s c p).out)
  | .datagram env addr p =>
    ((uclientProcessPacket env s addr p).server, (uclientProcessPacket env s addr p).out)
  | .close c => (closeClientSocket s c, [])
  | .keep c buffer => (s.modifyClient c fun cl => { cl with buffer := buffer }, [])
  | .serverWrite env flags cid data dataSize =>
    ((serverWrite env s flags cid data dataSize).server, (serverWrite env s flags cid data dataSize).out)
  | .serverDefine cid flags data size => ((serverDefine s cid flags data size).server, [])
  | .serverUndefine cid => (serverUndefine s cid, [])
  | .serverSubscribeEvent flags cid cb args => ((serverSubscribeEvent s flags cid cb args).server, [])
  | .serverUnsubscribeEvent cid => (serverUnsubscribeEvent s cid, [])
  | .setSyncOffset ms => ({ s with syncOffset := ms }, [])

/-! ## Handlers -/

/-- The packet loop of a client under way: the server, what it did, and the packets dispatched. -/
structure Handling where
  server : Server
  out : List Out
  frames : List Packet

/-- The memory behind a received packet reaches past the bytes of this read. -/
def Packet.within (p : Packet) (env : Env) : Packet := { p with buffer := p.buffer ++ env.beyond }

/-- The dispatcher of `syncs_client_handler`; every call has an environment of its own. -/
def handlePacket (env : Nat → Env) (c : ClientIx) (st : Handling) (p : Packet) : Handling :=
  let p := p.within (env st.frames.length)
  let r := clientProcessPacket (env st.frames.length) st.server c p
  ⟨r.server, st.out ++ r.out, st.frames ++ [p.frame]⟩

/-- `syncs_client_handler` -/
def clientHandler (env : Nat → Env) (s : Server) (c : ClientIx) : Recv → Handling
  | .again => ⟨s, [], []⟩
  | .error => ⟨closeClientSocket s c, [], []⟩
  | .data bytes =>
    if bytes.length < headerSize then
      if bytes.length = 0 then ⟨closeClientSocket s c, [], []⟩ else ⟨s, [], []⟩
    else
      let r := receive (handlePacket env c) ⟨s, [], []⟩ ((s.clients c).buffer ++ bytes)
      { r.1 with server := r.1.server.modifyClient c fun cl => { cl with buffer := r.2 } }

/-- `syncs_udp_handler` -/
def udpHandler (env : Env) (s : Server) (addr : SockAddr) : Recv → Res
  | .again => ⟨s, [], 0⟩
  | .error => ⟨s, [], 0⟩
  | .data bytes =>
    if bytes.length < headerSize then ⟨s, [], 0⟩
    else if (Header.decode bytes).magic ≠ packetMagic then ⟨s, [], 0⟩
    else if (Header.decode bytes).magicData ≠ packetMagicData then ⟨s, [], 0⟩
    else
      uclientProcessPacket env s addr
        (Packet.within ⟨(Header.decode bytes).masked, bytes.drop headerSize⟩ env)

inductive Input
  | accept (accepted : Option (Nat × SockAddr))
  /-- the result of `recv` on the socket of `c`; how many bytes there can be is in `Recv.Fits` and `Socket.recv` -/
  | tcp (env : Nat → Env) (c : ClientIx) (r : Recv)
  | udp (env : Env) (addr : SockAddr) (r : Recv)
  | api (a : Act)

/-- The calls of the server's own application. -/
def Act.isLocal : Act → Bool
  | .serverWrite .. | .serverDefine .. | .serverUndefine .. | .serverSubscribeEvent ..
  | .serverUnsubscribeEvent .. | .setSyncOffset .. => true
  | _ => false

/-- A client with a TCP connection: only these are registered with epoll. -/
def Client.tcp (c : Client) : Bool := c.socketfd > -1

/-- One turn of the event loop, with the packets it dispatched to the client of a `tcp` input. -/
def handle (s : Server) : Input → Handling
  | .accept accepted => ⟨addClient s accepted, [], []⟩
  | .tcp env c r => if (s.clients c).tcp then clientHandler env s c r else ⟨s, [], []⟩
  | .udp env addr r => ⟨(udpHandler env s addr r).server, (udpHandler env s addr r).out, []⟩
  | .api a => if a.isLocal then ⟨(act s a).1, (act s a).2, []⟩ else ⟨s, [], []⟩

def handleStep (s : Server) (i : Input) : Server × List Out := ((handle s i).server, (handle s i).out)

/-! ## Handlers are lists of acts -/

/-- The acts of a packet loop, the first of them in environment `env n`. -/
def packetActs (env : Nat → Env) (c : ClientIx) : Nat → List Packet → List Act
  | _, [] => []
  | n, p :: ps => .packet (env n) c (p.within (env n)) :: packetActs env c (n + 1) ps

theorem foldl_handlePacket (env : Nat → Env) (c : ClientIx) (ps : List Packet) (st : Handling) :
    (ps.foldl (handlePacket env c) st).server = (run act st.server (packetActs env c st.frames.length ps)).1 ∧
      (ps.foldl (handlePacket env c) st).out =
        st.out ++ (run act st.server (packetActs env c st.frames.length ps)).2 := by
  induction ps generalizing st with
  | nil => simp [packetActs, run]
  | cons p ps ih =>
    have h := ih (handlePacket env c st p)
    have hn : (handlePacket env c st p).frames.length = st.frames.length + 1 := by simp [handlePacket]
    rw [hn] at h
    simp only [List.foldl_cons, packetActs, run, h.1, h.2]
    exact ⟨rfl, by simp [handlePacket, act]⟩

/-- The acts of an input. -/
def Input.acts (s : Server) : Input → List Act
  | .accept accepted => [.accept accepted]
  | .tcp env c r =>
    if (s.clients c).tcp then
      match r with
      | .again => []
      | .error => [.close c]
      | .data bytes =>
        if bytes.length < headerSize then if bytes.length = 0 then [.close c] else []
        else
          packetActs env c 0 (rawPackets ((s.clients c).buffer ++ bytes)) ++
            [.keep c (leftover ((s.clients c).buffer ++ bytes))]
    else []
  | .udp env addr r =>
    match r with
    | .again => []
    | .error => []
    | .data bytes =>
      if bytes.length < headerSize ∨ ¬ marked bytes then []
      else [.datagram env addr (Packet.within ⟨(Header.decode bytes).masked, bytes.drop headerSize⟩ env)]
  | .api a => if a.isLocal then [a] else []

/-- **A handler's call is a list of acts.** -/
theorem handle_eq_acts (s : Server) (i : Input) : handleStep s i = run act s (i.acts s) := by
  cases i with
  | accept accepted => rfl
  | tcp env c r =>
    simp only [handleStep, handle, Input.acts]
    split
    · cases r with
      | again => rfl
      | error => rfl
      | data bytes =>
        simp only [clientHandler]
        split
        · split <;> rfl
        · have h := foldl_handlePacket env c (rawPackets ((s.clients c).buffer ++ bytes)) ⟨s, [], []⟩
          simp only [List.length_nil, List.nil_append] at h
          rw [receive_eq_foldl, run_concat]
          simp only [act, h.1, h.2, List.append_nil]
    · rfl
  | udp env addr r =>
    cases r with
    | again => rfl
    | error => rfl
    | data bytes =>
      simp only [handleStep, handle, udpHandler, ite_marked, Input.acts]
      by_cases hl : bytes.length < headerSize
      · simp [hl, run]
      · by_cases hm : marked bytes
        · simp [hl, hm, run, act]
        · simp [hl, hm, run]
  | api a =>
    simp only [handleStep, handle, Input.acts]
    split <;> simp [run]

/-- What a call of a handler can do, and when. -/
inductive ActsOf (s : Server) : Input → List Act → Prop
  | nothing (i : Input) : ActsOf s i []
  | accept (accepted : Option (Nat × SockAddr)) : ActsOf s (.accept accepted) [.accept accepted]
  | close (env : Nat → Env) {c : ClientIx} (r : Recv) (htcp : (s.clients c).tcp = true) :
    ActsOf s (.tcp env c r) [.close c]
  | loop (env : Nat → Env) {c : ClientIx} {bytes : List UInt8} (htcp : (s.clients c).tcp = true)
      (hlen : headerSize ≤ bytes.length) :
    ActsOf s (.tcp env c (.data bytes))
      (packetActs env c 0 (rawPackets ((s.clients c).buffer ++ bytes)) ++
        [.keep c (leftover ((s.clients c).buffer ++ bytes))])
  | datagram (env : Env) (addr : SockAddr) (r : Recv) (p : Packet) :
    ActsOf s (.udp env addr r) [.datagram env addr p]
  | api {a : Act} (hlocal : a.isLocal = true) : ActsOf s (.api a) [a]

theorem Input.actsOf (s : Server) (i : Input) : ActsOf s i (i.acts s) := by
  cases i with
  | accept accepted => exact .accept accepted
  | tcp env c r =>
    simp only [acts]
    split
    · rename_i htcp
      cases r with
      | again => exact .nothing _
      | error => exact .close env _ htcp
      | data bytes =>
        simp only
        split
        · split
          · exact .close env _ htcp
          · exact .nothing _
        · rename_i hlen
          exact .loop env htcp (Nat.not_lt.mp hlen)
    · exact .nothing _
  | udp env addr r =>
    cases r with
    | again => exact .nothing _
    | error => exact .nothing _
    | data bytes =>
      simp only [acts]
      split
      · exact .nothing _
      · exact .datagram env addr _ _
  | api a =>
    simp only [acts]
    split
    · rename_i hlocal
      exact .api hlocal
    · exact .nothing _

/-- **One call of a handler**, case by case. -/
theorem handleStep_cases (s : Server) (i : Input) : ∃ as, handleStep s i = run act s as ∧ ActsOf s i as :=
  ⟨i.acts s, handle_eq_acts s i, i.actsOf s⟩

/-- The acts of a run of inputs. -/
def inputActs : Server → List Input → List Act
  | _, [] => []
  | s, i :: is => i.acts s ++ inputActs (handleStep s i).1 is

/-- **A run of inputs is a run of acts.** -/
theorem run_handle_eq_acts (s : Server) (is : List Input) :
    run handleStep s is = run act s (inputActs s is) := by
  induction is generalizing s with
  | nil => rfl
  | cons i is ih => rw [run, inputActs, run_append, ih, ← handle_eq_acts]

end SyncScribe
