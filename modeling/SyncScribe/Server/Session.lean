import SyncScribe.Server.Dangling
import SyncScribe.Connection

/-!
The TCP connections of the server. `session` is what happens on the connection
of one client slot until it is closed, read off a run of the event loop; it is
the receive loop of that connection alone (`session_eq_connTurns`), started with
the bytes the slot holds. `syncs_add_client` does not clear these, so they may be
those of the slot's earlier connection; `recv` is offered the room behind them, which
`inputsOf` models for the socket of one connection.
-/

namespace SyncScribe
open Lib Lib.Bytes

/-- The packets that close a connection of the server. -/
def Packet.closes (p : Packet) : Bool := p.header.unsupported

/-- The results of `recv` on the socket of `c`. -/
def received (c : ClientIx) : List Input → List Recv
  | [] => []
  | .tcp _ c' r :: is => if c' = c then r :: received c is else received c is
  | .accept _ :: is | .udp .. :: is | .api _ :: is => received c is

/-- An input as a turn of the connection of `c`, if it is one. -/
def Input.turn (c : ClientIx) (frames : List Packet) : Input → Turns
  | .tcp _ c' r => if c' = c then [(r, frames)] else []
  | .accept _ | .udp .. | .api _ => []

/-- The turns of the connection of `c` in a run from `s`, until the connection is closed. -/
def session (c : ClientIx) : Server → List Input → Turns
  | _, [] => []
  | s, i :: is =>
    if (s.clients c).tcp then i.turn c (handle s i).frames ++ session c (handleStep s i).1 is else []

/-- The connection of `c`. -/
def Server.connection (s : Server) (c : ClientIx) : Option (List UInt8) :=
  if (s.clients c).tcp then some (s.clients c).buffer else none

theorem connection_of_conn {s u : Server} {c : ClientIx} (h : u.conn c = s.conn c) :
    u.connection c = s.connection c := by
  have htcp := tcp_of_conn h
  simp only [Server.conn, Prod.mk.injEq] at h
  rw [Server.connection, Server.connection, htcp, h.2]

/-! ## One turn -/

theorem packetActs_conn (envs : Nat → Env) (c i : ClientIx) (ps : List Packet) (n : Nat) (s : Server) :
    (run act s (packetActs envs c n ps)).1.conn i =
      if i = c ∧ ps.any Packet.closes then (-1, (s.clients i).buffer) else s.conn i := by
  induction ps generalizing s n with
  | nil => simp [packetActs, run]
  | cons p ps ih =>
    have hp : (act s (.packet (envs n) c (p.within (envs n)))).1.conn i =
        if i = c ∧ p.closes = true then (-1, (s.clients i).buffer) else s.conn i :=
      packet_conn (p.within (envs n)) i
    have hbuf : ((act s (.packet (envs n) c (p.within (envs n)))).1.clients i).buffer = (s.clients i).buffer := by
      have hsnd := congrArg Prod.snd hp
      split at hsnd <;> exact hsnd
    rw [packetActs, run]
    refine (ih (n + 1) _).trans ?_
    rw [hbuf, hp, List.any_cons]
    by_cases hic : i = c
    · cases p.closes <;> cases ps.any Packet.closes <;> simp [hic]
    · simp [hic]

/-- The memory behind a packet is not part of its frame. -/
theorem frame_within {p : Packet} (h : p.header.dataSize.toNat ≤ p.buffer.length) (env : Env) :
    (p.within env).frame = p.frame := by
  simp only [Packet.frame, Packet.payload, Packet.within]
  rw [read_append_left _ h]

theorem clientHandler_frames (env : Nat → Env) (s : Server) (c : ClientIx) (bytes : List UInt8)
    (hlen : ¬ bytes.length < headerSize) :
    (clientHandler env s c (.data bytes)).frames = packets ((s.clients c).buffer ++ bytes) := by
  have h := receive_frames (handlePacket env c) Handling.frames
    (by
      intro st p hp
      simp only [handlePacket, frame_within hp])
    ⟨s, [], []⟩ ((s.clients c).buffer ++ bytes)
  simp only [clientHandler, if_neg hlen]
  exact h.1

/-- **A turn on the connection of `c` is a step of the receive loop.** -/
theorem handle_connection {s : Server} {c : ClientIx} (htcp : (s.clients c).tcp = true) (env : Nat → Env)
    (r : Recv) :
    (handle s (.tcp env c r)).frames = (connStep Packet.closes (s.connection c) r).2 ∧
      (handleStep s (.tcp env c r)).1.connection c = (connStep Packet.closes (s.connection c) r).1 := by
  have hconn : s.connection c = some (s.clients c).buffer := by simp [Server.connection, htcp]
  have hclosed : (closeClientSocket s c).connection c = none := by
    have h := congrArg Prod.fst (closeClientSocket_conn s c c)
    simp only [↓reduceIte] at h
    simp only [Server.conn] at h
    simp [Server.connection, Client.tcp, h]
  rw [hconn]
  cases r with
  | again => simp only [handle, htcp, ↓reduceIte, clientHandler, handleStep, connStep, hconn, and_self]
  | error => simp only [handle, htcp, ↓reduceIte, clientHandler, handleStep, connStep, hclosed, and_self]
  | data bytes =>
    by_cases hlen : bytes.length < headerSize
    · by_cases h0 : bytes.length = 0
      · simp only [handle, htcp, ↓reduceIte, clientHandler, handleStep, connStep, if_pos hlen, if_pos h0,
          hclosed, and_self]
      · simp only [handle, htcp, ↓reduceIte, clientHandler, handleStep, connStep, if_pos hlen, if_neg h0,
          hconn, and_self]
    · refine ⟨?_, ?_⟩
      · simp only [handle, htcp, ↓reduceIte, connStep, if_neg hlen]
        exact clientHandler_frames env s c bytes hlen
      · rw [handle_eq_acts]
        simp only [Input.acts, htcp, ↓reduceIte, if_neg hlen, connStep, run_concat]
        have hloop := packetActs_conn env c c (rawPackets ((s.clients c).buffer ++ bytes)) 0 s
        rw [any_rawPackets Packet.closes (fun _ => rfl)] at hloop
        simp only [Server.conn] at hloop
        simp only [act, Server.connection, Server.modifyClient_clients, ↓reduceIte, Client.tcp]
        by_cases hend : (packets ((s.clients c).buffer ++ bytes)).any Packet.closes = true
        · simp only [hend, and_self, ↓reduceIte, Prod.mk.injEq] at hloop ⊢
          simp [hloop.1]
        · simp only [hend, and_false, ↓reduceIte, Prod.mk.injEq, Bool.false_eq_true] at hloop ⊢
          simp only [Client.tcp] at htcp
          rw [hloop.1, if_pos htcp]

/-- What arrives elsewhere does not touch the connection. -/
theorem handle_conn_other {s : Server} {c : ClientIx} (htcp : (s.clients c).tcp = true) (i : Input)
    (hi : ¬ i.isFor c) : (handleStep s i).1.conn c = s.conn c := by
  obtain ⟨as, heq, hacts⟩ := handleStep_cases s i
  rw [heq]
  cases hacts with
  | nothing => rfl
  | accept accepted => exact addClient_conn accepted htcp
  | close env r _ =>
    refine (closeClientSocket_conn s _ c).trans ?_
    rw [if_neg fun hc => hi hc.symm]
  | @loop env c' bytes _ hlen =>
    have hne : c ≠ c' := fun hc => hi hc.symm
    rw [run_concat]
    simp only [act, Server.conn, Server.modifyClient_clients, if_neg hne]
    have hloop := packetActs_conn env c' c (rawPackets ((s.clients c').buffer ++ bytes)) 0 s
    rw [if_neg fun h => hne h.1] at hloop
    exact hloop
  | datagram env addr r p =>
    simp only [run, act, uclientProcessPacket]
    split
    · rename_i s' c' hu
      obtain ⟨hne, hconn⟩ := uclientOf_other hu htcp
      simp only
      rw [packet_conn, if_neg fun h => hne h.1, hconn]
    · split <;> rfl
  | api hlocal =>
    simp only [run]
    exact (local_rest hlocal).1 c

/-! ## Whole sessions -/

/-- **The session of a connection is its receive loop on what arrives for it.** -/
theorem session_eq_connTurns (c : ClientIx) (s : Server) (is : List Input) :
    session c s is = connTurns Packet.closes (s.connection c) (received c is) := by
  induction is generalizing s with
  | nil => rw [session, received, connTurns_nil]
  | cons i is ih =>
    by_cases htcp : (s.clients c).tcp = true
    · have hconn : s.connection c = some (s.clients c).buffer := by simp [Server.connection, htcp]
      have hother : ¬ i.isFor c → (handleStep s i).1.connection c = s.connection c :=
        fun hi => connection_of_conn (handle_conn_other htcp i hi)
      rw [session, if_pos htcp]
      cases i with
      | tcp env c' r =>
        by_cases hc : c' = c
        · subst hc
          obtain ⟨hf, hn⟩ := handle_connection htcp env r
          rw [received, if_pos rfl, ih, hn, hf, hconn, connTurns_cons, Input.turn, if_pos rfl]
          rfl
        · rw [received, if_neg hc, ih, hother hc, Input.turn, if_neg hc, List.nil_append]
      | accept accepted => exact (ih _).trans (by rw [hother (fun h => h), received])
      | udp env addr r => exact (ih _).trans (by rw [hother (fun h => h), received])
      | api a => exact (ih _).trans (by rw [hother (fun h => h), received])
    · rw [session, if_neg htcp, Server.connection, if_neg htcp, connTurns_none]

/-- A slot keeps bytes on which its receive loop waits. -/
def Settled (s : Server) : Prop := ∀ c, packetLook (s.clients c).buffer = .wait

theorem packet_buffer (env : Env) (s : Server) (c i : ClientIx) (p : Packet) :
    ((clientProcessPacket env s c p).server.clients i).buffer = (s.clients i).buffer := by
  have hconn : (clientProcessPacket env s c p).server.conn i = _ := packet_conn p i
  have h := congrArg Prod.snd hconn
  split at h <;> exact h

theorem addClient_buffer (s : Server) (accepted : Option (Nat × SockAddr)) (i : ClientIx) :
    ((addClient s accepted).clients i).buffer = (s.clients i).buffer := by
  rcases addClient_cases s accepted with heq | ⟨c, fd, _, hslot⟩
  · rw [heq]
  · exact hslot.buffers i

theorem Settled.handle {s : Server} (h : Settled s) (i : Input) : Settled (handleStep s i).1 := by
  intro c
  have hkeep : ∀ u : Server, (u.clients c).buffer = (s.clients c).buffer →
      packetLook (u.clients c).buffer = .wait := by
    intro u hu
    rw [hu]
    exact h c
  obtain ⟨as, heq, hacts⟩ := handleStep_cases s i
  rw [heq]
  cases hacts with
  | nothing => exact h c
  | accept accepted => exact hkeep _ (addClient_buffer s accepted c)
  | @close env c' r htcp =>
    have hconn := congrArg Prod.snd (closeClientSocket_conn s c' c)
    refine hkeep _ ?_
    split at hconn <;> exact hconn
  | @loop env c' bytes htcp hlen =>
    rw [run_concat]
    simp only [act, Server.modifyClient_clients]
    split
    · exact Framer.look_rest (F := packetFramer) _
    · have hloop := congrArg Prod.snd
        (packetActs_conn env c' c (rawPackets ((s.clients c').buffer ++ bytes)) 0 s)
      refine hkeep _ ?_
      split at hloop <;> exact hloop
  | datagram env addr r p =>
    simp only [run, act, uclientProcessPacket]
    split
    · rename_i s' c' hu
      exact hkeep _ ((packet_buffer env s' c' c _).trans ((uclientOf_cases hu).2.buffers c))
    · split <;> exact h c
  | api hlocal => exact hkeep _ (congrArg Prod.snd ((local_rest hlocal).1 c))

theorem run_settled (cid : List UInt8) (is : List Input) : Settled (run handleStep (serverCreate cid) is).1 :=
  run_inductive (fun _ i h => h.handle i) is _ fun _ => Framer.look_nil (F := packetFramer)

/-- The connection that an accept opens starts with what the slot holds. -/
theorem accept_connection {s : Server} {c : ClientIx} (hf : getFreeClient s = some c) (fd : Nat)
    (addr : SockAddr) :
    (handleStep s (.accept (some (fd, addr)))).1.connection c = some (s.clients c).buffer := by
  have htcp : ((addClient s (some (fd, addr))).clients c).tcp = true := by
    simp only [addClient, hf, Server.modifyClient_clients, ↓reduceIte, Client.tcp, gt_iff_lt, decide_eq_true_eq]
    omega
  simp only [handleStep, handle, Server.connection, htcp, ↓reduceIte, addClient_buffer]

/-! ## What arrives at a socket -/

/-- What happens at the socket of a connection of the server, and elsewhere. -/
inductive Incoming
  | arrive (bytes : List UInt8)
  /-- the peer closes its side -/
  | finish
  /-- epoll calls `syncs_client_handler`, which reads what waits -/
  | ready (env : Nat → Env)
  /-- the same with `EAGAIN` or `EINTR` -/
  | interrupted (env : Nat → Env)
  /-- the same with another error -/
  | failed (env : Nat → Env)
  /-- an input that is not on the connection -/
  | other (i : Input)

instance (c : ClientIx) : (i : Input) → Decidable (i.isFor c)
  | .tcp _ c' _ => inferInstanceAs (Decidable (c' = c))
  | .accept _ => inferInstanceAs (Decidable False)
  | .udp .. => inferInstanceAs (Decidable False)
  | .api _ => inferInstanceAs (Decidable False)

/-- The inputs of a server on which this happens at the socket of `c`: `recv` is offered the room behind the bytes that
the slot keeps. -/
def inputsOf (c : ClientIx) : Server → Socket → List Incoming → List Input
  | _, _, [] => []
  | s, k, .arrive bytes :: xs => inputsOf c s { k with waiting := k.waiting ++ bytes } xs
  | s, k, .finish :: xs => inputsOf c s { k with finished := true } xs
  | s, k, .ready env :: xs =>
    let r := k.recv (readRoom (s.clients c).buffer)
    .tcp env c r.1 :: inputsOf c (handleStep s (.tcp env c r.1)).1 r.2 xs
  | s, k, .interrupted env :: xs => .tcp env c .again :: inputsOf c (handleStep s (.tcp env c .again)).1 k xs
  | s, k, .failed env :: xs => .tcp env c .error :: inputsOf c (handleStep s (.tcp env c .error)).1 k xs
  | s, k, .other i :: xs => if i.isFor c then inputsOf c s k xs else i :: inputsOf c (handleStep s i).1 k xs

/-- The packets dispatched for the connection of `c`. -/
def dispatchedFor (c : ClientIx) (s : Server) (k : Socket) (xs : List Incoming) : List Packet :=
  (session c s (inputsOf c s k xs)).dispatched

/-- The packets of a connection that keeps the bytes, as a function of what arrives at its socket alone. -/
def ownPackets : Option (List UInt8) → Socket → List Incoming → List Packet
  | none, _, _ => []
  | some _, _, [] => []
  | some b, k, .arrive bytes :: xs => ownPackets (some b) { k with waiting := k.waiting ++ bytes } xs
  | some b, k, .finish :: xs => ownPackets (some b) { k with finished := true } xs
  | some b, k, .ready _ :: xs =>
    let r := k.recv (readRoom b)
    (connStep Packet.closes (some b) r.1).2 ++ ownPackets (connStep Packet.closes (some b) r.1).1 r.2 xs
  | some b, k, .interrupted _ :: xs => ownPackets (some b) k xs
  | some _, _, .failed _ :: _ => []
  | some b, k, .other _ :: xs => ownPackets (some b) k xs

@[simp] theorem ownPackets_none (k : Socket) (xs : List Incoming) : ownPackets none k xs = [] := by
  cases xs <;> rfl

@[simp] theorem ownPackets_nil (st : Option (List UInt8)) (k : Socket) : ownPackets st k [] = [] := by
  cases st <;> rfl

theorem session_closed {s : Server} {c : ClientIx} (h : ¬ (s.clients c).tcp = true) (is : List Input) :
    session c s is = [] := by
  rw [session_eq_connTurns, Server.connection, if_neg h, connTurns_none]

/-- A call of the handler, and what follows it. -/
theorem dispatched_tcp {s : Server} {c : ClientIx} (htcp : (s.clients c).tcp = true) (env : Nat → Env) (r : Recv)
    (is : List Input) :
    (session c s (.tcp env c r :: is)).dispatched =
      (connStep Packet.closes (s.connection c) r).2 ++
        (session c (handleStep s (.tcp env c r)).1 is).dispatched := by
  rw [session, if_pos htcp, Input.turn, if_pos rfl, (handle_connection htcp env r).1]
  rfl

/-- **What is dispatched** depends on the bytes kept and on what arrives. -/
theorem dispatchedFor_eq (c : ClientIx) (s : Server) (k : Socket) (xs : List Incoming) :
    dispatchedFor c s k xs = ownPackets (s.connection c) k xs := by
  induction xs generalizing s k with
  | nil => cases hc : s.connection c <;> rfl
  | cons x xs ih =>
    unfold dispatchedFor at ih ⊢
    by_cases htcp : (s.clients c).tcp = true
    · have hconn : s.connection c = some (s.clients c).buffer := by simp [Server.connection, htcp]
      have hturn := fun env r => (handle_connection htcp env r).2
      rw [hconn] at hturn ⊢
      cases x with
      | arrive bytes => rw [inputsOf, ih, hconn, ownPackets]
      | finish => rw [inputsOf, ih, hconn, ownPackets]
      | ready env => rw [inputsOf, dispatched_tcp htcp, ih, hturn, hconn, ownPackets]
      | interrupted env =>
        rw [inputsOf, dispatched_tcp htcp, ih, hturn, hconn, ownPackets]
        rfl
      | failed env =>
        rw [inputsOf, dispatched_tcp htcp, ih, hturn, hconn, ownPackets]
        exact ownPackets_none k xs
      | other i =>
        rw [inputsOf, ownPackets]
        split
        · rw [ih, hconn]
        · rename_i hi
          have hnone : i.turn c (handle s i).frames = [] := by
            cases i with
            | tcp env c' r => exact if_neg hi
            | _ => rfl
          rw [session, if_pos htcp, hnone, List.nil_append, ih, connection_of_conn (handle_conn_other htcp i hi), hconn]
    · rw [session_closed htcp, Server.connection, if_neg htcp, ownPackets_none]
      rfl

/-- The first read of a connection on which the bytes have arrived. -/
theorem ownPackets_arrived (b : List UInt8) {x : List UInt8} (hx : x ≠ []) (env : Nat → Env) (xs : List Incoming) :
    ownPackets (some b) ⟨[], false⟩ (.arrive x :: .ready env :: xs) =
      (connStep Packet.closes (some b) (.data (x.take (readRoom b)))).2 ++
        ownPackets (connStep Packet.closes (some b) (.data (x.take (readRoom b)))).1 ⟨x.drop (readRoom b), false⟩ xs := by
  simp only [ownPackets, List.nil_append, Socket.recv, if_neg hx]

/-- What a connection keeps from before makes it gain or lose a packet. -/
theorem exists_misread {b : List UInt8} (hne : b ≠ []) (hw : packetLook b = .wait) :
    ∃ xs, ownPackets (some b) ⟨[], false⟩ xs ≠ ownPackets (some []) ⟨[], false⟩ xs := by
  have hlen := length_lt_of_wait hw
  by_cases hmem : packetMagic ∈ b
  · -- it gains the packet that the bytes start
    obtain ⟨x, hlow, hhigh, hquiet, hgain⟩ := exists_completion hw hmem
    have hx : x ≠ [] := by
      rintro rfl
      cases hlow
    have hfits : ∀ kept : List UInt8, kept.length < headerSize + variableSizeMaximum →
        x.take (readRoom kept) = x := by
      intro kept hkept
      refine List.take_of_length_le ?_
      simp only [readRoom, clientBufferSize, headerSize, variableSizeMaximum] at *
      omega
    have hnone : packets x = [] := by
      rw [List.eq_nil_iff_forall_not_mem]
      intro p hp
      obtain ⟨k, hk, _⟩ := exists_magic_of_mem_packets hp
      exact hquiet (List.mem_of_getElem? hk)
    refine ⟨[.arrive x, .ready fun _ => .calm], fun heq => hgain ?_⟩
    rw [ownPackets_arrived b hx, ownPackets_arrived [] hx, hfits b hlen, hfits [] (by decide)] at heq
    simp only [connStep, if_neg (Nat.not_lt.mpr hlow), List.nil_append, hnone, List.any_nil] at heq
    exact (List.append_eq_nil_iff.mp heq).1
  · -- it loses the packet whose last byte finds no room
    obtain ⟨x, hx, hroom, hlost, hkept⟩ := exists_boundary hne hw hmem
    have hxne : x ≠ [] := by
      rintro rfl
      cases hx
    have hwhole : x.take (readRoom []) = x := by
      refine List.take_of_length_le ?_
      rw [hx]
      exact hroom
    have hfirst : ¬ (x.take (readRoom b)).length < headerSize := by
      rw [List.length_take]
      simp only [readRoom, clientBufferSize, headerSize, variableSizeMaximum] at *
      omega
    have hall : ¬ x.length < headerSize := by
      rw [List.length_take] at hfirst
      omega
    have hrest : (x.drop (readRoom b)).length = 1 := by
      rw [List.length_drop, hx, Nat.add_sub_cancel_left]
    have hbyte : x.drop (readRoom b) ≠ [] := List.ne_nil_of_length_pos (by omega)
    have hshort : ∀ n, ((x.drop (readRoom b)).take n).length < headerSize := by
      intro n
      rw [List.length_take, hrest]
      exact lt_of_le_of_lt (Nat.min_le_right _ _) (by decide)
    refine ⟨[.arrive x, .ready fun _ => .calm, .ready fun _ => .calm], fun heq => hlost ?_⟩
    rw [ownPackets_arrived b hxne, ownPackets_arrived [] hxne, hwhole] at heq
    simp only [connStep, if_neg hfirst, hkept, List.any_nil, Bool.false_eq_true, ↓reduceIte, ownPackets, Socket.recv,
      if_neg hbyte, if_pos (hshort _), ownPackets_nil, if_neg hall, List.nil_append] at heq
    exact (List.append_eq_nil_iff.mp heq.symm).1

/-- **A connection depends on its own bytes alone** exactly if its slot holds none of an earlier connection
when it is accepted. -/
theorem own_bytes_iff (cid : List UInt8) (is : List Input) (c : ClientIx) (fd : Nat) (addr : SockAddr)
    (hf : getFreeClient (run handleStep (serverCreate cid) is).1 = some c) :
    (∀ xs, dispatchedFor c (run handleStep (serverCreate cid) (is ++ [.accept (some (fd, addr))])).1 ⟨[], false⟩ xs =
        ownPackets (some []) ⟨[], false⟩ xs) ↔
      ((run handleStep (serverCreate cid) is).1.clients c).buffer = [] := by
  have hstart := accept_connection hf fd addr
  rw [run_concat]
  simp only [dispatchedFor_eq, hstart]
  constructor
  · intro h
    by_contra hne
    obtain ⟨xs, hxs⟩ := exists_misread hne (run_settled cid is c)
    exact hxs (h xs)
  · intro hb xs
    rw [hb]

/-- The first connection leaves a whole packet; the second one gets the slot. -/
def reusedSlot : List Input := [.accept (some (3, ⟨1, 2⟩)), .tcp (fun _ => .calm) 0 (.data probe),
  .tcp (fun _ => .calm) 0 (.data [])]

theorem reusedSlot_own_bytes :
    dispatchedFor 0 (run handleStep (serverCreate []) (reusedSlot ++ [.accept (some (3, ⟨1, 2⟩))])).1 ⟨[], false⟩
        [.arrive probe, .ready fun _ => .calm] =
      ownPackets (some []) ⟨[], false⟩ [.arrive probe, .ready fun _ => .calm] :=
  (own_bytes_iff [] reusedSlot 0 3 ⟨1, 2⟩ (by decide +kernel)).mpr (by decide +kernel) _

/-- An earlier connection that sent `bytes` and was closed, and a new one in its slot. -/
def reuse (bytes : List UInt8) : List Input :=
  [.accept (some (3, ⟨1, 2⟩)), .tcp (fun _ => .calm) 0 (.data bytes), .tcp (fun _ => .calm) 0 (.data []),
    .accept (some (3, ⟨1, 2⟩))]

/-- An unfinished packet of the earlier connection takes the first packet of the new one for its
payload. -/
theorem unfinished_packet_leaks :
    dispatchedFor 0 (run handleStep (serverCreate []) (reuse probe)).1 ⟨[], false⟩
        [.arrive probe, .ready fun _ => .calm] ≠
      dispatchedFor 0 (run handleStep (serverCreate []) (reuse
          (Packet.make 0 .zero (List.replicate 60 0)).header.encode)).1 ⟨[], false⟩
        [.arrive probe, .ready fun _ => .calm] := by
  decide +kernel

end SyncScribe
