import SyncScribe.System.Order

/-!
The system over UDP. A datagram is one packet; it may be lost, overtaken and
delivered more than once, and the address of a client may change. Nothing that
`never_back` says of the moments holds any more, and a write may be accepted twice,
but nothing is made up: what a client is told was so at some moment, and what the
server accepts of a client was sent by it before (`no_invention`).
-/

namespace SyncScribe
open Lib Lib.Bytes Lib.Slots Lib.Keyed

/-! ## The packet of a datagram -/

/-- The packet that `syncs_udp_handler` and `syncs_udprecv` find in a datagram, if they find one; `rest` is what
earlier datagrams left behind it in the buffer. -/
def udpPacket (rest bytes : List UInt8) : Option Packet :=
  if bytes.length < headerSize then none
  else if (Header.decode bytes).magic ≠ packetMagic then none
  else if (Header.decode bytes).magicData ≠ packetMagicData then none
  else some ⟨(Header.decode bytes).masked, bytes.drop headerSize ++ rest⟩

section Handlers

variable {p : Packet} {bytes rest : List UInt8}

theorem udpHandler_data (env : Env) (s : Server) (addr : SockAddr) (bytes : List UInt8) :
    udpHandler env s addr (.data bytes) =
      ((udpPacket env.beyond bytes).map (uclientProcessPacket env s addr)).getD ⟨s, [], 0⟩ := by
  simp only [udpHandler, udpPacket]
  repeat' split
  all_goals rfl

theorem udpRecvStep_data (env : ClientEnv) (rest : List UInt8) (s : Connect) (bytes : List UInt8) :
    udpRecvStep env rest s (.data bytes) =
      ((udpPacket rest bytes).map fun p => ((processPacket env s p).1, (processPacket env s p).2, false)).getD
        (s, [], bytes.length == 0) := by
  simp only [udpRecvStep, udpPacket]
  split
  · rfl
  · rename_i hlen
    have hne : (bytes.length == 0) = false := by
      rw [beq_eq_false_iff_ne]
      intro h0
      rw [h0] at hlen
      exact hlen (by decide)
    repeat' split
    all_goals simp [hne]

/-- A packet is found as it was sent. -/
theorem Framed.udpPacket (h : Framed p bytes) (rest : List UInt8) :
    SyncScribe.udpPacket rest bytes = some ⟨p.header, p.payload ++ rest⟩ := by
  have hdecode := h.decode []
  rw [List.append_nil] at hdecode
  have hlen : ¬ bytes.length < headerSize := by
    rw [h.length]
    omega
  rw [SyncScribe.udpPacket, if_neg hlen, hdecode, if_neg (not_not.mpr h.magic), if_neg (not_not.mpr h.magicData),
    h.masked, h.bytes, ← p.header.length_encode, List.drop_left]

/-- With the payload it announces. -/
theorem Framed.udpPacket_frame (h : Framed p bytes) {q : Packet} (hq : SyncScribe.udpPacket rest bytes = some q) :
    q.header = p.header ∧ q.frame = p.frame := by
  rw [h.udpPacket] at hq
  cases hq
  have hpay : Packet.payload ⟨p.header, p.payload ++ rest⟩ = p.payload := by
    rw [Packet.payload, read_append_left _ (by rw [Packet.payload, length_read])]
    exact payload_frame p
  exact ⟨rfl, congrArg (Packet.mk p.header) hpay⟩

/-- What is found passes the mask. -/
theorem udpPacket_size (h : udpPacket rest bytes = some p) : p.header.dataSize.toNat ≤ variableSizeMaximum := by
  simp only [udpPacket] at h
  repeat' split at h
  all_goals cases h
  exact masked_size_le _

end Handlers

/-! ## The system -/

/-- A client with a UDP socket, and the address its datagrams come from. -/
structure UdpPeer where
  client : Connect
  addr : SockAddr

/-- A datagram of a client. -/
structure ClientDatagram (κ : Type) where
  sender : κ
  addr : SockAddr
  bytes : List UInt8

/-- A datagram of the server, to an address. -/
structure ServerDatagram where
  addr : SockAddr
  bytes : List UInt8

/-- The network keeps every datagram that was ever sent: any of them may arrive, at any time and again. -/
structure UdpWorld (κ : Type) where
  server : Server
  peers : κ → UdpPeer
  toServer : List (ClientDatagram κ)
  toClients : List ServerDatagram

inductive UdpStep (κ : Type)
  /-- the application of a client makes a call -/
  | call (k : κ) (a : ClientAct)
  /-- `syncs_send_id` at the start of `syncs_udprecv` -/
  | announce (k : κ) (env : ClientEnv)
  /-- `syncs_udpclient_open` -/
  | socket (k : κ) (fd : Nat) (addr : SockAddr)
  /-- the datagrams of a client come from another address from now on -/
  | move (k : κ) (addr : SockAddr)
  /-- `syncs_udprecv` ends -/
  | shut (k : κ)
  /-- a datagram arrives at the server -/
  | serve (i : Nat) (env : Env)
  /-- a datagram arrives at a client -/
  | receive (k : κ) (i : Nat) (env : ClientEnv) (rest : List UInt8)
  /-- the server does something else: for TCP clients, for its application, on datagrams of others -/
  | other (a : Act)
  /-- the process of the server starts again -/
  | restart (cid : List UInt8)

/-- The slots as the server has them when it sends: a datagram may have registered its sender before. -/
def Act.slots (s : Server) : Act → Server
  | .datagram _ addr p => ((uclientOf s addr p.header).map Prod.fst).getD s
  | _ => s

/-- The datagrams of what the server does. -/
def Server.datagrams (s : Server) (out : List Out) : List ServerDatagram :=
  out.filterMap fun
    | .send c p => if (s.clients c).socketfd = udpSocketStub then some ⟨(s.clients c).addr, p.wire⟩ else none
    | .sendto addr p => some ⟨addr, p.wire⟩
    | .call .. => none

section System

variable {κ : Type}

/-- The server acts, on a datagram of `who` or on its own. -/
def UdpWorld.act (w : UdpWorld κ) (who : Option κ) (a : Act) : UdpWorld κ × List (WorldObs κ) :=
  ({ w with
      server := (SyncScribe.act w.server a).1
      toClients := w.toClients ++ (a.slots w.server).datagrams (SyncScribe.act w.server a).2 },
    (SyncScribe.wrote w.server a).map (.wrote who))

variable [DecidableEq κ]

def UdpWorld.setPeer (w : UdpWorld κ) (k : κ) (pr : UdpPeer) : UdpWorld κ :=
  { w with peers := Function.update w.peers k pr }

/-- A client acts. -/
def UdpWorld.clientActs (w : UdpWorld κ) (k : κ) (a : ClientAct) : UdpWorld κ × List (WorldObs κ) :=
  let pr := w.peers k
  let r := clientAct pr.client a
  ({ w.setPeer k { pr with client := r.1 } with
      toServer := w.toServer ++ (udpHanded r.2).map fun o => ⟨k, pr.addr, o.wire⟩ },
    (udpHanded r.2).map (fun o => .sent k o.packet.frame) ++ r.2.map (.client k))

/-- The end of `syncs_udprecv` and of the round of `syncs_udpconnect_thread`. -/
def UdpPeer.shut (pr : UdpPeer) : UdpPeer := { pr with client := { pr.client with ready := false, usocketfd := -1 } }

/-- The loop of `syncs_udprecv` goes on. -/
def UdpPeer.listens (pr : UdpPeer) : Bool := 0 ≤ pr.client.usocketfd && !pr.client.onexit

def udpStep (w : UdpWorld κ) : UdpStep κ → UdpWorld κ × List (WorldObs κ)
  | .call k a => if a.byApplication then w.clientActs k a else (w, [])
  | .announce k env => if 0 ≤ (w.peers k).client.usocketfd then w.clientActs k (.sendId env) else (w, [])
  | .socket k fd addr =>
    if (w.peers k).client.usocketfd < 0 && !(w.peers k).client.onexit then
      (w.setPeer k ⟨{ (w.peers k).client with usocketfd := fd }, addr⟩, [])
    else (w, [])
  | .move k addr => (w.setPeer k { w.peers k with addr := addr }, [])
  | .shut k => (w.setPeer k (w.peers k).shut, [])
  | .serve i env =>
    match w.toServer[i]? with
    | some d =>
      match udpPacket env.beyond d.bytes with
      | some p => w.act (some d.sender) (.datagram env d.addr p)
      | none => (w, [])
    | none => (w, [])
  | .receive k i env rest =>
    match w.toClients[i]? with
    | some d =>
      if (w.peers k).listens && d.addr == (w.peers k).addr then
        match udpPacket rest d.bytes with
        | some p =>
          let r := w.clientActs k (.packet env p)
          (r.1, .processed k p :: r.2)
        | none => if d.bytes.length = 0 then (w.setPeer k (w.peers k).shut, []) else (w, [])
      else (w, [])
    | none => (w, [])
  | .other a => w.act none a
  | .restart cid => ({ w with server := serverCreate cid }, [])

/-- Clients without a socket, and a new server. -/
def UdpWorld.start (clients : κ → Connect) (cid : List UInt8) : UdpWorld κ :=
  ⟨serverCreate cid, fun k => ⟨clients k, ⟨0, 0⟩⟩, [], []⟩

/-- Values the server writes fit their array; datagrams of others may carry anything. -/
def UdpWorld.allows (w : UdpWorld κ) : UdpStep κ → Prop
  | .other a => a.bounded w.server
  | _ => True

end System

section Handled

variable {κ : Type} [DecidableEq κ] {w : UdpWorld κ} {k : κ} {i : Nat}

/-- A datagram that arrives at the server is handled by `syncs_udp_handler`. -/
theorem serve_handled {d : ClientDatagram κ} (hd : w.toServer[i]? = some d) (env : Env) :
    (udpStep w (.serve i env)).1.server = (udpHandler env w.server d.addr (.data d.bytes)).server ∧
      ∃ u : Server, (udpStep w (.serve i env)).1.toClients =
        w.toClients ++ u.datagrams (udpHandler env w.server d.addr (.data d.bytes)).out := by
  simp only [udpStep, hd, udpHandler_data]
  cases hp : udpPacket env.beyond d.bytes with
  | none => exact ⟨rfl, w.server, (List.append_nil _).symm⟩
  | some p => exact ⟨rfl, _, rfl⟩

/-- One that arrives at a client is a round of `syncs_udprecv`. -/
theorem receive_handled {d : ServerDatagram} (hd : w.toClients[i]? = some d)
    (hl : ((w.peers k).listens && d.addr == (w.peers k).addr) = true) (env : ClientEnv) (rest : List UInt8) :
    (udpStep w (.receive k i env rest)).1.peers k =
      if (udpRecvStep env rest (w.peers k).client (.data d.bytes)).2.2 then (w.peers k).shut
      else { w.peers k with client := (udpRecvStep env rest (w.peers k).client (.data d.bytes)).1 } := by
  have hset : ∀ pr : UdpPeer, (w.setPeer k pr).peers k = pr := fun pr => Function.update_self ..
  simp only [udpStep, hd, if_pos hl, udpRecvStep_data]
  cases hp : udpPacket rest d.bytes with
  | none =>
    by_cases h0 : d.bytes.length = 0
    · simp [h0, hset]
    · simp [h0]
  | some p => exact hset _

end Handled

/-! ## What the parties put on the network -/

section Sending

variable {env : ClientEnv} {s : Connect} {a : ClientAct} {o : Outgoing}

theorem mem_udpHanded {os : List ClientOut} (h : o ∈ udpHanded (os.map .out)) : ClientOut.udp o ∈ os := by
  obtain ⟨x, hx, hxo⟩ := List.mem_filterMap.mp h
  obtain ⟨y, hy, rfl⟩ := List.mem_map.mp hx
  cases y with
  | udp o' =>
    cases hxo
    exact hy
  | tcp | call => cases hxo

theorem udpHanded_connectSend {o' : Outgoing} (h : o ∈ udpHanded ((connectSend env s o').2.map .out)) : o = o' := by
  have hmem := mem_udpHanded h
  rw [connectSend] at hmem
  split at hmem
  · simp at hmem
  · split at hmem
    · simpa using hmem
    · cases hmem

/-- What a call sends is its request. -/
theorem udpHanded_request (ha : a.byApplication = true) (h : o ∈ udpHanded (clientAct s a).2) :
    ∃ r, a.request s = some (r, o) := by
  have hsend : ∀ {env o' r}, o ∈ udpHanded ((connectSend env s o').2.map .out) → a.request s = some (r, o') →
      ∃ r, a.request s = some (r, o) := by
    intro env o' r hmem hr
    rw [udpHanded_connectSend hmem]
    exact ⟨r, hr⟩
  have hif : ∀ {q : Prop} [Decidable q] {u : Connect} {env o' r},
      o ∈ udpHanded ((if q then (connectSend env u o').2 else []).map .out) → a.request s = some (r, o') →
      ∃ r, a.request s = some (r, o) := by
    intro q _ u env o' r hmem hr
    split at hmem
    · rw [udpHanded_connectSend hmem]
      exact ⟨r, hr⟩
    · cases hmem
  cases a with
  | write | define | undefine => exact hsend h rfl
  | waitEvent | requestListEnd | freeList => cases h
  | read env flags cid =>
    simp only [clientAct, clientReadCall] at h
    split at h
    · cases h
    · exact ⟨_, by rw [udpHanded_connectSend h]; rfl⟩
  | channelRequest env cid =>
    simp only [clientAct, channelRequestCall] at h
    split at h
    · cases h
    · exact ⟨_, by rw [udpHanded_connectSend h]; rfl⟩
  | requestList env l =>
    simp only [clientAct, requestList] at h
    split at h
    · cases h
    · exact ⟨_, by rw [udpHanded_connectSend h]; rfl⟩
  | subscribe env flags cid | subscribeSync env flags cid | subscribeSyncUser env flags cid =>
    simp only [clientAct, subscribeEvent, subscribeEventSync, subscribeEventSyncUser] at h
    cases he : s.getEventStr cid with
    | none =>
      rw [he] at h
      cases h
    | some e =>
      rw [he] at h
      exact hif h (by simp only [ClientAct.request, he]; rfl)
  | unsubscribe env cid =>
    simp only [clientAct, unsubscribeEvent, Connect.call?] at h
    cases he : s.findEvent (idstr cid) with
    | none =>
      rw [he] at h
      cases h
    | some e =>
      rw [he] at h
      exact ⟨_, by rw [udpHanded_connectSend h]; simp only [ClientAct.request, he]; rfl⟩
  | channelAnons env cid flags port =>
    simp only [clientAct, channelAnonsCall] at h
    cases hk : s.findFreeChannel with
    | none =>
      rw [hk] at h
      cases h
    | some k =>
      rw [hk] at h
      exact hif h (by simp only [ClientAct.request, hk]; rfl)
  | sockets | sendId | packet => cases ha

theorem framed_sendId (h : o ∈ udpHanded ((sendId env s).map .out)) : Framed o.packet o.wire := by
  obtain ⟨o', hsender, hx⟩ := sendId_out (mem_udpHanded h)
  rcases mem_connectSend hx with ⟨htcp, _⟩ | hudp
  · cases htcp
  · cases hudp
    exact (clientSender_framed hsender).1

/-- **Every datagram of a client is a packet.** -/
theorem udpHanded_framed (h : o ∈ udpHanded (clientAct s a).2) : Framed o.packet o.wire := by
  by_cases ha : a.byApplication = true
  · obtain ⟨r, hr⟩ := udpHanded_request ha h
    exact request_framed hr
  · cases a with
    | sendId cenv => exact framed_sendId h
    | packet cenv q =>
      have hnone : ∀ {os : List ClientOut}, (∀ x ∈ os, ∃ cb args id data, x = .call cb args id data) →
          o ∈ udpHanded (os.map .out) → Framed o.packet o.wire := by
        intro os hos hmem
        obtain ⟨cb, args, id, data, hcall⟩ := hos _ (mem_udpHanded hmem)
        cases hcall
      simp only [clientAct, Connect.call?, processPacket] at h
      split at h
      · exact hnone (fun x hx => processEvent_calls hx) h
      case h_3 =>
        rw [processError] at h
        split at h
        · cases h
        · split at h
          · cases h
          · split at h
            · exact framed_sendId h
            · cases h
      all_goals cases h
    | sockets tcp udp => cases h
    | _ => exact absurd rfl ha

end Sending

section Answers

variable {env : Env} {s u : Server} {c : ClientIx} {addr : SockAddr} {p q : Packet} {a : Act}

/-- Processing a packet sends to slots only. -/
theorem packet_sendto (q : Packet) : .sendto addr p ∉ (clientProcessPacket env s c q).out := by
  have hlist : ∀ {n : Nat} {k : ListKind n} {sequance : UInt8}, 0 < k.perPacket →
      .sendto addr p ∉ (sendList env k s c sequance).2 := by
    intro n k sequance hk hmem
    obtain ⟨p', heq, _⟩ := sendList_out env hk s sequance _ hmem
    cases heq
  have hevent : ∀ {v : Server} {e flags}, .sendto addr p ∉ (sendEvent env v e flags).2 := by
    intro v e flags hmem
    rw [sendEvent_out] at hmem
    obtain ⟨i, _, hi⟩ := List.mem_map.mp hmem
    cases hi
  intro hmem
  cases hm : q.header.msg
  all_goals simp only [clientProcessPacket, clientDispatch, hm] at hmem
  case subscribe =>
    by_cases hr : (clientSubscribe env s c q.header.id q.header.type q.header.updateCounter).ret = 0
    · obtain ⟨s', e, _, _, _, hout⟩ := clientSubscribe_accepted hr
      rw [hout] at hmem
      split at hmem <;> simp at hmem
    · rw [(clientSubscribe_refused hr).2] at hmem
      cases hmem
  case write =>
    by_cases hr : (clientWrite env s c q.header.id q.header.type q.buffer q.header.dataSize.toUInt32).ret = 0
    · obtain ⟨s', e, _, _, _, hout⟩ := clientWrite_accepted hr
      rw [hout, List.mem_append] at hmem
      rcases hmem with hmem | hmem
      · unfold callLocal at hmem
        split at hmem <;> simp at hmem
      · exact hevent hmem
    · rw [(clientWrite_refused hr).2] at hmem
      cases hmem
  case read =>
    simp only [clientRead, sendCounted, List.mem_singleton] at hmem
    cases hmem
  case clientList => exact hlist (k := clientKind) (by decide) hmem
  case eventList => exact hlist (k := eventKind) (by decide) hmem
  case channelList => exact hlist (k := channelKind) (by decide) hmem
  case clientId =>
    simp only [clientIdentify] at hmem
    split at hmem <;> simp [sendServerStatus, sendCounted] at hmem
  case channel =>
    unfold clientChannel at hmem
    split at hmem
    · dsimp only at hmem
      rw [addChannel_out] at hmem
      cases hmem
    · split at hmem
      · simp only [clientChannelRequest] at hmem
        split at hmem <;> simp at hmem
      · cases hmem
  all_goals cases hmem

/-- What the server sends to an address that is nobody's is the status. -/
theorem act_sendto (h : .sendto addr p ∈ (act s a).2) : ∃ env, p = statusPacket env s errorUnknownclient := by
  cases a with
  | packet env c q => exact absurd h (packet_sendto q)
  | datagram env addr' q =>
    simp only [act, uclientProcessPacket] at h
    cases hu : uclientOf s addr' q.header with
    | none =>
      simp only [hu] at h
      split at h
      · cases h
      · cases List.mem_singleton.mp h
        exact ⟨env, rfl⟩
    | some sc =>
      simp only [hu] at h
      exact absurd h (packet_sendto q)
  | serverWrite env flags cid data size =>
    simp only [act] at h
    by_cases hr : (serverWrite env s flags cid data size).ret = 0
    · obtain ⟨s', e, _, _, hout⟩ := serverWrite_accepted hr
      rw [hout, sendEvent_out] at h
      obtain ⟨i, _, hi⟩ := List.mem_map.mp h
      cases hi
    · rw [(serverWrite_refused hr).2] at h
      cases h
  | _ => cases h

/-- What the server accepts of a datagram is the write it is, or nothing. -/
theorem wrote_datagram (env : Env) (s : Server) (addr : SockAddr) (p : Packet) :
    ((wrote s (.datagram env addr p)).map fun d => (d.id, d.payload)).Sublist p.writing.toList := by
  cases hu : uclientOf s addr p.header with
  | none =>
    have hnone : wrote s (.datagram env addr p) = [] := by
      simp only [wrote, changeOf, hu]
      rfl
    rw [hnone]
    exact List.nil_sublist _
  | some sc =>
    obtain ⟨v, c⟩ := sc
    have hsame : wrote s (.datagram env addr p) = wrote v (.packet env c p) := by
      simp only [wrote, changeOf, hu, act, uclientProcessPacket]
    rw [hsame]
    exact wrote_packet env v c p

/-- **Every datagram of the server is a packet** that says what is so. -/
theorem datagrams_tell (hinv : TableInv s.events) (hw : s.Within) (ha : a.bounded s) {d : ServerDatagram}
    (hd : d ∈ u.datagrams (act s a).2) : ∃ p, Framed p d.bytes ∧ p.Tells (act s a).1.events := by
  obtain ⟨x, hx, hxd⟩ := List.mem_filterMap.mp hd
  cases x with
  | send c p =>
    obtain ⟨env, v, q, hsaid⟩ := act_said hx
    simp only at hxd
    split at hxd
    · cases hxd
      exact ⟨p, hsaid.framed (hw.act ha), hsaid.tells (act_change hinv a).inv (hw.act ha)⟩
    · cases hxd
  | sendto addr p =>
    cases hxd
    obtain ⟨env, rfl⟩ := act_sendto hx
    refine ⟨_, serverSender_framed (.status env s errorUnknownclient), ?_⟩
    have hmsg : (statusPacket env s errorUnknownclient).header.msg = .serverStatus := Msg.ofWord_code .serverStatus
    apply Packet.Tells.of_msg
    · rw [hmsg]
      decide
    · rw [hmsg]
      decide
  | call => cases hxd

end Answers

/-! ## Steps -/

section Steps

variable {κ : Type} [DecidableEq κ] {w : UdpWorld κ} {a : UdpStep κ} {r : UdpWorld κ × List (WorldObs κ)} {k : κ}

/-- What a step can do. -/
inductive UdpMoved (w : UdpWorld κ) : UdpStep κ → UdpWorld κ × List (WorldObs κ) → Prop
  | still {a : UdpStep κ} {w' : UdpWorld κ} (hserver : w'.server = w.server) (hup : w'.toServer = w.toServer)
    (hdown : w'.toClients = w.toClients) : UdpMoved w a (w', [])
  | client {a : UdpStep κ} (k : κ) (b : ClientAct) (hcalls : callbacks (clientAct (w.peers k).client b).2 = []) :
    UdpMoved w a (w.clientActs k b)
  | receive {a : UdpStep κ} (k : κ) (env : ClientEnv) {rest : List UInt8} {p : Packet} {d : ServerDatagram}
    (hd : d ∈ w.toClients) (hp : udpPacket rest d.bytes = some p) :
    UdpMoved w a ((w.clientActs k (.packet env p)).1, .processed k p :: (w.clientActs k (.packet env p)).2)
  | serve {a : UdpStep κ} (env : Env) {p : Packet} {d : ClientDatagram κ} (hd : d ∈ w.toServer)
    (hp : udpPacket env.beyond d.bytes = some p) : UdpMoved w a (w.act (some d.sender) (.datagram env d.addr p))
  | other (b : Act) : UdpMoved w (.other b) (w.act none b)
  | restart (cid : List UInt8) : UdpMoved w (.restart cid) ({ w with server := serverCreate cid }, [])

theorem udpStep_moved (w : UdpWorld κ) (a : UdpStep κ) : UdpMoved w a (udpStep w a) := by
  have hstill : ∀ {a}, UdpMoved w a (w, []) := .still rfl rfl rfl
  cases a with
  | call k b =>
    rw [udpStep]
    split
    · rename_i happ
      exact .client k b (shows_call happ)
    · exact hstill
  | announce k env =>
    rw [udpStep]
    split
    · exact .client k (.sendId env) (shows_sendId env _)
    · exact hstill
  | socket k fd addr =>
    rw [udpStep]
    split
    · exact .still rfl rfl rfl
    · exact hstill
  | move k addr => exact .still rfl rfl rfl
  | shut k => exact .still rfl rfl rfl
  | serve i env =>
    simp only [udpStep]
    cases hd : w.toServer[i]? with
    | none => exact hstill
    | some d =>
      cases hp : udpPacket env.beyond d.bytes with
      | none =>
        simp only [hp]
        exact hstill
      | some p =>
        simp only [hp]
        exact .serve env (List.mem_of_getElem? hd) hp
  | receive k i env rest =>
    simp only [udpStep]
    cases hd : w.toClients[i]? with
    | none => exact hstill
    | some d =>
      simp only
      split
      · cases hp : udpPacket rest d.bytes with
        | none =>
          simp only
          split
          · exact .still rfl rfl rfl
          · exact hstill
        | some p => exact .receive k env (List.mem_of_getElem? hd) hp
      · exact hstill
  | other b => exact .other b
  | restart cid => exact .restart cid

/-- What holds of the server at every moment. -/
structure UdpWorld.Inv (w : UdpWorld κ) : Prop where
  table : TableInv w.server.events
  within : w.server.Within

omit [DecidableEq κ] in
theorem UdpWorld.Inv.act (h : w.Inv) {who : Option κ} {b : Act} (hb : b.bounded w.server) : (w.act who b).1.Inv :=
  ⟨(act_change h.table b).inv, h.within.act hb⟩

theorem UdpWorld.Inv.step (h : w.Inv) (a : UdpStep κ) (ha : w.allows a) : (udpStep w a).1.Inv := by
  have hmoved := udpStep_moved w a
  generalize udpStep w a = r at hmoved
  cases hmoved with
  | still hserver =>
    refine ⟨?_, ?_⟩
    · simp only [hserver]
      exact h.table
    · simp only [hserver]
      exact h.within
  | client k b => exact ⟨h.table, h.within⟩
  | receive k env hd hp => exact ⟨h.table, h.within⟩
  | serve env hd hp => exact h.act (udpPacket_size hp)
  | other b => exact h.act ha
  | restart cid => exact ⟨(tracked_init cid).inv, within_init cid⟩

omit [DecidableEq κ] in
theorem UdpWorld.Inv.start (clients : κ → Connect) (cid : List UInt8) : (UdpWorld.start clients cid).Inv :=
  ⟨(tracked_init cid).inv, within_init cid⟩

end Steps

/-! ## What arrives -/

section Arrivals

variable {κ : Type} [DecidableEq κ] {w : UdpWorld κ} {k : κ}

@[simp] theorem sentBy_cons (j : κ) (p : Packet) (os : List (WorldObs κ)) :
    sentBy k (.processed j p :: os) = sentBy k os := rfl

@[simp] theorem writtenBy_cons (j : κ) (p : Packet) (os : List (WorldObs κ)) :
    writtenBy k (.processed j p :: os) = writtenBy k os := rfl

/-- The observations of a client that acts. -/
theorem udpSent_eq (j : κ) (b : ClientAct) :
    (w.clientActs j b).2 =
      ((udpHanded (clientAct (w.peers j).client b).2).map fun o => o.packet.frame).map (.sent j) ++
        (clientAct (w.peers j).client b).2.map (.client j) := by
  rw [List.map_map]
  rfl

@[simp] theorem udpProcessed_clientActs (j : κ) (b : ClientAct) : processedBy k (w.clientActs j b).2 = [] := by
  rw [udpSent_eq, processedBy_append, processedBy_sent, processedBy_client, List.nil_append]

@[simp] theorem udpWritten_clientActs (j : κ) (b : ClientAct) : writtenBy k (w.clientActs j b).2 = [] := by
  rw [udpSent_eq, writtenBy_append, writtenBy_sent, writtenBy_client, List.nil_append]

theorem udpShown_clientActs (j : κ) (b : ClientAct) :
    shownTo k (w.clientActs j b).2 = if j = k then callbacks (clientAct (w.peers j).client b).2 else [] := by
  rw [udpSent_eq, shownTo_append, shownTo_sent, shownTo_client, List.nil_append]

/-- A packet that says what is so. -/
def tellsNow (x : UdpWorld κ × List (WorldObs κ)) (d : ServerDatagram) : Prop :=
  ∃ p, Framed p d.bytes ∧ p.Tells x.1.server.events

/-- A packet its sender has sent. -/
def wasSent (x : UdpWorld κ × List (WorldObs κ)) (d : ClientDatagram κ) : Prop :=
  ∃ p, Framed p d.bytes ∧ p.frame ∈ sentBy d.sender x.2

/-- **What the server puts on the network is so.** -/
theorem spreads_told (h : w.Inv) (a : UdpStep κ) (ha : w.allows a) :
    Spreads udpStep UdpWorld.toClients tellsNow w a := by
  intro d hd
  have hmoved := udpStep_moved w a
  generalize udpStep w a = r at hd hmoved
  have hact : ∀ {who : Option κ} {b : Act}, b.bounded w.server → d ∈ (w.act who b).1.toClients →
      d ∈ w.toClients ∨ ∀ os, tellsNow ((w.act who b).1, os ++ (w.act who b).2) d := by
    intro who b hb hd
    rcases List.mem_append.mp hd with hd | hd
    · exact Or.inl hd
    · exact Or.inr fun _ => datagrams_tell h.table h.within hb hd
  cases hmoved with
  | still _ _ hdown =>
    rw [hdown] at hd
    exact Or.inl hd
  | client k b => exact Or.inl hd
  | receive k env _ _ => exact Or.inl hd
  | serve env _ hp => exact hact (udpPacket_size hp) hd
  | other b => exact hact ha hd
  | restart cid => exact Or.inl hd

/-- **What a client puts on the network** it has sent. -/
theorem spreads_sent (w : UdpWorld κ) (a : UdpStep κ) : Spreads udpStep UdpWorld.toServer wasSent w a := by
  intro d hd
  have hmoved := udpStep_moved w a
  generalize udpStep w a = r at hd hmoved
  have hclient : ∀ (j : κ) (b : ClientAct) (os : List (WorldObs κ)), d ∈ (w.clientActs j b).1.toServer →
      d ∈ w.toServer ∨ wasSent ((w.clientActs j b).1, os ++ (w.clientActs j b).2) d := by
    intro j b os hd
    rcases List.mem_append.mp hd with hd | hd
    · exact Or.inl hd
    · obtain ⟨o, ho, rfl⟩ := List.mem_map.mp hd
      refine Or.inr ⟨o.packet, udpHanded_framed ho, ?_⟩
      rw [sentBy_append, udpSent_eq, sentBy_append, sentBy_sent, if_pos rfl]
      exact List.mem_append_right _ (List.mem_append_left _ (List.mem_map_of_mem ho))
  cases hmoved with
  | still _ hup =>
    rw [hup] at hd
    exact Or.inl hd
  | client k b =>
    by_cases hold : d ∈ w.toServer
    · exact Or.inl hold
    · exact Or.inr fun os => (hclient k b os hd).resolve_left hold
  | receive k env _ _ =>
    by_cases hold : d ∈ w.toServer
    · exact Or.inl hold
    · refine Or.inr fun os => ?_
      obtain ⟨p, hframed, hsent⟩ := (hclient k _ [] hd).resolve_left hold
      refine ⟨p, hframed, ?_⟩
      rw [sentBy_append, sentBy_cons]
      exact List.mem_append_right _ hsent
  | serve | other | restart => exact Or.inl hd

/-- What a client processes is a datagram of the network. -/
theorem takes_told (w : UdpWorld κ) (a : UdpStep κ) (k : κ) : ∀ q ∈ processedBy k (udpStep w a).2,
    ∃ d ∈ w.toClients, ∀ p, Framed p d.bytes → q = p.frame := by
  intro q hq
  have hmoved := udpStep_moved w a
  generalize udpStep w a = r at hq hmoved
  cases hmoved with
  | still => cases hq
  | client j b =>
    rw [udpProcessed_clientActs] at hq
    cases hq
  | receive j env hd hp =>
    rename_i p d
    refine ⟨d, hd, fun p' hp' => ?_⟩
    rw [processedBy_cons, udpProcessed_clientActs, List.append_nil] at hq
    split at hq
    · rw [List.mem_singleton.mp hq]
      exact (hp'.udpPacket_frame hp).2
    · cases hq
  | serve | other =>
    simp only [UdpWorld.act, processedBy_wrote] at hq
    cases hq
  | restart => cases hq

/-- A write that is accepted of a client is a datagram of that client. -/
theorem takes_sent (w : UdpWorld κ) (a : UdpStep κ) (k : κ) : ∀ y ∈ writtenBy k (udpStep w a).2,
    ∃ d ∈ w.toServer, d.sender = k ∧ ∀ p, Framed p d.bytes → p.frame.writing = some y := by
  intro y hy
  have hmoved := udpStep_moved w a
  generalize udpStep w a = r at hy hmoved
  cases hmoved with
  | still => cases hy
  | client j b =>
    rw [udpWritten_clientActs] at hy
    cases hy
  | receive j env hd hp =>
    rw [writtenBy_cons, udpWritten_clientActs] at hy
    cases hy
  | serve env hd hp =>
    rename_i q d
    simp only [UdpWorld.act, writtenBy_wrote, Option.some.injEq] at hy
    split at hy
    · rename_i hk
      refine ⟨d, hd, hk, fun p hframed => ?_⟩
      have hwriting : p.frame.writing = q.writing := by
        rw [← (hframed.udpPacket_frame hp).2, Packet.writing, payload_frame]
        rfl
      have hmem : y ∈ q.writing.toList := (wrote_datagram env w.server d.addr q).subset hy
      rw [hwriting]
      exact Option.mem_toList.mp hmem
    · cases hy
  | other b =>
    simp only [UdpWorld.act, writtenBy_wrote, reduceCtorEq, ↓reduceIte] at hy
    cases hy
  | restart => cases hy

/-- What an application is shown are EVENTs its client processes. -/
theorem udpStep_shows (w : UdpWorld κ) (a : UdpStep κ) :
    (shownTo k (udpStep w a).2).Sublist (eventsBy k (udpStep w a).2) := by
  have hmoved := udpStep_moved w a
  generalize udpStep w a = r at hmoved
  cases hmoved with
  | still => exact List.nil_sublist _
  | client j b hcalls =>
    rw [udpShown_clientActs, hcalls, ite_self]
    exact List.nil_sublist _
  | receive j env hd hp =>
    rename_i p d
    have hshows := shows_packet env (w.peers j).client p
    simp only [shownTo_cons, eventsBy, processedBy_cons, udpProcessed_clientActs, udpShown_clientActs, List.append_nil]
    split
    · have hframe : p.frame.showing = p.showing := by
        rw [Packet.showing, payload_frame]
        rfl
      rw [← hframe] at hshows
      cases hs : p.frame.showing with
      | none =>
        rw [hs] at hshows
        simpa [hs] using hshows
      | some x =>
        rw [hs] at hshows
        simpa [hs] using hshows
    · exact List.nil_sublist _
  | serve | other =>
    simp only [UdpWorld.act, shownTo_wrote]
    exact List.nil_sublist _
  | restart => exact List.nil_sublist _

end Arrivals

/-! ## Runs -/

section Runs

variable {κ : Type} [DecidableEq κ]

/-- **Nothing is made up.** However many datagrams are lost, repeated and reordered, whatever others send to the
server, and wherever the clients move: what a client processes in EVENTs and READ replies, and what its callbacks
are given, is what the table of the server had at some moment, and every write that the server accepts of a client
was sent by that client. -/
theorem no_invention (clients : κ → Connect) (cid : List UInt8) (as : List (UdpStep κ))
    (hal : Along udpStep UdpWorld.allows (.start clients cid) as) (k : κ) :
    (∀ p ∈ processedBy k (run udpStep (.start clients cid) as).2,
        ∃ t ≤ as.length, p.Tells (run udpStep (.start clients cid) (as.take t)).1.server.events) ∧
      (∀ x ∈ shownTo k (run udpStep (.start clients cid) as).2,
        ∃ t ≤ as.length, ShownOf (run udpStep (.start clients cid) (as.take t)).1.server.events x) ∧
      ∀ x ∈ writtenBy k (run udpStep (.start clients cid) as).2,
        x ∈ askedBy k (run udpStep (.start clients cid) as).2 := by
  have hstep : ∀ (w : UdpWorld κ) a, w.Inv → w.allows a → (udpStep w a).1.Inv := fun w a h ha => h.step a ha
  have hstart := UdpWorld.Inv.start clients cid
  have htold : ∀ p ∈ processedBy k (run udpStep (.start clients cid) as).2,
      ∃ t ≤ as.length, p.Tells (run udpStep (.start clients cid) (as.take t)).1.server.events := by
    intro q hq
    obtain ⟨d, hd, t, ht, p, hframed, htells⟩ := run_taken (fun _ _ => processedBy_append) rfl hstep
      (fun w a h ha => spreads_told h a ha) (fun w a _ _ => takes_told w a k) hstart rfl as hal q hq
    exact ⟨t, ht, hd p hframed ▸ htells.frame⟩
  refine ⟨htold, ?_, ?_⟩
  · intro x hx
    have hev : x ∈ eventsBy k (run udpStep (.start clients cid) as).2 :=
      (run_sublist (fun _ _ => shownTo_append) (fun _ _ => eventsBy_append) rfl udpStep_shows as _).subset hx
    obtain ⟨p, hp, hpx⟩ := List.mem_filterMap.mp hev
    obtain ⟨t, ht, htells⟩ := htold p hp
    refine ⟨t, ht, fun hg => ?_⟩
    rw [Packet.showing] at hpx
    split at hpx
    · rename_i hm
      cases hpx
      exact (htells hg).1 hm
    · cases hpx
  · intro x hx
    obtain ⟨d, ⟨rfl, hwriting⟩, t, _, p, hframed, hsent⟩ := run_taken (fun _ _ => writtenBy_append) rfl hstep
      (fun w a _ _ => spreads_sent w a) (fun w a _ _ => takes_sent w a k) hstart rfl as hal x hx
    have hearlier : p.frame ∈ sentBy d.sender (run udpStep (.start clients cid) as).2 := by
      rw [← List.take_append_drop t as, run_append, sentBy_append]
      exact List.mem_append_left _ hsent
    exact List.mem_filterMap.mpr ⟨p.frame, hearlier, hwriting p hframed⟩

/-- Two clients without a socket, and a server. -/
def udpPairStart : UdpWorld Bool := .start (fun k => connectCreate [if k then 98 else 97] []) []

/-- The first client has an event in its table and announces it; the second writes to it twice. -/
def udpWriteSteps : List (UdpStep Bool) :=
  [.call false (.subscribe .calm (typeForce ||| typeVarString) [97] (some 1) 0), .socket false 5 ⟨1, 2⟩,
    .announce false .calm, .serve 0 .calm, .serve 1 .calm, .socket true 6 ⟨3, 4⟩, .announce true .calm, .serve 2 .calm,
    .call true (.write .calm typeVarString [97] (some [7]) 1), .call true (.write .calm typeVarString [97] (some [8]) 1),
    .serve 3 .calm, .serve 4 .calm]

/-- The EVENTs of these writes overtake each other, and one arrives twice. -/
def udpReceiveSteps : List (UdpStep Bool) :=
  [.receive false 3 .calm [], .receive false 2 .calm [], .receive false 3 .calm []]

theorem udpPair_allowed : Along udpStep UdpWorld.allows udpPairStart (udpWriteSteps ++ udpReceiveSteps) :=
  ⟨trivial, trivial, trivial, trivial, trivial, trivial, trivial, trivial, trivial, trivial, trivial, trivial, trivial,
    trivial, trivial, trivial⟩

/-- The callback is given the newer value, the older one, and the newer one again: each was so at some moment. -/
theorem udpPair_no_invention :
    (∀ x ∈ shownTo false (run udpStep udpPairStart (udpWriteSteps ++ udpReceiveSteps)).2,
        ∃ t ≤ (udpWriteSteps ++ udpReceiveSteps).length,
          ShownOf (run udpStep udpPairStart ((udpWriteSteps ++ udpReceiveSteps).take t)).1.server.events x) ∧
      shownTo false (run udpStep udpPairStart (udpWriteSteps ++ udpReceiveSteps)).2 =
        [(idstr [97], [8]), (idstr [97], [7]), (idstr [97], [8])] :=
  ⟨(no_invention _ _ _ udpPair_allowed false).2.1, by decide +kernel⟩

end Runs

end SyncScribe
