import SyncScribe.Lib.Channel
import SyncScribe.System.Messages
import SyncScribe.System.Transports

/-!
The whole system: the server and any number of TCP clients, each with the packets
on their way in either direction. Every call, every packet processed at either end
and every break of a connection is a step, and the steps come in any order; what
the server does for others, for its own application and on connections that no
client holds any more is a step as well. A send puts its packet on the connection, or
fails and puts nothing there.
-/

namespace SyncScribe
open Lib Lib.Bytes Lib.Slots Lib.Keyed

/-! ## Sends that fail -/

/-- The sends to this client fail during the act. -/
def Act.fails (c : ClientIx) : Act → Bool
  | .packet env .. | .datagram env .. | .serverWrite env .. => env.sendFails c
  | _ => false

/-- The server at its connections: an act, and what of it gets through. -/
def linkAct (s : Server) (a : Act) : Server × List Out :=
  ((act s a).1, (act s a).2.filter fun
    | .send c _ => !a.fails c
    | .sendto .. | .call .. => true)

/-- The sends of the client fail during the act. -/
def ClientAct.fails : ClientAct → Bool
  | .write env .. | .define env .. | .undefine env .. | .read env .. | .subscribe env .. | .subscribeSync env ..
  | .subscribeSyncUser env .. | .unsubscribe env .. | .channelAnons env .. | .channelRequest env ..
  | .requestList env .. | .sendId env | .packet env _ => env.sendResult ≠ 0
  | .waitEvent .. | .requestListEnd .. | .freeList .. | .sockets .. => false

section Fails

variable {s : Server} {a : Act} {c : ClientIx}

@[simp] theorem linkAct_server : (linkAct s a).1 = (act s a).1 := rfl

@[simp] theorem linkAct_accept (accepted : Option (Nat × SockAddr)) : (linkAct s (.accept accepted)).2 = [] := rfl

@[simp] theorem linkAct_close : (linkAct s (.close c)).2 = [] := rfl

@[simp] theorem linkAct_keep (buffer : List UInt8) : (linkAct s (.keep c buffer)).2 = [] := rfl

/-- What gets through to a client. -/
theorem sentTo_linkAct : sentTo c (linkAct s a).2 = if a.fails c then [] else sentTo c (act s a).2 := by
  rw [linkAct, sentTo, sentTo, List.filterMap_filter]
  by_cases hf : a.fails c = true
  · rw [if_pos hf, List.filterMap_eq_nil_iff]
    intro o _
    cases o with
    | send c' p =>
      by_cases hc : c' = c
      · simp [hc, hf]
      · simp [Out.packetTo, hc]
    | sendto | call => simp [Out.packetTo]
  · rw [if_neg hf]
    congr 1
    funext o
    cases o with
    | send c' p =>
      by_cases hc : c' = c
      · simp [hc, hf]
      · simp [Out.packetTo, hc]
    | sendto | call => simp

theorem sentTo_linkAct_of_delivers (h : a.fails c = false) : sentTo c (linkAct s a).2 = sentTo c (act s a).2 := by
  rw [sentTo_linkAct, h]
  rfl

theorem sentTo_linkAct_sublist : (sentTo c (linkAct s a).2).Sublist (sentTo c (act s a).2) := by
  rw [sentTo_linkAct]
  split
  · exact List.nil_sublist _
  · exact List.Sublist.refl _

theorem run_linkAct (s : Server) (as : List Act) : (run linkAct s as).1 = (run act s as).1 := by
  induction as generalizing s with
  | nil => rfl
  | cons a as ih => exact ih (act s a).1

end Fails

/-! ## The system -/

/-- A client, the server's slot of its connection, the packets on their way on it, and whether the server still
holds it. -/
structure Peer where
  client : Connect
  slot : ClientIx
  linked : Bool
  toServer : List Packet
  toClient : List Packet

structure World (κ : Type) where
  server : Server
  peers : κ → Peer

inductive WorldStep (κ : Type)
  /-- the application of a client makes a call -/
  | call (k : κ) (a : ClientAct)
  /-- `syncs_send_id` at the start of `syncs_recv` -/
  | announce (k : κ) (env : ClientEnv)
  /-- `syncs_tcpclient_open` and the accept of the server, with the descriptors of either side -/
  | connect (k : κ) (fd fd' : Nat) (addr : SockAddr)
  /-- the server processes the next packet of a connection -/
  | serve (k : κ) (env : Env)
  /-- the client processes the next packet -/
  | receive (k : κ) (env : ClientEnv) (beyond : List UInt8)
  /-- the server finds the connection broken -/
  | drop (k : κ)
  /-- the client finds it broken -/
  | lose (k : κ)
  /-- the server does something else: for other clients, its application, datagrams, old connections -/
  | other (a : Act)
  /-- the process of the server starts again -/
  | restart (cid : List UInt8)

/-- What can be seen of the system. -/
inductive WorldObs (κ : Type)
  /-- a client sends a packet, whether or not that fails -/
  | sent (k : κ) (p : Packet)
  /-- a client processes a packet -/
  | processed (k : κ) (p : Packet)
  /-- what a client does, its callbacks among it -/
  | client (k : κ) (o : ClientObs)
  /-- the server accepts a write, of one of the clients or not; the EVENT of it -/
  | wrote (who : Option κ) (d : Delivery)

/-- The calls of the application, those that send nothing among them. -/
def ClientAct.byApplication : ClientAct → Bool
  | .sockets .. | .sendId _ | .packet .. => false
  | _ => true

/-- The packet as the receive loop of the other end hands it on. -/
def Packet.arrive (p : Packet) (beyond : List UInt8) : Packet := ⟨p.header.masked, p.buffer ++ beyond⟩

/-- What an act of the client sends on its connection. -/
def Peer.sends (pr : Peer) (a : ClientAct) : List Packet :=
  (tcpHanded (clientAct pr.client a).2).map fun o => o.packet.frame

/-- The client acts; what it sends without failing goes on the connection, if the server still holds it. -/
def Peer.act (pr : Peer) (a : ClientAct) : Peer :=
  { pr with
    client := (clientAct pr.client a).1
    toServer := if pr.linked && !a.fails then pr.toServer ++ pr.sends a else pr.toServer }

/-- What gets through from the server to the slot of a connection is on it. -/
def Peer.hear (pr : Peer) (out : List Out) : Peer :=
  if pr.linked then { pr with toClient := pr.toClient ++ sentTo pr.slot out } else pr

section System

variable {κ : Type}

/-- The server acts, on a packet of `who` or on its own. -/
def World.act (w : World κ) (who : Option κ) (a : Act) : World κ × List (WorldObs κ) :=
  (⟨(linkAct w.server a).1, fun k => (w.peers k).hear (linkAct w.server a).2⟩,
    (SyncScribe.wrote w.server a).map (.wrote who))

variable [DecidableEq κ]

def World.setPeer (w : World κ) (k : κ) (pr : Peer) : World κ := { w with peers := Function.update w.peers k pr }

/-- A client acts. -/
def World.clientActs (w : World κ) (k : κ) (a : ClientAct) : World κ × List (WorldObs κ) :=
  (w.setPeer k ((w.peers k).act a),
    ((w.peers k).sends a).map (.sent k) ++ (clientAct (w.peers k).client a).2.map (.client k))

def worldStep (w : World κ) : WorldStep κ → World κ × List (WorldObs κ)
  | .call k a => if a.byApplication then w.clientActs k a else (w, [])
  | .announce k env => if 0 ≤ (w.peers k).client.socketfd then w.clientActs k (.sendId env) else (w, [])
  | .connect k fd fd' addr =>
    -- the thread of a client opens one connection at a time, and none after its exit
    if (w.peers k).client.socketfd < 0 && !(w.peers k).client.onexit then
      match getFreeClient w.server with
      | some c =>
        let r := w.act none (.accept (some (fd', addr)))
        (r.1.setPeer k ⟨{ (w.peers k).client with socketfd := fd }, c, true, [], []⟩, r.2)
      | none => (w, [])
    else (w, [])
  | .serve k env =>
    if (w.peers k).linked then
      match (w.peers k).toServer with
      | p :: ps =>
        (w.setPeer k { w.peers k with toServer := ps }).act (some k)
          (.packet env (w.peers k).slot (p.arrive env.beyond))
      | [] => (w, [])
    else (w, [])
  | .receive k env beyond =>
    match (w.peers k).toClient with
    | p :: ps =>
      let r := (w.setPeer k { w.peers k with toClient := ps }).clientActs k (.packet env (p.arrive beyond))
      (r.1, .processed k (p.arrive beyond) :: r.2)
    | [] => (w, [])
  | .drop k =>
    if (w.peers k).linked then
      (w.setPeer k { w.peers k with linked := false, toServer := [] }).act none (.close (w.peers k).slot)
    else (w, [])
  | .lose k =>
    (w.setPeer k { w.peers k with
      client := { (w.peers k).client with socketfd := -1 }, linked := false, toServer := [], toClient := [] }, [])
  | .other a => w.act none a
  | .restart cid => (⟨serverCreate cid, fun k => { w.peers k with linked := false, toServer := [] }⟩, [])

/-- Clients that never were connected, and a new server. -/
def World.start (clients : κ → Connect) (cid : List UInt8) : World κ :=
  ⟨serverCreate cid, fun k => ⟨clients k, 0, false, [], []⟩⟩

/-- The act processes nothing of a client and closes nothing of it; the bytes of an unfinished packet do not matter. -/
def Act.leaves (c : ClientIx) (a : Act) : Prop := a.spares c ∨ ∃ buffer, a = .keep c buffer

/-- What is asked of the steps: names of events do not begin with the marker of free slots, values the server writes
fit their array, and what else it does leaves the connections of the clients alone. -/
def World.allows (w : World κ) : WorldStep κ → Prop
  | .call _ (.write _ _ cid _ _) => (idstr cid).good
  | .other a => a.fits ∧ a.bounded w.server ∧ ∀ k, (w.peers k).linked = true → a.leaves (w.peers k).slot
  | _ => True

/-- A call of `syncs_write` copies no more than its packet has room for. -/
def WorldStep.Copies : WorldStep κ → Prop
  | .call _ a => a.Copies
  | _ => True

/-- What is asked of the steps where the packets themselves matter: besides, the calls stay within their packets. -/
def World.proper (w : World κ) (a : WorldStep κ) : Prop := w.allows a ∧ a.Copies

end System

section Leaves

variable {s : Server} {c : ClientIx} {a : Act}

/-- An act that leaves a TCP client alone keeps its connection open and its subscriptions. -/
theorem leaves_change (htcp : (s.clients c).tcp = true) (ha : a.leaves c) (id : Id) :
    ((SyncScribe.act s a).1.clients c).tcp = (s.clients c).tcp ∧ ¬ (changeOf s a).subscribes c id ∧
      ¬ (changeOf s a).unsubscribes c id := by
  rcases ha with hs | ⟨buffer, rfl⟩
  · obtain ⟨hconn, hsub, hunsub⟩ := spares_change htcp hs id
    exact ⟨tcp_of_conn hconn, hsub, hunsub⟩
  · refine ⟨?_, fun h => h, fun h => h⟩
    simp only [SyncScribe.act, Server.modifyClient_clients, ↓reduceIte, Client.tcp]

/-- It answers none of the client's requests. -/
theorem left_replies (hinv : TableInv s.events) (hw : s.Within) (htcp : (s.clients c).tcp = true) (ha : a.leaves c) :
    (sentTo c (SyncScribe.act s a).2).filterMap Packet.reply = [] := by
  rcases ha with hs | ⟨buffer, rfl⟩
  · exact spared_replies hinv hw htcp hs
  · rfl

end Leaves

/-! ## What a client sends -/

section Requests

variable {env : ClientEnv} {s : Connect} {a : ClientAct} {o : Outgoing} {p : Packet}

theorem Packet.Settled.arrive (h : p.Settled) (beyond : List UInt8) :
    (p.arrive beyond).header = p.header ∧ (p.arrive beyond).frame = p := by
  have hmask : p.header.masked = p.header := masked_eq_of_le h.size
  have hlen : p.header.dataSize.toNat ≤ p.buffer.length := by
    have halone : p.payload = p.buffer := congrArg Packet.buffer h.alone
    rw [← halone, Packet.payload, length_read]
  refine ⟨hmask, ?_⟩
  rw [Packet.frame, Packet.payload, Packet.arrive, hmask, read_append_left _ hlen]
  exact h.alone

/-- A packet a client puts on its connection: a WRITE names its event, and nothing closes the connection. -/
structure Packet.Proper (p : Packet) : Prop where
  named : p.header.msg = .write → p.header.id.good ∧ p.Settled
  open_ : p.header.unsupported = false

theorem Packet.Proper.of_msg (hw : p.header.msg ≠ .write) (hc : p.header.msg ≠ .clientId) : p.Proper :=
  ⟨fun h => absurd h hw, by simp [Header.unsupported, hc]⟩

theorem tcpHanded_map (os : List ClientOut) :
    (tcpHanded (os.map .out)).map (fun o => o.packet.frame) = tcpPackets os := by
  induction os with
  | nil => rfl
  | cons o os ih => cases o <;> simpa [tcpHanded, tcpPackets] using ih

theorem tcpPackets_eq_nil {out : List ClientOut} (h : ∀ x ∈ out, ∀ o, x ≠ .tcp o) : tcpPackets out = [] := by
  induction out with
  | nil => rfl
  | cons x out ih =>
    have ih := ih fun y hy => h y (by simp [hy])
    cases x with
    | tcp o => exact absurd rfl (h _ (by simp) o)
    | udp o => exact ih
    | call cb args id data => exact ih

theorem mem_connectSend {x : ClientOut} (h : x ∈ (connectSend env s o).2) :
    (x = .tcp o ∧ 0 < s.socketfd) ∨ x = .udp o := by
  rw [connectSend] at h
  split at h
  · rename_i hup
    exact Or.inl ⟨List.mem_singleton.mp h, hup⟩
  · split at h
    · exact Or.inr (List.mem_singleton.mp h)
    · cases h

/-- The announcement is a sequence of packets. -/
theorem sendId_out {x : ClientOut} (h : x ∈ sendId env s) : ∃ o, ClientSender o ∧ x ∈ (connectSend env s o).2 := by
  have hsubs : ∀ es, x ∈ sendSubscriptions env s es → ∃ o, ClientSender o ∧ x ∈ (connectSend env s o).2 := by
    intro es hx
    induction es with
    | nil => cases hx
    | cons e es ih =>
      rw [sendSubscriptions] at hx
      split at hx
      · rcases List.mem_append.mp hx with hx | hx
        · exact ⟨_, .subscribe env _ _ _, hx⟩
        · exact ih hx
      · exact ih hx
  have hchans : ∀ ks, x ∈ sendChannels env s ks → ∃ o, ClientSender o ∧ x ∈ (connectSend env s o).2 := by
    intro ks hx
    induction ks with
    | nil => cases hx
    | cons k ks ih =>
      rw [sendChannels] at hx
      split at hx
      · rcases List.mem_append.mp hx with hx | hx
        · exact ⟨_, .channelAnons env _ _, hx⟩
        · exact ih hx
      · exact ih hx
  simp only [sendId, List.mem_append] at h
  rcases h with h | h | h
  · exact ⟨_, .clientId env _, h⟩
  · exact hsubs _ h
  · exact hchans _ h

/-- Without a connection nothing is sent on one. -/
theorem tcpPackets_down (h : ¬ 0 < s.socketfd) : tcpPackets (sendId env s) = [] := by
  apply tcpPackets_eq_nil
  rintro x hx o rfl
  obtain ⟨o', _, ho⟩ := sendId_out hx
  rcases mem_connectSend ho with ⟨_, hup⟩ | hudp
  · exact h hup
  · cases hudp

/-- The announcement is proper. -/
theorem proper_sendId (hp : p ∈ tcpPackets (sendId env s)) : p.Proper := by
  by_cases hup : 0 < s.socketfd
  · have hfit : Fitting (fun _ => none) p.header := mem_sendId hup (fun e _ t ht => by cases ht) hp
    refine ⟨fun hm => ?_, hfit.open_⟩
    rcases hfit.kind with hk | hk | hk | ⟨hk, _⟩
    all_goals
      rw [hk] at hm
      cases hm
  · rw [tcpPackets_down hup] at hp
    cases hp

/-- Of the requests only `syncs_write` makes a WRITE. -/
theorem request_write {r : Request} (h : a.request s = some (r, o)) (hm : o.packet.header.msg = .write) :
    ∃ env flags cid data dataSize, a = .write env flags cid data dataSize := by
  have hne : ∀ {m : Msg} {w : UInt32}, Msg.ofWord w = m → m ≠ .write → Msg.ofWord w ≠ .write := by
    rintro m w rfl hm
    exact hm
  cases a with
  | write env flags cid data dataSize => exact ⟨env, flags, cid, data, dataSize, rfl⟩
  | define cenv cid flags =>
    cases h
    exact absurd hm (hne (msg_request .define flags) (by decide))
  | undefine cenv cid =>
    cases h
    exact absurd hm (hne (Msg.ofWord_code .define) (by decide))
  | read cenv flags cid =>
    cases h
    exact absurd hm (hne (Msg.ofWord_or .read (and_and_eq_zero flags (by decide))) (by decide))
  | subscribe cenv flags cid | subscribeSync cenv flags cid | subscribeSyncUser cenv flags cid =>
    obtain ⟨e, _, he⟩ := Option.map_eq_some_iff.mp h
    cases he
    exact absurd hm (hne (msg_request .subscribe flags) (by decide))
  | unsubscribe cenv cid =>
    obtain ⟨e, _, he⟩ := Option.map_eq_some_iff.mp h
    cases he
    exact absurd hm (hne (msg_request .unsubscribe (s.events e).flags) (by decide))
  | channelAnons cenv cid flags port =>
    obtain ⟨k, _, hk⟩ := Option.map_eq_some_iff.mp h
    cases hk
    have hmsg : Msg.ofWord (Msg.channel.code ||| SyncScribe.channelAnons) = .channel := by decide
    exact absurd hm (hne hmsg (by decide))
  | channelRequest cenv cid =>
    cases h
    have hmsg : Msg.ofWord (Msg.channel.code ||| SyncScribe.channelRequest) = .channel := by decide
    exact absurd hm (hne hmsg (by decide))
  | requestList cenv l =>
    cases h
    exact absurd hm (hne (Msg.ofWord_code l.msg) (by cases l <;> decide))
  | waitEvent | requestListEnd | freeList | sockets | sendId | packet => cases h

/-- A request is proper if a write names its event well. -/
theorem proper_request {r : Request} (h : a.request s = some (r, o))
    (hname : ∀ env flags cid data dataSize, a = .write env flags cid data dataSize → (idstr cid).good) :
    o.packet.frame.Proper := by
  have hframed := request_framed h
  refine ⟨fun hm => ?_, ?_⟩
  · obtain ⟨env, flags, cid, data, dataSize, rfl⟩ := request_write h hm
    cases h
    refine ⟨?_, settled_frame hframed.size⟩
    have hid := (writeRequest_type env flags cid data dataSize).2
    simp only [Packet.frame, hid]
    exact hname env flags cid data dataSize rfl
  · have hmsg := request_msg h []
    rw [hframed.arrival] at hmsg
    have hmsg' : o.packet.header.msg ≠ .clientId := hmsg
    simp [Header.unsupported, Packet.frame, hmsg']

/-- What can be observed of a call of the application: the send of a packet, the return of a wait, or nothing. -/
inductive Observed (s : Connect) : List ClientObs → Prop
  | sends (env : ClientEnv) (o : Outgoing) : Observed s ((connectSend env s o).2.map .out)
  | waited (r : Option Waited) : Observed s [.waited r]
  | none : Observed s []

theorem observed_call (ha : a.byApplication = true) : Observed s (clientAct s a).2 := by
  have hif : ∀ (q : Prop) [Decidable q] env o,
      Observed s ((if q then (connectSend env s o).2 else []).map .out) := by
    intro q _ env o
    split
    · exact .sends env o
    · exact .none
  cases a with
  | write env | define env | undefine env => exact .sends env _
  | waitEvent size => exact .waited _
  | requestListEnd | freeList => exact .none
  | read env flags cid =>
    simp only [clientAct, clientReadCall]
    split
    · exact .none
    · exact .sends env _
  | channelRequest env cid =>
    simp only [clientAct, channelRequestCall]
    split
    · exact .none
    · exact .sends env _
  | requestList env l =>
    simp only [clientAct, requestList]
    split
    · exact .none
    · exact .sends env _
  | subscribe env flags cid | subscribeSync env flags cid | subscribeSyncUser env flags cid =>
    simp only [clientAct, subscribeEvent, subscribeEventSync, subscribeEventSyncUser]
    cases s.getEventStr cid with
    | none => exact .none
    | some e => exact hif _ env _
  | unsubscribe env cid =>
    simp only [clientAct, unsubscribeEvent, Connect.call?]
    cases s.findEvent (idstr cid) with
    | none => exact .none
    | some e => exact .sends env _
  | channelAnons env cid flags port =>
    simp only [clientAct, channelAnonsCall]
    cases s.findFreeChannel with
    | none => exact .none
    | some k => exact hif _ env _
  | sockets | sendId | packet => cases ha

theorem tcpHanded_down (h : ¬ 0 < s.socketfd) (ha : a.byApplication = true) : tcpHanded (clientAct s a).2 = [] := by
  have hobs := observed_call (s := s) ha
  generalize (clientAct s a).2 = obs at hobs
  cases hobs with
  | sends env o =>
    rw [connectSend, if_neg h]
    split <;> rfl
  | waited r => rfl
  | none => rfl

theorem tcpHanded_others (ha : a.byApplication = true) (hc : a.isCall = false) : tcpHanded (clientAct s a).2 = [] := by
  cases a with
  | waitEvent | requestListEnd | freeList => rfl
  | sockets | sendId | packet => cases ha
  | _ => cases hc

/-- **What a call puts on the connection is proper**, if a write names its event well. -/
theorem proper_call {pr : Peer} (ha : a.byApplication = true)
    (hname : ∀ env flags cid data dataSize, a = .write env flags cid data dataSize → (idstr cid).good)
    (hp : p ∈ pr.sends a) : p.Proper := by
  rw [Peer.sends] at hp
  by_cases hc : a.isCall = true
  · by_cases hup : 0 < pr.client.socketfd
    · rw [tcpHanded_call hc hup] at hp
      obtain ⟨o, ho, rfl⟩ := List.mem_map.mp hp
      obtain ⟨⟨r, o'⟩, hr, rfl⟩ := Option.map_eq_some_iff.mp (Option.mem_toList.mp ho)
      exact proper_request hr hname
    · rw [tcpHanded_down hup ha] at hp
      cases hp
  · rw [tcpHanded_others ha (by simpa using hc)] at hp
    cases hp

theorem proper_announce {pr : Peer} (hp : p ∈ pr.sends (.sendId env)) : p.Proper := by
  rw [Peer.sends, clientAct, tcpHanded_map] at hp
  exact proper_sendId hp

/-- An EVENT runs a callback, or nothing. -/
theorem processEvent_calls {q : Packet} {x : ClientOut} (h : x ∈ (processEvent s q).2) :
    ∃ cb args id data, x = .call cb args id data := by
  rw [processEvent] at h
  split at h
  · cases h
  · rename_i e _
    cases hcb : (s.events e).cb with
    | none => cases hmem : (s.events e).data <;> simp [hcb, hmem] at h
    | some cb => cases hmem : (s.events e).data <;> simp [hcb, hmem] at h <;> exact ⟨_, _, _, _, h⟩

/-- What the client puts on the connection while it processes a packet is an announcement. -/
theorem proper_packet {pr : Peer} {q : Packet} (hp : p ∈ pr.sends (.packet env q)) : p.Proper := by
  rw [Peer.sends, clientAct, Connect.call?, tcpHanded_map, processPacket] at hp
  split at hp
  · have hcalls : tcpPackets (processEvent pr.client q).2 = [] := by
      apply tcpPackets_eq_nil
      rintro x hx o rfl
      obtain ⟨cb, args, id, data, hcall⟩ := processEvent_calls hx
      cases hcall
    rw [hcalls] at hp
    cases hp
  case h_3 =>
    rw [processError] at hp
    split at hp
    · cases hp
    · split at hp
      · cases hp
      · split at hp
        · exact proper_sendId hp
        · cases hp
  all_goals cases hp

end Requests

/-! ## The invariant -/

/-- What holds at every moment: the server knows its subscribers and keeps its values within their arrays, a
connection it holds is that of one client, and what is under way is in order. -/
structure World.Inv {κ : Type} (w : World κ) : Prop where
  tracked : ∃ log, Tracked w.server log
  within : w.server.Within
  held : ∀ k, (w.peers k).linked = true → (w.server.clients (w.peers k).slot).tcp = true
  apart : ∀ j k, (w.peers j).linked = true → (w.peers k).linked = true →
    (w.peers j).slot = (w.peers k).slot → j = k
  asked : ∀ k, ∀ p ∈ (w.peers k).toServer, p.Proper
  told : ∀ k, ∀ p ∈ (w.peers k).toClient, p.Settled

section Steps

variable {κ : Type} {w : World κ} {who : Option κ} {a : Act} {k : κ} {pr : Peer}

theorem World.Inv.tableInv (h : w.Inv) : TableInv w.server.events := h.tracked.elim fun _ ht => ht.inv

@[simp] theorem hear_linked (pr : Peer) (out : List Out) : (pr.hear out).linked = pr.linked := by
  rw [Peer.hear]
  split <;> rfl

@[simp] theorem hear_slot (pr : Peer) (out : List Out) : (pr.hear out).slot = pr.slot := by
  rw [Peer.hear]
  split <;> rfl

@[simp] theorem hear_toServer (pr : Peer) (out : List Out) : (pr.hear out).toServer = pr.toServer := by
  rw [Peer.hear]
  split <;> rfl

theorem hear_toClient (pr : Peer) (out : List Out) :
    (pr.hear out).toClient = pr.toClient ++ if pr.linked then sentTo pr.slot out else [] := by
  rw [Peer.hear]
  split <;> simp

/-- An act of the server that leaves the connections of the clients open. -/
theorem World.Inv.act (h : w.Inv) (hb : a.bounded w.server)
    (hopen : ∀ k, (w.peers k).linked = true →
      ((SyncScribe.act w.server a).1.clients (w.peers k).slot).tcp = (w.server.clients (w.peers k).slot).tcp) :
    (w.act who a).1.Inv := by
  obtain ⟨log, htracked⟩ := h.tracked
  refine ⟨⟨_, htracked.step a⟩, h.within.act hb, ?_, ?_, ?_, ?_⟩
  · intro k hk
    simp only [World.act, hear_linked, hear_slot] at hk ⊢
    exact (hopen k hk).trans (h.held k hk)
  · intro i j hi hj hij
    simp only [World.act, hear_linked, hear_slot] at hi hj hij
    exact h.apart i j hi hj hij
  · intro k p hp
    simp only [World.act, hear_toServer] at hp
    exact h.asked k p hp
  · intro k p hp
    simp only [World.act, hear_toClient, List.mem_append] at hp
    rcases hp with hp | hp
    · exact h.told k p hp
    · split at hp
      · exact act_settled h.within hb p (sentTo_linkAct_sublist.subset hp)
      · cases hp

variable [DecidableEq κ]

@[simp] theorem setPeer_same (w : World κ) (k : κ) (pr : Peer) : (w.setPeer k pr).peers k = pr :=
  Function.update_self ..

theorem setPeer_other {j : κ} (h : j ≠ k) : (w.setPeer k pr).peers j = w.peers j := Function.update_of_ne h ..

theorem forall_setPeer {Q : Peer → Prop} (h : ∀ j, Q (w.peers j)) (hpr : Q pr) (j : κ) :
    Q ((w.setPeer k pr).peers j) :=
  (Function.forall_update_iff w.peers fun _ pr => Q pr).mpr ⟨hpr, fun i _ => h i⟩ j

theorem World.Inv.setPeer (h : w.Inv) (hheld : pr.linked = true → (w.server.clients pr.slot).tcp = true)
    (hapart : ∀ j, j ≠ k → (w.peers j).linked = true → pr.linked = true → (w.peers j).slot ≠ pr.slot)
    (hasked : ∀ p ∈ pr.toServer, p.Proper) (htold : ∀ p ∈ pr.toClient, p.Settled) : (w.setPeer k pr).Inv := by
  refine ⟨h.tracked, h.within, ?_, ?_, ?_, ?_⟩
  · exact forall_setPeer (Q := fun pr => pr.linked = true → (w.server.clients pr.slot).tcp = true) h.held hheld
  · intro i j hi hj hij
    simp only [World.setPeer, Function.update_apply] at hi hj hij
    by_cases hik : i = k
    · by_cases hjk : j = k
      · rw [hik, hjk]
      · rw [if_pos hik] at hi hij
        rw [if_neg hjk] at hj hij
        exact absurd hij.symm (hapart j hjk hj hi)
    · rw [if_neg hik] at hi hij
      by_cases hjk : j = k
      · rw [if_pos hjk] at hj hij
        exact absurd hij (hapart i hik hi hj)
      · rw [if_neg hjk] at hj hij
        exact h.apart i j hi hj hij
  · exact forall_setPeer (Q := fun pr => ∀ p ∈ pr.toServer, p.Proper) h.asked hasked
  · exact forall_setPeer (Q := fun pr => ∀ p ∈ pr.toClient, p.Settled) h.told htold

/-- A change of a peer that opens no connection. -/
theorem World.Inv.replace (h : w.Inv)
    (hlink : pr.linked = true → (w.peers k).linked = true ∧ pr.slot = (w.peers k).slot)
    (hasked : ∀ p ∈ pr.toServer, p.Proper) (htold : ∀ p ∈ pr.toClient, p.Settled) : (w.setPeer k pr).Inv := by
  apply h.setPeer _ _ hasked htold
  · intro hl
    rw [(hlink hl).2]
    exact h.held k (hlink hl).1
  · intro j hj hjl hl hslot
    rw [(hlink hl).2] at hslot
    exact hj (h.apart j k hjl (hlink hl).1 hslot)

theorem World.Inv.clientActs (h : w.Inv) {a : ClientAct} (ha : ∀ p ∈ (w.peers k).sends a, p.Proper) :
    (w.clientActs k a).1.Inv := by
  apply h.replace
  · exact fun hl => ⟨hl, rfl⟩
  · intro p hp
    simp only [Peer.act] at hp
    split at hp
    · rcases List.mem_append.mp hp with hp | hp
      · exact h.asked k p hp
      · exact ha p hp
    · exact h.asked k p hp
  · exact h.told k

theorem addClient_tcp {s : Server} {c : ClientIx} (hf : getFreeClient s = some c) (fd : Nat) (addr : SockAddr) :
    ((addClient s (some (fd, addr))).clients c).tcp = true := by
  simp only [addClient, hf, Server.modifyClient_clients, ↓reduceIte, Client.tcp, gt_iff_lt, decide_eq_true_eq]
  omega

/-- **Every step keeps the invariant.** -/
theorem World.Inv.step (h : w.Inv) (a : WorldStep κ) (ha : w.allows a) : (worldStep w a).1.Inv := by
  cases a with
  | call k a =>
    simp only [worldStep]
    split
    · rename_i happ
      apply h.clientActs
      intro p hp
      apply proper_call happ _ hp
      rintro env flags cid data dataSize rfl
      exact ha
    · exact h
  | announce k env =>
    simp only [worldStep]
    split
    · exact h.clientActs fun p hp => proper_announce hp
    · exact h
  | connect k fd fd' addr =>
    simp only [worldStep]
    split
    · cases hfree : getFreeClient w.server with
      | none => exact h
      | some c =>
        have hacc : (w.act none (.accept (some (fd', addr)))).1.Inv :=
          h.act trivial fun j hj => tcp_of_conn (addClient_conn _ (h.held j hj))
        apply hacc.setPeer
        · exact fun _ => addClient_tcp hfree fd' addr
        · intro j _ hj _ hslot
          simp only [World.act, hear_linked, hear_slot] at hj hslot
          have htcp := h.held j hj
          have hfd : (w.server.clients c).socketfd = -1 := by simpa using first_some hfree
          rw [hslot, Client.tcp, hfd] at htcp
          cases htcp
        · exact fun p hp => absurd hp List.not_mem_nil
        · exact fun p hp => absurd hp List.not_mem_nil
    · exact h
  | serve k env =>
    simp only [worldStep]
    split
    · rename_i hl
      cases hq : (w.peers k).toServer with
      | nil => exact h
      | cons p ps =>
        have hproper : p.Proper := h.asked k p (by simp [hq])
        have hpop : (w.setPeer k { w.peers k with toServer := ps }).Inv :=
          h.replace (fun hl => ⟨hl, rfl⟩) (fun q hqs => h.asked k q (by simp [hq, hqs])) (h.told k)
        refine hpop.act (masked_size_le p.header) ?_
        intro j _
        refine tcp_of_conn ((packet_conn (p.arrive env.beyond) _).trans ?_)
        rw [if_neg]
        intro hclosed
        have hopen : p.header.unsupported = true := hclosed.2
        rw [hproper.open_] at hopen
        cases hopen
    · exact h
  | receive k env beyond =>
    simp only [worldStep]
    cases hq : (w.peers k).toClient with
    | nil => exact h
    | cons p ps =>
      have hpop : (w.setPeer k { w.peers k with toClient := ps }).Inv :=
        h.replace (fun hl => ⟨hl, rfl⟩) (h.asked k) fun q hqs => h.told k q (by simp [hq, hqs])
      exact hpop.clientActs fun q hq => proper_packet hq
  | drop k =>
    simp only [worldStep]
    split
    · rename_i hl
      have hcut : (w.setPeer k { w.peers k with linked := false, toServer := [] }).Inv :=
        h.replace (fun hc => by cases hc) (fun p hp => absurd hp List.not_mem_nil) (h.told k)
      refine hcut.act trivial ?_
      intro j hj
      have hjk : j ≠ k := by
        rintro rfl
        rw [setPeer_same] at hj
        cases hj
      rw [setPeer_other hjk] at hj ⊢
      exact tcp_of_conn ((closeClientSocket_conn _ _ _).trans (if_neg fun hslot => hjk (h.apart j k hj hl hslot)))
    · exact h
  | lose k =>
    exact h.replace (fun hc => by cases hc) (fun p hp => absurd hp List.not_mem_nil)
      fun p hp => absurd hp List.not_mem_nil
  | other a => exact h.act ha.2.1 fun j hj => (leaves_change (h.held j hj) (ha.2.2 j hj) .zero).1
  | restart cid =>
    refine ⟨⟨_, tracked_init cid⟩, within_init cid, ?_, ?_, ?_, h.told⟩
    · exact fun k hk => by cases hk
    · exact fun j k hj => by cases hj
    · exact fun k p hp => absurd hp List.not_mem_nil

omit [DecidableEq κ] in
theorem World.Inv.start (clients : κ → Connect) (cid : List UInt8) : (World.start clients cid).Inv := by
  refine ⟨⟨_, tracked_init cid⟩, within_init cid, ?_, ?_, ?_, ?_⟩
  · exact fun k hk => by cases hk
  · exact fun j k hj => by cases hj
  · exact fun k p hp => absurd hp List.not_mem_nil
  · exact fun k p hp => absurd hp List.not_mem_nil

end Steps

end SyncScribe
