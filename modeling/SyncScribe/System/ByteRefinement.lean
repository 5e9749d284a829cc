import SyncScribe.Lib.Simulation
import SyncScribe.System.ByteWorld
import SyncScribe.System.Order

/-!
The system over bytes is the system over packets. A read of either end is a sequence
of packets served or received and the bytes of an unfinished one kept, so every run
over bytes is matched by a run over packets in which each party sees and sends the
same, and the bytes on their way are those of the packets on their way
(`bytes_are_packets`).
-/

namespace SyncScribe
open Lib Lib.Bytes

/-! ## The packets of a read -/

section Raw

variable {p : Packet} {env : Env} {s : Server} {c : ClientIx}

/-- What stands behind the packet in the buffer does not matter to the loop of `syncs_send_event`. -/
theorem sendEventLoop_beyondless (ev : Event) (flags : UInt32) (p : Packet) (is : List (Fin clientMaximum))
    (s : Server) (B : List UInt8) :
    sendEventLoop { env with beyond := B } ev flags p is s = sendEventLoop env ev flags p is s := by
  induction is generalizing s with
  | nil => rfl
  | cons i is ih =>
    simp only [sendEventLoop, ih]
    rfl

theorem sendEvent_beyondless (s : Server) (e : EventIx) (flags : UInt32) (B : List UInt8) :
    sendEvent { env with beyond := B } s e flags = sendEvent env s e flags :=
  sendEventLoop_beyondless ..

theorem sendList_beyondless {n : Nat} (k : ListKind n) (s : Server) (c : ClientIx) (q : UInt8) (B : List UInt8) :
    sendList { env with beyond := B } k s c q = sendList env k s c q := by
  simp only [sendList, listPacket]

theorem clientWrite_beyondless (id : Id) (flags : UInt32) (data : List UInt8) (size : UInt32) (B : List UInt8) :
    clientWrite { env with beyond := B } s c id flags data size = clientWrite env s c id flags data size := by
  simp only [clientWrite, clientWriteEvent, sendEvent_beyondless]

/-- The server reads the memory behind the bytes received as that behind the packet only. -/
theorem clientProcessPacket_beyondless (s : Server) (c : ClientIx) (p : Packet) (B : List UInt8) :
    clientProcessPacket { env with beyond := B } s c p = clientProcessPacket env s c p := by
  have hdispatch : clientDispatch { env with beyond := B } s c p = clientDispatch env s c p := by
    cases hm : p.header.msg
    all_goals simp only [clientDispatch, hm]
    case write => rw [clientWrite_beyondless]
    case clientList => rw [clientSendClientlist, clientSendClientlist, sendList_beyondless]
    case eventList => rw [clientSendEventlist, clientSendEventlist, sendList_beyondless]
    case channelList => rw [clientSendChannellist, clientSendChannellist, sendList_beyondless]
    all_goals rfl
  rw [clientProcessPacket, hdispatch, clientProcessPacket]

theorem packetChange_beyondless (s : Server) (c : ClientIx) (p : Packet) (B : List UInt8) :
    packetChange { env with beyond := B } s c p = packetChange env s c p := by
  cases hm : p.header.msg
  all_goals simp only [packetChange, hm]
  case subscribe => rfl
  case write => rw [clientWrite_beyondless]

/-- The loop hands on complete packets. -/
theorem packetLoop_complete (k : Nat) (l : List Packet) (buf : List UInt8)
    (hl : ∀ p ∈ l, p.header.dataSize.toNat ≤ p.buffer.length) :
    ∀ p ∈ (packetLoop (fun l p => l ++ [p]) k l buf).1, p.header.dataSize.toNat ≤ p.buffer.length := by
  induction k generalizing l buf with
  | zero => exact hl
  | succ k ih =>
    unfold packetLoop
    split
    · exact hl
    · dsimp only
      split
      · exact ih l _ hl
      · split
        · exact ih l _ hl
        · split
          · exact hl
          · rename_i hsize
            apply ih
            intro p hp
            rcases List.mem_append.mp hp with hp | hp
            · exact hl p hp
            · rw [List.mem_singleton.mp hp]
              simp only [List.length_drop]
              omega

theorem rawPackets_complete {buf : List UInt8} (hp : p ∈ rawPackets buf) :
    p.header.dataSize.toNat ≤ p.buffer.length :=
  packetLoop_complete _ [] buf (fun _ hq => absurd hq List.not_mem_nil) p hp

/-- A packet of a buffer, complete and with its size masked. -/
def Packet.Raw (p : Packet) : Prop := p.header.dataSize.toNat ≤ p.buffer.length ∧ p.header.masked = p.header

/-- The bytes behind a packet of a buffer, and what is behind the buffer. -/
def Packet.behind (p : Packet) (beyond : List UInt8) : List UInt8 := p.buffer.drop p.header.dataSize.toNat ++ beyond

/-- A packet of a buffer is a packet that arrives, with the rest of the buffer behind it. -/
theorem arrive_frame (h : p.Raw) (beyond : List UInt8) :
    p.frame.arrive (p.behind beyond) = ⟨p.header, p.buffer ++ beyond⟩ := by
  have hpay : p.payload = p.buffer.take p.header.dataSize.toNat := read_of_le h.1
  rw [Packet.arrive, Packet.frame, Packet.behind, h.2, hpay, ← List.append_assoc, List.take_append_drop]

/-- The server processes it alike, and accepts the same write. -/
theorem act_raw (h : p.Raw) (env : Env) (s : Server) (c : ClientIx) :
    act s (.packet { env with beyond := p.behind env.beyond } c (p.frame.arrive (p.behind env.beyond))) =
        act s (.packet env c (p.within env)) ∧
      wrote s (.packet { env with beyond := p.behind env.beyond } c (p.frame.arrive (p.behind env.beyond))) =
        wrote s (.packet env c (p.within env)) := by
  have hact : act s (.packet { env with beyond := p.behind env.beyond } c (p.frame.arrive (p.behind env.beyond))) =
      act s (.packet env c (p.within env)) := by
    rw [arrive_frame h, act, clientProcessPacket_beyondless]
    rfl
  refine ⟨hact, ?_⟩
  rw [wrote, hact, changeOf, packetChange_beyondless, arrive_frame h]
  rfl

end Raw

/-! ## Several acts of the server -/

section Acts

variable {κ : Type} {w : World κ} {who : Option κ} {a : Act} {as : List Act} {k : κ}

/-- The server acts several times. -/
def World.acts (w : World κ) (who : Option κ) (as : List Act) : World κ × List (WorldObs κ) :=
  (⟨(run linkAct w.server as).1, fun k => (w.peers k).hear (run linkAct w.server as).2⟩,
    (logged w.server as).map (.wrote who))

theorem hear_nil (pr : Peer) : pr.hear [] = pr := by
  rw [Peer.hear]
  split
  · simp [sentTo]
  · rfl

theorem hear_append (pr : Peer) (out out' : List Out) : pr.hear (out ++ out') = (pr.hear out).hear out' := by
  by_cases hl : pr.linked = true
  · simp only [Peer.hear, if_pos hl, sentTo_append, List.append_assoc]
  · simp only [Peer.hear, if_neg hl]

theorem acts_nil : w.acts who [] = (w, []) := by
  simp only [World.acts, run, hear_nil, logged, List.map_nil]

theorem acts_cons :
    w.acts who (a :: as) = (((w.act who a).1.acts who as).1, (w.act who a).2 ++ ((w.act who a).1.acts who as).2) := by
  simp only [World.acts, World.act, run, hear_append, logged, List.map_append, linkAct_server]

variable [DecidableEq κ]

/-- Steps of the server for others, one after the other. -/
theorem run_other (as : List Act) (w : World κ) : run worldStep w (as.map .other) = w.acts none as := by
  induction as generalizing w with
  | nil => exact acts_nil.symm
  | cons a as ih =>
    rw [List.map_cons, run, ih, acts_cons]
    rfl

/-- What the server sends does not depend on what is on its way to it. -/
theorem act_setPeer_toServer (w : World κ) (k : κ) (xs ys : List Packet) (who : Option κ) (a : Act) :
    let v := ((w.setPeer k { w.peers k with toServer := xs }).act who a).1
    v.setPeer k { v.peers k with toServer := ys } = ((w.setPeer k { w.peers k with toServer := ys }).act who a).1 := by
  simp only [World.act, World.setPeer, World.mk.injEq, true_and]
  funext j
  by_cases hj : j = k
  · subst hj
    simp only [Function.update_self, Peer.hear]
    split <;> rfl
  · simp only [Function.update_of_ne hj]

/-- The steps in which the server processes the packets of a read, the first of them in environment `env n`. -/
def serveSteps (k : κ) (env : Nat → Env) : Nat → List Packet → List (WorldStep κ)
  | _, [] => []
  | n, p :: ps => .serve k { env n with beyond := p.behind (env n).beyond } :: serveSteps k env (n + 1) ps

/-- **The packets of a read are served one by one.** -/
theorem run_serveSteps (env : Nat → Env) (ps : List Packet) (n : Nat) (w : World κ) (rest : List Packet)
    (hl : (w.peers k).linked = true) (hq : (w.peers k).toServer = ps.map Packet.frame ++ rest)
    (hraw : ∀ p ∈ ps, p.Raw) :
    run worldStep w (serveSteps k env n ps) =
      (w.setPeer k { w.peers k with toServer := rest }).acts (some k)
        (packetActs env (w.peers k).slot n ps) := by
  induction ps generalizing n w with
  | nil =>
    have hsame : { w.peers k with toServer := rest } = w.peers k := by
      rw [← show (w.peers k).toServer = rest from hq]
    rw [serveSteps, packetActs, acts_nil, run, hsame, World.setPeer, Function.update_eq_self]
  | cons p ps ih =>
    obtain ⟨hact, hwrote⟩ := act_raw (hraw p (by simp)) (env n) w.server (w.peers k).slot
    have hlink : linkAct w.server (.packet { env n with beyond := p.behind (env n).beyond } (w.peers k).slot
        (p.frame.arrive (p.behind (env n).beyond))) =
        linkAct w.server (.packet (env n) (w.peers k).slot (p.within (env n))) := by
      rw [linkAct, linkAct, hact]
      rfl
    have hstep : worldStep w (.serve k { env n with beyond := p.behind (env n).beyond }) =
        (w.setPeer k { w.peers k with toServer := ps.map Packet.frame ++ rest }).act (some k)
          (.packet (env n) (w.peers k).slot (p.within (env n))) := by
      simp only [worldStep, if_pos hl, hq, List.map_cons, List.cons_append, World.act, World.setPeer, hlink, hwrote]
    -- the system after the first packet
    obtain ⟨v, hv⟩ : ∃ v, v = ((w.setPeer k { w.peers k with toServer := ps.map Packet.frame ++ rest }).act (some k)
      (.packet (env n) (w.peers k).slot (p.within (env n)))).1 := ⟨_, rfl⟩
    have hpeer : v.peers k = ({ w.peers k with toServer := ps.map Packet.frame ++ rest } : Peer).hear
        (linkAct w.server (.packet (env n) (w.peers k).slot (p.within (env n)))).2 := by
      rw [hv, World.act]
      exact congrArg (Peer.hear · _) (setPeer_same w k _)
    have hslot : (v.peers k).slot = (w.peers k).slot := by rw [hpeer, hear_slot]
    have hrest := ih (n + 1) v (by rw [hpeer, hear_linked]; exact hl) (by rw [hpeer, hear_toServer])
      fun q hq => hraw q (by simp [hq])
    have hlater : v.setPeer k { v.peers k with toServer := rest } =
        ((w.setPeer k { w.peers k with toServer := rest }).act (some k)
          (.packet (env n) (w.peers k).slot (p.within (env n)))).1 := by
      rw [hv]
      exact act_setPeer_toServer w k _ rest _ _
    rw [serveSteps, run, hstep, packetActs, acts_cons, ← hv, hrest, hslot, hlater]
    rfl

end Acts

/-! ## The same view -/

section View

variable {κ : Type} [DecidableEq κ] {k j : κ} {os os' ws ws' : List (WorldObs κ)}

/-- What a client does, as it can be observed. -/
def doneBy (k : κ) (os : List (WorldObs κ)) : List ClientObs :=
  os.filterMap fun
    | .client j x => if j = k then some x else none
    | _ => none

omit [DecidableEq κ] in
/-- The accepted writes, each with its author. -/
def wroteBy (os : List (WorldObs κ)) : List (Option κ × Delivery) :=
  os.filterMap fun
    | .wrote who d => some (who, d)
    | _ => none

/-- Every client sends, processes and does the same, and the same writes are accepted, each in the same order. -/
structure SameView (os os' : List (WorldObs κ)) : Prop where
  wrote : wroteBy os = wroteBy os'
  sent : ∀ k, sentBy k os = sentBy k os'
  processed : ∀ k, processedBy k os = processedBy k os'
  done : ∀ k, doneBy k os = doneBy k os'

omit [DecidableEq κ] in
@[simp] theorem wroteBy_append : wroteBy (os ++ os') = wroteBy os ++ wroteBy os' := List.filterMap_append

@[simp] theorem doneBy_append : doneBy k (os ++ os') = doneBy k os ++ doneBy k os' := List.filterMap_append

theorem SameView.refl (os : List (WorldObs κ)) : SameView os os := ⟨rfl, fun _ => rfl, fun _ => rfl, fun _ => rfl⟩

theorem SameView.trans (h : SameView os os') (h' : SameView os' ws) : SameView os ws where
  wrote := h.wrote.trans h'.wrote
  sent k := (h.sent k).trans (h'.sent k)
  processed k := (h.processed k).trans (h'.processed k)
  done k := (h.done k).trans (h'.done k)

theorem SameView.append (h : SameView os ws) (h' : SameView os' ws') : SameView (os ++ os') (ws ++ ws') where
  wrote := by rw [wroteBy_append, wroteBy_append, h.wrote, h'.wrote]
  sent k := by rw [sentBy_append, sentBy_append, h.sent, h'.sent]
  processed k := by rw [processedBy_append, processedBy_append, h.processed, h'.processed]
  done k := by rw [doneBy_append, doneBy_append, h.done, h'.done]

/-! What the packets of a read show, and what the client does with them. -/

omit [DecidableEq κ] in
@[simp] theorem wroteBy_processed (ps : List Packet) : wroteBy (ps.map (WorldObs.processed k)) = [] := by
  simp [wroteBy]

@[simp] theorem sentBy_processed (ps : List Packet) : sentBy j (ps.map (WorldObs.processed k)) = [] := by
  simp [sentBy]

@[simp] theorem doneBy_processed (ps : List Packet) : doneBy j (ps.map (WorldObs.processed k)) = [] := by
  simp [doneBy]

omit [DecidableEq κ] in
@[simp] theorem wroteBy_clientSeen (obs : List ClientObs) : wroteBy (clientSeen k obs) = [] := by
  simp [wroteBy, clientSeen]

@[simp] theorem processedBy_clientSeen (obs : List ClientObs) : processedBy j (clientSeen k obs) = [] := by
  simp [processedBy, clientSeen]

omit [DecidableEq κ] in
theorem tcpHanded_append (obs obs' : List ClientObs) : tcpHanded (obs ++ obs') = tcpHanded obs ++ tcpHanded obs' :=
  List.filterMap_append

/-- The packets of two reads and what they make the client do, put together. -/
theorem view_together (ps ps' : List Packet) (obs obs' : List ClientObs) :
    SameView ((ps ++ ps').map (.processed k) ++ clientSeen k (obs ++ obs'))
      ((ps.map (.processed k) ++ clientSeen k obs) ++ (ps'.map (.processed k) ++ clientSeen k obs')) where
  wrote := by simp
  sent j := by
    simp only [sentBy_append, sentBy_processed, List.nil_append, clientSeen, tcpHanded_append, List.map_append,
      sentBy_client, List.append_nil]
  processed j := by simp
  done j := by
    simp only [doneBy_append, doneBy_processed, List.nil_append, clientSeen, tcpHanded_append, List.map_append]
    simp [doneBy]

end View

/-! ## Several packets of a client -/

section Received

variable {κ : Type} [DecidableEq κ] {w : World κ} {k : κ}

theorem setPeer_setPeer (w : World κ) (k : κ) (pr pr' : Peer) : (w.setPeer k pr).setPeer k pr' = w.setPeer k pr' := by
  simp only [World.setPeer, Function.update_idem]

theorem clientActs_eq (w : World κ) (k : κ) (a : ClientAct) :
    w.clientActs k a = (w.setPeer k ((w.peers k).act a), clientSeen k (clientAct (w.peers k).client a).2) := by
  rw [World.clientActs, Peer.sends, List.map_map]
  rfl

/-- The packets of a read as `syncs_recv` processes them. -/
def packetsIn (env : Nat → ClientEnv) (beyond : List UInt8) : Nat → List Packet → List ClientAct
  | _, [] => []
  | n, p :: ps => .packet (env n) ⟨p.header, p.buffer ++ beyond⟩ :: packetsIn env beyond (n + 1) ps

/-- The packet loop of `syncs_recv` is a run of the client. -/
theorem foldl_receivePacket (env : Nat → ClientEnv) (beyond : List UInt8) (ps : List Packet) (st : Receiving) :
    (ps.foldl (receivePacket env beyond) st).connect =
        (run clientAct st.connect (packetsIn env beyond st.frames.length ps)).1 ∧
      (ps.foldl (receivePacket env beyond) st).out.map ClientObs.out =
        st.out.map .out ++ (run clientAct st.connect (packetsIn env beyond st.frames.length ps)).2 := by
  induction ps generalizing st with
  | nil => exact ⟨rfl, (List.append_nil _).symm⟩
  | cons p ps ih =>
    obtain ⟨hconnect, hout⟩ := ih (receivePacket env beyond st p)
    have hlen : (receivePacket env beyond st p).frames.length = st.frames.length + 1 := by
      simp [receivePacket]
    rw [hlen] at hconnect hout
    refine ⟨hconnect, ?_⟩
    rw [List.foldl_cons, hout, packetsIn, run, ← List.append_assoc]
    simp only [receivePacket, List.map_append, clientAct, Connect.call?]

/-- A client that has processed packets. -/
def Peer.took (pr : Peer) (rest : List Packet) (r : Connect × List ClientObs) : Peer :=
  { pr with
    client := r.1
    toClient := rest
    toServer := if pr.linked then pr.toServer ++ (tcpHanded r.2).map fun o => o.packet.frame else pr.toServer }

theorem took_took (pr : Peer) (rest rest' : List Packet) (r r' : Connect × List ClientObs) :
    (pr.took rest r).took rest' r' = pr.took rest' (r'.1, r.2 ++ r'.2) := by
  simp only [Peer.took, tcpHanded_append, List.map_append]
  split <;> simp

/-- The steps in which the client processes the packets of a read. -/
def receiveSteps (k : κ) (env : Nat → ClientEnv) (beyond : List UInt8) : Nat → List Packet → List (WorldStep κ)
  | _, [] => []
  | n, p :: ps => .receive k (env n) (p.behind beyond) :: receiveSteps k env beyond (n + 1) ps

/-- **The packets of a read are received one by one.** -/
theorem run_receiveSteps (env : Nat → ClientEnv) (hsends : ∀ m, (env m).sendResult = 0) (beyond : List UInt8)
    (ps : List Packet) (n : Nat) (w : World κ) (rest : List Packet)
    (hq : (w.peers k).toClient = ps.map Packet.frame ++ rest) (hraw : ∀ p ∈ ps, p.Raw) :
    (run worldStep w (receiveSteps k env beyond n ps)).1 =
        w.setPeer k ((w.peers k).took rest (run clientAct (w.peers k).client (packetsIn env beyond n ps))) ∧
      SameView ((ps.map Packet.frame).map (.processed k) ++
          clientSeen k (run clientAct (w.peers k).client (packetsIn env beyond n ps)).2)
        (run worldStep w (receiveSteps k env beyond n ps)).2 := by
  induction ps generalizing n w with
  | nil =>
    have hsame : (w.peers k).took rest ((w.peers k).client, []) = w.peers k := by
      rw [Peer.took, ← show (w.peers k).toClient = rest from hq]
      simp [tcpHanded]
    refine ⟨?_, .refl _⟩
    rw [receiveSteps, packetsIn, run, run, hsame, World.setPeer, Function.update_eq_self]
  | cons p ps ih =>
    obtain ⟨a, ha⟩ : ∃ a : ClientAct, a = .packet (env n) ⟨p.header, p.buffer ++ beyond⟩ := ⟨_, rfl⟩
    -- the system after the first packet
    obtain ⟨v, hv⟩ : ∃ v, v = w.setPeer k
      ((w.peers k).took (ps.map Packet.frame ++ rest) (clientAct (w.peers k).client a)) := ⟨_, rfl⟩
    have hpeer : v.peers k = (w.peers k).took (ps.map Packet.frame ++ rest) (clientAct (w.peers k).client a) := by
      rw [hv, setPeer_same]
    have hstep : worldStep w (.receive k (env n) (p.behind beyond)) =
        (v, .processed k ⟨p.header, p.buffer ++ beyond⟩ :: clientSeen k (clientAct (w.peers k).client a).2) := by
      simp only [worldStep, hq, List.map_cons, List.cons_append, arrive_frame (hraw p (by simp)), ← ha,
        clientActs_eq, setPeer_same, setPeer_setPeer]
      have hthrough : a.fails = false := by simp [ha, ClientAct.fails, hsends]
      rw [hv, Peer.act, Peer.sends, hthrough, Bool.not_false, Bool.and_true]
      rfl
    obtain ⟨hstate, hview⟩ := ih (n + 1) v (by rw [hpeer]; rfl) fun q hq => hraw q (by simp [hq])
    have hclient : (v.peers k).client = (clientAct (w.peers k).client a).1 := by rw [hpeer]; rfl
    rw [hclient] at hstate hview
    rw [receiveSteps, run, hstep, packetsIn, run, ← ha]
    refine ⟨?_, ?_⟩
    · rw [hstate, hpeer, took_took, hv, setPeer_setPeer]
    · have hhead : SameView ([p.frame].map (.processed k) ++ clientSeen k (clientAct (w.peers k).client a).2)
          (.processed k ⟨p.header, p.buffer ++ beyond⟩ :: clientSeen k (clientAct (w.peers k).client a).2) := by
        have hframe : (⟨p.header, p.buffer ++ beyond⟩ : Packet).frame = p.frame :=
          congrArg (Packet.mk p.header) (read_append_left _ (hraw p (by simp)).1)
        refine ⟨by simp [wroteBy], fun j => by simp [sentBy], fun j => ?_, fun j => by simp [doneBy]⟩
        rw [List.map_cons, List.map_nil, List.singleton_append, processedBy_cons, processedBy_cons, hframe, frame_frame]
      exact (view_together [p.frame] (ps.map Packet.frame) _ _).trans (hhead.append hview)

end Received

/-! ## Bytes and packets on their way -/

/-- A client over bytes is a client over packets: what is on its way are the bytes of the packets, behind those an
earlier read left over. -/
structure Carried (s : Server) (bp : BytePeer) (pr : Peer) : Prop where
  client : pr.client = bp.receiver.connect
  slot : pr.slot = bp.slot
  linked : pr.linked = bp.linked
  toServer : bp.linked = true → Spells ((s.clients bp.slot).buffer ++ bp.toServer) pr.toServer
  toClient : Spells (bp.receiver.buffer ++ bp.toClient) pr.toClient

structure Refines {κ : Type} (b : ByteWorld κ) (w : World κ) : Prop where
  inv : w.Inv
  server : w.server = b.server
  peers : ∀ k, Carried b.server (b.peers k) (w.peers k)

section Sent

variable {env : ClientEnv} {s : Connect} {a : ClientAct} {obs : List ClientObs} {o : Outgoing}

/-- What a client puts on its connection are packets. -/
def Handed (obs : List ClientObs) : Prop := ∀ o ∈ tcpHanded obs, Framed o.packet o.wire

theorem handed_sendId : Handed ((sendId env s).map .out) := by
  intro o ho
  obtain ⟨x, hx, hxo⟩ := List.mem_filterMap.mp ho
  obtain ⟨y, hy, rfl⟩ := List.mem_map.mp hx
  obtain ⟨o', hsender, hsent⟩ := sendId_out hy
  cases y with
  | tcp o'' =>
    cases hxo
    rcases mem_connectSend hsent with ⟨heq, _⟩ | hudp
    · cases heq
      exact (clientSender_framed hsender).1
    · cases hudp
  | udp | call => cases hxo

theorem handed_packet (p : Packet) : Handed (clientAct s (.packet env p)).2 := by
  have hsilent : ∀ {xs : List ClientOut}, (∀ x ∈ xs, ∀ o, x ≠ .tcp o) → Handed (xs.map .out) := by
    intro xs hxs o ho
    obtain ⟨x, hx, hxo⟩ := List.mem_filterMap.mp ho
    obtain ⟨y, hy, rfl⟩ := List.mem_map.mp hx
    cases y with
    | tcp o' => exact absurd rfl (hxs _ hy o')
    | udp | call => cases hxo
  rw [clientAct, Connect.call?, processPacket]
  split
  · apply hsilent
    rintro x hx o rfl
    obtain ⟨cb, args, id, data, hcall⟩ := processEvent_calls hx
    cases hcall
  case h_3 =>
    rw [processError]
    split
    · exact hsilent fun x hx => absurd hx List.not_mem_nil
    · split
      · exact hsilent fun x hx => absurd hx List.not_mem_nil
      · split
        · exact handed_sendId
        · exact hsilent fun x hx => absurd hx List.not_mem_nil
  all_goals exact hsilent fun x hx => absurd hx List.not_mem_nil

theorem handed_call (ha : a.byApplication = true) : Handed (clientAct s a).2 := by
  intro o ho
  by_cases hc : a.isCall = true
  · by_cases hup : 0 < s.socketfd
    · rw [tcpHanded_call hc hup] at ho
      obtain ⟨⟨r, o'⟩, hr, rfl⟩ := Option.map_eq_some_iff.mp (Option.mem_toList.mp ho)
      exact request_framed hr
    · rw [tcpHanded_down hup ha] at ho
      cases ho
  · rw [tcpHanded_others ha (by simpa using hc)] at ho
    cases ho

/-- The packets of a read are processed one by one. -/
theorem handed_packetsIn (env : Nat → ClientEnv) (beyond : List UInt8) (ps : List Packet) (n : Nat) (s : Connect) :
    Handed (run clientAct s (packetsIn env beyond n ps)).2 := by
  induction ps generalizing n s with
  | nil => exact fun o ho => absurd ho List.not_mem_nil
  | cons p ps ih =>
    intro o ho
    rw [packetsIn, run, tcpHanded_append] at ho
    rcases List.mem_append.mp ho with ho | ho
    · exact handed_packet _ o ho
    · exact ih _ _ o ho

theorem spells_handed (h : Handed obs) :
    Spells (bytesHanded obs).flatten ((tcpHanded obs).map fun o => o.packet.frame) := by
  rw [bytesHanded]
  generalize htcp : tcpHanded obs = sent
  rw [Handed, htcp] at h
  clear htcp
  induction sent with
  | nil => exact spells_nil
  | cons o sent ih =>
    obtain ⟨hwhole, hwire⟩ := (h o (by simp)).frame
    have hhead : Spells o.wire [o.packet.frame] := by
      refine ⟨by simp [hwire], ?_⟩
      intro p hp
      rw [List.mem_singleton.mp hp]
      exact hwhole
    exact hhead.append (ih fun o ho => h o (by simp [ho]))

theorem spells_sentTo {out : List Out} (h : ∀ c p, .send c p ∈ out → Framed p p.wire) (c : ClientIx) :
    Spells (bytesTo c out).flatten (sentTo c out) := by
  induction out with
  | nil => exact spells_nil
  | cons x out ih =>
    have hrest := ih fun c p hp => h c p (by simp [hp])
    have hcons : ∀ {y : List UInt8} {ps : List Packet}, Spells y ps →
        (bytesTo c (x :: out)).flatten = y ++ (bytesTo c out).flatten → sentTo c (x :: out) = ps ++ sentTo c out →
        Spells (bytesTo c (x :: out)).flatten (sentTo c (x :: out)) := by
      intro y ps hy hb hs
      rw [hb, hs]
      exact hy.append hrest
    cases x with
    | send c' p =>
      by_cases hc : c' = c
      · subst hc
        obtain ⟨hwhole, hwire⟩ := (h c' p (by simp)).frame
        have hhead : Spells p.wire [p.frame] := by
          refine ⟨by simp [hwire], ?_⟩
          intro q hq
          rw [List.mem_singleton.mp hq]
          exact hwhole
        exact hcons hhead (by simp [bytesTo]) (by simp [sentTo, Out.packetTo])
      · exact hcons spells_nil (by simp [bytesTo, hc]) (by simp [sentTo, Out.packetTo, hc])
    | sendto | call => exact hcons spells_nil rfl rfl

end Sent

section Carried

variable {s s' : Server} {bp : BytePeer} {pr : Peer} {obs : List ClientObs} {out out' : List Out} {net : Net}

/-- The server changes; the bytes it kept of the connection stay. -/
theorem Carried.server (h : Carried s bp pr)
    (hbuf : bp.linked = true → (s'.clients bp.slot).buffer = (s.clients bp.slot).buffer) : Carried s' bp pr :=
  { h with toServer := fun hl => by rw [hbuf hl]; exact h.toServer hl }

/-- What the server sends goes on the connection, if all of it gets through. -/
theorem Carried.hear (h : Carried s bp pr) (hout : ∀ c p, .send c p ∈ out → Framed p p.wire) (hnet : net.Whole)
    (hthrough : bp.linked = true → sentTo bp.slot out' = sentTo bp.slot out) :
    Carried s (bp.hear net out) (pr.hear out') := by
  by_cases hl : bp.linked = true
  · have hpl : pr.linked = true := h.linked.trans hl
    rw [BytePeer.hear, if_pos hl, Peer.hear, if_pos hpl]
    refine ⟨h.client, h.slot, h.linked, h.toServer, ?_⟩
    rw [putAll_whole hnet, ← List.append_assoc, h.slot, hthrough hl]
    exact h.toClient.append (spells_sentTo hout bp.slot)
  · have hpl : ¬ pr.linked = true := fun hp => hl (h.linked.symm.trans hp)
    rw [BytePeer.hear, if_neg hl, Peer.hear, if_neg hpl]
    exact h

/-- What the client sends goes on the connection, the bytes as the packets. -/
theorem Carried.sends (h : Carried s bp pr) (hsent : Handed obs) (hnet : net.Whole) :
    Carried s (bp.sends net obs) { pr with
      toServer := if pr.linked then pr.toServer ++ (tcpHanded obs).map fun o => o.packet.frame else pr.toServer } := by
  refine ⟨h.client, h.slot, h.linked, ?_, h.toClient⟩
  intro hl
  have hl : bp.linked = true := hl
  simp only [BytePeer.sends, if_pos hl, h.linked, putAll_whole hnet]
  rw [← List.append_assoc]
  exact (h.toServer hl).append (spells_handed hsent)

end Carried

/-! ## Runs of the server -/

section ServerRun

variable {s : Server} {c : ClientIx} {as : List Act}

/-- Everything the server sends along its acts are packets. -/
theorem run_framed (hw : s.Within) (hal : Along act (fun s a => a.bounded s) s as) :
    ∀ c p, .send c p ∈ (run act s as).2 → Framed p p.wire := by
  have houts : Along act (fun s a => ∀ o ∈ (act s a).2, ∀ c p, o = .send c p → Framed p p.wire) s as := by
    refine along_of_invariant (fun s a (h : s.Within) ha => h.act ha) ?_ as s hw hal
    rintro s a h ha o ho c p rfl
    exact act_framed h ha ho
  exact fun c p hmem => forall_mem_run (R := fun o => ∀ c p, o = .send c p → Framed p p.wire) houts _ hmem c p rfl

/-- Acts in which no send to a client fails. -/
theorem run_delivers (h : ∀ a ∈ as, a.fails c = false) : sentTo c (run linkAct s as).2 = sentTo c (run act s as).2 := by
  induction as generalizing s with
  | nil => rfl
  | cons a as ih =>
    rw [run, run, sentTo_append, sentTo_append, sentTo_linkAct_of_delivers (h a (by simp))]
    exact congrArg _ (ih fun b hb => h b (by simp [hb]))

theorem packetActs_deliver {env : Nat → Env} (h : ∀ m, (env m).sendFails c = false) (c' : ClientIx)
    (ps : List Packet) (n : Nat) : ∀ a ∈ packetActs env c' n ps, a.fails c = false := by
  induction ps generalizing n with
  | nil => exact fun a ha => absurd ha List.not_mem_nil
  | cons p ps ih =>
    intro a ha
    rcases List.mem_cons.mp ha with rfl | ha
    · exact h n
    · exact ih (n + 1) a ha

/-- The acts of an input of someone else. -/
theorem acts_spare (s : Server) {i : Input} (hi : ¬ i.isFor c) : ∀ a ∈ i.acts s, a.spares c := by
  intro a ha
  have hpackets : ∀ env c' ps n, c' ≠ c → a ∈ packetActs env c' n ps → a.spares c := by
    intro env c' ps n hne hmem
    induction ps generalizing n with
    | nil => cases hmem
    | cons p ps ih =>
      rcases List.mem_cons.mp hmem with rfl | hmem
      · exact hne
      · exact ih (n + 1) hmem
  have hacts := i.actsOf s
  generalize i.acts s = as at ha hacts
  cases hacts with
  | nothing => cases ha
  | accept accepted =>
    rw [List.mem_singleton.mp ha]
    trivial
  | close env r htcp =>
    rw [List.mem_singleton.mp ha]
    exact hi
  | loop env htcp hlen =>
    rcases List.mem_append.mp ha with ha | ha
    · exact hpackets _ _ _ _ hi ha
    · rw [List.mem_singleton.mp ha]
      exact hi
  | datagram env addr r p =>
    rw [List.mem_singleton.mp ha]
    trivial
  | @api b hlocal =>
    rw [List.mem_singleton.mp ha]
    cases b <;> trivial

/-- Packets that close nothing leave all connections as they are. -/
theorem run_packetActs_conn (env : Nat → Env) (c i : ClientIx) (ps : List Packet) (n : Nat) (s : Server)
    (hopen : ∀ p ∈ ps, p.header.unsupported = false) : (run act s (packetActs env c n ps)).1.conn i = s.conn i := by
  induction ps generalizing n s with
  | nil => rfl
  | cons p ps ih =>
    have hconn : (act s (.packet (env n) c (p.within (env n)))).1.conn i = s.conn i := by
      refine (packet_conn (p.within (env n)) i).trans (if_neg ?_)
      rintro ⟨_, hu⟩
      have hclosed : p.header.unsupported = true := hu
      rw [hopen p (by simp)] at hclosed
      cases hclosed
    rw [packetActs, run]
    exact (ih (n + 1) _ fun q hq => hopen q (by simp [hq])).trans hconn

theorem packetActs_bounded (env : Nat → Env) (c : ClientIx) (ps : List Packet) (n : Nat) (s : Server)
    (hraw : ∀ p ∈ ps, p.Raw) : Along act (fun s a => a.bounded s) s (packetActs env c n ps) := by
  induction ps generalizing n s with
  | nil => trivial
  | cons p ps ih =>
    refine ⟨?_, ih (n + 1) _ fun q hq => hraw q (by simp [hq])⟩
    have hsize := masked_size_le p.header
    rw [(hraw p (by simp)).2] at hsize
    exact hsize

theorem logged_append (s : Server) (as bs : List Act) :
    logged s (as ++ bs) = logged s as ++ logged (run act s as).1 bs := by
  induction as generalizing s with
  | nil => rfl
  | cons a as ih => rw [List.cons_append, logged, logged, ih, run, List.append_assoc]

end ServerRun

/-! ## One step -/

section Step

variable {κ : Type} [DecidableEq κ] {b : ByteWorld κ} {w : World κ} {k : κ}

/-- A step over bytes, with what is seen of it, is matched by steps over packets. -/
def Stands (w : World κ) (r : ByteWorld κ × List (WorldObs κ)) : Prop :=
  ∃ bs, Matches worldStep World.proper Refines SameView w r.1 r.2 bs

/-- What has to be shown of steps that are allowed: the server, the clients and the view. -/
theorem Refines.stands (h : Refines b w) {r : ByteWorld κ × List (WorldObs κ)} {bs : List (WorldStep κ)}
    {r' : World κ × List (WorldObs κ)} (hrun : run worldStep w bs = r') (hal : Along worldStep World.proper w bs)
    (hserver : r'.1.server = r.1.server) (hpeers : ∀ k, Carried r.1.server (r.1.peers k) (r'.1.peers k))
    (hview : SameView r.2 r'.2) : Stands w r := by
  refine ⟨bs, hal, ?_, ?_⟩
  · refine ⟨run_invariant (fun w a h ha => h.step a ha.1) bs w h.inv hal, ?_, ?_⟩
    · rw [hrun]
      exact hserver
    · rw [hrun]
      exact hpeers
  · rw [hrun]
    exact hview

/-- Nothing happens. -/
theorem Refines.idle (h : Refines b w) : Stands w (b, []) := ⟨[], .nil h (.refl [])⟩

/-- One client changes, over bytes as over packets. -/
theorem carried_setPeer {s : Server} {bp : BytePeer} {pr : Peer} (h : ∀ j, j ≠ k → Carried s (b.peers j) (w.peers j))
    (hc : Carried s bp pr) (j : κ) : Carried s ((b.setPeer k bp).peers j) ((w.setPeer k pr).peers j) := by
  by_cases hj : j = k
  · subst hj
    rw [setPeer_same, ByteWorld.setPeer_same]
    exact hc
  · rw [setPeer_other hj, ByteWorld.setPeer_other hj]
    exact h j hj

/-- A client that acts. -/
theorem Refines.clientActs (h : Refines b w) {a : ClientAct} {net : Net} (ha : a.fails = false) (hnet : net.Whole)
    (hsent : Handed (clientAct (w.peers k).client a).2) (j : κ) :
    Carried b.server ((b.clientActs k a net).1.peers j) ((w.clientActs k a).1.peers j) ∧
      (b.clientActs k a net).2 = (w.clientActs k a).2 := by
  have hcarried := h.peers k
  rw [clientActs_eq, ByteWorld.clientActs, hcarried.client]
  rw [hcarried.client] at hsent
  refine ⟨carried_setPeer (fun j _ => h.peers j) ?_ j, rfl⟩
  have hacted : Carried b.server
      { b.peers k with
        receiver := { (b.peers k).receiver with connect := (clientAct (b.peers k).receiver.connect a).1 } }
      { w.peers k with client := (clientAct (b.peers k).receiver.connect a).1 } :=
    ⟨rfl, hcarried.slot, hcarried.linked, hcarried.toServer, hcarried.toClient⟩
  have hput := hacted.sends hsent hnet
  rw [Peer.act, Peer.sends, hcarried.client, ha, Bool.not_false, Bool.and_true]
  exact hput

theorem stands_call (h : Refines b w) {a : ClientAct} {net : Net} (ha : b.allows (.call k a net)) :
    Stands w (byteStep b (.call k a net)) := by
  obtain ⟨hname, hcopies, hthrough, hnet⟩ := ha
  have hallow : w.allows (.call k a) := by
    cases a with
    | write env flags cid data dataSize => exact hname env flags cid data dataSize rfl
    | _ => trivial
  have hal : Along worldStep World.proper w [.call k a] := ⟨⟨hallow, hcopies⟩, trivial⟩
  by_cases happ : a.byApplication = true
  · have hboth := h.clientActs (k := k) hthrough hnet (handed_call happ)
    have hrun : run worldStep w [.call k a] = w.clientActs k a := by
      simp only [run, worldStep, if_pos happ, List.append_nil]
    rw [byteStep, if_pos happ]
    refine h.stands hrun hal h.server (fun j => (hboth j).1) ?_
    rw [(hboth k).2]
    exact .refl _
  · rw [byteStep, if_neg happ]
    exact h.idle

theorem stands_announce (h : Refines b w) {env : ClientEnv} {net : Net} (ha : b.allows (.announce k env net)) :
    Stands w (byteStep b (.announce k env net)) := by
  have hclient := (h.peers k).client
  by_cases hup : 0 ≤ (b.peers k).receiver.connect.socketfd
  · have hthrough : (ClientAct.sendId env).fails = false := by simp [ClientAct.fails, ha.1]
    have hboth := h.clientActs (k := k) hthrough ha.2 handed_sendId
    have hrun : run worldStep w [.announce k env] = w.clientActs k (.sendId env) := by
      simp only [run, worldStep, hclient, if_pos hup, List.append_nil]
    rw [byteStep, if_pos hup]
    refine h.stands hrun ⟨⟨trivial, trivial⟩, trivial⟩ h.server (fun j => (hboth j).1) ?_
    rw [(hboth k).2]
    exact .refl _
  · rw [byteStep, if_neg hup]
    exact h.idle

theorem byteHear_nil (bp : BytePeer) (net : Net) : bp.hear net [] = bp := by
  rw [BytePeer.hear]
  split
  · rfl
  · rfl

theorem stands_connect (h : Refines b w) {fd fd' : Nat} {addr : SockAddr} (ha : b.allows (.connect k fd fd' addr)) :
    Stands w (byteStep b (.connect k fd fd' addr)) := by
  have hclient := (h.peers k).client
  by_cases hfree : ((b.peers k).receiver.connect.socketfd < 0 && !(b.peers k).receiver.connect.onexit) = true
  · cases hslot : getFreeClient b.server with
    | none =>
      rw [byteStep]
      simp only [if_pos hfree, hslot]
      exact h.idle
    | some c =>
      have hrun : run worldStep w [.connect k fd fd' addr] =
          ((w.act none (.accept (some (fd', addr)))).1.setPeer k
            ⟨{ (w.peers k).client with socketfd := fd }, c, true, [], []⟩, []) := by
        simp only [run, worldStep, hclient, hfree, ↓reduceIte, h.server, hslot, World.act, List.append_nil]
        rfl
      have hserver : (handleStep b.server (.accept (some (fd', addr)))).1 = addClient b.server (some (fd', addr)) := rfl
      have hempty : ((addClient b.server (some (fd', addr))).clients c).buffer = [] := by
        simp only [addClient, hslot, Server.modifyClient_clients, ↓reduceIte]
        exact ha c hslot
      have hpeers : ∀ j, Carried (addClient b.server (some (fd', addr)))
          ((b.handle none (fun _ => .calm) (.accept (some (fd', addr)))).1.peers j)
          ((w.act none (.accept (some (fd', addr)))).1.peers j) := by
        intro j
        rw [ByteWorld.handle, World.act]
        simp only [handleStep, handle, byteHear_nil, linkAct_accept, hear_nil]
        refine (h.peers j).server fun hl => ?_
        have htcp := h.inv.held j ((h.peers j).linked.trans hl)
        rw [h.server, (h.peers j).slot] at htcp
        exact congrArg Prod.snd (addClient_conn _ htcp)
      have hnew : Carried (addClient b.server (some (fd', addr)))
          ⟨⟨{ (b.peers k).receiver.connect with socketfd := fd }, [], false⟩, c, true, [], []⟩
          ⟨{ (w.peers k).client with socketfd := fd }, c, true, [], []⟩ := by
        refine ⟨by rw [hclient], rfl, rfl, fun _ => ?_, spells_nil⟩
        rw [hempty]
        exact spells_nil
      rw [byteStep]
      simp only [if_pos hfree, hslot]
      have hsame := congrArg (fun s => addClient s (some (fd', addr))) h.server
      exact h.stands hrun ⟨⟨trivial, trivial⟩, trivial⟩ hsame (carried_setPeer (fun j _ => hpeers j) hnew) (.refl [])
  · rw [byteStep]
    simp only [if_neg hfree]
    exact h.idle

theorem serveSteps_allowed (k : κ) (env : Nat → Env) (ps : List Packet) (n : Nat) (w : World κ) :
    Along worldStep World.proper w (serveSteps k env n ps) := by
  induction ps generalizing n w with
  | nil => trivial
  | cons p ps ih => exact ⟨⟨trivial, trivial⟩, ih (n + 1) _⟩

theorem keep_leaves (c i : ClientIx) (buffer : List UInt8) : (Act.keep c buffer).leaves i := by
  by_cases hc : c = i
  · exact Or.inr ⟨buffer, by rw [hc]⟩
  · exact Or.inl hc

/-- The packets of a read are served, then the bytes of an unfinished one are kept. -/
theorem run_serve (h : Refines b w) {env : Nat → Env} {ps rest : List Packet} {x : List UInt8} {as : List Act}
    (has : packetActs env (w.peers k).slot 0 ps = as) (hl : (w.peers k).linked = true)
    (hq : (w.peers k).toServer = ps.map Packet.frame ++ rest) (hraw : ∀ p ∈ ps, p.Raw) :
    run worldStep w (serveSteps k env 0 ps ++ [.other (.keep (w.peers k).slot x)]) =
      (⟨(run act b.server (as ++ [.keep (w.peers k).slot x])).1,
        fun j => ((w.setPeer k { w.peers k with toServer := rest }).peers j).hear (run linkAct b.server as).2⟩,
        (logged b.server as).map (.wrote (some k))) := by
  have hsilent : ∀ (s : Server) c, wrote s (.keep c x) = [] := fun _ _ => rfl
  have hsame : (w.setPeer k { w.peers k with toServer := rest }).server = b.server := h.server
  rw [run_append, run_serveSteps env ps 0 w rest hl hq hraw, has, run_concat]
  simp only [run, worldStep, World.acts, World.act, hsilent, List.map_nil, List.append_nil, hsame, linkAct_keep,
    linkAct_server, run_linkAct]
  refine Prod.ext (congrArg (World.mk _) ?_) rfl
  funext j
  exact hear_nil _

/-- The packets found in the first bytes of a stream of packets. -/
theorem raw_of_spells {x rest : List UInt8} {ps : List Packet} (h : Spells (x ++ rest) ps) :
    ∀ p ∈ rawPackets x, p.Raw ∧ p.frame ∈ ps := by
  intro p hp
  obtain ⟨qs, hqs, _⟩ := h.read
  have hmem : p.frame ∈ ps := by
    rw [hqs, ← rawPackets_frames]
    exact List.mem_append_left _ (List.mem_map_of_mem hp)
  exact ⟨⟨rawPackets_complete hp, (h.whole p.frame hmem).framed.masked⟩, hmem⟩

theorem stands_serve (h : Refines b w) {env : Nat → Env} {n : Nat} {net : κ → Net}
    (ha : b.allows (.serve k env n net)) : Stands w (byteStep b (.serve k env n net)) := by
  obtain ⟨hlong, hthrough, hnet⟩ := ha
  have hk := h.peers k
  by_cases hread : ((b.peers k).linked && !((b.peers k).toServer.take n).isEmpty) = true
  · obtain ⟨hl, hne⟩ := Bool.and_eq_true_iff.mp hread
    have hlen : ¬ ((b.peers k).toServer.take n).length < headerSize := by
      rcases hlong with hnil | hlong
      · rw [hnil] at hne
        cases hne
      · exact Nat.not_lt.mpr hlong
    -- the bytes the server has then, and the packets among them
    obtain ⟨x, hx⟩ : ∃ x, x = (b.server.clients (b.peers k).slot).buffer ++ (b.peers k).toServer.take n := ⟨_, rfl⟩
    have hstream : Spells (x ++ (b.peers k).toServer.drop n) (w.peers k).toServer := by
      rw [hx, List.append_assoc, List.take_append_drop]
      exact hk.toServer hl
    obtain ⟨rest, hsplit, hrest⟩ := hstream.read
    have hraw : ∀ p ∈ rawPackets x, p.Raw := fun p hp => (raw_of_spells hstream p hp).1
    have hopen : ∀ p ∈ rawPackets x, p.header.unsupported = false :=
      fun p hp => (h.inv.asked k p.frame (raw_of_spells hstream p hp).2).open_
    have htcp : (b.server.clients (b.peers k).slot).tcp = true := by
      have hheld := h.inv.held k (hk.linked.trans hl)
      rwa [h.server, hk.slot] at hheld
    obtain ⟨as, has⟩ : ∃ as, as = packetActs env (b.peers k).slot 0 (rawPackets x) := ⟨_, rfl⟩
    have hacts : (Input.tcp env (b.peers k).slot (.data ((b.peers k).toServer.take n))).acts b.server =
        as ++ [.keep (b.peers k).slot (leftover x)] := by
      simp only [Input.acts, htcp, ↓reduceIte, if_neg hlen, ← hx, has]
    have hhandle : handleStep b.server (.tcp env (b.peers k).slot (.data ((b.peers k).toServer.take n))) =
        ((run act b.server (as ++ [.keep (b.peers k).slot (leftover x)])).1, (run act b.server as).2) := by
      rw [handle_eq_acts, hacts, run_concat]
      exact Prod.ext rfl (List.append_nil _)
    have hlogged : logged b.server (as ++ [.keep (b.peers k).slot (leftover x)]) = logged b.server as := by
      rw [logged_append]
      exact List.append_nil _
    have hqueue : (w.peers k).toServer = (rawPackets x).map Packet.frame ++ rest := by
      rw [rawPackets_frames]
      exact hsplit
    have hsame : packetActs env (w.peers k).slot 0 (rawPackets x) = as := by rw [hk.slot, has]
    have hrun := run_serve h (x := leftover x) hsame (hk.linked.trans hl) hqueue hraw
    rw [hk.slot] at hrun
    have hal : Along worldStep World.proper w
        (serveSteps k env 0 (rawPackets x) ++ [.other (.keep (b.peers k).slot (leftover x))]) := by
      refine (along_append w _ _).mpr ⟨serveSteps_allowed k env _ 0 w, ⟨⟨trivial, trivial, ?_⟩, trivial⟩, trivial⟩
      exact fun j _ => keep_leaves _ _ _
    have hwithin : b.server.Within := h.server ▸ h.inv.within
    have hframed := run_framed hwithin (has ▸ packetActs_bounded env (b.peers k).slot (rawPackets x) 0 b.server hraw)
    have hconn : ∀ i, (run act b.server as).1.conn i = b.server.conn i :=
      fun i => has ▸ run_packetActs_conn env _ i (rawPackets x) 0 b.server hopen
    -- what the server kept of the others stays
    have hothers : ∀ j, j ≠ k → Carried (run act b.server (as ++ [.keep (b.peers k).slot (leftover x)])).1
        (b.peers j) (w.peers j) := by
      intro j hj
      refine (h.peers j).server fun hlj => ?_
      have hslot : (b.peers j).slot ≠ (b.peers k).slot := by
        rw [← (h.peers j).slot, ← hk.slot]
        exact fun heq => hj (h.inv.apart j k ((h.peers j).linked.trans hlj) (hk.linked.trans hl) heq)
      rw [run_concat]
      simp only [act, Server.modifyClient_clients, if_neg hslot]
      exact congrArg Prod.snd (hconn _)
    have hkept : Carried (run act b.server (as ++ [.keep (b.peers k).slot (leftover x)])).1
        { b.peers k with toServer := (b.peers k).toServer.drop n } { w.peers k with toServer := rest } := by
      refine ⟨hk.client, hk.slot, hk.linked, fun _ => ?_, hk.toClient⟩
      rw [run_concat]
      simp only [act, Server.modifyClient_clients, ↓reduceIte]
      exact hrest
    rw [byteStep]
    simp only [if_pos hread]
    have hafter : ((b.setPeer k { b.peers k with toServer := (b.peers k).toServer.drop n }).handle (some k) net
        (.tcp env (b.peers k).slot (.data ((b.peers k).toServer.take n)))) =
        (⟨(run act b.server (as ++ [.keep (b.peers k).slot (leftover x)])).1,
          fun j => ((b.setPeer k { b.peers k with toServer := (b.peers k).toServer.drop n }).peers j).hear (net j)
            (run act b.server as).2⟩, (logged b.server as).map (.wrote (some k))) := by
      have hserver : (b.setPeer k { b.peers k with toServer := (b.peers k).toServer.drop n }).server = b.server := rfl
      rw [ByteWorld.handle, hserver, hhandle, hacts, hlogged]
    rw [hafter]
    refine h.stands hrun hal rfl (fun j => (carried_setPeer hothers hkept j).hear hframed (hnet j) fun _ => ?_) (.refl _)
    have hslot : ((b.setPeer k { b.peers k with toServer := (b.peers k).toServer.drop n }).peers j).slot =
        (b.peers j).slot := by
      by_cases hj : j = k
      · rw [hj, ByteWorld.setPeer_same]
      · rw [ByteWorld.setPeer_other hj]
    rw [hslot, has]
    exact run_delivers (packetActs_deliver (fun m => hthrough m j) _ _ 0)
  · rw [byteStep]
    simp only [if_neg hread]
    exact h.idle

theorem receiveSteps_allowed (k : κ) (env : Nat → ClientEnv) (beyond : List UInt8) (ps : List Packet) (n : Nat)
    (w : World κ) : Along worldStep World.proper w (receiveSteps k env beyond n ps) := by
  induction ps generalizing n w with
  | nil => trivial
  | cons p ps ih => exact ⟨⟨trivial, trivial⟩, ih (n + 1) _⟩

theorem stands_receive (h : Refines b w) {env : Nat → ClientEnv} {beyond : List UInt8} {n : Nat} {net : Net}
    (ha : b.allows (.receive k env beyond n net)) : Stands w (byteStep b (.receive k env beyond n net)) := by
  obtain ⟨hlong, hsends, hnet⟩ := ha
  have hk := h.peers k
  by_cases hread : ((b.peers k).receiver.reading && !((b.peers k).toClient.take n).isEmpty) = true
  · have hlen : ¬ ((b.peers k).toClient.take n).length < headerSize := by
      rcases hlong with hnil | hlong
      · rw [hnil] at hread
        simp at hread
      · exact Nat.not_lt.mpr hlong
    -- the bytes the client has then, and the packets among them
    obtain ⟨x, hx⟩ : ∃ x, x = (b.peers k).receiver.buffer ++ (b.peers k).toClient.take n := ⟨_, rfl⟩
    have hstream : Spells (x ++ (b.peers k).toClient.drop n) (w.peers k).toClient := by
      rw [hx, List.append_assoc, List.take_append_drop]
      exact hk.toClient
    obtain ⟨rest, hsplit, hrest⟩ := hstream.read
    have hraw : ∀ p ∈ rawPackets x, p.Raw := fun p hp => (raw_of_spells hstream p hp).1
    have hqueue : (w.peers k).toClient = (rawPackets x).map Packet.frame ++ rest := by
      rw [rawPackets_frames]
      exact hsplit
    obtain ⟨r, hr⟩ : ∃ r, r = run clientAct (b.peers k).receiver.connect (packetsIn env beyond 0 (rawPackets x)) :=
      ⟨_, rfl⟩
    obtain ⟨hstate, hview⟩ := run_receiveSteps env hsends beyond (rawPackets x) 0 w rest hqueue hraw
    rw [hk.client, ← hr] at hstate hview
    -- the same read in `syncs_recv`
    obtain ⟨st, hst⟩ : ∃ st, st = recvStep (b.peers k).receiver ⟨env, beyond, .data ((b.peers k).toClient.take n)⟩ :=
      ⟨_, rfl⟩
    have hframes : st.2.2 = (rawPackets x).map Packet.frame := by
      rw [hst, recvStep_frames _ _ rfl hlen, ← hx, rawPackets_frames]
    have hfold := foldl_receivePacket env beyond (rawPackets x) ⟨(b.peers k).receiver.connect, [], []⟩
    simp only [List.length_nil, List.map_nil, List.nil_append, ← hr] at hfold
    have hloop : st.1.connect = r.1 ∧ st.1.buffer = leftover x ∧ st.2.1.map ClientObs.out = r.2 := by
      rw [hst]
      simp only [recvStep, if_neg hlen, receive_eq_foldl, ← hx]
      exact ⟨hfold.1, trivial, hfold.2⟩
    have hsent : Handed (st.2.1.map ClientObs.out) := by
      rw [hloop.2.2, hr]
      exact handed_packetsIn env beyond _ 0 _
    have htook : Carried b.server { b.peers k with receiver := st.1, toClient := (b.peers k).toClient.drop n }
        { w.peers k with client := r.1, toClient := rest } := by
      refine ⟨hloop.1.symm, hk.slot, hk.linked, hk.toServer, ?_⟩
      rw [hloop.2.1]
      exact hrest
    have hput := htook.sends hsent hnet
    rw [byteStep]
    simp only [if_pos hread, ← hst]
    refine h.stands rfl (receiveSteps_allowed k env beyond (rawPackets x) 0 w) ?_ ?_ ?_
    · rw [hstate]
      exact h.server
    · rw [hstate]
      refine carried_setPeer (fun j _ => h.peers j) ?_
      rw [hloop.2.2] at hput ⊢
      exact hput
    · rw [hframes, hloop.2.2]
      exact hview
  · rw [byteStep]
    simp only [if_neg hread]
    exact h.idle

theorem stands_drop (h : Refines b w) : Stands w (byteStep b (.drop k)) := by
  have hk := h.peers k
  by_cases hl : (b.peers k).linked = true
  · have hwl : (w.peers k).linked = true := hk.linked.trans hl
    have htcp : (b.server.clients (b.peers k).slot).tcp = true := by
      have hheld := h.inv.held k hwl
      rwa [h.server, hk.slot] at hheld
    have hrun : run worldStep w [.drop k] =
        ((w.setPeer k { w.peers k with linked := false, toServer := [] }).act none (.close (w.peers k).slot)) := by
      simp only [run, worldStep, if_pos hwl, List.append_nil]
    have hacts : (Input.tcp (fun _ => .calm) (b.peers k).slot .error).acts b.server = [.close (b.peers k).slot] := by
      simp only [Input.acts, htcp, ↓reduceIte]
    have hhandle : handleStep b.server (.tcp (fun _ => .calm) (b.peers k).slot .error) =
        (closeClientSocket b.server (b.peers k).slot, []) := by
      rw [handle_eq_acts, hacts]
      rfl
    have hafter : (b.setPeer k { b.peers k with linked := false, toServer := [] }).handle none (fun _ => .calm)
        (.tcp (fun _ => .calm) (b.peers k).slot .error) =
        (⟨closeClientSocket b.server (b.peers k).slot,
          (b.setPeer k { b.peers k with linked := false, toServer := [] }).peers⟩, []) := by
      have hserver : (b.setPeer k { b.peers k with linked := false, toServer := [] }).server = b.server := rfl
      rw [ByteWorld.handle, hserver, hhandle, hacts]
      refine Prod.ext (congrArg (ByteWorld.mk _) ?_) rfl
      funext j
      exact byteHear_nil _ _
    -- closing a slot keeps its bytes, and those of the others
    have hothers : ∀ j, Carried (closeClientSocket b.server (b.peers k).slot) (b.peers j) (w.peers j) := by
      intro j
      refine (h.peers j).server fun _ => ?_
      have hconn := congrArg Prod.snd (closeClientSocket_conn b.server (b.peers k).slot (b.peers j).slot)
      refine hconn.trans ?_
      split <;> rfl
    have hclosed : Carried (closeClientSocket b.server (b.peers k).slot)
        { b.peers k with linked := false, toServer := [] } { w.peers k with linked := false, toServer := [] } :=
      ⟨hk.client, hk.slot, rfl, (fun hl => by cases hl), hk.toClient⟩
    rw [byteStep]
    simp only [if_pos hl]
    rw [hafter]
    refine h.stands hrun ⟨⟨trivial, trivial⟩, trivial⟩ ?_ ?_ (.refl [])
    · rw [hk.slot]
      exact congrArg (closeClientSocket · (b.peers k).slot) h.server
    · intro j
      simp only [World.act, linkAct_close, hear_nil]
      exact carried_setPeer (fun j _ => hothers j) hclosed j
  · rw [byteStep]
    simp only [if_neg hl]
    exact h.idle

theorem stands_lose (h : Refines b w) : Stands w (byteStep b (.lose k)) := by
  have hk := h.peers k
  have hrun : run worldStep w [.lose k] = worldStep w (.lose k) := rfl
  refine h.stands hrun ⟨⟨trivial, trivial⟩, trivial⟩ h.server ?_ (.refl [])
  refine carried_setPeer (fun j _ => h.peers j) ⟨?_, hk.slot, rfl, (fun hl => by cases hl), spells_nil⟩
  rw [hk.client]

theorem stands_restart (h : Refines b w) (cid : List UInt8) : Stands w (byteStep b (.restart cid)) := by
  have hrun : run worldStep w [.restart cid] = worldStep w (.restart cid) := rfl
  refine h.stands hrun ⟨⟨trivial, trivial⟩, trivial⟩ rfl ?_ (.refl [])
  exact fun j => ⟨(h.peers j).client, (h.peers j).slot, rfl, (fun hl => by cases hl), (h.peers j).toClient⟩

theorem other_allowed (as : List Act) (w : World κ) (hal : Along act (fun s a => a.fits ∧ a.bounded s) w.server as)
    (hspares : ∀ k, (w.peers k).linked = true → ∀ a ∈ as, a.spares (w.peers k).slot) :
    Along worldStep World.proper w (as.map .other) := by
  induction as generalizing w with
  | nil => trivial
  | cons a as ih =>
    refine ⟨⟨⟨hal.1.1, hal.1.2, fun k hl => Or.inl (hspares k hl a (by simp))⟩, trivial⟩, ih (w.act none a).1 hal.2 ?_⟩
    intro k hl b hb
    simp only [World.act, hear_linked, hear_slot] at hl ⊢
    exact hspares k hl b (by simp [hb])

theorem stands_other (h : Refines b w) {i : Input} {net : κ → Net} (ha : b.allows (.other i net)) :
    Stands w (byteStep b (.other i net)) := by
  obtain ⟨hfits, hspares, hthrough, hnet⟩ := ha
  have hwithin : b.server.Within := h.server ▸ h.inv.within
  have hhandle := handle_eq_acts b.server i
  have hrun := run_other (i.acts b.server) w
  have hbounded : Along act (fun s a => a.bounded s) b.server (i.acts b.server) :=
    along_of_invariant (fun _ _ (_ : True) _ => trivial) (fun _ _ _ ha => ha.2) _ _ trivial hfits
  have hframed := run_framed hwithin hbounded
  have hslots : ∀ k, (w.peers k).linked = true → ∀ a ∈ i.acts b.server, a.spares (w.peers k).slot := by
    intro k hl
    rw [(h.peers k).slot]
    exact acts_spare _ (hspares k ((h.peers k).linked.symm.trans hl))
  refine h.stands hrun (other_allowed _ w (h.server ▸ hfits) hslots) ?_ ?_ ?_
  · rw [byteStep, ByteWorld.handle, World.acts, hhandle, h.server, run_linkAct]
  · intro j
    rw [byteStep, ByteWorld.handle, World.acts, hhandle, h.server]
    refine Carried.hear ((h.peers j).server fun hl => ?_) hframed (hnet j) fun hl => run_delivers (hthrough j hl)
    have hwl := (h.peers j).linked.trans hl
    have htcp := h.inv.held j hwl
    rw [h.server, (h.peers j).slot] at htcp
    have hconn := handle_conn_other htcp i (hspares j hl)
    rw [hhandle] at hconn
    exact congrArg Prod.snd hconn
  · rw [byteStep, ByteWorld.handle, World.acts, h.server]
    exact .refl _

/-- **A step over bytes is matched by steps over packets.** -/
theorem Refines.step (h : Refines b w) (a : ByteStep κ) (ha : b.allows a) : Stands w (byteStep b a) := by
  cases a with
  | call k a net => exact stands_call h ha
  | announce k env net => exact stands_announce h ha
  | connect k fd fd' addr => exact stands_connect h ha
  | serve k env n net => exact stands_serve h ha
  | receive k env beyond n net => exact stands_receive h ha
  | drop k => exact stands_drop h
  | lose k => exact stands_lose h
  | other i net => exact stands_other h ha
  | restart cid => exact stands_restart h cid

omit [DecidableEq κ] in
theorem Refines.start (clients : κ → Connect) (cid : List UInt8) :
    Refines (ByteWorld.start clients cid) (World.start clients cid) :=
  ⟨.start clients cid, rfl, fun _ => ⟨rfl, rfl, rfl, (fun hl => by cases hl), spells_nil⟩⟩

end Step

/-! ## Runs -/

section Runs

variable {κ : Type} [DecidableEq κ]

/-- **Bytes are packets.** Every run of the system over bytes in which no send fails, whatever the boundaries of the reads
as long as none is shorter than a header and no slot is taken with bytes of an earlier connection in it, is a run of
the system over packets: each client sends, processes and does the same, in the same order, and the same writes are
accepted; the server and the clients end in the same states, and the bytes on their way are those of the packets on
their way. -/
theorem bytes_are_packets (clients : κ → Connect) (cid : List UInt8) (as : List (ByteStep κ))
    (hal : Along byteStep ByteWorld.allows (.start clients cid) as) :
    ∃ bs, Along worldStep World.proper (.start clients cid) bs ∧
      Refines (run byteStep (.start clients cid) as).1 (run worldStep (.start clients cid) bs).1 ∧
      SameView (run byteStep (.start clients cid) as).2 (run worldStep (.start clients cid) bs).2 := by
  have hstep : ∀ (b : ByteWorld κ) w a, Refines b w → b.allows a →
      ∃ bs, Matches worldStep World.proper Refines SameView w (byteStep b a).1 (byteStep b a).2 bs :=
    fun b w a h ha => h.step a ha
  obtain ⟨bs, hmatch⟩ := run_matches (.refl []) (fun h h' => h.append h') hstep _ _ (Refines.start clients cid) as hal
  exact ⟨bs, hmatch.allowed, hmatch.related, hmatch.alike⟩

/-- Two clients that never were connected, and a server. -/
def bytePairStart : ByteWorld Bool := .start (fun _ => connectCreate [] []) []

/-- The first client subscribes an event and defines another; a read of the server ends within a packet. -/
def splitSteps : List (ByteStep Bool) :=
  [.call false (.subscribe .calm (typeForce ||| typeVarString) [97] (some 1) 2) .calm, .connect false 5 7 ⟨1, 2⟩,
    .announce false .calm .calm, .serve false (fun _ => .calm) 100 (fun _ => .calm),
    .call false (.define .calm [98] typeVarString) .calm, .serve false (fun _ => .calm) 200 (fun _ => .calm)]

theorem split_allowed : Along byteStep ByteWorld.allows bytePairStart splitSteps :=
  ⟨⟨(fun _ _ _ _ _ h => by cases h), trivial, rfl, Net.calm_whole⟩, fun _ _ => rfl, ⟨rfl, Net.calm_whole⟩,
    ⟨Or.inr (by decide +kernel), fun _ _ => rfl, fun _ => Net.calm_whole⟩,
    ⟨(fun _ _ _ _ _ h => by cases h), trivial, rfl, Net.calm_whole⟩,
    ⟨Or.inr (by decide +kernel), fun _ _ => rfl, fun _ => Net.calm_whole⟩, trivial⟩

/-- After the first read the server keeps 40 bytes; after the second it has served all three packets. -/
theorem split_packets :
    (∃ bs, Along worldStep World.proper pairStart bs ∧
      Refines (run byteStep bytePairStart splitSteps).1 (run worldStep pairStart bs).1 ∧
      SameView (run byteStep bytePairStart splitSteps).2 (run worldStep pairStart bs).2) ∧
      ((run byteStep bytePairStart (splitSteps.take 4)).1.server.clients 0).buffer.length = 40 ∧
      ((run byteStep bytePairStart splitSteps).1.server.clients 0).rxEventCount = 3 :=
  ⟨bytes_are_packets _ _ _ split_allowed, by decide +kernel, by decide +kernel⟩

end Runs

end SyncScribe
