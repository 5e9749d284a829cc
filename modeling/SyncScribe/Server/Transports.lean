import SyncScribe.Server.Clients

/-!
One client over two transports. A server to which the client of a slot is connected
over TCP, and one to which it is registered over UDP, differ in the socket and the
address of the slot, in the addresses the channels announced from it carry, and in
the count of sends that failed. Every packet but a `CLIENT_ID` leaves them so.
-/

namespace SyncScribe
open Lib Lib.Bytes Lib.Slots

/-- The server but for its clients, its channels and the count of registrations. -/
def Server.core (s : Server) : Id × (EventIx → Event) × UInt32 × UInt32 × UInt32 × Int × UInt64 :=
  (s.id, s.events, s.eventCount, s.channelCount, s.clientCount, s.syncOffset, s.updateCounter)

/-- The server `v` is `u` with the client of slot `c` on UDP instead of TCP. -/
structure OverUdp (env : Env) (c : ClientIx) (u v : Server) : Prop where
  core : v.core = u.core
  channels : ∀ k, ∃ ip, v.channels k = { u.channels k with ticket := { (u.channels k).ticket with ip := ip } }
  others : ∀ i, i ≠ c → v.clients i = u.clients i
  tcp : -1 < (u.clients c).socketfd
  client : ∃ addr errors, v.clients c =
      { u.clients c with addr := addr, socketfd := udpSocketStub, txError := errors } ∧
    (env.sendFails c = false → errors = (u.clients c).txError)

namespace OverUdp

variable {env : Env} {u v : Server} {c i : ClientIx} {e : EventIx} {id : Id} {flags dataType size : UInt32}
  {data : List UInt8}

theorem events (h : OverUdp env c u v) : v.events = u.events := congrArg (fun t => t.2.1) h.core
theorem updateCounter (h : OverUdp env c u v) : v.updateCounter = u.updateCounter :=
  congrArg (fun t => t.2.2.2.2.2.2) h.core

/-- A store into a client that reads neither its socket nor its address nor its failures. -/
theorem modify (h : OverUdp env c u v) {f : Client → Client}
    (hf : ∀ cl addr fd errors, f { cl with addr := addr, socketfd := fd, txError := errors } =
      { f cl with addr := addr, socketfd := fd, txError := errors }) :
    OverUdp env c (u.modifyClient i f) (v.modifyClient i f) := by
  have hfd : ∀ cl : Client, (f cl).socketfd = cl.socketfd := by
    intro cl
    have heq := congrArg Client.socketfd (hf cl cl.addr cl.socketfd cl.txError)
    exact heq
  have herror : ∀ cl : Client, (f cl).txError = cl.txError := by
    intro cl
    have heq := congrArg Client.txError (hf cl cl.addr cl.socketfd cl.txError)
    exact heq
  refine ⟨h.core, h.channels, fun j hj => ?_, ?_, ?_⟩
  · simp only [Server.modifyClient_clients, h.others j hj]
    split
    · rename_i hji
      rw [h.others i (hji ▸ hj)]
    · rfl
  · rw [Server.modifyClient_clients]
    split
    · rename_i hci
      rw [hfd, ← hci]
      exact h.tcp
    · exact h.tcp
  · obtain ⟨addr, errors, hc, herr⟩ := h.client
    refine ⟨addr, errors, ?_, ?_⟩
    · simp only [Server.modifyClient_clients]
      split
      · rename_i hci
        rw [← hci, hc, hf]
      · exact hc
    · intro hok
      rw [herr hok, Server.modifyClient_clients]
      split
      · rename_i hci
        rw [herror, ← hci]
      · rfl

/-- A store into another client. -/
theorem modify_other (h : OverUdp env c u v) (hi : i ≠ c) (f : Client → Client) :
    OverUdp env c (u.modifyClient i f) (v.modifyClient i f) := by
  have hc : ∀ s : Server, (s.modifyClient i f).clients c = s.clients c := fun s => by
    rw [Server.modifyClient_clients, if_neg hi.symm]
  refine ⟨h.core, h.channels, fun j hj => ?_, ?_, ?_⟩
  · simp only [Server.modifyClient_clients, h.others j hj, h.others i hi]
  · rw [hc]
    exact h.tcp
  · rw [hc, hc]
    exact h.client

/-- The same stores into the events and the counters. -/
theorem of_core (h : OverUdp env c u v) {u' v' : Server} (hcore : v'.core = u'.core) (huc : u'.clients = u.clients)
    (huk : u'.channels = u.channels) (hvc : v'.clients = v.clients) (hvk : v'.channels = v.channels) :
    OverUdp env c u' v' :=
  ⟨hcore, huk ▸ hvk ▸ h.channels, huc ▸ hvc ▸ h.others, huc ▸ h.tcp, huc ▸ hvc ▸ h.client⟩

theorem core_eq (h : OverUdp env c u v) : v.id = u.id ∧ v.events = u.events ∧ v.eventCount = u.eventCount ∧
    v.channelCount = u.channelCount ∧ v.clientCount = u.clientCount ∧ v.syncOffset = u.syncOffset ∧
    v.updateCounter = u.updateCounter := by
  have hcore := h.core
  simp only [Server.core, Prod.mk.injEq] at hcore
  exact hcore

theorem setEvent (h : OverUdp env c u v) (e : EventIx) (ev : Event) :
    OverUdp env c (u.setEvent e ev) (v.setEvent e ev) :=
  h.of_core (by simp only [Server.core, Server.setEvent, h.core_eq]) rfl rfl rfl rfl

theorem findEvent_eq (h : OverUdp env c u v) (id : Id) : findEvent v id = findEvent u id := by
  simp only [findEvent, h.events]

/-! ## Sending -/

/-- One round of `syncs_send_event`: only over TCP can the send to `c` fail. -/
theorem sendOne (h : OverUdp env c u v) (i : ClientIx) :
    OverUdp env c
      (if clientSend env u i ≠ 0 then u.modifyClient i fun cl => { cl with txError := cl.txError + 1 } else u)
      (if clientSend env v i ≠ 0 then v.modifyClient i fun cl => { cl with txError := cl.txError + 1 } else v) := by
  by_cases hi : i = c
  · subst hi
    obtain ⟨addr, errors, hc, herr⟩ := h.client
    have hstub : ¬ udpSocketStub > -1 := by decide
    have hv : clientSend env v i = 0 := by
      simp only [clientSend, hc, if_neg hstub, ↓reduceIte]
    have hu : clientSend env u i = if env.sendFails i then -1 else 0 := by
      rw [clientSend, if_pos h.tcp]
    rw [if_neg (not_not.mpr hv), hu]
    cases hfail : env.sendFails i with
    | false => exact h
    | true =>
      rw [if_pos (by decide)]
      have hself : (u.modifyClient i fun cl => { cl with txError := cl.txError + 1 }).clients i =
          { u.clients i with txError := (u.clients i).txError + 1 } := by
        rw [Server.modifyClient_clients, if_pos rfl]
      refine ⟨h.core, h.channels, fun j hj => ?_, ?_, addr, errors, ?_, fun hok => ?_⟩
      · rw [Server.modifyClient_clients, if_neg hj]
        exact h.others j hj
      · rw [hself]
        exact h.tcp
      · rw [hself, hc]
      · rw [hfail] at hok
        cases hok
  · have hsame : clientSend env v i = clientSend env u i := by simp only [clientSend, h.others i hi]
    rw [hsame]
    split
    · exact h.modify_other hi _
    · exact h

theorem sendLoop (h : OverUdp env c u v) (ev : Event) (p p' : Packet) (is : List (Fin clientMaximum)) :
    OverUdp env c (sendEventLoop env ev flags p is u).1 (sendEventLoop env ev flags p' is v).1 := by
  induction is generalizing u v with
  | nil => exact h
  | cons i is ih =>
    unfold sendEventLoop
    split
    · exact ih h
    · split
      · exact ih ((h.modify (by intros; rfl)).sendOne _)
      · exact ih h

theorem sent (h : OverUdp env c u v) (e : EventIx) :
    OverUdp env c (sendEvent env u e flags).1 (sendEvent env v e flags).1 := by
  unfold sendEvent
  rw [h.events]
  exact h.sendLoop _ _ _ _

/-! ## Events -/

/-- The same event is opened on both servers, or none. -/
theorem opened (h : OverUdp env c u v) (id : Id) (flags dataType : UInt32) :
    (∃ r, openEvent u id flags dataType = .error r ∧ openEvent v id flags dataType = .error r) ∨
      ∃ u' v' e, openEvent u id flags dataType = .ok (u', e) ∧ openEvent v id flags dataType = .ok (v', e) ∧
        OverUdp env c u' v' := by
  unfold openEvent createEvent
  rw [h.findEvent_eq, h.events]
  cases findEvent u id with
  | some e => exact Or.inr ⟨u, v, e, rfl, rfl, h⟩
  | none =>
    simp only
    split
    · exact Or.inl ⟨-1, rfl, rfl⟩
    · cases first fun e => (u.events e).id.i0 == freeMark with
      | none => exact Or.inl ⟨-2, rfl, rfl⟩
      | some e =>
        refine Or.inr ⟨_, _, e, rfl, rfl, h.of_core ?_ rfl rfl rfl rfl⟩
        simp only [Server.core, Server.setEvent, h.core_eq]

theorem added (h : OverUdp env c u v) (i : ClientIx) (e : EventIx) :
    OverUdp env c (addClientToEvent u i e).2 (addClientToEvent v i e).2 := by
  unfold addClientToEvent
  rw [h.events]
  split
  · exact h
  · split
    · dsimp only
      exact (h.setEvent e _).modify (by intros; rfl)
    · exact h

theorem removed (h : OverUdp env c u v) (i : ClientIx) (e : EventIx) :
    OverUdp env c (removeClientFromEvent u i e) (removeClientFromEvent v i e) := by
  unfold removeClientFromEvent
  rw [h.events]
  split
  · exact (h.setEvent e _).modify (by intros; rfl)
  · exact h

theorem subscribe (h : OverUdp env c u v) (i : ClientIx) (id : Id) (flags : UInt32) (updateCounter : UInt64) :
    OverUdp env c (clientSubscribe env u i id flags updateCounter).server
      (clientSubscribe env v i id flags updateCounter).server := by
  unfold clientSubscribe
  rcases h.opened id flags (flags &&& typeVarMask) with ⟨r, hu, hv⟩ | ⟨u', v', e, hu, hv, h'⟩
  · simp only [hu, hv]
    exact h
  · simp only [hu, hv]
    rw [h'.events]
    split
    · have hadd := h'.added i e
      rw [hadd.events]
      split
      · unfold resendEvent sendCounted
        dsimp only
        exact hadd.modify (by intros; rfl)
      · exact hadd
    · exact h'

theorem unsubscribe (h : OverUdp env c u v) (i : ClientIx) (id : Id) :
    OverUdp env c (clientUnsubscribe u i id) (clientUnsubscribe v i id) := by
  unfold clientUnsubscribe
  rw [h.findEvent_eq]
  split
  · exact h.removed i _
  · exact h

theorem define (h : OverUdp env c u v) (id : Id) (flags : UInt32) (mem : Option (List UInt8)) (size : UInt32) :
    OverUdp env c (addEvent u id flags mem size).server (addEvent v id flags mem size).server := by
  unfold addEvent createEvent
  rw [h.findEvent_eq, h.events]
  split
  · split
    · exact h
    · exact h.setEvent _ _
  · cases first fun e => (u.events e).id.i0 == freeMark with
    | none => exact h
    | some e =>
      refine h.of_core ?_ rfl rfl rfl rfl
      simp only [Server.core, Server.setEvent, h.core_eq]

theorem undefine (h : OverUdp env c u v) (id : Id) : OverUdp env c (freeEvent u id) (freeEvent v id) := by
  unfold freeEvent
  rw [h.findEvent_eq]
  split
  · exact h.of_core (by simp only [Server.core, Server.setEvent, h.core_eq]) rfl rfl rfl rfl
  · exact h

theorem written (h : OverUdp env c u v) (i : ClientIx) (id : Id) (flags : UInt32) (data : List UInt8) (size : UInt32) :
    OverUdp env c (clientWrite env u i id flags data size).server (clientWrite env v i id flags data size).server := by
  unfold clientWrite
  rcases h.opened id flags (flags &&& typeVarMask) with ⟨r, hu, hv⟩ | ⟨u', v', e, hu, hv, h'⟩
  · simp only [hu, hv]
    exact h
  · simp only [hu, hv, clientWriteEvent, h'.events]
    split
    · exact h'
    · refine OverUdp.sent ?_ e
      have hstore : writeStore v' i (u'.events e) data size = writeStore u' i (u'.events e) data size := by
        simp only [writeStore, h'.updateCounter]
      rw [hstore]
      have hmod := (h'.setEvent e (writeStore u' i (u'.events e) data size)).modify (i := i)
        (f := fun cl => { cl with eventWrite := cl.eventWrite + 1 }) (by intros; rfl)
      refine hmod.of_core ?_ rfl rfl rfl rfl
      simp only [Server.core, Server.modifyClient, Server.setEvent, h'.core_eq]

/-! ## Channels -/

theorem channel_id (h : OverUdp env c u v) (k : ChannelIx) : (v.channels k).id = (u.channels k).id := by
  obtain ⟨ip, hk⟩ := h.channels k
  rw [hk]

/-- Stores into one channel that differ in the address of the ticket at most. -/
theorem setChannel (h : OverUdp env c u v) (k : ChannelIx) {ch ch' : Channel}
    (hch : ∃ ip, ch' = { ch with ticket := { ch.ticket with ip := ip } }) :
    OverUdp env c (u.setChannel k ch) (v.setChannel k ch') := by
  refine ⟨h.core, fun j => ?_, h.others, h.tcp, h.client⟩
  by_cases hj : j = k
  · subst hj
    simpa [Server.setChannel] using hch
  · simpa [Server.setChannel, hj] using h.channels j

/-- An announcement stores the address it came from. -/
theorem announced (h : OverUdp env c u v) (i : ClientIx) (id : Id) (data : List UInt8) :
    OverUdp env c (addChannel u i id data).server (addChannel v i id data).server := by
  have hids : (fun k => idcmp (v.channels k).id id) = fun k => idcmp (u.channels k).id id := by
    funext k
    rw [h.channel_id]
  have hfree : (fun k => (v.channels k).id.i0 == freeMark) = fun k => (u.channels k).id.i0 == freeMark := by
    funext k
    rw [h.channel_id]
  unfold addChannel findChannel createChannel
  dsimp only
  rw [hids, hfree]
  cases first fun k => idcmp (u.channels k).id id with
  | some k =>
    obtain ⟨ip, hk⟩ := h.channels k
    exact h.setChannel k ⟨(v.clients i).addr.ip, by rw [hk]; rfl⟩
  | none =>
    cases first fun k => (u.channels k).id.i0 == freeMark with
    | none => exact h
    | some k =>
      obtain ⟨ip, hk⟩ := h.channels k
      have hset : OverUdp env c
          (u.setChannel k (addChannelStore (channelInit (u.channels k) id) i (u.clients i).addr
            (Ticket.decode (read data ticketSize))))
          (v.setChannel k (addChannelStore (channelInit (v.channels k) id) i (v.clients i).addr
            (Ticket.decode (read data ticketSize)))) :=
        h.setChannel k ⟨(v.clients i).addr.ip, by rw [hk]; rfl⟩
      refine ⟨?_, ?_, h.others, h.tcp, h.client⟩
      · simp only [Server.core, Server.setChannel, h.core_eq]
      · simpa [Server.setChannel] using hset.channels

theorem channel (h : OverUdp env c u v) (i : ClientIx) (p : Packet) :
    OverUdp env c (clientChannel env u i p).server (clientChannel env v i p).server := by
  rw [clientChannel_server, clientChannel_server]
  split
  · exact h.announced i _ _
  · exact h

/-! ## Lists -/

theorem connected_eq (h : OverUdp env c u v) (i : ClientIx) : (v.clients i).connected = (u.clients i).connected := by
  by_cases hi : i = c
  · subst hi
    obtain ⟨addr, errors, hc, _⟩ := h.client
    have htcp := h.tcp
    have hne : (u.clients i).socketfd ≠ -1 := by omega
    rw [hc]
    simp [Client.connected, hne, udpSocketStub]
  · rw [h.others i hi]

/-- The loop of a list enters the same slots and sends as often. -/
theorem listStep {n : Nat} {k : ListKind n} {st st' : ListState} (i : Fin n)
    (hocc : k.occupied st'.server i = k.occupied st.server i) (h : OverUdp env c st.server st'.server)
    (hcount : st'.count = st.count) (d : ClientIx) :
    OverUdp env c (listStep k d st i).server (listStep k d st' i).server ∧
      (SyncScribe.listStep k d st' i).count = (SyncScribe.listStep k d st i).count := by
  unfold SyncScribe.listStep
  rw [hocc, hcount]
  split
  · simp only
    split
    · refine ⟨?_, rfl⟩
      unfold sendCounted
      dsimp only
      exact h.modify (by intros; rfl)
    · exact ⟨h, rfl⟩
  · exact ⟨h, hcount⟩

theorem list {n : Nat} {k : ListKind n} (hocc : ∀ {u v}, OverUdp env c u v → ∀ i, k.occupied v i = k.occupied u i)
    (h : OverUdp env c u v) (d : ClientIx) (sequance : UInt8) :
    OverUdp env c (sendList env k u d sequance).1 (sendList env k v d sequance).1 := by
  have hloop : ∀ (is : List (Fin n)) (st st' : ListState), OverUdp env c st.server st'.server → st'.count = st.count →
      OverUdp env c (is.foldl (SyncScribe.listStep k d) st).server (is.foldl (SyncScribe.listStep k d) st').server := by
    intro is
    induction is with
    | nil => exact fun _ _ hst _ => hst
    | cons i is ih =>
      intro st st' hst hcount
      obtain ⟨hst', hcount'⟩ := listStep i (hocc hst i) hst hcount d
      exact ih _ _ hst' hcount'
  have hend := hloop (List.finRange n) ⟨u, listPacket env k u sequance, 0, []⟩ ⟨v, listPacket env k v sequance, 0, []⟩
    h rfl
  unfold sendList sendCounted
  dsimp only
  exact hend.modify (by intros; rfl)

/-! ## Packets -/

/-- **One packet**, over either transport. -/
theorem packet (h : OverUdp env c u v) (i : ClientIx) {p : Packet} (hm : p.header.msg ≠ .clientId) :
    OverUdp env c (clientProcessPacket env u i p).server (clientProcessPacket env v i p).server := by
  have hcount : ∀ {u v : Server}, OverUdp env c u v →
      OverUdp env c (u.modifyClient i fun cl => { cl with rxEventCount := cl.rxEventCount + 1 })
        (v.modifyClient i fun cl => { cl with rxEventCount := cl.rxEventCount + 1 }) :=
    fun huv => huv.modify (by intros; rfl)
  cases hmsg : p.header.msg
  all_goals simp only [clientProcessPacket, clientDispatch, hmsg]
  case clientId => exact absurd hmsg hm
  case subscribe => exact hcount (h.subscribe i _ _ _)
  case unsubscribe => exact hcount (h.unsubscribe i _)
  case define => exact hcount (h.define _ _ _ _)
  case undefine => exact hcount (h.undefine _)
  case write => exact hcount (h.written i _ _ _ _)
  case read =>
    refine hcount ?_
    unfold clientRead sendCounted
    dsimp only
    exact h.modify (by intros; rfl)
  case clientList => exact hcount (h.list (fun h => h.connected_eq) i _)
  case eventList => exact hcount (h.list (fun h i => congrArg (fun t => (t i).live) h.events) i _)
  case channelList => exact hcount (h.list (fun h k => congrArg (fun id => id.i0 != freeMark) (h.channel_id k)) i _)
  case channel => exact hcount (h.channel i p)
  all_goals exact h

end OverUdp

end SyncScribe
