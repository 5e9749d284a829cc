import SyncScribe.Server.Journal

/-!
What packets do outside the event table. Sockets move only when a connection is
closed, receive buffers never, the server's counter with accepted writes only.
-/

namespace SyncScribe
open Lib Lib.Bytes Lib.Slots Lib.Keyed

variable {env : Env} {s s' : Server} {c i : ClientIx} {e : EventIx} {id : Id}
  {flags dataType size : UInt32} {data cid : List UInt8}

/-! ## Calls that touch the event table only -/

theorem openEvent_rest (ho : openEvent s id flags dataType = .ok (s', e)) : SameRest s s' := by
  rcases openEvent_ok ho with ⟨_, rfl⟩ | ⟨_, _, _, rfl⟩
  · exact SameRest.refl _
  · exact ⟨fun _ => rfl, rfl, rfl⟩

theorem clientSubscribe_rest (updateCounter : UInt64) :
    SameRest s (clientSubscribe env s c id flags updateCounter).server := by
  by_cases hr : (clientSubscribe env s c id flags updateCounter).ret = 0
  · obtain ⟨s', e, ho, _, hq, _⟩ := clientSubscribe_accepted hr
    exact ((openEvent_rest ho).trans addClientToEvent_rest).trans hq.sameRest
  · rw [(clientSubscribe_refused hr).1]
    exact SameRest.refl s

theorem addEvent_rest (mem : Option (List UInt8)) : SameRest s (addEvent s id flags mem size).server := by
  unfold addEvent
  split
  · split
    · exact SameRest.refl s
    · exact (SameRest.refl s).setEvent _ _
  · split
    · exact SameRest.refl s
    · rename_i s' e hc
      obtain ⟨_, rfl⟩ := createEvent_some hc
      exact ⟨fun _ => rfl, rfl, rfl⟩

/-- An accepted write advances the counter of the server by one. -/
theorem clientWrite_rest (hr : (clientWrite env s c id flags data size).ret = 0) :
    SameRest { s with updateCounter := s.updateCounter + 1 }
      (clientWrite env s c id flags data size).server := by
  obtain ⟨s', e, ho, _, hs, _⟩ := clientWrite_accepted hr
  have hopen := openEvent_rest ho
  have hstore : SameRest s' ((s'.setEvent e (writeStore s' c (s'.events e) data size)).modifyClient c
      fun cl => { cl with eventWrite := cl.eventWrite + 1 }) :=
    ((SameRest.refl s').setEvent e _).modify (fun _ => rfl) (fun _ => rfl)
  have hwritten : SameRest { s with updateCounter := s.updateCounter + 1 } (writtenServer s' c e data size) :=
    ⟨fun i => (hstore.conn i).trans (hopen.conn i), hopen.channels,
      by simp [writtenServer, hopen.updateCounter]⟩
  rw [hs]
  exact hwritten.trans (sendEvent_quiet _ _ _ _).sameRest

theorem serverWrite_rest : SameRest s (serverWrite env s flags cid data size).server := by
  by_cases hr : (serverWrite env s flags cid data size).ret = 0
  · obtain ⟨s', e, ho, hs, _⟩ := serverWrite_accepted hr
    rw [hs]
    exact ((openEvent_rest ho).setEvent e _).trans (sendEvent_quiet _ _ _ _).sameRest
  · rw [(serverWrite_refused hr).1]
    exact SameRest.refl s

theorem serverSubscribeEvent_rest (cb : Option Nat) (args : Nat) :
    SameRest s (serverSubscribeEvent s flags cid cb args).server := by
  by_cases hr : (serverSubscribeEvent s flags cid cb args).ret = 0
  · obtain ⟨s', e, ho, hs⟩ := serverSubscribeEvent_accepted hr
    rw [hs]
    exact (openEvent_rest ho).setEvent e _
  · rw [serverSubscribeEvent_refused hr]
    exact SameRest.refl s

theorem serverUnsubscribeEvent_rest : SameRest s (serverUnsubscribeEvent s cid) := by
  unfold serverUnsubscribeEvent
  split
  · exact (SameRest.refl s).setEvent _ _
  · exact SameRest.refl s

theorem serverDefine_rest (mem : Option (List UInt8)) : SameRest s (serverDefine s cid flags mem size).server := by
  unfold serverDefine
  split
  · exact SameRest.refl s
  · exact addEvent_rest mem

/-! ## Closing -/

theorem closeClientSocket_conn (s : Server) (c i : ClientIx) :
    (closeClientSocket s c).conn i = if i = c then (-1, (s.clients i).buffer) else s.conn i := by
  have hr := (removeClientFromEvents_rest s c).conn i
  simp only [Server.conn, Prod.mk.injEq] at hr
  simp only [Server.conn, closeClientSocket, Server.modifyClient_clients, removeChannelsOfClient]
  split
  · rename_i h
    subst h
    simp only [hr.2]
  · rw [hr.1, hr.2]

theorem closeClientSocket_channels (s : Server) (c : ClientIx) (k : ChannelIx) :
    (closeClientSocket s c).channels k =
      if (s.channels k).live && (s.channels k).producer == some c then
        { s.channels k with id := (s.channels k).id.free }
      else s.channels k := by
  simp only [closeClientSocket, Server.modifyClient_channels, removeChannelsOfClient,
    (removeClientFromEvents_rest s c).channels]

/-! ## Packets -/

theorem clientIdentify_conn (hd : Header) (hm : hd.msg = .clientId) (i : ClientIx) :
    (clientIdentify env s c hd).1.conn i =
      if i = c ∧ hd.unsupported = true then (-1, (s.clients i).buffer) else s.conn i := by
  have hu : hd.unsupported = true ↔ hd.sync.data0 ≠ versionMajor := by simp [Header.unsupported, hm]
  have hq : ∀ code, Quiet s (sendServerStatus env s c code).1 := fun code => sendCounted_quiet s c _
  rw [clientIdentify, conn_modify (by intro; rfl) (by intro; rfl)]
  by_cases hv : hd.sync.data0 ≠ versionMajor
  · rw [if_pos hv, closeClientSocket_conn]
    simp only [hu.mpr hv, and_true, (hq _).sameRest.conn i, (hq _).buffer i]
  · rw [if_neg hv, if_neg fun h => hv (hu.mp h.2), (hq _).sameRest.conn i]

theorem clientChannel_clients (p : Packet) : (clientChannel env s c p).server.clients = s.clients := by
  rw [clientChannel_frame]

/-- Packets other than WRITE, CLIENT_ID and CHANNEL change events and nothing else. -/
theorem packet_sameRest (p : Packet) (hwrite : p.header.msg ≠ .write) (hid : p.header.msg ≠ .clientId)
    (hchannel : p.header.msg ≠ .channel) : SameRest s (clientProcessPacket env s c p).server := by
  -- the receive counter is bumped last
  have hcount : ∀ {u : Server}, SameRest s u →
      SameRest s (u.modifyClient c fun cl => { cl with rxEventCount := cl.rxEventCount + 1 }) :=
    fun hu => hu.modify (by intro; rfl) (by intro; rfl)
  cases hm : p.header.msg
  all_goals simp only [clientProcessPacket, clientDispatch, hm]
  case write => exact absurd hm hwrite
  case clientId => exact absurd hm hid
  case channel => exact absurd hm hchannel
  case subscribe => exact hcount (clientSubscribe_rest _)
  case unsubscribe => exact hcount clientUnsubscribe_rest
  case define => exact hcount (addEvent_rest _)
  case undefine => exact hcount freeEvent_rest
  case read => exact hcount (sendCounted_quiet s c _).sameRest
  case clientList => exact hcount (sendList_quiet env clientKind s c _).sameRest
  case eventList => exact hcount (sendList_quiet env eventKind s c _).sameRest
  case channelList => exact hcount (sendList_quiet env channelKind s c _).sameRest
  all_goals exact SameRest.refl s

/-- A WRITE may advance the counter of the server. -/
theorem packet_write_rest (p : Packet) (hm : p.header.msg = .write) :
    SameRest { s with updateCounter := s.updateCounter + (packetChange env s c p).ticks }
      (clientProcessPacket env s c p).server := by
  simp only [clientProcessPacket, clientDispatch, packetChange, hm]
  refine SameRest.modify ?_ (by intro; rfl) (by intro; rfl)
  by_cases hr : (clientWrite env s c p.header.id p.header.type p.buffer p.header.dataSize.toUInt32).ret = 0
  · simp only [accepted, hr, ↓reduceIte, Change.ticks, Change.isWrite]
    exact clientWrite_rest hr
  · rw [(clientWrite_refused hr).1]
    refine ⟨fun _ => rfl, rfl, ?_⟩
    simp [accepted, hr, Change.ticks, Change.isWrite]

/-- A packet closes the connection of its client or leaves all connections alone. -/
theorem packet_conn (p : Packet) (i : ClientIx) :
    (clientProcessPacket env s c p).server.conn i =
      if i = c ∧ p.header.unsupported = true then (-1, (s.clients i).buffer) else s.conn i := by
  have hcount : ∀ u : Server, (u.modifyClient c fun cl =>
      { cl with rxEventCount := cl.rxEventCount + 1 }).conn i = u.conn i :=
    fun u => conn_modify (by intro; rfl) (by intro; rfl) i
  by_cases hid : p.header.msg = .clientId
  · simp only [clientProcessPacket, clientDispatch, hid, hcount]
    exact clientIdentify_conn p.header hid i
  · have hnot : ¬ (i = c ∧ p.header.unsupported = true) := by simp [Header.unsupported, hid]
    rw [if_neg hnot]
    by_cases hwrite : p.header.msg = .write
    · exact (packet_write_rest p hwrite).conn i
    · by_cases hchannel : p.header.msg = .channel
      · simp only [clientProcessPacket, clientDispatch, hchannel, hcount]
        rw [Server.conn, clientChannel_clients, Server.conn]
      · exact (packet_sameRest p hwrite hid hchannel).conn i

/-! ## The counter of the server -/

theorem ticks_eq_zero {ch : Change} (h : ch.isWrite = false) : ch.ticks = 0 := by simp [Change.ticks, h]

theorem ticks_accepted (k : Edit) (ret : Int) (hk : ∀ created, (Change.edit id created k).isWrite = false) :
    (accepted s id ret k).ticks = 0 :=
  accepted_cases (P := fun ch => ch.ticks = 0) ret rfl fun created => ticks_eq_zero (hk created)

/-- An optional change that is not a write. -/
theorem ticks_ite {p : Prop} [Decidable p] {ch : Change} (h : ch.isWrite = false) :
    (if p then ch else .keep).ticks = 0 := by
  split
  · exact ticks_eq_zero h
  · rfl

theorem packet_updateCounter (env : Env) (s : Server) (c : ClientIx) (p : Packet) :
    (clientProcessPacket env s c p).server.updateCounter =
      s.updateCounter + (packetChange env s c p).ticks := by
  by_cases hwrite : p.header.msg = .write
  · exact (packet_write_rest p hwrite).updateCounter
  · have hticks : (packetChange env s c p).ticks = 0 := by
      have hcases := packetChange_cases env s c p
      generalize packetChange env s c p = ch at hcases ⊢
      cases hcases with
      | write created hm => exact absurd hm hwrite
      | _ => rfl
    rw [hticks, UInt64.add_zero]
    by_cases hid : p.header.msg = .clientId
    · simp only [clientProcessPacket, clientDispatch, hid, Server.modifyClient_updateCounter]
      exact clientIdentify_updateCounter p.header
    · by_cases hchannel : p.header.msg = .channel
      · simp only [clientProcessPacket, clientDispatch, hchannel, Server.modifyClient_updateCounter]
        exact (clientChannel_rest p).2
      · exact (packet_sameRest p hwrite hid hchannel).updateCounter

/-- **The counter counts the accepted writes of clients.** -/
theorem act_updateCounter (s : Server) (a : Act) :
    (act s a).1.updateCounter = s.updateCounter + (changeOf s a).ticks := by
  have hkeep : ∀ {u : Server} {n : UInt64}, u.updateCounter = s.updateCounter → n = 0 →
      u.updateCounter = s.updateCounter + n := by
    rintro u n hu rfl
    rw [hu, UInt64.add_zero]
  cases a with
  | accept accepted => exact hkeep (addClient_rest accepted).2.2 rfl
  | packet env c p => exact packet_updateCounter env s c p
  | datagram env addr p =>
    simp only [act, changeOf, uclientProcessPacket]
    cases hu : uclientOf s addr p.header with
    | none =>
      simp only
      split <;> exact hkeep rfl rfl
    | some sc =>
      obtain ⟨s', c⟩ := sc
      rw [← (uclientOf_rest hu).2.2]
      exact packet_updateCounter env s' c p
  | close c => exact hkeep (closeClientSocket_updateCounter s c) rfl
  | keep c buffer => exact hkeep rfl rfl
  | serverWrite env flags cid data size =>
    exact hkeep serverWrite_rest.updateCounter (ticks_accepted _ _ fun _ => rfl)
  | serverDefine cid flags mem size =>
    exact hkeep (serverDefine_rest mem).updateCounter (ticks_accepted _ _ fun _ => rfl)
  | serverUndefine cid => exact hkeep freeEvent_rest.updateCounter rfl
  | serverSubscribeEvent flags cid cb args =>
    exact hkeep (serverSubscribeEvent_rest cb args).updateCounter (ticks_accepted _ _ fun _ => rfl)
  | serverUnsubscribeEvent cid => exact hkeep serverUnsubscribeEvent_rest.updateCounter (ticks_ite rfl)
  | setSyncOffset ms => exact hkeep rfl rfl

end SyncScribe
