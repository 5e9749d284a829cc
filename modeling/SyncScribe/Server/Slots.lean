import SyncScribe.Server.Subscriptions
import SyncScribe.Server.Clients

/-!
Who is in which slot. Most of what the server does leaves the clients, the
channels and their counts alone (`SameSlots`): only an accepted connection, a
registration, a `CLIENT_ID` and a close change who is in a client's slot, and only
an announcement and a close change the channels.
-/

namespace SyncScribe
open Lib Lib.Bytes Lib.Slots Lib.Keyed

/-- Who a slot belongs to: identifier, socket and address. -/
def Client.identity (cl : Client) : Id × Int × SockAddr := (cl.id, cl.socketfd, cl.addr)

/-- `s'` has the same clients and channels in the same slots, and counts as many. -/
structure SameSlots (s s' : Server) : Prop where
  identity : ∀ c, (s'.clients c).identity = (s.clients c).identity
  clientCount : s'.clientCount = s.clientCount
  channels : s'.channels = s.channels
  channelCount : s'.channelCount = s.channelCount

section Frame

variable {env : Env} {s s' s'' : Server} {c : ClientIx} {e : EventIx} {id : Id} {flags size : UInt32}
  {data : List UInt8}

theorem SameSlots.refl (s : Server) : SameSlots s s := ⟨fun _ => rfl, rfl, rfl, rfl⟩

theorem SameSlots.trans (h : SameSlots s s') (h' : SameSlots s' s'') : SameSlots s s'' :=
  ⟨fun c => (h'.identity c).trans (h.identity c), h'.clientCount.trans h.clientCount,
    h'.channels.trans h.channels, h'.channelCount.trans h.channelCount⟩

/-- Stores into the events touch neither clients nor channels. -/
theorem SameSlots.of_events {events : EventIx → Event} {eventCount : UInt32} {updateCounter : UInt64}
    (h : SameSlots s s') :
    SameSlots s { s' with events := events, eventCount := eventCount, updateCounter := updateCounter } :=
  ⟨h.identity, h.clientCount, h.channels, h.channelCount⟩

theorem SameSlots.modify {f : Client → Client} (h : SameSlots s s') (hf : ∀ cl, (f cl).identity = cl.identity) :
    SameSlots s (s'.modifyClient c f) := by
  refine ⟨fun i => ?_, h.clientCount, h.channels, h.channelCount⟩
  rw [Server.modifyClient_clients]
  split
  · rename_i hi
    rw [hf, hi, h.identity]
  · exact h.identity i

theorem SameSlots.setEvent (h : SameSlots s s') (e : EventIx) (ev : Event) : SameSlots s (s'.setEvent e ev) :=
  h.of_events

theorem Quiet.sameSlots (h : Quiet s s') : SameSlots s s' := by
  refine ⟨fun c => ?_, h.clientCount, h.channels, h.channelCount⟩
  obtain ⟨tx, er, hc⟩ := h.clients c
  rw [hc]
  rfl

theorem addClientToEvent_slots : SameSlots s (addClientToEvent s c e).2 := by
  unfold addClientToEvent
  split
  · exact SameSlots.refl s
  · split
    · dsimp only
      exact ((SameSlots.refl s).setEvent e _).modify (by intro; rfl)
    · exact SameSlots.refl s

theorem removeClientFromEvent_slots : SameSlots s (removeClientFromEvent s c e) := by
  unfold removeClientFromEvent
  split
  · exact ((SameSlots.refl s).setEvent e _).modify (by intro; rfl)
  · exact SameSlots.refl s

theorem removeLoop_slots (c : ClientIx) (es : List EventIx) (s : Server) :
    SameSlots s (removeClientFromEventsLoop c es s) := by
  induction es generalizing s with
  | nil => exact SameSlots.refl s
  | cons e es ih =>
    unfold removeClientFromEventsLoop
    split
    · exact removeClientFromEvent_slots.trans (ih _)
    · exact ih s

theorem openEvent_slots {dataType : UInt32} (ho : openEvent s id flags dataType = .ok (s', e)) : SameSlots s s' := by
  rcases openEvent_ok ho with ⟨_, rfl⟩ | ⟨_, _, _, rfl⟩
  · exact SameSlots.refl _
  · exact (SameSlots.refl _).of_events

theorem clientSubscribe_slots (updateCounter : UInt64) :
    SameSlots s (clientSubscribe env s c id flags updateCounter).server := by
  by_cases hr : (clientSubscribe env s c id flags updateCounter).ret = 0
  · obtain ⟨s', e, ho, _, hq, _⟩ := clientSubscribe_accepted hr
    exact ((openEvent_slots ho).trans addClientToEvent_slots).trans hq.sameSlots
  · rw [(clientSubscribe_refused hr).1]
    exact SameSlots.refl s

theorem clientUnsubscribe_slots : SameSlots s (clientUnsubscribe s c id) := by
  unfold clientUnsubscribe
  split
  · exact removeClientFromEvent_slots
  · exact SameSlots.refl s

theorem addEvent_slots (mem : Option (List UInt8)) : SameSlots s (addEvent s id flags mem size).server := by
  unfold addEvent
  split
  · split <;> exact (SameSlots.refl _).of_events
  · split
    · exact SameSlots.refl s
    · rename_i s' e hc
      rw [(createEvent_some hc).2]
      exact (SameSlots.refl _).of_events

theorem freeEvent_slots : SameSlots s (freeEvent s id) := by
  unfold freeEvent
  split <;> exact (SameSlots.refl _).of_events

theorem clientWrite_slots : SameSlots s (clientWrite env s c id flags data size).server := by
  by_cases hr : (clientWrite env s c id flags data size).ret = 0
  · obtain ⟨s', e, ho, _, hs, _⟩ := clientWrite_accepted hr
    have hwritten : SameSlots s' (writtenServer s' c e data size) := by
      have h := ((SameSlots.refl s').setEvent e (writeStore s' c (s'.events e) data size)).modify (c := c)
        (f := fun cl => { cl with eventWrite := cl.eventWrite + 1 }) (by intro; rfl)
      exact h.of_events
    rw [hs]
    exact ((openEvent_slots ho).trans hwritten).trans (sendEvent_quiet _ _ _ _).sameSlots
  · rw [(clientWrite_refused hr).1]
    exact SameSlots.refl s

/-- `s'` is `s` without the client `c`, whose slot is empty and whose channels are gone. The counts stay. -/
structure SlotClosed (s : Server) (c : ClientIx) (s' : Server) : Prop where
  identity : ∀ i, (s'.clients i).identity =
    if i = c then ((s.clients c).id, -1, (s.clients c).addr) else (s.clients i).identity
  clientCount : s'.clientCount = s.clientCount
  channels : ∀ k, s'.channels k =
    if (s.channels k).live && (s.channels k).producer == some c then
      { s.channels k with id := (s.channels k).id.free }
    else s.channels k
  channelCount : s'.channelCount = s.channelCount

theorem closeClientSocket_slots (s : Server) (c : ClientIx) : SlotClosed s c (closeClientSocket s c) := by
  have h : SameSlots s (removeClientFromEvents s c) := by
    rw [removeClientFromEvents]
    exact removeLoop_slots c _ s
  rw [closeClientSocket]
  generalize removeClientFromEvents s c = t at h
  refine ⟨fun i => ?_, h.clientCount, fun k => ?_, h.channelCount⟩
  · rw [Server.modifyClient_clients]
    split
    · have hc := h.identity c
      simp only [Client.identity, Prod.mk.injEq] at hc ⊢
      exact ⟨hc.1, trivial, hc.2.2⟩
    · exact h.identity i
  · simp only [Server.modifyClient_channels, removeChannelsOfClient, h.channels]

/-- **Only a `CLIENT_ID` and a channel packet change who is in a slot.** -/
theorem packet_slots (p : Packet) (hid : p.header.msg ≠ .clientId) (hchannel : p.header.msg ≠ .channel) :
    SameSlots s (clientProcessPacket env s c p).server := by
  have hcount : ∀ {u : Server}, SameSlots s u →
      SameSlots s (u.modifyClient c fun cl => { cl with rxEventCount := cl.rxEventCount + 1 }) :=
    fun hu => hu.modify (by intro; rfl)
  cases hm : p.header.msg
  all_goals simp only [clientProcessPacket, clientDispatch, hm]
  case clientId => exact absurd hm hid
  case channel => exact absurd hm hchannel
  case subscribe => exact hcount (clientSubscribe_slots _)
  case unsubscribe => exact hcount clientUnsubscribe_slots
  case define => exact hcount (addEvent_slots none)
  case undefine => exact hcount freeEvent_slots
  case write => exact hcount clientWrite_slots
  case read => exact hcount (sendCounted_quiet s c _).sameSlots
  case clientList => exact hcount (sendList_quiet env clientKind s c _).sameSlots
  case eventList => exact hcount (sendList_quiet env eventKind s c _).sameSlots
  case channelList => exact hcount (sendList_quiet env channelKind s c _).sameSlots
  all_goals exact SameSlots.refl s

/-- A channel packet leaves the clients alone. -/
theorem packet_channel (p : Packet) (hm : p.header.msg = .channel) :
    (clientProcessPacket env s c p).server =
      Server.modifyClient { s with
        channels := (clientChannel env s c p).server.channels
        channelCount := (clientChannel env s c p).server.channelCount } c
        fun cl => { cl with rxEventCount := cl.rxEventCount + 1 } := by
  simp only [clientProcessPacket, clientDispatch, hm]
  rw [clientChannel_frame]

/-- What a `CLIENT_ID` makes of its slot. -/
theorem clientIdentify_identity (h : Header) (i : ClientIx) :
    ((clientIdentify env s c h).1.clients i).identity =
      if i = c then (h.id, if h.sync.data0 = versionMajor then (s.clients c).socketfd else -1, (s.clients c).addr)
      else (s.clients i).identity := by
  have hquiet : ∀ code, SameSlots s (sendServerStatus env s c code).1 := fun code =>
    (sendCounted_quiet s c _).sameSlots
  -- the identifier is stored last, whatever became of the connection
  have hstore : ∀ u : Server, ((u.modifyClient c fun cl => { cl with
      id := h.id, version := ((h.sync.data0 &&& 0xff) <<< 8) ||| (h.sync.data1 &&& 0xff) }).clients i).identity =
        if i = c then (h.id, (u.clients c).socketfd, (u.clients c).addr) else (u.clients i).identity := by
    intro u
    rw [Server.modifyClient_clients]
    split <;> rfl
  simp only [clientIdentify, hstore]
  by_cases hv : h.sync.data0 = versionMajor
  · have hq := hquiet errorNotfound
    have hc := hq.identity c
    simp only [Client.identity, Prod.mk.injEq] at hc
    simp only [hv, ne_eq, not_true_eq_false, ↓reduceIte, hc.2.1, hc.2.2, hq.identity i]
  · have hq := hquiet errorNotsupport
    have hclose := (closeClientSocket_slots (sendServerStatus env s c errorNotsupport).1 c).identity
    have hc := hclose c
    have hqc := hq.identity c
    simp only [Client.identity, Prod.mk.injEq, ↓reduceIte] at hc hqc
    simp only [hv, ne_eq, not_false_eq_true, ↓reduceIte, hc.2.1, hc.2.2, hqc.2.2]
    split
    · rfl
    · rename_i hi
      rw [hclose i, if_neg hi, hq.identity i]

/-- A `CLIENT_ID` leaves the counts alone; one of another version takes the channels of its client away. -/
theorem packet_clientId (env : Env) (s : Server) (c : ClientIx) (p : Packet) (hm : p.header.msg = .clientId) :
    (clientProcessPacket env s c p).server.clientCount = s.clientCount ∧
      (clientProcessPacket env s c p).server.channelCount = s.channelCount ∧
      (clientProcessPacket env s c p).server.channels =
        if p.header.unsupported then (removeChannelsOfClient s c).channels else s.channels := by
  have hquiet : ∀ code, SameSlots s (sendServerStatus env s c code).1 := fun code =>
    (sendCounted_quiet s c _).sameSlots
  have hmodify : ∀ (u : Server) (f : Client → Client), (u.modifyClient c f).clientCount = u.clientCount ∧
      (u.modifyClient c f).channelCount = u.channelCount ∧ (u.modifyClient c f).channels = u.channels :=
    fun _ _ => ⟨rfl, rfl, rfl⟩
  simp only [clientProcessPacket, clientDispatch, hm, clientIdentify, hmodify, Header.unsupported, beq_self_eq_true,
    Bool.true_and, bne_iff_ne]
  split
  · have hq := hquiet errorNotsupport
    have hclose := closeClientSocket_slots (sendServerStatus env s c errorNotsupport).1 c
    refine ⟨hclose.clientCount.trans hq.clientCount, hclose.channelCount.trans hq.channelCount, ?_⟩
    funext k
    rw [hclose.channels k, hq.channels, removeChannelsOfClient]
  · have hq := hquiet errorNotfound
    exact ⟨hq.clientCount, hq.channelCount, hq.channels⟩

theorem packet_identity (p : Packet) (i : ClientIx) :
    ((clientProcessPacket env s c p).server.clients i).identity =
      if p.header.msg = .clientId ∧ i = c then
        (p.header.id, if p.header.sync.data0 = versionMajor then (s.clients c).socketfd else -1, (s.clients c).addr)
      else (s.clients i).identity := by
  have hcount : ∀ u : Server, ((u.modifyClient c fun cl =>
      { cl with rxEventCount := cl.rxEventCount + 1 }).clients i).identity = (u.clients i).identity :=
    fun u => SameSlots.identity (SameSlots.modify (SameSlots.refl u) (by intro; rfl)) i
  by_cases hm : p.header.msg = .clientId
  · simp only [clientProcessPacket, clientDispatch, hm, hcount, clientIdentify_identity, true_and]
  · rw [if_neg (fun h => hm h.1)]
    by_cases hchannel : p.header.msg = .channel
    · rw [packet_channel p hchannel, hcount]
    · exact (packet_slots p hm hchannel).identity i

end Frame

end SyncScribe
