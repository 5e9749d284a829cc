import SyncScribe.Server.Effects

/-!
What each call of the server does: a refused call leaves the server untouched
and sends nothing, an accepted one opens its event (`Opened`) and stores into it.
-/

namespace SyncScribe
open Lib Lib.Bytes Lib.Slots Lib.Keyed

variable {env : Env} {s s' : Server} {c : ClientIx} {e : EventIx} {id id' : Id}
  {flags dataType size : UInt32} {data : List UInt8} {updateCounter : UInt64}

/-! ## Opening an event -/

/-- The event a call works on: the one its identifier names, or a new one in a free slot. -/
structure Opened (s : Server) (id : Id) (dataType : UInt32) (s' : Server) (e : EventIx) : Prop where
  sets : SetsTo s.events id (s'.events e) s'.events
  id_eq : (s'.events e).id = id
  rest : SameRest s s'
  origin : (findEvent s id = some e ∧ s' = s) ∨
    (findEvent s id = none ∧ s'.events e = { eventInit (s.events e) id with dataType := dataType })

theorem setsTo_found (h : TableInv s.events) (hf : findEvent s id = some e) :
    SetsTo s.events id (s.events e) s.events := by
  refine ⟨h, ?_⟩
  intro id'
  split
  · rename_i hc
    obtain ⟨hg, rfl⟩ := hc
    exact look_of_find hg hf
  · rfl

theorem fresh_inv (old : Event) (id : Id) (ht : dataType &&& typeVarMask = dataType) :
    SlotInv { eventInit old id with dataType := dataType } :=
  ⟨distinct_empty, by simp [eventInit], ht⟩

theorem openEvent_spec (h : TableInv s.events) (ht : dataType &&& typeVarMask = dataType)
    (ho : openEvent s id flags dataType = .ok (s', e)) : Opened s id dataType s' e := by
  have hid := openEvent_id ho
  rcases openEvent_ok ho with ⟨hf, rfl⟩ | ⟨hn, _, hfree, rfl⟩
  · exact ⟨setsTo_found h hf, hid, SameRest.refl _, Or.inl ⟨hf, rfl⟩⟩
  · have hev := createdServer_self s id e dataType
    refine ⟨?_, hid, ⟨fun _ => rfl, rfl, rfl⟩, Or.inr ⟨hn, hev⟩⟩
    rw [hev]
    exact h.insert hfree (findEvent_eq_none.mp hn) (fresh_inv (s.events e) id ht)

namespace Opened

variable (h : Opened s id dataType s' e)
include h

theorem slot : SlotInv (s'.events e) := h.sets.inv.slots e

/-- A store into the event opened sets its identifier. -/
theorem store {ev : Event} (hid : ev.id = (s'.events e).id) (hev : SlotInv ev) :
    SetsTo s.events id ev (Function.update s'.events e ev) :=
  h.sets.trans (h.sets.inv.store h.id_eq hid hev)

theorem look_store {ev : Event} (hg : id.good) (hid : ev.id = (s'.events e).id) (hev : SlotInv ev) :
    look (Function.update s'.events e ev) id = some ev := by
  have hl := (h.store hid hev).look id
  rwa [if_pos ⟨hg, rfl⟩] at hl

end Opened

/-- A call that did not open its event was refused for a reason. -/
theorem openEvent_refused {r : Int} (h : openEvent s id flags dataType = .error r) : r ≠ 0 :=
  (openEvent_error h).1

theorem and_mask_idem (x m : UInt32) : x &&& m &&& m = x &&& m := by
  rw [UInt32.and_assoc, UInt32.and_self]

/-! ## SUBSCRIBE and UNSUBSCRIBE -/

/-- A new event takes the type of its first subscriber, which is thus admitted. -/
theorem subscribeAdmits_fresh (flags : UInt32) : subscribeAdmits flags (flags &&& typeVarMask) = true := by
  simp [subscribeAdmits]

theorem clientSubscribe_refused (h : (clientSubscribe env s c id flags updateCounter).ret ≠ 0) :
    (clientSubscribe env s c id flags updateCounter).server = s ∧
      (clientSubscribe env s c id flags updateCounter).out = [] := by
  unfold clientSubscribe at h ⊢
  split
  · exact ⟨rfl, rfl⟩
  · rename_i s' e ho
    simp only [ho] at h
    split
    · rename_i ha
      simp only [ha, ↓reduceIte] at h
      split at h <;> exact absurd rfl h
    · rename_i ha
      rcases openEvent_ok ho with ⟨_, rfl⟩ | ⟨_, _, _, rfl⟩
      · exact ⟨rfl, rfl⟩
      · exact absurd (by simp [createdServer, subscribeAdmits_fresh]) ha

theorem clientSubscribe_accepted (h : (clientSubscribe env s c id flags updateCounter).ret = 0) :
    ∃ s' e, openEvent s id flags (flags &&& typeVarMask) = .ok (s', e) ∧
      subscribeAdmits flags (s'.events e).dataType = true ∧
      Quiet (addClientToEvent s' c e).2 (clientSubscribe env s c id flags updateCounter).server ∧
      (clientSubscribe env s c id flags updateCounter).out =
        if updateCounter < ((addClientToEvent s' c e).2.events e).updateCounter then
          [.send c (resendPacket env ((addClientToEvent s' c e).2.events e))] else [] := by
  unfold clientSubscribe at h ⊢
  split
  · rename_i r ho
    simp only [ho] at h
    exact absurd h (openEvent_refused ho)
  · rename_i s' e ho
    refine ⟨s', e, ho, ?_⟩
    simp only [ho] at h
    split
    · rename_i ha
      refine ⟨ha, ?_⟩
      split
      · rename_i hu
        simp only [hu, ↓reduceIte]
        exact ⟨sendCounted_quiet _ _ _, rfl⟩
      · rename_i hu
        simp only [hu, ↓reduceIte]
        exact ⟨Quiet.refl _, trivial⟩
    · rename_i ha
      rw [if_neg ha] at h
      cases h

theorem clientUnsubscribe_table (h : TableInv s.events) (hf : findEvent s id = some e) :
    SetsTo s.events id ((s.events e).dropConsumer c) (clientUnsubscribe s c id).events := by
  obtain ⟨cs, n, hsame⟩ := dropConsumer_same (s.events e) c
  have hid : ((s.events e).dropConsumer c).id = (s.events e).id := by rw [hsame]
  simp only [clientUnsubscribe, hf, removeClientFromEvent_events]
  exact h.store (findEvent_some hf) hid (dropConsumer_inv (h.slots e))

theorem clientUnsubscribe_rest : SameRest s (clientUnsubscribe s c id) := by
  unfold clientUnsubscribe
  split
  · exact removeClientFromEvent_rest
  · exact SameRest.refl s

/-! ## DEFINE and UNDEFINE -/

variable {mem : Option (List UInt8)}

theorem addEvent_refused (h : (addEvent s id flags mem size).ret ≠ 0) :
    (addEvent s id flags mem size).server = s := by
  unfold addEvent at h ⊢
  split
  · rename_i hf
    simp only [hf] at h
    split
    · rfl
    · rename_i hflag
      rw [if_neg hflag] at h
      exact absurd rfl h
  · rename_i hn
    simp only [hn] at h
    split
    · rfl
    · rename_i hc
      simp only [hc] at h
      exact absurd rfl h

theorem addEvent_accepted (h : TableInv s.events) (hr : (addEvent s id flags mem size).ret = 0) :
    ∃ s' e, Opened s id 0 s' e ∧
      (addEvent s id flags mem size).server = s'.setEvent e (addEventStore (s'.events e) flags mem size) := by
  unfold addEvent at hr ⊢
  split
  · rename_i e hf
    simp only [hf] at hr
    split
    · rename_i hflag
      rw [if_pos hflag] at hr
      cases hr
    · exact ⟨s, e, ⟨setsTo_found h hf, findEvent_some hf, SameRest.refl s, Or.inl ⟨hf, rfl⟩⟩, rfl⟩
  · rename_i hn
    simp only [hn] at hr
    split
    · rename_i hc
      simp only [hc] at hr
      cases hr
    · rename_i s' e hc
      obtain ⟨hfree, rfl⟩ := createEvent_some hc
      have ho : openEvent s id typeForce 0 = .ok (createdServer s id e 0, e) := by
        simp [openEvent, hn, hc, typeForce, createdServer, eventInit, Server.setEvent]
      exact ⟨_, e, openEvent_spec h (by decide) ho, rfl⟩

theorem addEventStore_id (ev : Event) : (addEventStore ev flags mem size).id = ev.id := rfl

theorem addEventStore_inv {ev : Event} (h : SlotInv ev) : SlotInv (addEventStore ev flags mem size) :=
  ⟨h.distinct, h.counted, and_mask_idem flags typeVarMask⟩

theorem freeEvent_table (h : TableInv s.events) :
    TableInv (freeEvent s id).events ∧
      ∀ id', look (freeEvent s id).events id' = if id' = id then none else look s.events id' := by
  unfold freeEvent
  split
  · rename_i e hf
    have hbad : ¬ Id.good (Event.id { s.events e with id := (s.events e).id.free }) := Id.not_good_free _
    refine ⟨⟨h.unique.remove hbad, forall_update h.slots ?_⟩, ?_⟩
    · exact (h.slots e).same rfl rfl rfl
    · intro id'
      have hl := lookup_remove (k := id') (i := e) h.unique hbad
      rw [← findEvent_some hf]
      exact hl
  · rename_i hn
    refine ⟨h, ?_⟩
    intro id'
    split
    · rename_i heq
      rw [heq]
      exact look_of_not_found hn
    · rfl

theorem freeEvent_rest : SameRest s (freeEvent s id) := by
  unfold freeEvent
  split <;> exact ⟨fun _ => rfl, rfl, rfl⟩

/-! ## WRITE -/

theorem clientWriteEvent_ret :
    (clientWriteEvent env s c e id flags data size).ret = 0 ↔
      flags &&& typeVarMask = (s.events e).dataType := by
  unfold clientWriteEvent
  split
  · rename_i h
    simp [h]
  · rename_i h
    simpa using h

theorem clientWrite_refused (h : (clientWrite env s c id flags data size).ret ≠ 0) :
    (clientWrite env s c id flags data size).server = s ∧
      (clientWrite env s c id flags data size).out = [] := by
  unfold clientWrite at h ⊢
  split
  · exact ⟨rfl, rfl⟩
  · rename_i s' e ho
    simp only [ho] at h
    have ht := mt clientWriteEvent_ret.mpr h
    rcases openEvent_ok ho with ⟨_, rfl⟩ | ⟨_, _, _, rfl⟩
    · simp [clientWriteEvent, ht]
    · exact absurd (by rw [createdServer_self]) ht

/-- The server an accepted write leaves to `syncs_send_event`. -/
def writtenServer (s : Server) (c : ClientIx) (e : EventIx) (data : List UInt8) (size : UInt32) : Server :=
  { (s.setEvent e (writeStore s c (s.events e) data size)).modifyClient c
      fun cl => { cl with eventWrite := cl.eventWrite + 1 } with updateCounter := s.updateCounter + 1 }

theorem clientWrite_accepted (h : (clientWrite env s c id flags data size).ret = 0) :
    ∃ s' e, openEvent s id flags (flags &&& typeVarMask) = .ok (s', e) ∧
      flags &&& typeVarMask = (s'.events e).dataType ∧
      (clientWrite env s c id flags data size).server =
        (sendEvent env (writtenServer s' c e data size) e
          (flags &&& (typeVarMask ||| typeSync ||| typeEcho))).1 ∧
      (clientWrite env s c id flags data size).out =
        callLocal (writeStore s' c (s'.events e) data size) id ++
          (sendEvent env (writtenServer s' c e data size) e
            (flags &&& (typeVarMask ||| typeSync ||| typeEcho))).2 := by
  unfold clientWrite at h ⊢
  split
  · rename_i r ho
    simp only [ho] at h
    exact absurd h (openEvent_refused ho)
  · rename_i s' e ho
    simp only [ho] at h
    have ht := clientWriteEvent_ret.mp h
    refine ⟨s', e, ho, ht, ?_⟩
    unfold clientWriteEvent
    rw [if_neg (not_not.mpr ht)]
    exact ⟨rfl, rfl⟩

theorem writeStore_id (ev : Event) : (writeStore s c ev data size).id = ev.id := rfl

theorem writeStore_inv {ev : Event} (h : SlotInv ev) : SlotInv (writeStore s c ev data size) :=
  h.same rfl rfl rfl

/-! ## CHANNEL -/

theorem Channel.live_iff {ch : Channel} : ch.live = true ↔ ch.id.good := by simp [Channel.live, Id.good]

theorem findChannel_some {k : ChannelIx} (h : findChannel s id = some k) : (s.channels k).id = id :=
  idcmp_iff.mp (first_some h)

theorem findChannel_eq_none : findChannel s id = none ↔ ∀ k, (s.channels k).id ≠ id := by
  rw [findChannel, first_eq_none]
  refine forall_congr' fun k => ?_
  rw [ne_eq, ← idcmp_iff, Bool.not_eq_true]

/-- What `syncs_create_channel` does when it finds a free slot. -/
theorem createChannel_some {k : ChannelIx} (h : createChannel s id = some (s', k)) :
    ¬ (s.channels k).id.good ∧
      s' = { s.setChannel k (channelInit (s.channels k) id) with channelCount := s.channelCount + 1 } := by
  unfold createChannel at h
  split at h
  · rename_i i hi
    simp only [Option.some.injEq, Prod.mk.injEq] at h
    obtain ⟨rfl, rfl⟩ := h
    have := first_some hi
    exact ⟨by simpa [Id.good] using this, rfl⟩
  · cases h

theorem createChannel_eq_none : createChannel s id = none ↔ ∀ k, (s.channels k).id.good := by
  unfold createChannel
  cases hf : first fun k => (s.channels k).id.i0 == freeMark with
  | none => simpa [Id.good] using first_eq_none.mp hf
  | some k =>
    have := first_some hf
    simp only [reduceCtorEq, false_iff, not_forall]
    exact ⟨k, by simpa [Id.good] using this⟩

theorem addChannel_out {data : List UInt8} : (addChannel s c id data).out = [] := by
  unfold addChannel
  dsimp only
  split
  · rfl
  · split <;> rfl

/-- What `syncs_add_channel` does when it returns 0. -/
theorem addChannel_accepted (data : List UInt8) (h : (addChannel s c id data).ret = 0) :
    ∃ k ch, ((s.channels k).id = id ∨ (¬ (s.channels k).id.good ∧ ∀ j, (s.channels j).id ≠ id)) ∧
      (addChannel s c id data).server.channels = Function.update s.channels k ch ∧ ch.id = id ∧
      ch.producer = some c ∧
      ch.ticket = { Ticket.decode (read data ticketSize) with ip := (s.clients c).addr.ip } := by
  unfold addChannel at h ⊢
  dsimp only at h ⊢
  cases hf : findChannel s id with
  | some k =>
    have hid := findChannel_some hf
    exact ⟨k, _, Or.inl hid, rfl, hid, rfl, rfl⟩
  | none =>
    cases hc : createChannel s id with
    | none =>
      simp only [hf, hc] at h
      cases h
    | some r =>
      obtain ⟨s', k⟩ := r
      obtain ⟨hfree, rfl⟩ := createChannel_some hc
      refine ⟨k, addChannelStore (channelInit (s.channels k) id) c (s.clients c).addr
        (Ticket.decode (read data ticketSize)), Or.inr ⟨hfree, findChannel_eq_none.mp hf⟩, ?_, rfl, rfl, rfl⟩
      simp [Server.setChannel]

/-- What it does when it does not. -/
theorem addChannel_refused (data : List UInt8) (h : (addChannel s c id data).ret ≠ 0) :
    (addChannel s c id data).server = s ∧ (addChannel s c id data).ret = -1 := by
  unfold addChannel at h ⊢
  dsimp only at h ⊢
  cases hf : findChannel s id with
  | some k =>
    simp only [hf] at h
    exact absurd rfl h
  | none =>
    cases hc : createChannel s id with
    | none => exact ⟨rfl, rfl⟩
    | some r =>
      simp only [hf, hc] at h
      exact absurd rfl h

/-- `syncs_add_channel` stores into the channels only. -/
theorem addChannel_frame (s : Server) (c : ClientIx) (id : Id) (data : List UInt8) :
    (addChannel s c id data).server =
      { s with
        channels := (addChannel s c id data).server.channels
        channelCount := (addChannel s c id data).server.channelCount } := by
  unfold addChannel
  dsimp only
  split
  · rfl
  · split
    · rfl
    · rename_i s' k hc
      rw [(createChannel_some hc).2]
      rfl

/-- Only an announcement changes the server. -/
theorem clientChannel_server (env : Env) (s : Server) (c : ClientIx) (p : Packet) :
    (clientChannel env s c p).server =
      if p.header.type &&& channelMask = channelAnons then (addChannel s c p.header.id p.buffer).server else s := by
  unfold clientChannel
  split
  · rfl
  · split
    · unfold clientChannelRequest
      dsimp only
      split <;> rfl
    · rfl

theorem clientChannel_frame (env : Env) (s : Server) (c : ClientIx) (p : Packet) :
    (clientChannel env s c p).server =
      { s with
        channels := (clientChannel env s c p).server.channels
        channelCount := (clientChannel env s c p).server.channelCount } := by
  rw [clientChannel_server]
  split
  · exact addChannel_frame s c p.header.id p.buffer
  · rfl

/-! ## The server's own application -/

variable {cid : List UInt8}

theorem serverWrite_refused (h : (serverWrite env s flags cid data size).ret ≠ 0) :
    (serverWrite env s flags cid data size).server = s ∧
      (serverWrite env s flags cid data size).out = [] := by
  unfold serverWrite at h ⊢
  split
  · exact ⟨rfl, rfl⟩
  · rename_i ho
    simp only [ho] at h
    exact absurd rfl h

theorem serverWrite_accepted (h : (serverWrite env s flags cid data size).ret = 0) :
    ∃ s' e, openEvent s (idstr cid) flags 0 = .ok (s', e) ∧
      (serverWrite env s flags cid data size).server =
        (sendEvent env (s'.setEvent e (serverWriteStore (s'.events e) data (serverWriteSize flags size)))
          e flags).1 ∧
      (serverWrite env s flags cid data size).out =
        (sendEvent env (s'.setEvent e (serverWriteStore (s'.events e) data (serverWriteSize flags size)))
          e flags).2 := by
  unfold serverWrite at h ⊢
  split
  · rename_i r ho
    simp only [ho] at h
    exact absurd h (openEvent_refused ho)
  · rename_i s' e ho
    exact ⟨s', e, ho, rfl, rfl⟩

theorem serverWriteStore_inv {ev : Event} (h : SlotInv ev) : SlotInv (serverWriteStore ev data size) :=
  h.same rfl rfl rfl

variable {cb : Option Nat} {args : Nat}

theorem serverSubscribeEvent_refused (h : (serverSubscribeEvent s flags cid cb args).ret ≠ 0) :
    (serverSubscribeEvent s flags cid cb args).server = s := by
  unfold serverSubscribeEvent at h ⊢
  split
  · rfl
  · rename_i ho
    simp only [ho] at h
    exact absurd rfl h

theorem serverSubscribeEvent_accepted (h : (serverSubscribeEvent s flags cid cb args).ret = 0) :
    ∃ s' e, openEvent s (idstr cid) flags 0 = .ok (s', e) ∧
      (serverSubscribeEvent s flags cid cb args).server =
        s'.setEvent e { s'.events e with args := args, cb := cb } := by
  unfold serverSubscribeEvent at h ⊢
  split
  · rename_i r ho
    simp only [ho] at h
    exact absurd h (openEvent_refused ho)
  · rename_i s' e ho
    exact ⟨s', e, ho, rfl⟩

theorem serverDefine_refused (h : (serverDefine s cid flags mem size).ret ≠ 0) :
    (serverDefine s cid flags mem size).server = s := by
  unfold serverDefine at h ⊢
  split
  · rfl
  · rename_i hs
    rw [if_neg hs] at h
    exact addEvent_refused h

theorem serverDefine_accepted (h : (serverDefine s cid flags mem size).ret = 0) :
    serverDefine s cid flags mem size = addEvent s (idstr cid) flags mem size := by
  unfold serverDefine at h ⊢
  split
  · rename_i hs
    rw [if_pos hs] at h
    cases h
  · rfl

/-! ## Slots of clients -/

/-- `s'` is `s` with the slot `c` under the descriptor `fd`; its receive buffer stays. -/
structure SlotTaken (s : Server) (c : ClientIx) (fd : Int) (s' : Server) : Prop where
  other : ∀ i, i ≠ c → s'.clients i = s.clients i
  buffer : (s'.clients c).buffer = (s.clients c).buffer
  socketfd : (s'.clients c).socketfd = fd
  rest : s' = { s with clients := s'.clients, clientCount := s'.clientCount, uclientCount := s'.uclientCount }

/-- A new connection gets a free slot, if there is one. -/
theorem addClient_cases (s : Server) (accepted : Option (Nat × SockAddr)) :
    addClient s accepted = s ∨ ∃ (c : ClientIx) (fd : Nat), (s.clients c).socketfd = -1 ∧
      SlotTaken s c fd (addClient s accepted) := by
  unfold addClient
  split
  · exact Or.inl rfl
  · exact Or.inl rfl
  · rename_i c fd addr hf
    refine Or.inr ⟨c, fd, by simpa using first_some hf, ?_, ?_, ?_, rfl⟩
    · intro i hi
      simp only [Server.modifyClient_clients, if_neg hi]
    · simp only [Server.modifyClient_clients, ↓reduceIte]
    · simp only [Server.modifyClient_clients, ↓reduceIte]

/-- The client of a datagram has the slot of a datagram client, or a free one. -/
theorem uclientOf_cases {addr : SockAddr} {hd : Header} (h : uclientOf s addr hd = some (s', c)) :
    ((s.clients c).socketfd = udpSocketStub ∨ (s.clients c).socketfd = -1) ∧ SlotTaken s c udpSocketStub s' := by
  unfold uclientOf at h
  split at h
  · rename_i c' hf
    cases h
    have hc := first_some hf
    simp only [Bool.and_eq_true, beq_iff_eq] at hc
    exact ⟨Or.inl hc.1.1, fun _ _ => rfl, rfl, hc.1.1, rfl⟩
  · split at h
    · split at h
      · rename_i c' hf
        cases h
        have hc := first_some hf
        simp only [Bool.and_eq_true, beq_iff_eq] at hc
        refine ⟨Or.inl hc.1, ?_, ?_, ?_, rfl⟩
        · intro i hi
          rw [Server.modifyClient_clients, if_neg hi]
        · rw [Server.modifyClient_clients, if_pos rfl]
        · rw [Server.modifyClient_clients, if_pos rfl]
          exact hc.1
      · unfold addUclient at h
        split at h
        · cases h
        · rename_i c' hf
          cases h
          refine ⟨Or.inr (by simpa using first_some hf), ?_, ?_, ?_, rfl⟩
          · intro i hi
            simp only [Server.modifyClient_clients, if_neg hi]
          · simp only [Server.modifyClient_clients, ↓reduceIte]
          · simp only [Server.modifyClient_clients, ↓reduceIte]
    · cases h

/-- A datagram that does not register belongs to the client at its address. -/
theorem uclientOf_known {addr : SockAddr} {h : Header} (hm : h.msg ≠ .clientId) :
    uclientOf s addr h = (findUclientAddr s addr).map fun c => (s, c) := by
  unfold uclientOf
  cases findUclientAddr s addr with
  | some c => rfl
  | none => simp [hm]

theorem SlotTaken.buffers {fd : Int} (h : SlotTaken s c fd s') (i : ClientIx) :
    (s'.clients i).buffer = (s.clients i).buffer := by
  by_cases hi : i = c
  · rw [hi, h.buffer]
  · rw [h.other i hi]

theorem SlotTaken.sameRest {fd : Int} (h : SlotTaken s c fd s') :
    s'.events = s.events ∧ s'.channels = s.channels ∧ s'.updateCounter = s.updateCounter := by
  rw [h.rest]
  exact ⟨rfl, rfl, rfl⟩

end SyncScribe
