import SyncScribe.Server.EventMap

/-!
The marker of free slots. A slot is free when the first eight bytes of its
identifier are all `0xff`, and nothing keeps an identifier from starting like
that: searches for such an identifier find free slots, and an event created under
it is not live. For all other identifiers the marker is never in the way, and in
a run that names no marked identifier `event_count` is the number of live slots.
-/

namespace SyncScribe
open Lib Lib.Bytes Lib.Slots Lib.Keyed

/-! ## Searching and creating -/

/-- What is found or created under `id` is live. -/
structure MarkerSafe (s : Server) (id : Id) : Prop where
  findEvent : ∀ e, findEvent s id = some e → (s.events e).live = true
  findChannel : ∀ k, findChannel s id = some k → (s.channels k).live = true
  createEvent : ∀ s' e, createEvent s id = some (s', e) → (s'.events e).live = true
  createChannel : ∀ s' k, createChannel s id = some (s', k) → (s'.channels k).live = true

/-- There is no free slot, neither for an event nor for a channel. -/
def Server.full (s : Server) : Prop := (∀ e, (s.events e).live = true) ∧ ∀ k, (s.channels k).live = true

section Search

variable {s s' : Server} {id : Id}

/-- A created slot carries its identifier. -/
theorem createdServer_id (s : Server) (id : Id) (e : EventIx) (dataType : UInt32) :
    ((createdServer s id e dataType).events e).id = id := by
  rw [createdServer_self]
  rfl

/-- **When the marker is not confused with an identifier.** -/
theorem markerSafe_iff (s : Server) (id : Id) : MarkerSafe s id ↔ id.good ∨ s.full := by
  constructor
  · intro h
    by_contra hno
    push Not at hno
    obtain ⟨hbad, hfull⟩ := hno
    have hev : createEvent s id = none := by
      cases hc : createEvent s id with
      | none => rfl
      | some r =>
        obtain ⟨s', e⟩ := r
        have hlive := h.createEvent s' e hc
        rw [(createEvent_some hc).2, Event.live_iff, createdServer_id] at hlive
        exact absurd hlive hbad
    have hch : createChannel s id = none := by
      cases hc : createChannel s id with
      | none => rfl
      | some r =>
        obtain ⟨s', k⟩ := r
        have hlive := h.createChannel s' k hc
        rw [(createChannel_some hc).2, Channel.live_iff] at hlive
        simp only [Server.setChannel, Function.update_self, channelInit] at hlive
        exact absurd hlive hbad
    exact hfull ⟨fun e => Event.live_iff.mpr (createEvent_eq_none.mp hev e),
      fun k => Channel.live_iff.mpr (createChannel_eq_none.mp hch k)⟩
  · rintro (hg | hfull)
    · refine ⟨?_, ?_, ?_, ?_⟩
      · intro e he
        rw [Event.live_iff, findEvent_some he]
        exact hg
      · intro k hk
        rw [Channel.live_iff, findChannel_some hk]
        exact hg
      · intro s' e hc
        rw [(createEvent_some hc).2, Event.live_iff, createdServer_id]
        exact hg
      · intro s' k hc
        rw [(createChannel_some hc).2, Channel.live_iff]
        simpa [Server.setChannel, channelInit] using hg
    · refine ⟨fun e _ => hfull.1 e, fun k _ => hfull.2 k, ?_, ?_⟩
      · intro s' e hc
        exact absurd (Event.live_iff.mp (hfull.1 e)) (createEvent_some hc).1
      · intro s' k hc
        exact absurd (Channel.live_iff.mp (hfull.2 k)) (createChannel_some hc).1

end Search

/-! ## The count of events -/

/-- `event_count` is the number of live slots. -/
def Counted (s : Server) : Prop := s.eventCount.toNat = liveCount s

instance (s : Server) : Decidable (Counted s) := inferInstanceAs (Decidable (s.eventCount.toNat = liveCount s))

/-- The same slots are live, and the count is the same. -/
structure SameLive (s s' : Server) : Prop where
  count : s'.eventCount = s.eventCount
  live : ∀ e, (s'.events e).live = (s.events e).live

namespace SameLive

variable {s s' s'' : Server}

theorem refl (s : Server) : SameLive s s := ⟨rfl, fun _ => rfl⟩

theorem trans (h : SameLive s s') (h' : SameLive s' s'') : SameLive s s'' :=
  ⟨h'.count.trans h.count, fun e => (h'.live e).trans (h.live e)⟩

theorem counted (h : SameLive s s') (hc : Counted s) : Counted s' := by
  have hcount : liveCount s' = liveCount s := by
    simp only [liveCount, h.live]
  rw [Counted, h.count, hcount]
  exact hc

theorem of_events (hc : s'.eventCount = s.eventCount) (he : s'.events = s.events) : SameLive s s' :=
  ⟨hc, fun e => by rw [he]⟩

theorem of_quiet (h : Quiet s s') : SameLive s s' := of_events h.eventCount h.events

/-- A store into an event that leaves its identifier alone. -/
theorem setEvent {e : EventIx} {ev : Event} (h : ev.id = (s.events e).id) : SameLive s (s.setEvent e ev) := by
  refine ⟨rfl, ?_⟩
  intro i
  by_cases hi : i = e
  · subst hi
    rw [Server.setEvent_same, Event.live, h, Event.live]
  · rw [Server.setEvent_of_ne _ _ hi]

theorem modify (s : Server) (c : ClientIx) (f : Client → Client) : SameLive s (s.modifyClient c f) :=
  of_events rfl rfl

end SameLive

section Calls

variable {env : Env} {s s' : Server} {c : ClientIx} {e : EventIx} {id : Id} {flags dataType size : UInt32}

theorem addClientToEvent_live : SameLive s (addClientToEvent s c e).2 := by
  unfold addClientToEvent
  split
  · exact .refl s
  · split
    · simp only
      refine SameLive.trans ?_ (.modify _ c _)
      exact .setEvent rfl
    · exact .refl s

theorem removeClientFromEvent_live : SameLive s (removeClientFromEvent s c e) := by
  unfold removeClientFromEvent
  split
  · refine SameLive.trans ?_ (.modify _ c _)
    exact .setEvent rfl
  · exact .refl s

theorem removeLoop_live (es : List EventIx) (s : Server) : SameLive s (removeClientFromEventsLoop c es s) := by
  induction es generalizing s with
  | nil => exact .refl s
  | cons e es ih =>
    unfold removeClientFromEventsLoop
    split
    · exact removeClientFromEvent_live.trans (ih _)
    · exact ih s

theorem closeClientSocket_live : SameLive s (closeClientSocket s c) := by
  have h : SameLive s (removeClientFromEvents s c) := removeLoop_live _ s
  unfold closeClientSocket
  generalize removeClientFromEvents s c = u at h ⊢
  exact h.trans (.of_events rfl rfl)

/-- One more slot is live. -/
theorem Counted.create (h : Counted s) (hg : id.good) (hfree : ¬ (s.events e).id.good) :
    Counted (createdServer s id e dataType) := by
  have hdead : (s.events e).live = false := Bool.eq_false_iff.mpr (mt Event.live_iff.mp hfree)
  have hlive : ((createdServer s id e dataType).events e).live = true := by
    rw [Event.live_iff, createdServer_id]
    exact hg
  have hother : ∀ i, i ≠ e → (createdServer s id e dataType).events i = s.events i :=
    fun _ hi => Server.setEvent_of_ne _ _ hi
  have hcount : liveCount (createdServer s id e dataType) = liveCount s + 1 :=
    number_succ hdead hlive fun i hi => by rw [hother i hi]
  have hlt : liveCount s < 256 := (liveCount_lt s).mpr ⟨e, hfree⟩
  rw [Counted, hcount]
  exact succ_counter h (by omega)

/-- One slot less is live. -/
theorem Counted.free (h : Counted s) (hg : id.good) : Counted (freeEvent s id) := by
  unfold freeEvent
  split
  · rename_i e hf
    have hlive : (s.events e).live = true := by
      rw [Event.live_iff, findEvent_some hf]
      exact hg
    have hdead : ((s.setEvent e { s.events e with id := (s.events e).id.free }).events e).live = false := by
      rw [Server.setEvent_same]
      exact Bool.eq_false_iff.mpr (mt Event.live_iff.mp (Id.not_good_free _))
    have hcount : liveCount s = liveCount (s.setEvent e { s.events e with id := (s.events e).id.free }) + 1 :=
      number_succ hdead hlive fun i hi => by rw [Server.setEvent_of_ne _ _ hi]
    exact pred_counter (h.trans hcount)
  · exact h

theorem openEvent_counted (h : Counted s) (hg : id.good) (ho : openEvent s id flags dataType = .ok (s', e)) :
    Counted s' := by
  rcases openEvent_ok ho with ⟨_, rfl⟩ | ⟨_, _, hfree, rfl⟩
  · exact h
  · exact h.create hg hfree

theorem clientSubscribe_counted (h : Counted s) (hg : id.good) (updateCounter : UInt64) :
    Counted (clientSubscribe env s c id flags updateCounter).server := by
  unfold clientSubscribe
  split
  · exact h
  · rename_i s' e ho
    have hopen := openEvent_counted h hg ho
    have hadd : Counted (addClientToEvent s' c e).2 := addClientToEvent_live.counted hopen
    split
    · simp only
      split
      · have hq : SameLive (addClientToEvent s' c e).2 (resendEvent env (addClientToEvent s' c e).2 c e).1 :=
          .of_quiet (sendCounted_quiet _ _ _)
        exact hq.counted hadd
      · exact hadd
    · exact hopen

theorem addEvent_counted (h : Counted s) (hg : id.good) (mem : Option (List UInt8)) :
    Counted (addEvent s id flags mem size).server := by
  unfold addEvent
  split
  · split
    · exact h
    · refine SameLive.counted ?_ h
      exact .setEvent (addEventStore_id _)
  · split
    · exact h
    · rename_i s' e hc
      obtain ⟨hfree, rfl⟩ := createEvent_some hc
      have hnew : Counted (createdServer s id e 0) := h.create hg hfree
      refine SameLive.counted ?_ hnew
      exact .setEvent (addEventStore_id _)

theorem clientWrite_counted (h : Counted s) (hg : id.good) (data : List UInt8) :
    Counted (clientWrite env s c id flags data size).server := by
  unfold clientWrite
  split
  · exact h
  · rename_i s' e ho
    have hopen := openEvent_counted h hg ho
    unfold clientWriteEvent
    split
    · exact hopen
    · have hstore : SameLive s' (s'.setEvent e (writeStore s' c (s'.events e) data size)) :=
        .setEvent (writeStore_id _)
      have hwritten : SameLive s' (writtenServer s' c e data size) := hstore.trans (.of_events rfl rfl)
      exact (SameLive.of_quiet (sendEvent_quiet env _ e _)).counted (hwritten.counted hopen)

theorem serverWrite_counted (h : Counted s) {cid : List UInt8} (hg : (idstr cid).good) (data : List UInt8) :
    Counted (serverWrite env s flags cid data size).server := by
  unfold serverWrite
  split
  · exact h
  · rename_i s' e ho
    have hopen := openEvent_counted h hg ho
    refine (SameLive.of_quiet (sendEvent_quiet env _ e _)).counted ?_
    refine SameLive.counted ?_ hopen
    exact .setEvent rfl

theorem serverSubscribeEvent_counted (h : Counted s) {cid : List UInt8} (hg : (idstr cid).good) (cb : Option Nat)
    (args : Nat) : Counted (serverSubscribeEvent s flags cid cb args).server := by
  unfold serverSubscribeEvent
  split
  · exact h
  · rename_i s' e ho
    refine SameLive.counted ?_ (openEvent_counted h hg ho)
    exact .setEvent rfl

theorem clientIdentify_live (hd : Header) : SameLive s (clientIdentify env s c hd).1 := by
  unfold clientIdentify
  simp only
  refine SameLive.trans ?_ (.modify _ c _)
  split
  · have hsent : SameLive s (sendServerStatus env s c errorNotsupport).1 := .of_quiet (sendCounted_quiet _ _ _)
    exact hsent.trans closeClientSocket_live
  · exact .of_quiet (sendCounted_quiet _ _ (statusPacket env s errorNotfound))

theorem clientChannel_live (p : Packet) : SameLive s (clientChannel env s c p).server := by
  rw [clientChannel_frame]
  exact .of_events rfl rfl

end Calls

/-! ## Runs -/

/-- The messages that may create an event or free one. -/
def Header.namesEvent (h : Header) : Bool :=
  h.msg == .subscribe || h.msg == .define || h.msg == .undefine || h.msg == .write

/-- An act under whose identifier an event may be created or freed does not name a marked one. -/
def Act.unmarked : Act → Prop
  | .packet _ _ p | .datagram _ _ p => p.header.namesEvent = true → p.header.id.good
  | .serverWrite _ _ cid _ _ | .serverDefine cid _ _ _ | .serverUndefine cid
  | .serverSubscribeEvent _ cid _ _ => (idstr cid).good
  | .accept _ | .close _ | .keep .. | .serverUnsubscribeEvent _ | .setSyncOffset _ => True

section Steps

variable {env : Env} {s : Server} {c : ClientIx}

theorem packet_counted (h : Counted s) {p : Packet} (hp : p.header.namesEvent = true → p.header.id.good) :
    Counted (clientProcessPacket env s c p).server := by
  have hsame : ∀ {u : Server}, SameLive s u →
      Counted (u.modifyClient c fun cl => { cl with rxEventCount := cl.rxEventCount + 1 }) := by
    intro u hu
    exact (hu.trans (.modify u c _)).counted h
  have hcall : ∀ {u : Server}, Counted u →
      Counted (u.modifyClient c fun cl => { cl with rxEventCount := cl.rxEventCount + 1 }) := by
    intro u hu
    exact (SameLive.modify u c _).counted hu
  cases hm : p.header.msg
  all_goals simp only [clientProcessPacket, clientDispatch, hm]
  case subscribe => exact hcall (clientSubscribe_counted h (hp (by simp [Header.namesEvent, hm])) _)
  case define => exact hcall (addEvent_counted h (hp (by simp [Header.namesEvent, hm])) none)
  case undefine => exact hcall (h.free (hp (by simp [Header.namesEvent, hm])))
  case write => exact hcall (clientWrite_counted h (hp (by simp [Header.namesEvent, hm])) p.buffer)
  case unsubscribe =>
    refine hsame ?_
    unfold clientUnsubscribe
    split
    · exact removeClientFromEvent_live
    · exact .refl s
  case read => exact hsame (.of_quiet (sendCounted_quiet s c (readPacket env s p.header.id)))
  case clientList => exact hsame (.of_quiet (sendList_quiet env clientKind s c _))
  case eventList => exact hsame (.of_quiet (sendList_quiet env eventKind s c _))
  case channelList => exact hsame (.of_quiet (sendList_quiet env channelKind s c _))
  case clientId => exact hsame (clientIdentify_live p.header)
  case channel => exact hsame (clientChannel_live p)
  all_goals exact h

theorem SlotTaken.live {s' : Server} {fd : Int} (h : SlotTaken s c fd s') : SameLive s s' := by
  rw [h.rest]
  exact .of_events rfl rfl

theorem addClient_live (accepted : Option (Nat × SockAddr)) : SameLive s (addClient s accepted) := by
  rcases addClient_cases s accepted with heq | ⟨c, fd, _, hslot⟩
  · rw [heq]
    exact .refl s
  · exact hslot.live

/-- **One act** that names no marked identifier. -/
theorem act_counted (h : Counted s) (a : Act) (ha : a.unmarked) : Counted (act s a).1 := by
  cases a with
  | accept accepted => exact (addClient_live accepted).counted h
  | packet env c p => exact packet_counted h ha
  | datagram env addr p =>
    simp only [act, uclientProcessPacket]
    cases hu : uclientOf s addr p.header with
    | none =>
      simp only
      split <;> exact h
    | some sc => exact packet_counted ((uclientOf_cases hu).2.live.counted h) ha
  | close c => exact closeClientSocket_live.counted h
  | keep c buffer => exact (SameLive.modify s c _).counted h
  | serverWrite env flags cid data size => exact serverWrite_counted h ha data
  | serverDefine cid flags data size =>
    simp only [act, serverDefine]
    split
    · exact h
    · exact addEvent_counted h ha data
  | serverUndefine cid => exact h.free ha
  | serverSubscribeEvent flags cid cb args => exact serverSubscribeEvent_counted h ha cb args
  | serverUnsubscribeEvent cid =>
    simp only [act, serverUnsubscribeEvent]
    split
    · refine SameLive.counted ?_ h
      exact .setEvent rfl
    · exact h
  | setSyncOffset ms => exact (SameLive.of_events rfl rfl).counted h

end Steps

theorem counted_init (cid : List UInt8) : Counted (serverCreate cid) := by
  simp [Counted, liveCount, serverCreate, Event.init, Event.live, Id.free, Id.zero]

theorem run_counted (cid : List UInt8) (as : List Act) (h : ∀ a ∈ as, a.unmarked) :
    Counted (run act (serverCreate cid) as).1 := by
  induction as using List.reverseRecOn with
  | nil => exact counted_init cid
  | append_singleton as a ih =>
    rw [run_concat]
    exact act_counted (ih fun b hb => h b (by simp [hb])) a (h a (by simp))

/-- **The marker is never confused with an identifier** that does not start with it, in any state of a run whose
accepted calls of `syncs_server_write` bring no more than the array of an event holds; and if its calls and packets
name no identifier that starts with it, `event_count` is the number of live slots. -/
theorem marker_distinct (place : Places) (cid : List UInt8) (as : List Act)
    (h : Along (memoryAct place) ServerMemory.InArray (.whole (serverCreate cid)) as) :
    ∃ s, (run (memoryAct place) (.whole (serverCreate cid)) as).1 = .whole s ∧
      (∀ id, MarkerSafe s id ↔ id.good ∨ s.full) ∧ ((∀ a ∈ as, a.unmarked) → Counted s) :=
  ⟨_, congrArg Prod.fst (run_memoryAct as h), markerSafe_iff _, run_counted cid as⟩

/-- A client defines an event and undefines it again. -/
def defineRun : List Act :=
  [.accept (some (3, ⟨1, 2⟩)), .packet .calm 0 (Packet.make Msg.define.code (idstr [97]) []),
    .packet .calm 0 (Packet.make Msg.undefine.code (idstr [97]) [])]

theorem defineRun_counted : ∃ s,
    (run (memoryAct somePlaces) (.whole (serverCreate [])) defineRun).1 = .whole s ∧ Counted s ∧
      MarkerSafe s (idstr [97]) := by
  obtain ⟨s, hs, hsafe, hcounted⟩ := marker_distinct somePlaces [] defineRun
    ⟨fun _ _ => trivial, fun _ _ => trivial, fun _ _ => trivial, trivial⟩
  refine ⟨s, hs, hcounted ?_, (hsafe _).mpr (Or.inl (by decide))⟩
  intro a ha
  simp only [defineRun, List.mem_cons, List.not_mem_nil, or_false] at ha
  rcases ha with rfl | rfl | rfl
  · trivial
  · intro _
    decide
  · intro _
    decide

/-- A client undefines an identifier that is equal to that of a free slot. -/
def undefineMarked : List Act :=
  [.accept (some (3, ⟨1, 2⟩)), .packet .calm 0 (Packet.make Msg.undefine.code ⟨freeMark, 0, 0, 0⟩ [])]

theorem undefineMarked_wraps :
    (run (memoryAct somePlaces) (.whole (serverCreate [])) undefineMarked).1 =
        .whole (run act (serverCreate []) undefineMarked).1 ∧
      ¬ Counted (run act (serverCreate []) undefineMarked).1 := by
  refine ⟨?_, by decide +kernel⟩
  rw [run_memoryAct undefineMarked ⟨fun _ _ => trivial, fun _ _ => trivial, trivial⟩]

end SyncScribe
