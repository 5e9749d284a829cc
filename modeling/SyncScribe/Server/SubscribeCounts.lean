import SyncScribe.Server.Counters

/-!
`event_subscribe`. The counter of a client moves with the consumer arrays: up
when a SUBSCRIBE adds the client to an event, down when it leaves one. An event that
is undefined takes its consumers with it and their counters stay, and a slot of a
closed client can still be listed. Where neither happens (`Act.keepsSubscriptions`)
every consumer is connected, every event with consumers is live, and each counter
is the number of events that list its client (`Roles`).
-/

namespace SyncScribe
open Lib Lib.Bytes Lib.Slots Lib.Keyed

/-- The number of live events that list `c`. -/
def subscriptions (s : Server) (c : ClientIx) : Nat :=
  number fun e => (s.events e).live && decide (Holds (s.events e).consumers c)

/-- `event_subscribe` of every connected client is the number of live events that list it. -/
def SubscriptionsCounted (s : Server) : Prop :=
  ∀ c, (s.clients c).connected = true → (s.clients c).eventSubscribe.toNat = subscriptions s c

instance (s : Server) : Decidable (SubscriptionsCounted s) :=
  inferInstanceAs (Decidable (∀ c, (s.clients c).connected = true → _ = _))

/-- The event found under `id`, if any, has no consumers. -/
def Unlisted (s : Server) (id : Id) : Prop := ∀ e, findEvent s id = some e → ∀ c, ¬ Holds (s.events e).consumers c

/-- A SUBSCRIBE comes from a connected client and names no marked identifier, an UNDEFINE names no event with
consumers. -/
def Packet.keepsSubscriptions (s : Server) (c : ClientIx) (p : Packet) : Prop :=
  (p.header.msg = .subscribe → (s.clients c).connected = true ∧ p.header.id.good) ∧
    (p.header.msg = .undefine → Unlisted s p.header.id)

def Act.keepsSubscriptions (s : Server) : Act → Prop
  | .packet _ c p => p.keepsSubscriptions s c
  | .datagram _ addr p => ∀ s' c, uclientOf s addr p.header = some (s', c) → p.keepsSubscriptions s' c
  | .serverUndefine cid => Unlisted s (idstr cid)
  | _ => True

/-- Consumers are connected, their events live, and their counters right. -/
structure Roles (s : Server) : Prop where
  slots : ∀ e, SlotInv (s.events e)
  live : ∀ e c, Holds (s.events e).consumers c → (s.events e).live = true
  connected : ∀ e c, Holds (s.events e).consumers c → (s.clients c).connected = true
  counted : ∀ c, (s.clients c).connected = true →
    (s.clients c).eventSubscribe.toNat = number fun e => decide (Holds (s.events e).consumers c)

/-- The clients have the same connections and the same counters of subscriptions. -/
def SameSubscribers (s s' : Server) : Prop :=
  ∀ c, (s'.clients c).connected = (s.clients c).connected ∧ (s'.clients c).eventSubscribe = (s.clients c).eventSubscribe

section Subscribers

variable {s s' s'' : Server} {c : ClientIx}

theorem SameSubscribers.refl (s : Server) : SameSubscribers s s := fun _ => ⟨rfl, rfl⟩

theorem SameSubscribers.trans (h : SameSubscribers s s') (h' : SameSubscribers s' s'') : SameSubscribers s s'' :=
  fun c => ⟨(h' c).1.trans (h c).1, (h' c).2.trans (h c).2⟩

theorem SameSubscribers.modify {f : Client → Client}
    (hf : ∀ cl, (f cl).connected = cl.connected ∧ (f cl).eventSubscribe = cl.eventSubscribe) :
    SameSubscribers s (s.modifyClient c f) := by
  intro i
  rw [Server.modifyClient_clients]
  split
  · rename_i hi
    rw [hi]
    exact hf _
  · exact ⟨rfl, rfl⟩

theorem Quiet.sameSubscribers (h : Quiet s s') : SameSubscribers s s' := by
  intro c
  obtain ⟨tx, er, hc⟩ := h.clients c
  rw [hc]
  exact ⟨rfl, rfl⟩

end Subscribers

namespace Roles

variable {env : Env} {s s' : Server} {c : ClientIx} {e : EventIx} {id : Id} {flags size : UInt32}
  {data : List UInt8}

theorem subscriptionsCounted (h : Roles s) : SubscriptionsCounted s := by
  intro c hc
  have hlists : (fun e => (s.events e).live && decide (Holds (s.events e).consumers c)) =
      fun e => decide (Holds (s.events e).consumers c) := by
    funext e
    by_cases hh : Holds (s.events e).consumers c
    · simp [hh, h.live e c hh]
    · simp [hh]
  rw [h.counted c hc, subscriptions, hlists]

theorem init (cid : List UInt8) : Roles (serverCreate cid) := by
  have hnone : ∀ e c, ¬ Holds ((serverCreate cid).events e).consumers c := fun _ c => not_holds_empty c
  refine ⟨(run_tableInv cid []).slots, fun e c hh => absurd hh (hnone e c), fun e c hh => absurd hh (hnone e c), ?_⟩
  intro c hc
  cases hc

/-- The same events, the same subscribers. -/
theorem same (h : Roles s) (he : s'.events = s.events) (hc : SameSubscribers s s') : Roles s' := by
  refine ⟨he ▸ h.slots, he ▸ h.live, fun e c hh => ?_, fun c hcon => ?_⟩
  · rw [(hc c).1]
    exact h.connected e c (he ▸ hh)
  · rw [(hc c).1] at hcon
    rw [(hc c).2, he]
    exact h.counted c hcon

theorem modify (h : Roles s) {f : Client → Client}
    (hf : ∀ cl, (f cl).connected = cl.connected ∧ (f cl).eventSubscribe = cl.eventSubscribe) :
    Roles (s.modifyClient c f) :=
  h.same rfl (.modify hf)

theorem quiet (h : Roles s) (hq : Quiet s s') : Roles s' := h.same hq.events hq.sameSubscribers

/-- A store into one event that leaves its consumers alone. -/
theorem store (h : Roles s) {ev : Event} (hev : SlotInv ev)
    (hh : ∀ c, Holds ev.consumers c ↔ Holds (s.events e).consumers c)
    (hl : ∀ c, Holds ev.consumers c → ev.live = true) : Roles (s.setEvent e ev) := by
  have hholds : ∀ i c, Holds ((s.setEvent e ev).events i).consumers c ↔ Holds (s.events i).consumers c := by
    intro i c
    by_cases hi : i = e
    · rw [hi, Server.setEvent_same]
      exact hh c
    · rw [Server.setEvent_of_ne s ev hi]
  refine ⟨forall_update h.slots hev, fun i c hc => ?_, fun i c hc => h.connected i c ((hholds i c).mp hc),
    fun c hcon => ?_⟩
  · by_cases hi : i = e
    · rw [hi, Server.setEvent_same] at hc ⊢
      exact hl c hc
    · rw [Server.setEvent_of_ne s ev hi]
      exact h.live i c ((hholds i c).mp hc)
  · simp only [hholds]
    exact h.counted c hcon

/-- An edit of an event that keeps its identifier and its consumers. -/
theorem edit (h : Roles s) {ev : Event} (hev : SlotInv ev) (hid : ev.id = (s.events e).id)
    (hc : ev.consumers = (s.events e).consumers) : Roles (s.setEvent e ev) := by
  refine h.store hev (fun c => by rw [hc]) (fun c hh => ?_)
  rw [Event.live, hid]
  exact h.live e c (hc ▸ hh)

/-- A new event takes a slot without consumers. -/
theorem create (h : Roles s) {dataType : UInt32} (ht : dataType &&& typeVarMask = dataType)
    (hfree : ¬ (s.events e).id.good) : Roles (createdServer s id e dataType) := by
  have hnone : ∀ c, ¬ Holds (s.events e).consumers c := fun c hc => hfree (Event.live_iff.mp (h.live e c hc))
  have hstore : Roles (s.setEvent e { eventInit (s.events e) id with dataType := dataType }) := by
    refine h.store (fresh_inv _ id ht) (fun c => ?_) (fun c hc => absurd hc (not_holds_empty c))
    exact iff_of_false (not_holds_empty c) (hnone c)
  exact hstore.same rfl (.refl _)

theorem opened (h : Roles s) {dataType : UInt32} (ht : dataType &&& typeVarMask = dataType)
    (ho : openEvent s id flags dataType = .ok (s', e)) : Roles s' := by
  rcases openEvent_ok ho with ⟨_, rfl⟩ | ⟨_, _, hfree, rfl⟩
  · exact h
  · exact h.create ht hfree

theorem free (h : Roles s) (hid : Unlisted s id) : Roles (freeEvent s id) := by
  unfold freeEvent
  split
  · rename_i e hf
    have hstore : Roles (s.setEvent e { s.events e with id := (s.events e).id.free }) :=
      h.store ((h.slots e).same rfl rfl rfl) (fun _ => Iff.rfl)
        fun c hc => absurd hc (hid e hf c)
    exact hstore.same rfl (.refl _)
  · exact h

/-- Adding a consumer that is already there changes nothing. -/
theorem addClientToEvent_known (hh : Holds (s.events e).consumers c) : (addClientToEvent s c e).2 = s := by
  unfold addClientToEvent
  cases hf : first fun i => (s.events e).consumers i == some c with
  | some i => rfl
  | none => exact absurd hh (first_consumer_none hf)

/-- Adding a new one counts it. -/
theorem addClientToEvent_new (hs : SlotInv (s.events e)) (hh : ¬ Holds (s.events e).consumers c) :
    (addClientToEvent s c e).2 = (s.setEvent e ((s.events e).addConsumer c)).modifyClient c
      fun cl => { cl with eventSubscribe := cl.eventSubscribe + 1 } := by
  unfold addClientToEvent Event.addConsumer
  cases hf : first fun i => (s.events e).consumers i == some c with
  | some i => exact absurd ⟨i, first_consumer_some hf⟩ hh
  | none =>
    obtain ⟨i, hi, _⟩ := exists_first_hole hs hh
    simp only [hi]

theorem removeClientFromEvent_unknown (hh : ¬ Holds (s.events e).consumers c) : removeClientFromEvent s c e = s := by
  unfold removeClientFromEvent
  cases hf : first fun i => (s.events e).consumers i == some c with
  | some i => exact absurd ⟨i, first_consumer_some hf⟩ hh
  | none => rfl

theorem removeClientFromEvent_known (hh : Holds (s.events e).consumers c) :
    removeClientFromEvent s c e = (s.setEvent e ((s.events e).dropConsumer c)).modifyClient c
      fun cl => { cl with eventSubscribe := cl.eventSubscribe - 1 } := by
  unfold removeClientFromEvent Event.dropConsumer
  cases hf : first fun i => (s.events e).consumers i == some c with
  | some i => rfl
  | none => exact absurd hh (first_consumer_none hf)

/-- One event gains or loses one consumer, which is connected, and the counter of the consumer follows. -/
theorem recount (h : Roles s) {ev : Event} {n : UInt32} (hev : SlotInv ev)
    (hlive : ∀ i, Holds ev.consumers i → ev.live = true) (hc : (s.clients c).connected = true)
    (hother : ∀ i, i ≠ c → (Holds ev.consumers i ↔ Holds (s.events e).consumers i))
    (hn : n.toNat = number fun i => decide (Holds (((s.setEvent e ev).events i).consumers) c)) :
    Roles ((s.setEvent e ev).modifyClient c fun cl => { cl with eventSubscribe := n }) := by
  have hcon : ∀ i, (((s.setEvent e ev).modifyClient c fun cl => { cl with eventSubscribe := n }).clients i).connected =
      (s.clients i).connected := by
    intro i
    rw [Server.modifyClient_clients]
    split
    · rename_i hi
      rw [hi]
      rfl
    · rfl
  have hholds : ∀ i j, j ≠ c →
      (Holds ((s.setEvent e ev).events i).consumers j ↔ Holds (s.events i).consumers j) := by
    intro i j hj
    by_cases hi : i = e
    · rw [hi, Server.setEvent_same]
      exact hother j hj
    · rw [Server.setEvent_of_ne s ev hi]
  refine ⟨forall_update h.slots hev, fun i j hh => ?_, fun i j hh => ?_, fun j hj => ?_⟩
  · rw [Server.modifyClient_events] at hh ⊢
    by_cases hi : i = e
    · rw [hi, Server.setEvent_same] at hh ⊢
      exact hlive j hh
    · rw [Server.setEvent_of_ne s ev hi] at hh ⊢
      exact h.live i j hh
  · rw [hcon]
    by_cases hjc : j = c
    · rw [hjc]
      exact hc
    · rw [Server.modifyClient_events] at hh
      exact h.connected i j ((hholds i j hjc).mp hh)
  · rw [hcon] at hj
    simp only [Server.modifyClient_clients, Server.modifyClient_events]
    split
    · rename_i hjc
      rw [hjc]
      exact hn
    · rename_i hjc
      simp only [hholds _ j hjc]
      exact h.counted j hj

theorem add (h : Roles s) (hc : (s.clients c).connected = true) (hl : (s.events e).live = true) :
    Roles (addClientToEvent s c e).2 := by
  by_cases hh : Holds (s.events e).consumers c
  · rw [addClientToEvent_known hh]
    exact h
  · obtain ⟨cs, n, hsame⟩ := addConsumer_same (s.events e) c
    have hadded : ∀ i, Holds ((s.events e).addConsumer c).consumers i ↔ i = c ∨ Holds (s.events e).consumers i :=
      fun i => holds_addConsumer (h.slots e)
    have hsucc : (number fun i => decide (Holds ((s.setEvent e ((s.events e).addConsumer c)).events i).consumers c)) =
        (number fun i => decide (Holds (s.events i).consumers c)) + 1 := by
      refine number_succ (i := e) (by simp [hh]) (by simp [hadded]) fun i hi => ?_
      rw [Server.setEvent_of_ne s _ hi]
    have hle : (number fun i => decide (Holds (s.events i).consumers c)) ≤ 256 := number_le _
    rw [addClientToEvent_new (h.slots e) hh]
    refine h.recount (addConsumer_inv (h.slots e)) (fun i _ => ?_) hc (fun i hi => ?_) ?_
    · rw [Event.live, hsame]
      exact hl
    · simp [hadded, hi]
    · rw [hsucc]
      exact succ_counter (h.counted c hc) (by omega)

theorem drop (h : Roles s) : Roles (removeClientFromEvent s c e) := by
  by_cases hh : Holds (s.events e).consumers c
  · obtain ⟨cs, n, hsame⟩ := dropConsumer_same (s.events e) c
    have hdropped : ∀ i, Holds ((s.events e).dropConsumer c).consumers i ↔ i ≠ c ∧ Holds (s.events e).consumers i :=
      fun i => holds_dropConsumer (h.slots e)
    have hsucc : (number fun i => decide (Holds (s.events i).consumers c)) =
        (number fun i => decide (Holds ((s.setEvent e ((s.events e).dropConsumer c)).events i).consumers c)) + 1 := by
      refine number_succ (i := e) (by simp [hdropped]) (by simp [hh]) fun i hi => ?_
      rw [Server.setEvent_of_ne s _ hi]
    rw [removeClientFromEvent_known hh]
    refine h.recount (dropConsumer_inv (h.slots e)) (fun i _ => ?_) (h.connected e c hh) (fun i hi => ?_) ?_
    · rw [Event.live, hsame]
      exact h.live e c hh
    · simp [hdropped, hi]
    · exact pred_counter ((h.counted c (h.connected e c hh)).trans hsucc)
  · rw [removeClientFromEvent_unknown hh]
    exact h

/-- A slot whose client consumes nothing changes hands. -/
theorem reset (h : Roles s) (hn : ∀ e, ¬ Holds (s.events e).consumers c) (he : s'.events = s.events)
    (hother : ∀ i, i ≠ c → s'.clients i = s.clients i)
    (hzero : (s'.clients c).connected = true → (s'.clients c).eventSubscribe = 0) : Roles s' := by
  refine ⟨he ▸ h.slots, he ▸ h.live, fun e i hh => ?_, fun i hcon => ?_⟩
  · rw [he] at hh
    have hi : i ≠ c := by
      rintro rfl
      exact hn e hh
    rw [hother i hi]
    exact h.connected e i hh
  · rw [he]
    by_cases hi : i = c
    · subst hi
      rw [hzero hcon, number_eq_zero fun e => by simp [hn e]]
      rfl
    · rw [hother i hi] at hcon ⊢
      exact h.counted i hcon

/-- The client of a free slot consumes nothing. -/
theorem consumes_none (h : Roles s) (hfree : (s.clients c).connected = false) (e : EventIx) :
    ¬ Holds (s.events e).consumers c := by
  intro hh
  rw [h.connected e c hh] at hfree
  cases hfree

theorem removeLoop (h : Roles s) (es : List EventIx) : Roles (removeClientFromEventsLoop c es s) := by
  induction es generalizing s with
  | nil => exact h
  | cons e es ih =>
    unfold removeClientFromEventsLoop
    split
    · exact ih h.drop
    · exact ih h

/-- **A close takes every event from its client.** -/
theorem close (h : Roles s) : Roles (closeClientSocket s c) := by
  have hremoved : Roles (removeClientFromEvents s c) := h.removeLoop _
  have hev := closeClientSocket_events s c
  have hnone : ∀ e, ¬ Holds (closeClientSocket s c |>.events e).consumers c := by
    intro e hh
    simp only [hev, Event.closed] at hh
    split at hh
    · exact ((holds_dropConsumer (h.slots e)).mp hh).1 rfl
    · rename_i hdead
      exact hdead (h.live e c hh)
  rw [closeClientSocket] at hnone ⊢
  generalize removeClientFromEvents s c = t at hremoved hnone ⊢
  refine hremoved.reset (c := c) hnone rfl (fun i hi => ?_) (fun hcon => ?_)
  · simp only [Server.modifyClient_clients, if_neg hi, removeChannelsOfClient]
  · simp [Server.modifyClient_clients, Client.connected] at hcon

theorem accept (h : Roles s) (accepted : Option (Nat × SockAddr)) : Roles (addClient s accepted) := by
  unfold addClient
  split
  · exact h
  · exact h
  · rename_i c fd addr hf
    refine h.reset (h.consumes_none (not_connected (first_some hf))) rfl (fun i hi => ?_) (fun _ => ?_)
    · simp only [Server.modifyClient_clients, if_neg hi]
    · simp only [Server.modifyClient_clients, ↓reduceIte]

theorem uclientOf (h : Roles s) {addr : SockAddr} {hd : Header} (hu : uclientOf s addr hd = some (s', c)) :
    Roles s' := by
  unfold SyncScribe.uclientOf at hu
  split at hu
  · cases hu
    exact h
  · split at hu
    · split at hu
      · cases hu
        exact h.modify (by intro; exact ⟨rfl, rfl⟩)
      · unfold addUclient at hu
        split at hu
        · cases hu
        · rename_i c' hf
          cases hu
          refine h.reset (h.consumes_none (not_connected (first_some hf))) rfl (fun i hi => ?_) (fun _ => ?_)
          · simp only [Server.modifyClient_clients, if_neg hi]
          · simp only [Server.modifyClient_clients, ↓reduceIte]
    · cases hu

/-! ## Calls and packets -/

theorem subscribe (h : Roles s) (updateCounter : UInt64) (hc : (s.clients c).connected = true) (hg : id.good) :
    Roles (clientSubscribe env s c id flags updateCounter).server := by
  by_cases hr : (clientSubscribe env s c id flags updateCounter).ret = 0
  · obtain ⟨s', e, ho, _, hq, _⟩ := clientSubscribe_accepted hr
    have hlive : (s'.events e).live = true := by
      rw [Event.live_iff, openEvent_id ho]
      exact hg
    have hcon : (s'.clients c).connected = true := by
      rw [identity_connected ((openEvent_slots ho).identity c)]
      exact hc
    exact ((h.opened (typeVarMask_idem flags) ho).add hcon hlive).quiet hq
  · rw [(clientSubscribe_refused hr).1]
    exact h

theorem unsubscribe (h : Roles s) : Roles (clientUnsubscribe s c id) := by
  unfold clientUnsubscribe
  split
  · exact h.drop
  · exact h

theorem define (h : Roles s) (mem : Option (List UInt8)) : Roles (addEvent s id flags mem size).server := by
  have hstore : ∀ {u : Server} {e}, Roles u → Roles (u.setEvent e (addEventStore (u.events e) flags mem size)) :=
    fun {u} {e} hu => hu.edit (addEventStore_inv (hu.slots e)) rfl rfl
  unfold addEvent
  split
  · split
    · exact h
    · exact hstore h
  · split
    · exact h
    · rename_i s' e hc
      obtain ⟨hfree, rfl⟩ := createEvent_some hc
      exact hstore (h.create (by decide) hfree)

theorem write (h : Roles s) : Roles (clientWrite env s c id flags data size).server := by
  by_cases hr : (clientWrite env s c id flags data size).ret = 0
  · obtain ⟨s', e, ho, _, hs, _⟩ := clientWrite_accepted hr
    have hopen := h.opened (typeVarMask_idem flags) ho
    have hkept : SlotInv (writeStore s' c (s'.events e) data size) := writeStore_inv (hopen.slots e)
    have hstore := hopen.edit hkept rfl rfl
    have hcounted := hstore.modify (c := c) (f := fun cl => { cl with eventWrite := cl.eventWrite + 1 })
      (by intro; exact ⟨rfl, rfl⟩)
    have hwritten : Roles (writtenServer s' c e data size) := hcounted.same rfl (.refl _)
    rw [hs]
    exact hwritten.quiet (sendEvent_quiet _ _ _ _)
  · rw [(clientWrite_refused hr).1]
    exact h

theorem serverWrite (h : Roles s) {cid : List UInt8} : Roles (serverWrite env s flags cid data size).server := by
  by_cases hr : (SyncScribe.serverWrite env s flags cid data size).ret = 0
  · obtain ⟨s', e, ho, hs, _⟩ := serverWrite_accepted hr
    have hopen := h.opened (by decide) ho
    rw [hs]
    have hstore : Roles (s'.setEvent e (serverWriteStore (s'.events e) data (serverWriteSize flags size))) :=
      hopen.edit (serverWriteStore_inv (hopen.slots e)) rfl rfl
    exact hstore.quiet (sendEvent_quiet _ _ _ _)
  · rw [(serverWrite_refused hr).1]
    exact h

theorem identify (h : Roles s) (hd : Header) : Roles (clientIdentify env s c hd).1 := by
  have hstatus : ∀ code, Roles (sendServerStatus env s c code).1 := fun code => h.quiet (sendCounted_quiet s c _)
  unfold clientIdentify
  dsimp only
  split
  · have hclose := (hstatus errorNotsupport).close (c := c)
    generalize closeClientSocket (sendServerStatus env s c errorNotsupport).1 c = t at hclose ⊢
    exact hclose.modify (by intro; exact ⟨rfl, rfl⟩)
  · exact (hstatus errorNotfound).modify (by intro; exact ⟨rfl, rfl⟩)

/-- **One packet.** -/
theorem packet (h : Roles s) {p : Packet} (hp : p.keepsSubscriptions s c) :
    Roles (clientProcessPacket env s c p).server := by
  -- the receive counter is bumped last
  have hcount : ∀ {u : Server}, Roles u →
      Roles (u.modifyClient c fun cl => { cl with rxEventCount := cl.rxEventCount + 1 }) :=
    fun hu => hu.modify (by intro; exact ⟨rfl, rfl⟩)
  cases hm : p.header.msg
  all_goals simp only [clientProcessPacket, clientDispatch, hm]
  case subscribe => exact hcount (h.subscribe _ (hp.1 hm).1 (hp.1 hm).2)
  case unsubscribe => exact hcount h.unsubscribe
  case define => exact hcount (h.define none)
  case undefine => exact hcount (h.free (hp.2 hm))
  case write => exact hcount h.write
  case read => exact hcount (h.quiet (sendCounted_quiet s c _))
  case clientList => exact hcount (h.quiet (sendList_quiet env clientKind s c _))
  case eventList => exact hcount (h.quiet (sendList_quiet env eventKind s c _))
  case channelList => exact hcount (h.quiet (sendList_quiet env channelKind s c _))
  case clientId => exact hcount (h.identify p.header)
  case channel =>
    refine hcount ?_
    rw [clientChannel_frame]
    exact h.same rfl (.refl s)
  all_goals exact h

/-- **One act** keeps the counters of the subscriptions. -/
theorem act (h : Roles s) {a : Act} (ha : a.keepsSubscriptions s) : Roles (act s a).1 := by
  cases a with
  | accept accepted => exact h.accept accepted
  | packet env c p => exact h.packet ha
  | datagram env addr p =>
    simp only [SyncScribe.act, uclientProcessPacket]
    cases hu : SyncScribe.uclientOf s addr p.header with
    | none =>
      simp only
      split <;> exact h
    | some r =>
      obtain ⟨s', c⟩ := r
      exact (h.uclientOf hu).packet (ha s' c hu)
  | close c => exact h.close
  | keep c buffer =>
    simp only [SyncScribe.act]
    exact h.modify (by intro; exact ⟨rfl, rfl⟩)
  | serverWrite env flags cid data size => exact h.serverWrite
  | serverDefine cid flags mem size =>
    simp only [SyncScribe.act, serverDefine]
    split
    · exact h
    · exact h.define mem
  | serverUndefine cid => exact h.free ha
  | serverSubscribeEvent flags cid cb args =>
    simp only [SyncScribe.act, serverSubscribeEvent]
    split
    · exact h
    · rename_i s' e ho
      have hopen := h.opened (by decide) ho
      exact hopen.edit ((hopen.slots e).same rfl rfl rfl) rfl rfl
  | serverUnsubscribeEvent cid =>
    simp only [SyncScribe.act, serverUnsubscribeEvent]
    split
    · rename_i e _
      exact h.edit ((h.slots e).same rfl rfl rfl) rfl rfl
    · exact h
  | setSyncOffset ms => exact h.same rfl (.refl s)

end Roles

end SyncScribe
