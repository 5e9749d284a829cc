import SyncScribe.Server.Bounds
import SyncScribe.Server.FanOut

/-!
The width of typed values. The size of a value is stored by every write, by a definition
and by a forced redefinition, and none of them looks at the type. So the EVENT packets of an
INT32, INT64, FLOAT or DOUBLE are as wide as their type as long as every store that
changes the value of such an event brings that width.
-/

namespace SyncScribe
open Lib Lib.Bytes Lib.Slots Lib.Keyed

/-! ## Packets -/

/-- The EVENT packet that is sent. -/
def Out.event : Out → Option Packet
  | .send _ p => if p.header.msg = .event then some p else none
  | .sendto .. | .call .. => none

def eventPackets (out : List Out) : List Packet := out.filterMap Out.event

/-- The EVENT packets of a step are as wide as the types of their events. -/
def Widths (s : Server) (out : List Out) : Prop :=
  ∀ p ∈ eventPackets out, ∀ e, findEvent s p.header.id = some e → getSizeByType (s.events e).dataType ≠ 0 →
    p.header.dataSize.toUInt32 = getSizeByType (s.events e).dataType

/-! ## What the stores must bring -/

/-- `syncs_client_write` accepts: the event has the type, or may and can be created. -/
def writeOpens (s : Server) (id : Id) (flags : UInt32) : Prop :=
  (∃ e, findEvent s id = some e ∧ flags &&& typeVarMask = (s.events e).dataType) ∨
    (findEvent s id = none ∧ flags &&& typeForce ≠ 0 ∧ ∃ e, (s.events e).live = false)

/-- A redefinition of an event that has been written gives the width of the new type; sizes that
`syncs_add_event` does not take are replaced by it. -/
def redefinesWide (s : Server) (id : Id) (flags size : UInt32) : Prop :=
  ∀ e, findEvent s id = some e → flags &&& typeForce ≠ 0 → (s.events e).updateCounter ≠ 0 →
    getSizeByType flags ≠ 0 → 1 < size.toNat → size.toNat < variableSizeMaximum → size = getSizeByType flags

/-- A packet that stores a value of a typed event brings its width. -/
def Packet.wide (s : Server) (p : Packet) : Prop :=
  (p.header.msg = .write → writeOpens s p.header.id p.header.type → getSizeByType p.header.type ≠ 0 →
    p.header.dataSize.toUInt32 = getSizeByType p.header.type) ∧
  (p.header.msg = .define → redefinesWide s p.header.id p.header.type p.header.dataSize.toUInt32)

/-- The same of an act; a `syncs_server_write` to an event without a type still stays in the array. -/
def Act.wide (s : Server) : Act → Prop
  | .packet _ _ p => p.wide s
  | .datagram _ addr p => (uclientOf s addr p.header).isSome = true → p.wide s
  | .serverWrite _ flags cid _ size =>
    (serverWriteOpens s flags cid → (serverWriteSize flags size).toNat ≤ variableSizeMaximum) ∧
    ∀ e, findEvent s (idstr cid) = some e → getSizeByType (s.events e).dataType ≠ 0 →
      serverWriteSize flags size = getSizeByType (s.events e).dataType
  | .serverDefine cid flags _ size => redefinesWide s (idstr cid) flags size
  | _ => True

/-- The value is as wide as the type. -/
def Event.Wide (ev : Event) : Prop := getSizeByType ev.dataType ≠ 0 → ev.dataSize = getSizeByType ev.dataType

/-- A value that a subscriber may be brought up to date with is as wide as its type. -/
def Event.Caught (ev : Event) : Prop := ev.updateCounter ≠ 0 → ev.Wide

def Server.Caught (s : Server) : Prop := ∀ e, (s.events e).Caught

section Steps

variable {env : Env} {s s' : Server} {c : ClientIx} {e : EventIx} {ev ev' : Event} {id : Id}
  {flags dataType size : UInt32} {data : List UInt8} {out out' : List Out}

theorem getSizeByType_masked (flags : UInt32) : getSizeByType (flags &&& typeVarMask) = getSizeByType flags := by
  simp only [getSizeByType, and_mask_idem]

/-- A width fits the size field of a header. -/
theorem toUInt16_width (type : UInt32) : (getSizeByType type).toUInt16.toUInt32 = getSizeByType type := by
  unfold getSizeByType
  split
  · rfl
  · split <;> rfl

theorem eventPackets_append : eventPackets (out ++ out') = eventPackets out ++ eventPackets out' :=
  List.filterMap_append

theorem eventPackets_send_other {p : Packet} (h : p.header.msg ≠ .event) : eventPackets [.send c p] = [] := by
  simp only [eventPackets, List.filterMap_cons, Out.event, if_neg h, List.filterMap_nil]

theorem widths_nil (h : eventPackets out = []) : Widths s out := by
  intro p hp
  rw [h] at hp
  cases hp

/-- What is sent about one event is as wide as its type. -/
theorem widths_of_event (hout : ∀ p ∈ eventPackets out, p.header.id = id ∧
      p.header.dataSize = (s.events e).dataSize.toUInt16)
    (hf : findEvent s id = some e) (hwide : eventPackets out ≠ [] → (s.events e).Wide) : Widths s out := by
  intro p hp e' he' ht
  obtain ⟨hid, hsize⟩ := hout p hp
  rw [hid, hf] at he'
  cases he'
  rw [hsize, hwide (List.ne_nil_of_mem hp) ht, toUInt16_width]

theorem eventPackets_callLocal (ev : Event) : eventPackets (callLocal ev id) = [] := by
  unfold callLocal
  split <;> rfl

theorem mem_eventPackets_sendEvent {p : Packet} (hp : p ∈ eventPackets (sendEvent env s e flags).2) :
    p = eventPacket env s (s.events e) flags := by
  rw [sendEvent_out] at hp
  obtain ⟨o, ho, hev⟩ := List.mem_filterMap.mp hp
  obtain ⟨c, _, rfl⟩ := List.mem_map.mp ho
  simp only [Out.event] at hev
  split at hev
  · exact (Option.some.inj hev).symm
  · cases hev

theorem eventPackets_list {n : Nat} {k : ListKind n} (hk : 0 < k.perPacket) (hm : k.msg ≠ .event)
    (sequance : UInt8) : eventPackets (sendList env k s c sequance).2 = [] := by
  rw [eventPackets, List.filterMap_eq_nil_iff]
  intro o ho
  obtain ⟨p, rfl, hp, _⟩ := sendList_out env hk s sequance o ho
  have hmsg : p.header.msg ≠ .event := by
    rw [Header.msg, hp.type, Msg.ofWord_code]
    exact hm
  exact if_neg hmsg

theorem eventPackets_identify (h : Header) : eventPackets (clientIdentify env s c h).2 = [] := by
  have hstatus : ∀ code, eventPackets [.send c (statusPacket env s code)] = [] := by
    intro code
    have hm : (statusPacket env s code).header.msg = .serverStatus := Msg.ofWord_code .serverStatus
    exact eventPackets_send_other (by rw [hm]; decide)
  unfold clientIdentify
  split
  · exact hstatus errorNotsupport
  · exact hstatus errorNotfound

theorem eventPackets_channel (p : Packet) : eventPackets (clientChannel env s c p).out = [] := by
  unfold clientChannel
  split
  · simp only [addChannel_out]
    rfl
  · split
    · unfold clientChannelRequest
      split
      · rfl
      · rename_i k _
        have hm : (ticketPacket env p.header.id (s.channels k)).header.msg = Msg.ofWord channelTicket := rfl
        exact eventPackets_send_other (by rw [hm]; decide)
    · rfl

/-! ## Stores -/

theorem Server.Caught.update (h : s.Caught) (hs : s'.events = Function.update s.events e ev) (hev : ev.Caught) :
    s'.Caught := by
  intro i
  rw [hs]
  exact forall_update h hev i

theorem Server.Caught.of_events (h : s.Caught) (hs : s'.events = s.events) : s'.Caught := by
  intro i
  rw [hs]
  exact h i

/-- Nothing has been written to a new event. -/
theorem caught_init (ev : Event) (id : Id) (type : UInt32) :
    Event.Caught { eventInit ev id with dataType := type } := by
  intro hc
  exact absurd rfl hc

theorem Event.Caught.consumers (h : ev.Caught) (hsame : SameButConsumers ev ev') : ev'.Caught := by
  obtain ⟨cs, n, rfl⟩ := hsame
  exact h

theorem Server.Caught.opened (h : s.Caught) (ho : openEvent s id flags dataType = .ok (s', e)) : s'.Caught := by
  rcases openEvent_ok ho with ⟨_, rfl⟩ | ⟨_, _, _, rfl⟩
  · exact h
  · exact h.update rfl (caught_init (s.events e) id dataType)

/-- A definition stores the width of the type, unless it brings a size of its own. -/
theorem addEventStore_wide (ev : Event) (mem : Option (List UInt8))
    (h : getSizeByType flags ≠ 0 → 1 < size.toNat → size.toNat < variableSizeMaximum → size = getSizeByType flags) :
    (addEventStore ev flags mem size).Wide := by
  intro ht
  simp only [addEventStore, getSizeByType_masked] at ht ⊢
  split
  · rename_i hin
    exact h ht hin.1 hin.2
  · rfl

/-! ## Calls -/

/-- What a step keeps, and what it sends. -/
structure WideStep (s' : Server) (out : List Out) : Prop where
  caught : s'.Caught
  widths : Widths s' out

theorem WideStep.silent (h : s'.Caught) (hout : eventPackets out = []) : WideStep s' out := ⟨h, widths_nil hout⟩

theorem consumers_id (h : SameButConsumers ev ev') : ev'.id = ev.id := by
  obtain ⟨cs, n, rfl⟩ := h
  rfl

/-- A value is sent again only if it has been written. -/
theorem mem_eventPackets_resend {updateCounter : UInt64} {p : Packet}
    (hp : p ∈ eventPackets (if updateCounter < ev.updateCounter then [.send c (resendPacket env ev)] else [])) :
    p = resendPacket env ev ∧ ev.updateCounter ≠ 0 := by
  split at hp
  · rename_i hlt
    have hevent : (resendPacket env ev).header.msg = .event := Msg.ofWord_or .event (by decide)
    simp only [eventPackets, List.filterMap_cons, Out.event, if_pos hevent, List.filterMap_nil,
      List.mem_singleton] at hp
    refine ⟨hp, ?_⟩
    rintro hz
    rw [hz] at hlt
    exact absurd hlt (UInt64.not_lt.mpr (UInt64.le_iff_toNat_le.mpr (Nat.zero_le _)))
  · cases hp

theorem Server.Caught.subscribe (h : s.Caught) (updateCounter : UInt64) :
    WideStep (clientSubscribe env s c id flags updateCounter).server
      (clientSubscribe env s c id flags updateCounter).out := by
  by_cases hr : (clientSubscribe env s c id flags updateCounter).ret = 0
  · obtain ⟨s', e, ho, _, hq, hout⟩ := clientSubscribe_accepted hr
    have hsame := addConsumer_same (s'.events e) c
    have hevents : (clientSubscribe env s c id flags updateCounter).server.events =
        Function.update s'.events e ((s'.events e).addConsumer c) := clientSubscribe_events ho hr
    have hcaught : (clientSubscribe env s c id flags updateCounter).server.Caught :=
      (h.opened ho).update hevents ((h.opened ho e).consumers hsame)
    have hfound : findEvent (clientSubscribe env s c id flags updateCounter).server id = some e := by
      rw [findEvent_update hevents (consumers_id hsame)]
      exact findEvent_opened ho
    have hsent : ∀ p ∈ eventPackets (clientSubscribe env s c id flags updateCounter).out,
        p = resendPacket env ((clientSubscribe env s c id flags updateCounter).server.events e) ∧
          ((clientSubscribe env s c id flags updateCounter).server.events e).updateCounter ≠ 0 := by
      intro p hp
      rw [hout] at hp
      rw [hq.events]
      exact mem_eventPackets_resend hp
    refine ⟨hcaught, widths_of_event ?_ hfound ?_⟩
    · intro p hp
      obtain ⟨rfl, _⟩ := hsent p hp
      exact ⟨findEvent_some hfound, rfl⟩
    · intro hne
      obtain ⟨p, hp⟩ := List.exists_mem_of_ne_nil _ hne
      exact hcaught e (hsent p hp).2
  · obtain ⟨hs, hout⟩ := clientSubscribe_refused hr
    rw [hs, hout]
    exact .silent h rfl

theorem Server.Caught.unsubscribe (h : s.Caught) : (clientUnsubscribe s c id).Caught := by
  unfold clientUnsubscribe
  split
  · exact h.update removeClientFromEvent_events ((h _).consumers (dropConsumer_same _ c))
  · exact h

theorem Server.Caught.close (h : s.Caught) : (closeClientSocket s c).Caught := by
  intro i
  rw [closeClientSocket_events]
  exact (h i).consumers (closed_same c _)

theorem Server.Caught.freeEvent (h : s.Caught) : (freeEvent s id).Caught := by
  unfold SyncScribe.freeEvent
  split
  · rename_i e _
    exact h.update rfl (h e)
  · exact h

theorem Server.Caught.addEvent (h : s.Caught) (mem : Option (List UInt8)) (hwide : redefinesWide s id flags size) :
    (addEvent s id flags mem size).server.Caught := by
  unfold SyncScribe.addEvent
  cases hf : findEvent s id with
  | some e =>
    simp only
    split
    · exact h
    · rename_i hforce
      refine h.update rfl fun hc => ?_
      exact addEventStore_wide _ mem fun ht hlow hhigh => hwide e hf hforce hc ht hlow hhigh
  | none =>
    simp only
    split
    · exact h
    · rename_i s' e hc
      obtain ⟨_, rfl⟩ := createEvent_some hc
      have hcreated : (createdServer s id e 0).Caught := h.update rfl (caught_init (s.events e) id 0)
      refine hcreated.update rfl fun hc => ?_
      rw [createdServer_self] at hc
      exact absurd rfl hc

/-- The conditions under which a write opens its event are those of the source. -/
theorem writeOpens_of_open (ho : openEvent s id flags (flags &&& typeVarMask) = .ok (s', e))
    (ht : flags &&& typeVarMask = (s'.events e).dataType) : writeOpens s id flags := by
  rcases openEvent_ok ho with ⟨hf, rfl⟩ | ⟨hn, hforce, hfree, _⟩
  · exact Or.inl ⟨e, hf, ht⟩
  · exact Or.inr ⟨hn, hforce, e, by rw [Bool.eq_false_iff]; exact fun hl => hfree (Event.live_iff.mp hl)⟩

theorem Server.Caught.clientWrite (h : s.Caught)
    (hwide : writeOpens s id flags → getSizeByType flags ≠ 0 → size = getSizeByType flags) :
    WideStep (clientWrite env s c id flags data size).server (clientWrite env s c id flags data size).out := by
  by_cases hr : (SyncScribe.clientWrite env s c id flags data size).ret = 0
  · obtain ⟨s', e, ho, ht, hs, hout⟩ := clientWrite_accepted hr
    have hevents := clientWrite_events ho hr
    have hstored : (writeStore s' c (s'.events e) data size).Wide := by
      intro hw
      simp only [writeStore, ← ht, getSizeByType_masked] at hw ⊢
      exact hwide (writeOpens_of_open ho ht) hw
    have hcaught : (SyncScribe.clientWrite env s c id flags data size).server.Caught :=
      (h.opened ho).update hevents fun _ => hstored
    have hfound : findEvent (SyncScribe.clientWrite env s c id flags data size).server id = some e := by
      rw [findEvent_update hevents rfl]
      exact findEvent_opened ho
    have hself : (SyncScribe.clientWrite env s c id flags data size).server.events e =
        writeStore s' c (s'.events e) data size := by
      rw [hevents, Function.update_self]
    refine ⟨hcaught, widths_of_event ?_ hfound fun _ => by rw [hself]; exact hstored⟩
    intro p hp
    rw [hout, eventPackets_append, eventPackets_callLocal, List.nil_append] at hp
    have hev : (writtenServer s' c e data size).events e = writeStore s' c (s'.events e) data size :=
      Server.setEvent_same _ _ _
    rw [mem_eventPackets_sendEvent hp, eventPacket_id, eventPacket_dataSize, hself, hev]
    exact ⟨openEvent_id ho, rfl⟩
  · obtain ⟨hs, hout⟩ := clientWrite_refused hr
    rw [hs, hout]
    exact .silent h rfl

theorem Server.Caught.serverWrite {cid : List UInt8} (h : s.Caught)
    (hwide : ∀ e, findEvent s (idstr cid) = some e → getSizeByType (s.events e).dataType ≠ 0 →
      serverWriteSize flags size = getSizeByType (s.events e).dataType) :
    WideStep (serverWrite env s flags cid data size).server (serverWrite env s flags cid data size).out := by
  by_cases hr : (SyncScribe.serverWrite env s flags cid data size).ret = 0
  · obtain ⟨s', e, ho, hs, hout⟩ := serverWrite_accepted hr
    have hevents : (SyncScribe.serverWrite env s flags cid data size).server.events =
        Function.update s'.events e (serverWriteStore (s'.events e) data (serverWriteSize flags size)) :=
      serverWrite_events ho
    have hstored : (serverWriteStore (s'.events e) data (serverWriteSize flags size)).Wide := by
      intro hw
      rcases openEvent_ok ho with ⟨hf, rfl⟩ | ⟨_, _, _, rfl⟩
      · exact hwide e hf hw
      · rw [createdServer_self] at hw
        have hnone : getSizeByType 0 = 0 := by decide
        exact (hw hnone).elim
    have hcaught : (SyncScribe.serverWrite env s flags cid data size).server.Caught :=
      (h.opened ho).update hevents fun _ => hstored
    have hfound : findEvent (SyncScribe.serverWrite env s flags cid data size).server (idstr cid) = some e := by
      rw [findEvent_update hevents rfl]
      exact findEvent_opened ho
    have hself : (SyncScribe.serverWrite env s flags cid data size).server.events e =
        serverWriteStore (s'.events e) data (serverWriteSize flags size) := by
      rw [hevents, Function.update_self]
    refine ⟨hcaught, widths_of_event ?_ hfound fun _ => by rw [hself]; exact hstored⟩
    intro p hp
    rw [hout] at hp
    rw [mem_eventPackets_sendEvent hp, eventPacket_id, eventPacket_dataSize, hself, Server.setEvent_same]
    exact ⟨openEvent_id ho, rfl⟩
  · obtain ⟨hs, hout⟩ := serverWrite_refused hr
    rw [hs, hout]
    exact .silent h rfl

/-! ## Acts -/

theorem Server.Caught.packet (h : s.Caught) {p : Packet} (hp : p.wide s) :
    WideStep (clientProcessPacket env s c p).server (clientProcessPacket env s c p).out := by
  have hcount : ∀ {u : Server} {out : List Out}, WideStep u out →
      WideStep (u.modifyClient c fun cl => { cl with rxEventCount := cl.rxEventCount + 1 }) out :=
    fun hu => ⟨hu.caught, hu.widths⟩
  have hquiet : ∀ {u : Server}, Quiet s u → u.Caught := fun hq => h.of_events hq.events
  cases hm : p.header.msg
  all_goals simp only [clientProcessPacket, clientDispatch, hm]
  case subscribe => exact hcount (h.subscribe _)
  case unsubscribe => exact hcount (.silent h.unsubscribe rfl)
  case define => exact hcount (.silent (h.addEvent none (hp.2 hm)) rfl)
  case undefine => exact hcount (.silent h.freeEvent rfl)
  case write => exact hcount (h.clientWrite (hp.1 hm))
  case read =>
    exact hcount (.silent (hquiet (sendCounted_quiet s c _)) (eventPackets_send_other (by rw [readPacket_msg]; decide)))
  case clientList =>
    exact hcount (.silent (hquiet (sendList_quiet env clientKind s c _))
      (eventPackets_list (k := clientKind) (by decide) (by decide) _))
  case eventList =>
    exact hcount (.silent (hquiet (sendList_quiet env eventKind s c _))
      (eventPackets_list (k := eventKind) (by decide) (by decide) _))
  case channelList =>
    exact hcount (.silent (hquiet (sendList_quiet env channelKind s c _))
      (eventPackets_list (k := channelKind) (by decide) (by decide) _))
  case channel =>
    have hev : (clientChannel env s c p).server.events = s.events := by rw [clientChannel_frame]
    exact hcount (.silent (h.of_events hev) (eventPackets_channel p))
  case clientId =>
    have hstatus : ∀ code, (sendServerStatus env s c code).1.Caught := fun code =>
      hquiet (sendCounted_quiet s c _)
    refine hcount (.silent ?_ (eventPackets_identify _))
    intro i
    simp only [clientIdentify, Server.modifyClient_events]
    split
    · exact (hstatus errorNotsupport).close i
    · exact hstatus errorNotfound i
  all_goals exact .silent h rfl

/-- **One act** keeps what may be sent again as wide as its type, and sends nothing else. -/
theorem Server.Caught.act (h : s.Caught) {a : Act} (ha : a.wide s) : WideStep (act s a).1 (act s a).2 := by
  cases a with
  | accept accepted => exact .silent (h.of_events (addClient_rest accepted).1) rfl
  | packet env c p => exact h.packet ha
  | datagram env addr p =>
    simp only [SyncScribe.act, uclientProcessPacket]
    cases hu : uclientOf s addr p.header with
    | none =>
      simp only
      split <;> exact .silent h rfl
    | some r =>
      obtain ⟨s', c⟩ := r
      have hev := (uclientOf_rest hu).1
      refine (h.of_events hev).packet (c := c) ?_
      have hwide := ha (by rw [hu]; rfl)
      simpa only [Packet.wide, writeOpens, redefinesWide, findEvent, hev] using hwide
  | close c => exact .silent h.close rfl
  | keep c buffer => exact .silent h rfl
  | serverWrite env flags cid data size => exact h.serverWrite ha.2
  | serverDefine cid flags mem size =>
    simp only [SyncScribe.act, serverDefine]
    split
    · exact .silent h rfl
    · exact .silent (h.addEvent mem ha) rfl
  | serverUndefine cid => exact .silent h.freeEvent rfl
  | serverSubscribeEvent flags cid cb args =>
    simp only [SyncScribe.act, serverSubscribeEvent]
    split
    · exact .silent h rfl
    · rename_i s' e ho
      exact .silent ((h.opened ho).update rfl (h.opened ho e)) rfl
  | serverUnsubscribeEvent cid =>
    simp only [SyncScribe.act, serverUnsubscribeEvent]
    split
    · rename_i e _
      exact .silent (h.update rfl (h e)) rfl
    · exact .silent h rfl
  | setSyncOffset ms => exact .silent h rfl

end Steps

/-! ## Runs -/

/-- **Typed events carry values of the width of their type** in every run in which a value stored in such an
event has that width: written by a client or by the server's application, or given a size of its own by the
redefinition of an event that has been written. -/
theorem typed_events_wide (cid : List UInt8) (as : List Act)
    (h : Along act (fun s a => a.wide s) (serverCreate cid) as) :
    Along act (fun s a => Widths (act s a).1 (act s a).2) (serverCreate cid) as :=
  along_of_invariant (fun _ _ (hc : Server.Caught _) ha => (hc.act ha).caught) (fun _ _ hc ha => (hc.act ha).widths) as _
    (fun _ hc => absurd rfl hc) h

/-- A client subscribes to an INT32, which it creates. -/
def int32Subscribed : Act :=
  .packet .calm 0 (Packet.make (Msg.subscribe.code ||| typeForce ||| typeVarInt32) (idstr [97]) [])

/-- Another client writes to it. -/
def int32Written (payload : List UInt8) : Act :=
  .packet .calm 1 (Packet.make (Msg.write.code ||| typeVarInt32) (idstr [97]) payload)

theorem typed_events_wide_int32 :
    Along act (fun s a => Widths (act s a).1 (act s a).2) (serverCreate [115])
      [int32Subscribed, int32Written [1, 2, 3, 4]] :=
  typed_events_wide [115] [int32Subscribed, int32Written [1, 2, 3, 4]]
    ⟨⟨fun hm => absurd hm (by decide), fun hm => absurd hm (by decide)⟩,
      ⟨fun _ _ _ => by decide, fun hm => absurd hm (by decide)⟩, trivial⟩

/-- A byte written to an INT32 reaches its subscriber as an INT32 of one byte. -/
theorem int32_of_one_byte :
    ¬ ∀ (cid : List UInt8) (as : List Act),
      Along act (fun s a => Widths (act s a).1 (act s a).2) (serverCreate cid) as := by
  intro h
  have hwrite : Widths (act (act (serverCreate [115]) int32Subscribed).1 (int32Written [7])).1
      (act (act (serverCreate [115]) int32Subscribed).1 (int32Written [7])).2 :=
    (h [115] [int32Subscribed, int32Written [7]]).2.1
  have hsent : ∃ p ∈ eventPackets (act (act (serverCreate [115]) int32Subscribed).1 (int32Written [7])).2,
      p.header.id = idstr [97] ∧ p.header.dataSize = 1 := by decide +kernel
  have hfound : findEvent (act (act (serverCreate [115]) int32Subscribed).1 (int32Written [7])).1 (idstr [97]) =
      some 0 := by decide +kernel
  have htype : getSizeByType ((act (act (serverCreate [115]) int32Subscribed).1 (int32Written [7])).1.events 0).dataType =
      4 := by decide +kernel
  obtain ⟨p, hp, hid, hsize⟩ := hsent
  have hfour := hwrite p hp 0 (by rw [hid]; exact hfound) (by rw [htype]; decide)
  rw [htype, hsize] at hfour
  exact absurd hfour (by decide)

end SyncScribe
