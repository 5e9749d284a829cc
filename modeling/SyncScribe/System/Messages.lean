import SyncScribe.Server.EventMap
import SyncScribe.Server.Bounds
import SyncScribe.System.ListReply
import SyncScribe.System.Resubscribe
import SyncScribe.System.Wire

/-!
What the packets of the server say. An EVENT, a resent one as well, carries the
value its event has after the act that sends it, and a READ reply the value of the
event asked for (`act_tells`); an accepted write makes one EVENT, which every
recipient gets once (`act_wrote`), and only a READ request of a client is answered
by a READ reply (`act_replies`).
-/

namespace SyncScribe
open Lib Lib.Bytes Lib.Slots Lib.Keyed

/-- The value of an event. -/
def Event.value (ev : Event) : List UInt8 := Lib.Bytes.read ev.data ev.dataSize.toNat

/-- The value a READ finds under an identifier, empty where there is no event. -/
def valueAt (t : Table) (id : Id) : List UInt8 := ((look t id).map Event.value).getD []

/-- What a packet says of the values is so in the table `t`. -/
def Packet.Tells (t : Table) (p : Packet) : Prop :=
  p.header.id.good →
    (p.header.msg = .event → ∃ ev, look t p.header.id = some ev ∧ p.payload = ev.value) ∧
    (p.header.msg = .read → p.payload = valueAt t p.header.id)

/-- A packet as the receive loops leave it: nothing behind its payload, and a size that passes their mask. -/
structure Packet.Settled (p : Packet) : Prop where
  alone : p.frame = p
  size : p.header.dataSize.toNat ≤ variableSizeMaximum

/-- The EVENT of a packet, if it is one and not resent. -/
def Packet.delivery (p : Packet) : Option Delivery :=
  if p.header.msg = .event ∧ p.header.type &&& statusLost = 0 then some ⟨p.header.id, p.header.type, p.payload⟩
  else none

/-- The EVENT an accepted write makes. -/
def Write.delivery (w : Write) (t : Table) : Delivery := ⟨w.id, w.type t, w.payload⟩

/-- The EVENT of the write an act accepts. -/
def wrote (s : Server) (a : Act) : List Delivery :=
  ((writeOf (changeOf s a)).map fun w => w.delivery (act s a).1.events).toList

theorem delivery_frame (p : Packet) : p.frame.delivery = p.delivery := by
  simp only [Packet.delivery, payload_frame]
  rfl

theorem settled_frame {p : Packet} (h : p.header.dataSize.toNat ≤ variableSizeMaximum) : p.frame.Settled :=
  ⟨congrArg (Packet.mk p.header) (payload_frame p), h⟩

theorem deliveries_eq (c : ClientIx) (out : List Out) :
    deliveries c out = (sentTo c out).filterMap Packet.delivery := by
  rw [deliveries, sentTo, List.filterMap_filterMap]
  congr 1
  funext o
  cases o with
  | send c' p =>
    simp only [Out.delivery, Out.packetTo]
    by_cases hc : c' = c
    · rw [if_pos hc, Option.bind_some, delivery_frame, Packet.delivery]
      simp only [hc, true_and]
    · simp [hc]
  | sendto addr p => rfl
  | call cb args id data => rfl

section Tells

variable {env : Env} {s u : Server} {c c' : ClientIx} {e : EventIx} {t : Table} {p : Packet} {id : Id} {a : Act}

theorem Packet.Tells.of_msg (hm : p.header.msg ≠ .event) (hr : p.header.msg ≠ .read) : p.Tells t :=
  fun _ => ⟨fun h => absurd h hm, fun h => absurd h hr⟩

theorem Packet.Tells.frame (h : p.Tells t) : p.frame.Tells t := by
  rw [Packet.Tells, payload_frame]
  exact h

/-- A packet with the identifier and the value of a slot. -/
theorem tells_slot (hinv : TableInv t) (hid : p.header.id = (t e).id) (hpay : p.payload = (t e).value)
    (hr : p.header.msg ≠ .read) : p.Tells t := by
  intro hg
  rw [hid] at hg
  refine ⟨fun _ => ⟨t e, ?_, hpay⟩, fun h => absurd h hr⟩
  rw [hid]
  exact hinv.look_self hg

theorem tells_event (hinv : TableInv u.events) (hsize : (u.events e).dataSize.toNat ≤ variableSizeMaximum)
    (flags : UInt32) : (eventPacket env u (u.events e) flags).Tells u.events := by
  apply tells_slot hinv (eventPacket_id env u _ flags) (eventPacket_payload hsize)
  rw [eventPacket_msg (hinv.slots e).typed]
  decide

theorem resendPacket_msg (ev : Event) : (resendPacket env ev).header.msg = .event :=
  Msg.ofWord_or .event (y := statusLost) (by decide)

theorem tells_resend (hinv : TableInv u.events) (hsize : (u.events e).dataSize.toNat ≤ variableSizeMaximum) :
    (resendPacket env (u.events e)).Tells u.events := by
  apply tells_slot hinv (e := e) rfl
  · have hsame : (resendPacket env (u.events e)).header.dataSize.toNat = (u.events e).dataSize.toNat :=
      toUInt16_toNat hsize
    rw [Packet.payload, hsame]
    exact read_write_read _ _ _
  · rw [resendPacket_msg]
    decide

/-- The value the server has for an identifier. -/
def Server.valueOf (s : Server) (id : Id) : List UInt8 := ((findEvent s id).map fun e => (s.events e).value).getD []

theorem readPacket_payload (hw : s.Within) : (readPacket env s id).payload = s.valueOf id := by
  rw [Server.valueOf, readPacket]
  cases hf : findEvent s id with
  | none => rfl
  | some e =>
    have hsame : ((s.events e).dataSize.toUInt16).toNat = (s.events e).dataSize.toNat := toUInt16_toNat (hw e).size
    simp only [Packet.payload, hsame, Option.map_some, Option.getD_some]
    exact read_write_read _ _ _

theorem tells_read (hw : u.Within) (hg : id.good) : (readPacket env u id).payload = valueAt u.events id := by
  rw [readPacket_payload hw, Server.valueOf, valueAt, look_eq_find hg, Option.map_map]
  rfl

theorem readPacket_id (env : Env) (s : Server) (id : Id) : (readPacket env s id).header.id = id := by
  rw [readPacket]
  split <;> rfl

/-- A status that makes a client announce itself again. -/
def Packet.recalls (p : Packet) : Bool :=
  p.header.msg == .serverStatus && p.header.updateCounter == errorUnknownclient

/-! ### Acts -/

/-- What the server `s` may send when it processes the packet `q` and becomes `u`: the value of an event as
it then is, the answer to `q`, or something that says nothing of the values. -/
inductive Said (env : Env) (s : Server) (q : Packet) (u : Server) : Packet → Prop
  | event (v : Server) (e : EventIx) (flags : UInt32) (hv : v.events = u.events) :
    Said env s q u (eventPacket env v (v.events e) flags)
  | resend (e : EventIx) : Said env s q u (resendPacket env (u.events e))
  | reply (hq : q.header.msg = .read) (hu : u.events = s.events) : Said env s q u (readPacket env s q.header.id)
  | other {p : Packet} (hm : p.header.msg ≠ .event) (hr : p.header.msg ≠ .read)
    (hf : Framed p p.wire) (hu : p.recalls = false) : Said env s q u p

theorem said_sendEvent {v : Server} {q : Packet} (hv : v.events = u.events) (flags : UInt32)
    (hmem : .send c' p ∈ (sendEvent env v e flags).2) : Said env s q u p := by
  rw [sendEvent_out] at hmem
  obtain ⟨i, _, hi⟩ := List.mem_map.mp hmem
  cases hi
  exact .event v e flags hv

theorem said_list {n : Nat} {k : ListKind n} {q : Packet} (hk : 0 < k.perPacket) (hm : k.msg ≠ .event)
    (hr : k.msg ≠ .read) (hs : k.msg ≠ .serverStatus) {sequance : UInt8} (hmem : .send c' p ∈ (sendList env k s c sequance).2) :
    Said env s q u p := by
  obtain ⟨p', heq, hhead, hsize⟩ := sendList_out env hk s sequance _ hmem
  cases heq
  have hmsg : p.header.msg = k.msg := by rw [Header.msg, hhead.type, Msg.ofWord_code]
  refine .other (by rw [hmsg]; exact hm) (by rw [hmsg]; exact hr) (Packet.framed hhead.magic hhead.magicData hsize) ?_
  rw [Packet.recalls, hmsg, beq_false_of_ne hs, Bool.false_and]

theorem said_identify {h : Header} {q : Packet} (hmem : .send c' p ∈ (clientIdentify env s c h).2) :
    Said env s q u p := by
  have hstatus : ∀ code, code ≠ errorUnknownclient → Said env s q u (statusPacket env s code) := by
    intro code hcode
    have hm : (statusPacket env s code).header.msg = .serverStatus := Msg.ofWord_code .serverStatus
    refine .other (by rw [hm]; decide) (by rw [hm]; decide) (serverSender_framed (.status env s code)) ?_
    rw [Packet.recalls, show (statusPacket env s code).header.updateCounter = code from rfl, beq_false_of_ne hcode,
      Bool.and_false]
  unfold clientIdentify at hmem
  split at hmem
  · simp only [sendServerStatus, sendCounted, List.mem_singleton, Out.send.injEq] at hmem
    obtain ⟨_, rfl⟩ := hmem
    exact hstatus errorNotsupport (by decide)
  · simp only [sendServerStatus, sendCounted, List.mem_singleton, Out.send.injEq] at hmem
    obtain ⟨_, rfl⟩ := hmem
    exact hstatus errorNotfound (by decide)

theorem said_channel {q : Packet} (hmem : .send c' p ∈ (clientChannel env s c q).out) : Said env s q u p := by
  unfold clientChannel at hmem
  split at hmem
  · dsimp only at hmem
    rw [addChannel_out] at hmem
    cases hmem
  · split at hmem
    · simp only [clientChannelRequest] at hmem
      split at hmem
      · cases hmem
      · rename_i k _
        rw [List.mem_singleton] at hmem
        cases hmem
        have hm : (ticketPacket env q.header.id (s.channels k)).header.msg = Msg.ofWord channelTicket := rfl
        refine .other (by rw [hm]; decide) (by rw [hm]; decide) (serverSender_framed (.ticket env q.header.id _)) ?_
        rw [Packet.recalls, hm]
        rfl
    · cases hmem

/-- **What a packet of a client makes the server send.** -/
theorem packet_said {q : Packet} (hmem : .send c' p ∈ (clientProcessPacket env s c q).out) :
    Said env s q (clientProcessPacket env s c q).server p := by
  cases hm : q.header.msg
  all_goals
    simp only [clientProcessPacket, clientDispatch, hm] at hmem ⊢
  case subscribe =>
    by_cases hr : (clientSubscribe env s c q.header.id q.header.type q.header.updateCounter).ret = 0
    · obtain ⟨s', e, _, _, hquiet, hout⟩ := clientSubscribe_accepted hr
      rw [hout] at hmem
      split at hmem
      · rw [List.mem_singleton] at hmem
        cases hmem
        rw [← hquiet.events]
        exact .resend e
      · cases hmem
    · rw [(clientSubscribe_refused hr).2] at hmem
      cases hmem
  case write =>
    by_cases hr : (clientWrite env s c q.header.id q.header.type q.buffer q.header.dataSize.toUInt32).ret = 0
    · obtain ⟨s', e, _, _, hserver, hout⟩ := clientWrite_accepted hr
      rw [hout, List.mem_append] at hmem
      rcases hmem with hmem | hmem
      · unfold callLocal at hmem
        split at hmem <;> simp at hmem
      · apply said_sendEvent _ _ hmem
        rw [Server.modifyClient_events, hserver, (sendEvent_quiet _ _ _ _).events]
    · rw [(clientWrite_refused hr).2] at hmem
      cases hmem
  case read =>
    simp only [clientRead, sendCounted, List.mem_singleton, Out.send.injEq] at hmem
    obtain ⟨_, rfl⟩ := hmem
    exact .reply hm rfl
  case clientList => exact said_list (k := clientKind) (by decide) (by decide) (by decide) (by decide) hmem
  case eventList => exact said_list (k := eventKind) (by decide) (by decide) (by decide) (by decide) hmem
  case channelList => exact said_list (k := channelKind) (by decide) (by decide) (by decide) (by decide) hmem
  case clientId => exact said_identify hmem
  case channel => exact said_channel hmem
  all_goals cases hmem

theorem Said.tells {q : Packet} (h : Said env s q u p) (hinv : TableInv u.events) (hw : u.Within) :
    p.Tells u.events := by
  cases h with
  | event v e flags hv =>
    rw [← hv] at hinv ⊢
    exact tells_event hinv (hw.of_events hv e).size flags
  | resend e => exact tells_resend hinv (hw e).size
  | reply hq hu =>
    intro hg
    refine ⟨fun h => ?_, fun _ => ?_⟩
    · rw [readPacket_msg] at h
      cases h
    · rw [readPacket_id] at hg ⊢
      rw [hu]
      exact tells_read (hw.of_events hu.symm) hg
  | other hm hr _ _ => exact .of_msg hm hr

/-- It is a packet, and its size is that of its payload. -/
theorem Said.framed {q : Packet} (h : Said env s q u p) (hw : u.Within) : Framed p p.wire := by
  cases h with
  | event v e flags hv => exact serverSender_framed (.event env v _ flags (hw.of_events hv e).size)
  | resend e => exact serverSender_framed (.resend env _ (hw e).size)
  | reply _ hu =>
    apply serverSender_framed
    exact .read env s _ fun e _ => (hw.of_events hu.symm e).size
  | other _ _ hf _ => exact hf

theorem Said.not_reply {q : Packet} (h : Said env s q u p) (hinv : TableInv u.events) (hq : q.header.msg ≠ .read) :
    p.header.msg ≠ .read := by
  cases h with
  | event v e flags hv =>
    rw [← hv] at hinv
    rw [eventPacket_msg (hinv.slots e).typed]
    decide
  | resend e =>
    rw [resendPacket_msg]
    decide
  | reply hq' _ => exact absurd hq' hq
  | other _ hr _ _ => exact hr

/-- It asks no client for an announcement. -/
theorem Said.silent {q : Packet} (h : Said env s q u p) (hinv : TableInv u.events) : p.recalls = false := by
  have hmsg : ∀ {p : Packet} {m : Msg}, p.header.msg = m → m ≠ .serverStatus → p.recalls = false := by
    rintro p m rfl hm
    rw [Packet.recalls, beq_false_of_ne hm, Bool.false_and]
  cases h with
  | event v e flags hv =>
    rw [← hv] at hinv
    exact hmsg (eventPacket_msg (hinv.slots e).typed) (by decide)
  | resend e => exact hmsg (resendPacket_msg _) (by decide)
  | reply _ _ => exact hmsg readPacket_msg (by decide)
  | other _ _ _ hu => exact hu

/-- The event of a READ, request or reply. -/
def Packet.reading (p : Packet) : Option Id := if p.header.msg = .read then some p.header.id else none

/-- The event and the value of a READ reply. -/
def Packet.reply (p : Packet) : Option (Id × List UInt8) :=
  if p.header.msg = .read then some (p.header.id, p.payload) else none

theorem reply_eq_none (h : p.header.msg ≠ .read) : p.reply = none := if_neg h

theorem reading_eq (p : Packet) : p.reading = p.reply.map Prod.fst := by
  rw [Packet.reading, Packet.reply]
  split <;> rfl

/-- **A READ request of a client is answered once**, with the value there is, and nothing else is. -/
theorem packet_replies (hinv : TableInv s.events) (hw : s.Within) (q : Packet) :
    (sentTo c (clientProcessPacket env s c' q).out).filterMap Packet.reply =
      if c' = c then (q.reading.map fun id => (id, s.valueOf id)).toList else [] := by
  by_cases hm : q.header.msg = .read
  · have hreply : (readPacket env s q.header.id).frame.reply = some (q.header.id, s.valueOf q.header.id) := by
      have hmsg : (readPacket env s q.header.id).frame.header.msg = .read := readPacket_msg
      rw [Packet.reply, if_pos hmsg, payload_frame, readPacket_payload hw, Packet.frame, readPacket_id]
    simp only [clientProcessPacket, clientDispatch, hm, clientRead, sendCounted, Packet.reading, if_pos,
      Option.map_some, Option.toList_some]
    split
    · rename_i hc
      rw [hc, sentTo_send, List.filterMap_cons, hreply]
      rfl
    · rename_i hc
      simp [sentTo, Out.packetTo, hc]
  · have hnone : q.reading = none := if_neg hm
    rw [hnone, Option.map_none, Option.toList_none, ite_self, List.filterMap_eq_nil_iff]
    intro p hp
    obtain ⟨p', hmem, rfl⟩ := mem_sentTo hp
    exact reply_eq_none ((packet_said hmem).not_reply (packet_change hinv q).inv hm)

/-- No other act answers a TCP client. -/
theorem spared_replies (hinv : TableInv s.events) (hw : s.Within) (htcp : (s.clients c).tcp = true) (ha : a.spares c) :
    (sentTo c (act s a).2).filterMap Packet.reply = [] := by
  cases a with
  | packet env c' q =>
    have hne : c' ≠ c := ha
    exact (packet_replies hinv hw q).trans (if_neg hne)
  | datagram env addr q =>
    simp only [act, uclientProcessPacket]
    cases hu : uclientOf s addr q.header with
    | none =>
      simp only
      split <;> rfl
    | some sc =>
      obtain ⟨s', c'⟩ := sc
      obtain ⟨hev, _, _⟩ := uclientOf_rest hu
      have hne : c' ≠ c := (uclientOf_other hu htcp).1.symm
      exact (packet_replies (by rw [hev]; exact hinv) (hw.of_events hev) q).trans (if_neg hne)
  | serverWrite env flags cid data size =>
    rw [List.filterMap_eq_nil_iff]
    intro p hp
    obtain ⟨p', hmem, rfl⟩ := mem_sentTo hp
    have hinv' := (act_change hinv (.serverWrite env flags cid data size)).inv
    simp only [act] at hmem hinv'
    by_cases hr : (serverWrite env s flags cid data size).ret = 0
    · obtain ⟨s', e, _, hserver, hout⟩ := serverWrite_accepted hr
      rw [hserver, (sendEvent_quiet _ _ _ _).events] at hinv'
      rw [hout, sendEvent_out] at hmem
      obtain ⟨i, _, hi⟩ := List.mem_map.mp hmem
      cases hi
      apply reply_eq_none
      change (eventPacket ..).header.msg ≠ .read
      rw [eventPacket_msg (hinv'.slots e).typed]
      decide
    · rw [(serverWrite_refused hr).2] at hmem
      cases hmem
  | _ => rfl

/-- What an act makes the server send. -/
theorem act_said (hmem : .send c p ∈ (act s a).2) : ∃ env v q, Said env v q (act s a).1 p := by
  cases a with
  | packet env c q => exact ⟨env, s, q, packet_said hmem⟩
  | datagram env addr q =>
    simp only [act, uclientProcessPacket] at hmem ⊢
    cases hu : uclientOf s addr q.header with
    | none =>
      simp only [hu] at hmem
      split at hmem <;> simp at hmem
    | some sc =>
      simp only [hu] at hmem
      exact ⟨env, sc.1, q, packet_said hmem⟩
  | serverWrite env flags cid data size =>
    refine ⟨env, s, p, ?_⟩
    simp only [act] at hmem ⊢
    by_cases hr : (serverWrite env s flags cid data size).ret = 0
    · obtain ⟨s', e, _, hserver, hout⟩ := serverWrite_accepted hr
      rw [hout] at hmem
      apply said_sendEvent _ flags hmem
      rw [hserver, (sendEvent_quiet _ _ _ _).events]
    · rw [(serverWrite_refused hr).2] at hmem
      cases hmem
  | _ => cases hmem

/-- **Every act says what is so after it.** -/
theorem act_tells (hinv : TableInv s.events) (hw : s.Within) (ha : a.bounded s) :
    ∀ p ∈ sentTo c (act s a).2, p.Tells (act s a).1.events := by
  intro p hp
  obtain ⟨p', hmem, rfl⟩ := mem_sentTo hp
  obtain ⟨env, v, q, hsaid⟩ := act_said hmem
  exact (hsaid.tells (act_change hinv a).inv (hw.act ha)).frame

/-- The server sends packets. -/
theorem act_framed (hw : s.Within) (ha : a.bounded s) (hmem : .send c p ∈ (act s a).2) : Framed p p.wire := by
  obtain ⟨env, v, q, hsaid⟩ := act_said hmem
  exact hsaid.framed (hw.act ha)

/-- No act of the server asks a TCP client for an announcement. -/
theorem act_silent (hinv : TableInv s.events) : ∀ p ∈ sentTo c (act s a).2, p.recalls = false := by
  intro p hp
  obtain ⟨p', hmem, rfl⟩ := mem_sentTo hp
  obtain ⟨env, v, q, hsaid⟩ := act_said hmem
  exact hsaid.silent (act_change hinv a).inv

/-- What arrives is what was sent. -/
theorem act_settled (hw : s.Within) (ha : a.bounded s) : ∀ p ∈ sentTo c (act s a).2, p.Settled := by
  intro p hp
  obtain ⟨p', hmem, rfl⟩ := mem_sentTo hp
  exact settled_frame (act_framed hw ha hmem).size

/-- **An accepted write makes one EVENT**, and nothing else does: a client gets it once or not at all. -/
theorem act_wrote {log : List Change} (h : Tracked s log) (hfits : a.fits) :
    ((sentTo c (act s a).2).filterMap Packet.delivery).Sublist (wrote s a) := by
  rw [← deliveries_eq, act_deliveries h.inv (h.agree c) a hfits, owed, wrote]
  cases writeOf (changeOf s a) with
  | none => exact List.Sublist.refl _
  | some w =>
    simp only [Write.owed, Option.map_some, Option.toList_some]
    split
    · exact List.Sublist.refl _
    · exact List.nil_sublist _

end Tells

end SyncScribe
