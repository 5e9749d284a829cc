import SyncScribe.Server.Session
import SyncScribe.Client.Table

/-!
One TCP client and the server, across reconnects. The client keeps its
subscriptions in a table and announces them on every new connection; calls made
before the announcement, and packets lost with an old connection, may leave the
server with fewer subscriptions than the table has, never with others. The
invariant relates the table to what the server will have once it has processed
the packets on their way (`after`).
-/

namespace SyncScribe
open Lib Lib.Bytes Lib.Slots Lib.Keyed

/-! ## The system -/

/-- The client, the server, the server's slot of the client's connection, the packets sent on it and
not yet processed, and whether the subscriptions were announced on it. -/
structure Link where
  client : Connect
  server : Server
  slot : ClientIx
  queue : List Packet
  announced : Bool

/-- The connection is up: `syncs_connect_send` uses it. -/
def Link.up (st : Link) : Bool := 0 < st.client.socketfd

inductive LinkStep
  | subscribe (env : ClientEnv) (flags : UInt32) (cid : List UInt8) (cb : Option Nat) (args : Nat)
  | subscribeSync (env : ClientEnv) (flags : UInt32) (cid : List UInt8) (eventData : Option (List UInt8))
  | subscribeSyncUser (env : ClientEnv) (flags : UInt32) (cid : List UInt8) (userData : Option (List UInt8))
      (userDataSize : UInt32)
  | unsubscribe (env : ClientEnv) (cid : List UInt8)
  /-- the connection breaks, and what was on its way is lost -/
  | lose
  /-- `syncs_tcpclient_open` and the accept of the server, with the descriptors of either side -/
  | connect (fd fd' : Nat) (addr : SockAddr)
  /-- `syncs_send_id` at the start of `syncs_recv` -/
  | announce (env : ClientEnv)
  /-- the server processes the next packet -/
  | serve (env : Env)
  /-- the server does something else: for other clients, for its application, for old connections -/
  | world (a : Act)

/-- The packets put on the connection. -/
def tcpPackets : List ClientOut → List Packet
  | [] => []
  | .tcp o :: os => o.packet.frame :: tcpPackets os
  | .udp _ :: os | .call .. :: os => tcpPackets os

/-- The state after a call of the client. -/
def Link.call (st : Link) (r : Connect × List ClientOut) : Link :=
  { st with client := r.1, queue := st.queue ++ tcpPackets r.2 }

/-- A call that may be refused. -/
def Link.call? (st : Link) : Option (Connect × List ClientOut) → Link
  | some r => st.call r
  | none => st

def linkStep (st : Link) : LinkStep → Link × List Out
  | .subscribe env flags cid cb args => (st.call? (subscribeEvent env st.client flags cid cb args), [])
  | .subscribeSync env flags cid eventData => (st.call? (subscribeEventSync env st.client flags cid eventData), [])
  | .subscribeSyncUser env flags cid userData userDataSize =>
    (st.call? (subscribeEventSyncUser env st.client flags cid userData userDataSize), [])
  | .unsubscribe env cid => (st.call (unsubscribeEvent env st.client cid), [])
  | .lose => ({ st with client := { st.client with socketfd := -1 }, queue := [], announced := false }, [])
  | .connect fd fd' addr =>
    if st.client.socketfd < 0 then
      match getFreeClient st.server with
      | some c =>
        (⟨{ st.client with socketfd := fd }, addClient st.server (some (fd', addr)), c, [], false⟩, [])
      | none => (st, [])
    else (st, [])
  | .announce env =>
    if st.up then
      ({ st with queue := st.queue ++ tcpPackets (sendId env st.client), announced := true }, [])
    else (st, [])
  | .serve env =>
    match st.queue with
    | [] => (st, [])
    | p :: ps =>
      let r := clientProcessPacket env st.server st.slot (p.within env)
      ({ st with server := r.server, queue := ps }, r.out)
  | .world a => ({ st with server := (act st.server a).1 }, (act st.server a).2)

/-! ## What is asked of the steps -/

/-- The events `D` are defined, with their types. -/
def DefinedAs (D : Id → Option UInt32) (s : Server) : Prop :=
  ∀ id t, D id = some t → ∃ ev, look s.events id = some ev ∧ ev.dataType = t

/-- Flags that the type of the event, if it is in `D`, admits. -/
def Compatible (D : Id → Option UInt32) (id : Id) (flags : UInt32) : Prop :=
  ∀ t, D id = some t → subscribeAdmits flags t = true

/-- An act that is none of the client `c`. -/
def Act.spares (c : ClientIx) : Act → Prop
  | .packet _ c' _ | .close c' | .keep c' _ => c' ≠ c
  | _ => True

/-- Names and flags are as they should be, and what else the server does leaves the events `D`
defined and the current connection alone. -/
def Allowed (D : Id → Option UInt32) (st : Link) : LinkStep → Prop
  | .subscribe _ flags cid _ _ => GoodName cid ∧ Compatible D (idstr cid) flags
  | .subscribeSync _ flags cid _ => GoodName cid ∧ Compatible D (idstr cid) flags
  | .subscribeSyncUser _ flags cid _ _ => GoodName cid ∧ Compatible D (idstr cid) flags
  | .unsubscribe _ cid => GoodName cid
  | .world a => (st.up = true → a.spares st.slot) ∧ a.orderly st.server ∧ DefinedAs D (act st.server a).1
  | .lose | .connect .. | .announce _ | .serve _ => True

/-! ## Packets on their way -/

/-- What a packet does to the subscription to `id`. -/
def Header.effect (h : Header) (id : Id) (b : Prop) : Prop :=
  if h.id = id then
    match h.msg with
    | .subscribe => True
    | .unsubscribe => False
    | _ => b
  else b

/-- The subscription to `id` once the packets are processed. -/
def after (id : Id) (b : Prop) (ps : List Packet) : Prop := ps.foldl (fun b p => p.header.effect id b) b

/-- A packet the client sends: it closes nothing, and a SUBSCRIBE fits the type of its event. -/
structure Fitting (D : Id → Option UInt32) (h : Header) : Prop where
  open_ : h.unsupported = false
  kind : h.msg = .clientId ∨ h.msg = .channel ∨ h.msg = .unsubscribe ∨
    (h.msg = .subscribe ∧ Compatible D h.id h.type)

theorem after_append (id : Id) (b : Prop) (ps qs : List Packet) :
    after id b (ps ++ qs) = after id (after id b ps) qs := List.foldl_append

theorem after_congr {id : Id} {b b' : Prop} (h : b ↔ b') (ps : List Packet) :
    after id b ps ↔ after id b' ps := by
  rw [propext h]

section Packets

variable {D : Id → Option UInt32} {env : Env} {s : Server} {c : ClientIx} {p : Packet} {id : Id}

/-- A SUBSCRIBE to a defined event of a fitting type is accepted. -/
theorem clientSubscribe_ret (env : Env) (c : ClientIx) {ev : Event} {flags : UInt32} (updateCounter : UInt64)
    (hinv : TableInv s.events)
    (hl : look s.events id = some ev) (hadm : subscribeAdmits flags ev.dataType = true) :
    (clientSubscribe env s c id flags updateCounter).ret = 0 := by
  obtain ⟨hg, e, he, rfl⟩ := hinv.slot_of_look hl
  obtain ⟨e', hf⟩ := exists_findEvent he
  have hev : s.events e' = s.events e := by
    have hl' := look_of_find hg hf
    rw [hl] at hl'
    exact (Option.some.inj hl').symm
  simp only [clientSubscribe, openEvent, hf, hev, hadm, ↓reduceIte]
  split <;> rfl

/-- **What processing a packet of the client does** to its subscription to a defined event. -/
theorem packet_effect (hinv : TableInv s.events) (hdef : DefinedAs D s) (hp : Fitting D p.header) {t : UInt32}
    (hid : D id = some t) :
    Consumes (clientProcessPacket env s c p).server.events c id ↔ p.header.effect id (Consumes s.events c id) := by
  obtain ⟨ev, hl, htype⟩ := hdef id t hid
  have hg := look_good hl
  rw [consumes_change hinv (packet_change hinv p) hg]
  have hkeep : packetChange env s c p = .keep → p.header.effect id (Consumes s.events c id) = Consumes s.events c id →
      ((packetChange env s c p).subscribes c id ∨ (Consumes s.events c id ∧
        ¬ ((packetChange env s c p).unsubscribes c id ∨ (packetChange env s c p).frees id)) ↔
        p.header.effect id (Consumes s.events c id)) := by
    intro hk he
    rw [hk, he]
    simp [Change.subscribes, Change.unsubscribes, Change.frees]
  rcases hp.kind with hm | hm | hm | ⟨hm, hcomp⟩
  · refine hkeep (by simp only [packetChange, hm, hp.open_, Bool.false_eq_true, ↓reduceIte]) ?_
    simp [Header.effect, hm]
  · refine hkeep (by simp only [packetChange, hm]) ?_
    simp [Header.effect, hm]
  · simp only [packetChange, hm, Header.effect]
    by_cases heq : p.header.id = id
    · simp [heq, hl, Change.subscribes, Change.unsubscribes, Change.frees]
    · split
      · simp [heq, Change.subscribes, Change.unsubscribes, Change.frees]
      · simp [Change.subscribes, Change.unsubscribes, Change.frees]
  · simp only [packetChange, hm, Header.effect]
    by_cases heq : p.header.id = id
    · subst heq
      have hret := clientSubscribe_ret env c p.header.updateCounter hinv hl (htype ▸ hcomp t hid)
      simp [accepted, hret, Change.subscribes]
    · rw [if_neg heq]
      refine accepted_cases (P := fun ch => ch.subscribes c id ∨ (Consumes s.events c id ∧
        ¬ (ch.unsubscribes c id ∨ ch.frees id)) ↔ Consumes s.events c id) _ ?_ ?_
      · simp [Change.subscribes, Change.unsubscribes, Change.frees]
      · intro created
        simp [Change.subscribes, Change.unsubscribes, Change.frees, heq]

/-- A change of the subscribers of one event leaves the types of all. -/
theorem Change.Applies.dataType {s : Server} {t' : Table} {id' : Id} {created : Bool} {k : Edit} {ev : Event}
    (h : (Change.edit id' created k).Applies s t') (hk : ∀ ev : Event, (k.apply s ev).dataType = ev.dataType)
    (hl : look s.events id = some ev) : ∃ ev', look t' id = some ev' ∧ ev'.dataType = ev.dataType := by
  obtain ⟨ev', ho, _, hs⟩ := h
  rw [hs.look]
  by_cases heq : id = id'
  · subst heq
    rw [if_pos ⟨look_good hl, rfl⟩]
    refine ⟨_, rfl, (hk ev').trans ?_⟩
    have hfound : look s.events id = some ev' := by
      cases created with
      | false => exact ho.found rfl
      | true =>
        rw [(ho.fresh rfl).1] at hl
        cases hl
    rw [hl] at hfound
    rw [Option.some.inj hfound]
  · rw [if_neg fun h => heq h.2]
    exact ⟨ev, hl, rfl⟩

/-- It leaves the defined events as they are. -/
theorem packet_defined (hinv : TableInv s.events) (hdef : DefinedAs D s) (hp : Fitting D p.header) :
    DefinedAs D (clientProcessPacket env s c p).server := by
  intro id t hid
  obtain ⟨ev, hl, rfl⟩ := hdef id t hid
  have happ : (packetChange env s c p).Applies s (clientProcessPacket env s c p).server.events :=
    packet_change hinv p
  have hcases := packetChange_cases env s c p
  have hkind := hp.kind
  generalize packetChange env s c p = ch at happ hcases
  cases hcases with
  | keep => exact ⟨ev, (happ.2 id).trans hl, rfl⟩
  | subscribe created hm =>
    refine happ.dataType ?_ hl
    intro ev
    obtain ⟨cs, n, hsame⟩ := addConsumer_same ev c
    rw [Edit.apply, hsame]
  | unsubscribe hm =>
    refine happ.dataType ?_ hl
    intro ev
    obtain ⟨cs, n, hsame⟩ := dropConsumer_same ev c
    rw [Edit.apply, hsame]
  | define created hm => simp [hm] at hkind
  | undefine hm => simp [hm] at hkind
  | write created hm => simp [hm] at hkind
  | close hu =>
    rw [hp.open_] at hu
    cases hu

end Packets

/-! ## What the client sends -/

section Requests

variable {D : Id → Option UInt32} {env : ClientEnv} {s : Connect} {id : Id} {flags : UInt32}

theorem tcpPackets_append (os os' : List ClientOut) : tcpPackets (os ++ os') = tcpPackets os ++ tcpPackets os' := by
  induction os with
  | nil => rfl
  | cons o os ih => cases o <;> simp [tcpPackets, ih]

theorem tcpPackets_connectSend (env : ClientEnv) (s : Connect) (o : Outgoing) :
    tcpPackets (connectSend env s o).2 = if 0 < s.socketfd then [o.packet.frame] else [] := by
  unfold connectSend
  split
  · rfl
  · split <;> rfl

/-- The type gate sees the type bits of the flags only. -/
theorem subscribeAdmits_request (flags t : UInt32) :
    subscribeAdmits (Msg.subscribe.code ||| (flags &&& requestMask)) t = subscribeAdmits flags t := by
  have hbits : (Msg.subscribe.code ||| (flags &&& requestMask)) &&& typeVarMask = flags &&& typeVarMask :=
    request_bits .subscribe flags (by decide) (by decide)
  rw [subscribeAdmits, hbits, subscribeAdmits]

theorem fitting_subscribe (env : ClientEnv) (updateCounter : UInt64) (h : Compatible D id flags) :
    Fitting D (subscribeRequest env id flags updateCounter).packet.header := by
  have hm : (subscribeRequest env id flags updateCounter).packet.header.msg = .subscribe :=
    msg_request .subscribe flags
  refine ⟨by simp [Header.unsupported, hm], Or.inr (Or.inr (Or.inr ⟨hm, ?_⟩))⟩
  intro t ht
  exact (subscribeAdmits_request flags t).trans (h t ht)

theorem fitting_unsubscribe (D : Id → Option UInt32) (env : ClientEnv) (id : Id) (flags : UInt32) :
    Fitting D (unsubscribeRequest env id flags).packet.header := by
  have hm : (unsubscribeRequest env id flags).packet.header.msg = .unsubscribe := msg_request .unsubscribe flags
  exact ⟨by simp [Header.unsupported, hm], Or.inr (Or.inr (Or.inl hm))⟩

/-- What a SUBSCRIBE behind the others does. -/
theorem after_subscribe (env : ClientEnv) (id' : Id) (flags : UInt32) (updateCounter : UInt64) (b : Prop) :
    after id b [(subscribeRequest env id' flags updateCounter).packet.frame] ↔ id = id' ∨ b := by
  have hm : (subscribeRequest env id' flags updateCounter).packet.frame.header.msg = .subscribe :=
    msg_request .subscribe flags
  have hid : (subscribeRequest env id' flags updateCounter).packet.frame.header.id = id' := rfl
  simp only [after, List.foldl_cons, List.foldl_nil, Header.effect, hm, hid]
  by_cases h : id' = id
  · simp [h]
  · simp [h, Ne.symm h]

theorem after_unsubscribe (env : ClientEnv) (id' : Id) (flags : UInt32) (b : Prop) :
    after id b [(unsubscribeRequest env id' flags).packet.frame] ↔ id ≠ id' ∧ b := by
  have hm : (unsubscribeRequest env id' flags).packet.frame.header.msg = .unsubscribe :=
    msg_request .unsubscribe flags
  have hid : (unsubscribeRequest env id' flags).packet.frame.header.id = id' := rfl
  simp only [after, List.foldl_cons, List.foldl_nil, Header.effect, hm, hid]
  by_cases h : id' = id
  · simp [h]
  · simp [h, Ne.symm h]

/-- Packets that are neither SUBSCRIBE nor UNSUBSCRIBE. -/
theorem after_others {ps : List Packet} (h : ∀ p ∈ ps, p.header.msg ≠ .subscribe ∧ p.header.msg ≠ .unsubscribe)
    (b : Prop) : after id b ps ↔ b := by
  induction ps generalizing b with
  | nil => exact Iff.rfl
  | cons p ps ih =>
    obtain ⟨h1, h2⟩ := h p (by simp)
    have he : p.header.effect id b = b := by
      unfold Header.effect
      split
      · split
        · rename_i hm
          exact absurd hm h1
        · rename_i hm
          exact absurd hm h2
        · rfl
      · rfl
    have hcons : after id b (p :: ps) = after id (p.header.effect id b) ps := rfl
    rw [hcons, he]
    exact ih (fun q hq => h q (by simp [hq])) b

/-- The announcement of the given slots. -/
theorem after_sendSubscriptions (hup : 0 < s.socketfd) (es : List EventIx) (b : Prop) :
    after id b (tcpPackets (sendSubscriptions env s es)) ↔
      b ∨ ∃ e ∈ es, (s.events e).id.good ∧ (s.events e).id = id := by
  induction es generalizing b with
  | nil => simp [sendSubscriptions, tcpPackets, after]
  | cons e es ih =>
    rw [sendSubscriptions]
    split
    · rename_i hlive
      have hg := ClientEvent.live_iff.mp hlive
      rw [tcpPackets_append, tcpPackets_connectSend, if_pos hup, after_append, ih, after_subscribe]
      simp only [List.exists_mem_cons_iff, hg, true_and]
      rw [eq_comm, or_assoc, or_left_comm]
    · rename_i hlive
      have hg : ¬ (s.events e).id.good := fun hg => hlive (ClientEvent.live_iff.mpr hg)
      rw [ih]
      simp [hg]

theorem mem_sendSubscriptions (hup : 0 < s.socketfd)
    (h : ∀ e, (s.events e).id.good → Compatible D (s.events e).id (s.events e).flags) (es : List EventIx)
    {p : Packet} (hp : p ∈ tcpPackets (sendSubscriptions env s es)) : Fitting D p.header := by
  induction es with
  | nil => simp [sendSubscriptions, tcpPackets] at hp
  | cons e es ih =>
    rw [sendSubscriptions] at hp
    split at hp
    · rename_i hlive
      rw [tcpPackets_append, tcpPackets_connectSend, if_pos hup, List.mem_append, List.mem_singleton] at hp
      rcases hp with rfl | hp
      · exact fitting_subscribe env _ (h e (ClientEvent.live_iff.mp hlive))
      · exact ih hp
    · exact ih hp

theorem mem_sendChannels (hup : 0 < s.socketfd) (ks : List ChannelIx) {p : Packet}
    (hp : p ∈ tcpPackets (sendChannels env s ks)) : p.header.msg = .channel := by
  induction ks with
  | nil => simp [sendChannels, tcpPackets] at hp
  | cons k ks ih =>
    rw [sendChannels] at hp
    split at hp
    · rw [tcpPackets_append, tcpPackets_connectSend, if_pos hup, List.mem_append, List.mem_singleton] at hp
      rcases hp with rfl | hp
      · exact Msg.ofWord_or .channel (y := channelAnons) (by decide)
      · exact ih hp
    · exact ih hp

/-- **The announcement adds the table** to what the server will have. -/
theorem after_sendId (hup : 0 < s.socketfd) (b : Prop) :
    after id b (tcpPackets (sendId env s)) ↔ b ∨ InTable s.events id := by
  have hid : ∀ p ∈ [(clientIdRequest env s.id).packet.frame],
      p.header.msg ≠ .subscribe ∧ p.header.msg ≠ .unsubscribe := by
    intro p hp
    rw [List.mem_singleton] at hp
    subst hp
    have hm : (clientIdRequest env s.id).packet.frame.header.msg = .clientId := Msg.ofWord_code .clientId
    rw [hm]
    decide
  have hch : ∀ p ∈ tcpPackets (sendChannels env s (List.finRange channelMaximum)),
      p.header.msg ≠ .subscribe ∧ p.header.msg ≠ .unsubscribe := by
    intro p hp
    rw [mem_sendChannels hup _ hp]
    decide
  rw [sendId, tcpPackets_append, tcpPackets_append, tcpPackets_connectSend, if_pos hup, after_append,
    after_append, after_others hch, after_sendSubscriptions hup, after_others hid]
  simp [InTable]

theorem mem_sendId (hup : 0 < s.socketfd)
    (h : ∀ e, (s.events e).id.good → Compatible D (s.events e).id (s.events e).flags) {p : Packet}
    (hp : p ∈ tcpPackets (sendId env s)) : Fitting D p.header := by
  rw [sendId, tcpPackets_append, tcpPackets_append, tcpPackets_connectSend, if_pos hup, List.mem_append,
    List.mem_append, List.mem_singleton] at hp
  rcases hp with rfl | hp | hp
  · have hm : (clientIdRequest env s.id).packet.frame.header.msg = .clientId := Msg.ofWord_code .clientId
    refine ⟨?_, Or.inl hm⟩
    simp [Header.unsupported, clientIdRequest, Packet.frame]
  · exact mem_sendSubscriptions hup h _ hp
  · have hm := mem_sendChannels hup _ hp
    exact ⟨by simp [Header.unsupported, hm], Or.inr (Or.inl hm)⟩

end Requests

/-! ## What else the server does -/

section World

variable {D : Id → Option UInt32} {s : Server} {c : ClientIx} {id : Id}

theorem packetChange_unsubscribes {env : Env} {p : Packet} {c' : ClientIx}
    (h : (packetChange env s c' p).unsubscribes c id) : c' = c := by
  have hcases := packetChange_cases env s c' p
  generalize packetChange env s c' p = ch at h hcases
  cases hcases with
  | unsubscribe hm => exact h.1
  | close hu => exact h
  | _ => exact h.elim

/-- An act that spares a TCP client changes nothing of its connection and its subscriptions, except
that it may end an event. -/
theorem spares_change {a : Act} (htcp : (s.clients c).tcp = true) (ha : a.spares c) (id : Id) :
    (act s a).1.conn c = s.conn c ∧ ¬ (changeOf s a).subscribes c id ∧ ¬ (changeOf s a).unsubscribes c id := by
  have hlocal : a.isLocal = true →
      (act s a).1.conn c = s.conn c ∧ ¬ (changeOf s a).subscribes c id ∧ ¬ (changeOf s a).unsubscribes c id :=
    fun hl => ⟨(local_rest hl).1 c, local_change hl c id⟩
  cases a with
  | accept accepted => exact ⟨addClient_conn accepted htcp, fun h => h, fun h => h⟩
  | packet env c' p =>
    have hne : c' ≠ c := ha
    refine ⟨?_, fun h => hne (packetChange_subscribes h).2.symm, fun h => hne (packetChange_unsubscribes h)⟩
    refine (packet_conn p c).trans ?_
    rw [if_neg fun h => hne h.1.symm]
  | datagram env addr p =>
    simp only [act, changeOf, uclientProcessPacket]
    cases hu : uclientOf s addr p.header with
    | none =>
      refine ⟨?_, fun h => h, fun h => h⟩
      simp only
      split <;> rfl
    | some sc =>
      obtain ⟨s', c'⟩ := sc
      obtain ⟨hne, hconn⟩ := uclientOf_other hu htcp
      refine ⟨?_, fun h => hne (packetChange_subscribes h).2, fun h => hne (packetChange_unsubscribes h).symm⟩
      simp only
      rw [packet_conn, if_neg fun h => hne h.1, hconn]
  | close c' =>
    have hne : c' ≠ c := ha
    exact ⟨(closeClientSocket_conn s c' c).trans (if_neg hne.symm), fun h => h, hne⟩
  | keep c' buffer =>
    have hne : c' ≠ c := ha
    exact ⟨by simp only [act, Server.conn, Server.modifyClient_clients, if_neg hne.symm], fun h => h, fun h => h⟩
  | serverWrite env flags cid data size => exact hlocal rfl
  | serverDefine cid flags data size => exact hlocal rfl
  | serverSubscribeEvent flags cid cb args => exact hlocal rfl
  | serverUnsubscribeEvent cid => exact hlocal rfl
  | serverUndefine cid => exact hlocal rfl
  | setSyncOffset ms => exact hlocal rfl

/-- An act that spares the client and leaves the event defined keeps the subscription. -/
theorem spares_consumes {a : Act} (hinv : TableInv s.events) (htcp : (s.clients c).tcp = true) (ha : a.spares c)
    (hdef : DefinedAs D (act s a).1) {t : UInt32} (hid : D id = some t) :
    Consumes (act s a).1.events c id ↔ Consumes s.events c id := by
  obtain ⟨ev, hl, _⟩ := hdef id t hid
  have happ := act_change hinv a
  obtain ⟨_, hsub, hunsub⟩ := spares_change htcp ha id
  have hlive : LiveId (act s a).1.events id := by simp [LiveId, hl]
  have hfree := (liveId_change happ hlive).1
  rw [consumes_change hinv happ (look_good hl)]
  simp [hsub, hunsub, hfree]

end World

/-! ## The invariant -/

/-- What holds at every moment. Once the packets on their way are processed, the server has no
subscription of the client that is not in its table, and after the announcement all of them. -/
structure Linked (D : Id → Option UInt32) (st : Link) : Prop where
  safe : Safe st.server
  defined : DefinedAs D st.server
  table : ClientTable st.client.events
  typed : ∀ e, (st.client.events e).id.good →
    Compatible D (st.client.events e).id (st.client.events e).flags
  tcp : st.up = true → (st.server.clients st.slot).tcp = true
  down : st.up = false → st.queue = []
  queued : ∀ p ∈ st.queue, Fitting D p.header
  sound : st.up = true → ∀ id t, D id = some t →
    after id (Consumes st.server.events st.slot id) st.queue → InTable st.client.events id
  complete : st.up = true → st.announced = true → ∀ id t, D id = some t →
    InTable st.client.events id → after id (Consumes st.server.events st.slot id) st.queue

section Steps

variable {D : Id → Option UInt32} {st : Link}

theorem Link.up_iff : st.up = true ↔ 0 < st.client.socketfd := by simp [Link.up]

theorem Link.not_up_iff : st.up = false ↔ ¬ 0 < st.client.socketfd := by simp [Link.up]

/-- A call that does the same to the table and, by the packets it sends, to the server. -/
theorem Linked.call (h : Linked D st) {cl : Connect} {os : List ClientOut} (f : Id → Prop → Prop)
    (hmono : ∀ id a b, (a → b) → f id a → f id b) (hfd : cl.socketfd = st.client.socketfd)
    (htable : ClientTable cl.events)
    (htyped : ∀ e, (cl.events e).id.good → Compatible D (cl.events e).id (cl.events e).flags)
    (hin : ∀ id, InTable cl.events id ↔ f id (InTable st.client.events id))
    (hup : st.up = true → (∀ p ∈ tcpPackets os, Fitting D p.header) ∧
      ∀ id b, after id b (tcpPackets os) ↔ f id b)
    (hdown : st.up = false → tcpPackets os = []) : Linked D (st.call (cl, os)) := by
  have hsame : (st.call (cl, os)).up = st.up := by simp [Link.up, Link.call, hfd]
  refine ⟨h.safe, h.defined, htable, htyped, fun hu => h.tcp (hsame ▸ hu), ?_, ?_, ?_, ?_⟩
  · intro hu
    rw [hsame] at hu
    simp only [Link.call, h.down hu, hdown hu, List.append_nil]
  · intro p hp
    rcases List.mem_append.mp hp with hp | hp
    · exact h.queued p hp
    · by_cases hu : st.up = true
      · exact (hup hu).1 p hp
      · rw [hdown (by simpa using hu)] at hp
        cases hp
  · intro hu id t hid haft
    rw [hsame] at hu
    simp only [Link.call, after_append, (hup hu).2] at haft
    exact (hin id).mpr (hmono id _ _ (h.sound hu id t hid) haft)
  · intro hu hann id t hid hmem
    rw [hsame] at hu
    simp only [Link.call, after_append, (hup hu).2]
    exact hmono id _ _ (h.complete hu hann id t hid) ((hin id).mp hmem)

/-- The common end of the subscribing calls. -/
theorem Linked.subscribe (h : Linked D st) {flags : UInt32} {cid : List UInt8} (hname : GoodName cid)
    (hcomp : Compatible D (idstr cid) flags) {e : EventIx} (he : st.client.getEventStr cid = some e)
    (env : ClientEnv) (ev : ClientEvent) :
    Linked D (st.call (subscribeSlot env st.client e ev flags cid)) := by
  have hset := h.table.subscribe hname he
    (show ({ ev with flags := flags, id := idstr cid } : ClientEvent).id = idstr cid from rfl)
  refine h.call (fun id b => id = idstr cid ∨ b) (fun id a b hab => Or.imp_right hab) rfl hset.1 ?_ hset.2 ?_ ?_
  · intro i hi
    simp only [Connect.setEvent] at hi ⊢
    by_cases hie : i = e
    · subst hie
      rw [Function.update_self]
      exact hcomp
    · rw [Function.update_of_ne hie] at hi ⊢
      exact h.typed i hi
  · intro hu
    have hfd := Link.up_iff.mp hu
    rw [if_pos (by omega), tcpPackets_connectSend, if_pos hfd]
    refine ⟨?_, fun id b => after_subscribe env _ _ _ b⟩
    intro p hp
    rw [List.mem_singleton] at hp
    subst hp
    exact fitting_subscribe env _ hcomp
  · intro hu
    have hfd := Link.not_up_iff.mp hu
    split
    · rw [tcpPackets_connectSend, if_neg hfd]
    · rfl

theorem Linked.call? (h : Linked D st) {r : Option (Connect × List ClientOut)}
    (hr : ∀ x, r = some x → Linked D (st.call x)) : Linked D (st.call? r) := by
  cases r with
  | none => exact h
  | some x => exact hr x rfl

theorem Linked.unsubscribe (h : Linked D st) (env : ClientEnv) {cid : List UInt8} (hname : GoodName cid) :
    Linked D (st.call (unsubscribeEvent env st.client cid)) := by
  unfold unsubscribeEvent
  split
  · rename_i e hf
    have hid : (st.client.events e).id = idstr cid := idcmp_iff.mp (first_some hf)
    have hg : (st.client.events e).id.good := by
      rw [hid]
      exact hname.good
    have hset := h.table.unsubscribe hg
    refine h.call (fun id b => id ≠ (st.client.events e).id ∧ b) (fun id a b hab => And.imp_right hab) rfl hset.1
      ?_ hset.2 ?_ ?_
    · intro i hi
      simp only [Connect.setEvent] at hi ⊢
      by_cases hie : i = e
      · subst hie
        rw [Function.update_self] at hi
        exact absurd hi (Id.not_good_free _)
      · rw [Function.update_of_ne hie] at hi ⊢
        exact h.typed i hi
    · intro hu
      rw [tcpPackets_connectSend, if_pos (Link.up_iff.mp hu)]
      refine ⟨?_, fun id b => after_unsubscribe env _ _ b⟩
      intro p hp
      rw [List.mem_singleton] at hp
      subst hp
      exact fitting_unsubscribe D env _ _
    · intro hu
      rw [tcpPackets_connectSend, if_neg (Link.not_up_iff.mp hu)]
  · -- the name is not in the table, and nothing is sent
    exact h.call (fun _ b => b) (fun _ _ _ hab => hab) rfl h.table h.typed (fun _ => Iff.rfl)
      (fun _ => ⟨fun p hp => absurd hp List.not_mem_nil, fun _ _ => Iff.rfl⟩) fun _ => rfl

theorem Linked.lose (h : Linked D st) : Linked D (linkStep st .lose).1 := by
  have hdown : (linkStep st .lose).1.up = false := by simp [linkStep, Link.up]
  refine ⟨h.safe, h.defined, h.table, h.typed, ?_, fun _ => rfl, ?_, ?_, ?_⟩
  · intro hu
    rw [hdown] at hu
    cases hu
  · intro p hp
    cases hp
  · intro hu
    rw [hdown] at hu
    cases hu
  · intro hu
    rw [hdown] at hu
    cases hu

/-- A slot the server gives out is a consumer of nothing. -/
theorem Linked.connect (h : Linked D st) (fd fd' : Nat) (addr : SockAddr) :
    Linked D (linkStep st (.connect fd fd' addr)).1 := by
  simp only [linkStep]
  split
  · split
    · rename_i c hf
      have hfresh := h.safe.fresh hf fd' addr
      obtain ⟨hev, hch, _⟩ := addClient_rest (s := st.server) (some (fd', addr))
      have hnone : ∀ id, ¬ Consumes (addClient st.server (some (fd', addr))).events c id :=
        fun id hc => hfresh.free (Or.inl ⟨id, hc⟩)
      refine ⟨h.safe.act (.accept (some (fd', addr))) trivial, ?_, h.table, h.typed, fun _ => hfresh.tcp,
        fun _ => rfl, fun p hp => ?_, fun _ id t _ haft => absurd haft (hnone id), fun _ hann => ?_⟩
      · intro id t hid
        simp only
        rw [hev]
        exact h.defined id t hid
      · cases hp
      · cases hann
    · exact h
  · exact h

theorem Linked.announce (h : Linked D st) (env : ClientEnv) : Linked D (linkStep st (.announce env)).1 := by
  simp only [linkStep]
  split
  · rename_i hu
    have hfd := Link.up_iff.mp hu
    have hboth : ∀ id t, D id = some t →
        (after id (Consumes st.server.events st.slot id) (st.queue ++ tcpPackets (sendId env st.client)) ↔
          InTable st.client.events id) := by
      intro id t hid
      rw [after_append, after_sendId hfd]
      exact ⟨fun hor => hor.elim (h.sound hu id t hid) fun hin => hin, Or.inr⟩
    refine ⟨h.safe, h.defined, h.table, h.typed, h.tcp, fun hd => ?_, ?_, ?_, ?_⟩
    · exact absurd hu (by simpa [Link.up] using hd)
    · intro p hp
      rcases List.mem_append.mp hp with hp | hp
      · exact h.queued p hp
      · exact mem_sendId hfd h.typed hp
    · exact fun _ id t hid => (hboth id t hid).mp
    · exact fun _ _ id t hid => (hboth id t hid).mpr
  · exact h

theorem Linked.serve (h : Linked D st) (env : Env) : Linked D (linkStep st (.serve env)).1 := by
  simp only [linkStep]
  split
  · exact h
  · rename_i p ps hq
    have hfit : Fitting D (p.within env).header := h.queued p (by simp [hq])
    have hconn : (clientProcessPacket env st.server st.slot (p.within env)).server.conn st.slot =
        st.server.conn st.slot := by
      rw [packet_conn, hfit.open_]
      simp
    have hup : st.up = true := by
      by_contra hu
      rw [h.down (by simpa using hu)] at hq
      cases hq
    have htcp := h.tcp hup
    have hconnected : (st.server.clients st.slot).connected = true := by
      simp only [Client.tcp, gt_iff_lt, decide_eq_true_eq] at htcp
      simp only [Client.connected, bne_iff_ne, ne_eq]
      omega
    have haft : ∀ id t, D id = some t →
        (after id (Consumes (clientProcessPacket env st.server st.slot (p.within env)).server.events st.slot id) ps ↔
          after id (Consumes st.server.events st.slot id) st.queue) := by
      intro id t hid
      rw [hq]
      exact after_congr (packet_effect h.safe.inv h.defined hfit hid) ps
    refine ⟨h.safe.packet _ (Or.inl hconnected), packet_defined h.safe.inv h.defined hfit, h.table, h.typed,
      fun _ => (tcp_of_conn hconn).trans htcp, fun hd => ?_, fun q hqs => h.queued q (by simp [hq, hqs]), ?_, ?_⟩
    · exact absurd hup (by simpa [Link.up] using hd)
    · exact fun hu id t hid ha => h.sound hu id t hid ((haft id t hid).mp ha)
    · exact fun hu hann id t hid hin => (haft id t hid).mpr (h.complete hu hann id t hid hin)

theorem Linked.world (h : Linked D st) {a : Act} (ha : Allowed D st (.world a)) :
    Linked D (linkStep st (.world a)).1 := by
  obtain ⟨hspare, hord, hdef⟩ := ha
  have hsame : (linkStep st (.world a)).1.up = st.up := rfl
  have haft : st.up = true → ∀ id t, D id = some t →
      (after id (Consumes (act st.server a).1.events st.slot id) st.queue ↔
        after id (Consumes st.server.events st.slot id) st.queue) :=
    fun hu id t hid => after_congr (spares_consumes h.safe.inv (h.tcp hu) (hspare hu) hdef hid) _
  refine ⟨h.safe.act a hord, hdef, h.table, h.typed, fun hu => ?_, h.down, h.queued, ?_, ?_⟩
  · exact (tcp_of_conn (spares_change (h.tcp hu) (hspare hu) .zero).1).trans (h.tcp hu)
  · exact fun hu id t hid ha => h.sound hu id t hid ((haft hu id t hid).mp ha)
  · exact fun hu hann id t hid hin => (haft hu id t hid).mpr (h.complete hu hann id t hid hin)

/-- **Every step keeps the invariant.** -/
theorem Linked.step (h : Linked D st) (a : LinkStep) (ha : Allowed D st a) : Linked D (linkStep st a).1 := by
  cases a with
  | subscribe env flags cid cb args =>
    refine h.call? fun x hx => ?_
    obtain ⟨e, he, rfl⟩ := Option.map_eq_some_iff.mp hx
    exact h.subscribe ha.1 ha.2 he env _
  | subscribeSync env flags cid eventData =>
    refine h.call? fun x hx => ?_
    obtain ⟨e, he, rfl⟩ := Option.map_eq_some_iff.mp hx
    exact h.subscribe ha.1 ha.2 he env _
  | subscribeSyncUser env flags cid userData userDataSize =>
    refine h.call? fun x hx => ?_
    obtain ⟨e, he, rfl⟩ := Option.map_eq_some_iff.mp hx
    exact h.subscribe ha.1 ha.2 he env _
  | unsubscribe env cid => exact h.unsubscribe env ha
  | lose => exact h.lose
  | connect fd fd' addr => exact h.connect fd fd' addr
  | announce env => exact h.announce env
  | serve env => exact h.serve env
  | world a => exact h.world ha

end Steps

/-- A client that never was connected, and a server. -/
def Link.start (client : Connect) (server : Server) : Link := ⟨client, server, 0, [], false⟩

theorem linked_start {D : Id → Option UInt32} (name addr : List UInt8) {s : Server} (hs : Safe s)
    (hdef : DefinedAs D s) : Linked D (.start (connectCreate name addr) s) where
  safe := hs
  defined := hdef
  table := clientTable_init name addr
  typed := fun e h => absurd h (Id.not_good_free _)
  tcp := fun hu => absurd hu (by simp [Link.start, Link.up, connectCreate])
  down := fun _ => rfl
  queued := fun p hp => by cases hp
  sound := fun hu => absurd hu (by simp [Link.start, Link.up, connectCreate])
  complete := fun hu => absurd hu (by simp [Link.start, Link.up, connectCreate])

/-- **Subscriptions survive reconnects.** Whenever the connection is up, announced and idle, the events
of `D` that list its slot are those in the table of the client. -/
theorem subscriptions_agree (D : Id → Option UInt32) (cid name addr : List UInt8) (is : List Input)
    (hord : Along handleStep (fun s i => i.orderly s) (serverCreate cid) is)
    (hdef : DefinedAs D (run handleStep (serverCreate cid) is).1) (as : List LinkStep)
    (hal : Along linkStep (Allowed D)
      (.start (connectCreate name addr) (run handleStep (serverCreate cid) is).1) as)
    (st : Link)
    (hst : st = (run linkStep (.start (connectCreate name addr) (run handleStep (serverCreate cid) is).1) as).1)
    (hup : st.up = true) (hann : st.announced = true) (hidle : st.queue = []) :
    ∀ id t, D id = some t → (Consumes st.server.events st.slot id ↔
      ∃ e, (st.client.events e).live = true ∧ (st.client.events e).id = id) := by
  have hinv : Linked D st := by
    rw [hst]
    exact run_invariant (fun s a h ha => h.step a ha) as _ (linked_start name addr (run_safe cid is hord) hdef) hal
  intro id t hid
  have hsound := hinv.sound hup id t hid
  have hcomplete := hinv.complete hup hann id t hid
  rw [hidle] at hsound hcomplete
  simp only [ClientEvent.live_iff]
  exact ⟨hsound, hcomplete⟩

/-- A string event `a`. -/
def stringEvent (id : Id) : Option UInt32 := if id = idstr [97] then some typeVarString else none

/-- The server that defined it. -/
def definedRun : List Input := [.api (.serverDefine [97] typeVarString none 0)]

/-- The client subscribes while it is down, and its first connection breaks. -/
def reconnectRun : List LinkStep :=
  [.subscribe .calm typeVarString [97] none 0, .connect 5 7 ⟨1, 2⟩, .announce .calm, .serve .calm, .lose,
    .connect 5 7 ⟨1, 2⟩, .announce .calm, .serve .calm, .serve .calm]

/-- After the reconnect the server lists its new slot. -/
theorem reconnectRun_agrees :
    Consumes (run linkStep (.start (connectCreate [] []) (run handleStep (serverCreate []) definedRun).1)
      reconnectRun).1.server.events 1 (idstr [97]) := by
  have hname : GoodName [97] := ⟨by decide, by decide⟩
  have hcomp : Compatible stringEvent (idstr [97]) typeVarString := by
    intro t ht
    cases ht
    decide
  have hdef : DefinedAs stringEvent (run handleStep (serverCreate []) definedRun).1 := by
    intro id t hid
    simp only [stringEvent] at hid
    split at hid
    · rename_i heq
      cases hid
      have htype : (look (run handleStep (serverCreate []) definedRun).1.events (idstr [97])).map Event.dataType =
          some typeVarString := by
        decide +kernel
      rw [heq]
      exact Option.map_eq_some_iff.mp htype
    · cases hid
  exact (subscriptions_agree stringEvent [] [] [] definedRun (by decide +kernel) hdef reconnectRun
    ⟨⟨hname, hcomp⟩, trivial, trivial, trivial, trivial, trivial, trivial, trivial, trivial, trivial⟩ _ rfl
    (by decide +kernel) (by decide +kernel) (by decide +kernel) (idstr [97]) typeVarString rfl).mpr
    ⟨0, by decide +kernel, by decide +kernel⟩

end SyncScribe
