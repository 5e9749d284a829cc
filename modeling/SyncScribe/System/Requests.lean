import SyncScribe.Client.Machine
import SyncScribe.System.ListReply
import SyncScribe.System.WriteSizes

/-!
The calls of the client and the operations of the server. A call names an
operation (`Request`) and packs it into the words of a header; the server unpacks
the header in one switch. `Reaches` says that the two agree: the packet does on the
server what the call asked for, with the identifier and the flags of the call. It
holds of every call but `syncs_undefine`, whose packet is that of a definition.
-/

namespace SyncScribe
open Lib Lib.Bytes Lib.Slots Lib.Keyed

/-! ## Requests -/

/-- What a call asks of the server. -/
inductive Request
  | define (id : Id) (flags : UInt32)
  | undefine (id : Id)
  | subscribe (id : Id) (flags : UInt32) (updateCounter : UInt64)
  | unsubscribe (id : Id)
  | write (id : Id) (flags : UInt32) (bytes : List UInt8)
  | read (id : Id)
  | list (l : ListName) (sequence : UInt8)
  | channelAnons (id : Id) (ticket : Ticket)
  | channelRequest (id : Id)

/-- The bytes `syncs_write` is given; none when `data` is `NULL`. -/
def writtenBytes (flags : UInt32) (data : Option (List UInt8)) (dataSize : UInt32) : List UInt8 :=
  match data with
  | some d => Lib.Bytes.read d (writeSize flags dataSize).toNat
  | none => []

/-- What a call asks for by its name, and the packet it builds. A call that finds no slot for its name, or none to
leave, builds none; neither do the other acts. -/
def ClientAct.request (s : Connect) : ClientAct → Option (Request × Outgoing)
  | .define env cid flags => some (.define (idstr cid) flags, defineRequest env cid flags)
  | .undefine env cid => some (.undefine (idstr cid), undefineRequest env cid)
  | .write env flags cid data dataSize =>
    some (.write (idstr cid) flags (writtenBytes flags data dataSize), writeRequest env flags cid data dataSize)
  | .read env flags cid => some (.read (idstr cid), readRequest env cid flags)
  | .subscribe env flags cid _ _ | .subscribeSync env flags cid _ | .subscribeSyncUser env flags cid _ _ =>
    (s.getEventStr cid).map fun e =>
      (.subscribe (idstr cid) flags (s.events e).updateCounter,
        subscribeRequest env (idstr cid) flags (s.events e).updateCounter)
  | .unsubscribe env cid =>
    (s.findEvent (idstr cid)).map fun e =>
      (.unsubscribe (idstr cid), unsubscribeRequest env (s.events e).id (s.events e).flags)
  | .channelAnons env cid flags port =>
    s.findFreeChannel.map fun _ =>
      (.channelAnons (idstr cid) ⟨0, port, flags⟩, channelAnonsRequest env (idstr cid) ⟨0, port, flags⟩)
  | .channelRequest env cid => some (.channelRequest (idstr cid), channelRequestRequest env cid)
  | .requestList env l =>
    some (.list l ((s.lists l).sequence + 1), listRequest env l ((s.lists l).sequence + 1))
  | .waitEvent _ | .requestListEnd .. | .freeList _ | .sockets .. | .sendId _ | .packet .. => none

namespace Request

/-- The operation of that name. -/
def perform (env : Env) (s : Server) (c : ClientIx) : Request → Server × List Out
  | .define id flags => ((addEvent s id flags none 0).server, [])
  | .undefine id => (freeEvent s id, [])
  | .subscribe id flags updateCounter =>
    ((clientSubscribe env s c id flags updateCounter).server, (clientSubscribe env s c id flags updateCounter).out)
  | .unsubscribe id => (clientUnsubscribe s c id, [])
  | .write id flags bytes =>
    ((clientWrite env s c id flags bytes (UInt32.ofNat bytes.length)).server,
      (clientWrite env s c id flags bytes (UInt32.ofNat bytes.length)).out)
  | .read id => clientRead env s c id
  | .list l sequence => sendList env l.kind s c sequence
  | .channelAnons id ticket => ((addChannel s c id ticket.encode).server, [])
  | .channelRequest id => ((clientChannelRequest env s c id).server, (clientChannelRequest env s c id).out)

/-- The event a request may change. -/
def event : Request → Option Id
  | .define id _ | .undefine id | .subscribe id _ _ | .unsubscribe id | .write id _ _ => some id
  | .read _ | .list .. | .channelAnons .. | .channelRequest _ => none

end Request

/-- The server's rules for a call that may create its event: the event exists and passes the gate, or FORCE is given
and there is a free slot. -/
def Admits (s : Server) (id : Id) (flags : UInt32) (gate : UInt32 → Prop) : Prop :=
  (∃ e, findEvent s id = some e ∧ gate (s.events e).dataType) ∨
    (findEvent s id = none ∧ flags &&& typeForce ≠ 0 ∧ ∃ e, ¬ (s.events e).id.good)

/-- The event found under `id` lists `c`. -/
def ConsumerOf (s : Server) (c : ClientIx) (id : Id) : Prop :=
  ∃ e, findEvent s id = some e ∧ Holds (s.events e).consumers c

namespace Request

/-- What is to be seen on the server afterwards. -/
def Done (s : Server) (c : ClientIx) (s' : Server) : Request → Prop
  | .define id _ => ((∃ e, findEvent s id = some e) ∨ ∃ e, ¬ (s.events e).id.good) → LiveId s'.events id
  | .undefine id => ¬ LiveId s'.events id
  | .subscribe id flags _ => Admits s id flags (subscribeAdmits flags · = true) → ConsumerOf s' c id
  | .unsubscribe id => ¬ ConsumerOf s' c id
  | .write id flags bytes =>
    Admits s id flags (flags &&& typeVarMask = ·) → ∀ env, (readPacket env s' id).payload = bytes
  | .read _ | .list .. | .channelAnons .. | .channelRequest _ => True

/-- When the packet of a request does what the call says: an undefinition only where there is nothing to free and no
room to define, a definition under an identifier that is not marked, a write of at most 511 bytes, as far as they
are admitted at all, and of no more than the packet of the call takes; every other request always. -/
def Sound (s : Server) : Request → Prop
  | .define id _ => id.good ∨ ∀ e, (s.events e).id.good
  | .undefine id => findEvent s id = none ∧ ∀ e, (s.events e).id.good
  | .write id flags bytes =>
    bytes.length ≤ variableSizeMaximum ∨
      (¬ Admits s id flags (flags &&& typeVarMask = ·) ∧ bytes.length ≤ eventDataSizeMaximum)
  | .subscribe .. | .unsubscribe _ | .read _ | .list .. | .channelAnons .. | .channelRequest _ => True

end Request

/-- The call comes back from its copy; all but `syncs_write` copy nothing that could be too long. -/
def ClientAct.Copies : ClientAct → Prop
  | .write _ flags _ data dataSize => WriteCopies flags data dataSize
  | _ => True

/-- The packet does on the server what is asked for: the operation of that name, with its effect, and nothing to the
other events. -/
structure Reaches (env : Env) (s : Server) (c : ClientIx) (r : Request) (p : Packet) : Prop where
  performed : (clientProcessPacket env s c p).server = (r.perform env s c).1.received c ∧
    (clientProcessPacket env s c p).out = (r.perform env s c).2
  done : r.Done s c (clientProcessPacket env s c p).server
  others : ∀ id, r.event ≠ some id → look (clientProcessPacket env s c p).server.events id = look s.events id

/-! ## Words -/

section Words

variable {env : Env} {s : Server} {c : ClientIx} {id : Id} {word flags size : UInt32} {data data' : List UInt8}

/-- The words of a request and of its call agree in the bits the server reads. -/
structure SameFlags (word flags : UInt32) : Prop where
  type : word &&& typeVarMask = flags &&& typeVarMask
  force : word &&& typeForce = flags &&& typeForce
  sent : word &&& (typeVarMask ||| typeSync ||| typeEcho) = flags &&& (typeVarMask ||| typeSync ||| typeEcho)

/-- **The flags of a call survive the packing.** -/
theorem sameFlags_request (m : Msg) (flags : UInt32) : SameFlags (m.code ||| (flags &&& requestMask)) flags :=
  ⟨request_bits m flags (by cases m <;> decide) (by decide), request_bits m flags (by cases m <;> decide) (by decide),
    request_bits m flags (by cases m <;> decide) (by decide)⟩

theorem clientSubscribe_word (h : SameFlags word flags) (updateCounter : UInt64) :
    clientSubscribe env s c id word updateCounter = clientSubscribe env s c id flags updateCounter := by
  simp only [clientSubscribe, openEvent, subscribeAdmits, h.type, h.force]

theorem addEvent_word (h : SameFlags word flags) (mem : Option (List UInt8)) :
    addEvent s id word mem size = addEvent s id flags mem size := by
  simp only [addEvent, addEventStore, getSizeByType, h.type, h.force]

theorem clientWrite_word (h : SameFlags word flags)
    (hd : Lib.Bytes.read data size.toNat = Lib.Bytes.read data' size.toNat) :
    clientWrite env s c id word data size = clientWrite env s c id flags data' size := by
  simp only [clientWrite, clientWriteEvent, writeStore, openEvent, h.type, h.force, h.sent, hd]

/-- Only the ticket is read of what an announcement carries. -/
theorem addChannel_encode (ticket : Ticket) (more : List UInt8) :
    addChannel s c id (ticket.encode ++ more) = addChannel s c id ticket.encode := by
  have hread : Lib.Bytes.read (ticket.encode ++ more) ticketSize = Lib.Bytes.read ticket.encode ticketSize :=
    read_append_left more (by rw [Ticket.length_encode])
  simp only [addChannel, hread]

end Words

/-! ## The server's rules -/

section Rules

variable {env : Env} {s : Server} {c : ClientIx} {id : Id} {flags size : UInt32} {data : List UInt8}

theorem admits_opened {gate : UInt32 → Prop} (hfresh : gate (flags &&& typeVarMask)) :
    Admits s id flags gate ↔ ∃ s' e, openEvent s id flags (flags &&& typeVarMask) = .ok (s', e) ∧
      gate (s'.events e).dataType := by
  constructor
  · rintro (⟨e, hf, hg⟩ | ⟨hn, hforce, hfree⟩)
    · exact ⟨s, e, openEvent_found hf, hg⟩
    · obtain ⟨e, ho⟩ := openEvent_created (flags &&& typeVarMask) hn hforce hfree
      exact ⟨_, e, ho, by rwa [createdServer_self]⟩
  · rintro ⟨s', e, ho, hg⟩
    rcases openEvent_ok ho with ⟨hf, rfl⟩ | ⟨hn, hforce, hfree, rfl⟩
    · exact Or.inl ⟨e, hf, hg⟩
    · exact Or.inr ⟨hn, hforce, e, hfree⟩

theorem clientSubscribe_admits {updateCounter : UInt64} :
    (clientSubscribe env s c id flags updateCounter).ret = 0 ↔ Admits s id flags (subscribeAdmits flags · = true) := by
  rw [admits_opened (subscribeAdmits_fresh flags)]
  constructor
  · intro hr
    obtain ⟨s', e, ho, ha, _⟩ := clientSubscribe_accepted hr
    exact ⟨s', e, ho, ha⟩
  · rintro ⟨s', e, ho, ha⟩
    exact (clientSubscribe_opened ho).mpr ha

theorem clientWrite_admits :
    (clientWrite env s c id flags data size).ret = 0 ↔ Admits s id flags (flags &&& typeVarMask = ·) := by
  rw [admits_opened rfl]
  constructor
  · intro hr
    obtain ⟨s', e, ho, ht, _⟩ := clientWrite_accepted hr
    exact ⟨s', e, ho, ht⟩
  · rintro ⟨s', e, ho, ht⟩
    exact (clientWrite_opened ho).mpr ht

/-- A packet changes no event but the one it names. -/
theorem packet_others (h : TableInv s.events) {p : Packet} (hm : p.header.msg ≠ .clientId) (hid : id ≠ p.header.id) :
    look (clientProcessPacket env s c p).server.events id = look s.events id := by
  have happ : (packetChange env s c p).Applies s _ := packet_change h p
  have hcases := packetChange_cases env s c p
  generalize packetChange env s c p = ch at happ hcases
  cases hcases with
  | keep => exact happ.2 id
  | undefine _ => rw [happ.2 id, if_neg hid]
  | close hu => simp [Header.unsupported, hm] at hu
  | subscribe | unsubscribe | define | write =>
    obtain ⟨ev, _, _, hs⟩ := happ
    rw [hs.look id, if_neg fun hh => hid hh.2]

theorem packet_keeps (h : TableInv s.events) {p : Packet} (hk : packetChange env s c p = .keep) :
    look (clientProcessPacket env s c p).server.events id = look s.events id := by
  have happ : (packetChange env s c p).Applies s _ := packet_change h p
  rw [hk] at happ
  exact happ.2 id

end Rules

/-! ## One request after the other -/

section Kinds

variable {env : Env} {s : Server} {c : ClientIx} {p : Packet} {id : Id} {flags : UInt32}

/-- A definition leaves its event live, if it was or there is room for it. -/
theorem addEvent_live (h : TableInv s.events) (hg : id.good)
    (hadm : (∃ e, findEvent s id = some e) ∨ ∃ e, ¬ (s.events e).id.good) :
    LiveId (addEvent s id flags none 0).server.events id := by
  by_cases hr : (addEvent s id flags none 0).ret = 0
  · obtain ⟨s', e, ho, hs⟩ := addEvent_accepted h hr
    have hl : look (Function.update s'.events e (addEventStore (s'.events e) flags none 0)) id =
        some (addEventStore (s'.events e) flags none 0) := ho.look_store hg rfl (addEventStore_inv ho.slot)
    rw [hs, LiveId, Server.setEvent, hl]
    rfl
  · rw [addEvent_refused hr]
    cases hfind : findEvent s id with
    | some e =>
      rw [LiveId, look_of_find hg hfind]
      rfl
    | none =>
      -- without an event to find, only a full table refuses
      obtain ⟨e, he⟩ := hadm.resolve_left (by simp [hfind])
      refine absurd ?_ hr
      unfold addEvent
      rw [hfind]
      cases hc : createEvent s id with
      | none => exact absurd (createEvent_eq_none.mp hc e) he
      | some r => rfl

theorem define_reaches (h : TableInv s.events) (hm : p.header.msg = .define) (hid : p.header.id = id)
    (hf : SameFlags p.header.type flags) (hz : p.header.dataSize = 0) :
    Reaches env s c (.define id flags) p ↔ (Request.define id flags).Sound s := by
  have hcall : addEvent s p.header.id p.header.type none p.header.dataSize.toUInt32 = addEvent s id flags none 0 := by
    rw [hid, hz]
    exact addEvent_word hf none
  have hperformed : (clientProcessPacket env s c p).server = (addEvent s id flags none 0).server.received c ∧
      (clientProcessPacket env s c p).out = [] := by
    simp only [clientProcessPacket, clientDispatch, hm, hcall]
    exact ⟨rfl, trivial⟩
  have hothers : ∀ id', some id ≠ some id' →
      look (clientProcessPacket env s c p).server.events id' = look s.events id' := fun id' hne =>
    packet_others h (by rw [hm]; decide) (by rw [hid]; exact fun heq => hne (by rw [heq]))
  constructor
  · intro hreach
    by_contra hno
    simp only [Request.Sound, not_or, not_forall] at hno
    obtain ⟨hbad, e, he⟩ := hno
    have hlive := hreach.done (Or.inr ⟨e, he⟩)
    obtain ⟨ev, hl⟩ := Option.isSome_iff_exists.mp hlive
    exact hbad (look_good hl)
  · intro hsound
    refine ⟨hperformed, fun hadm => ?_, hothers⟩
    have hg : id.good := by
      rcases hsound with hg | hfull
      · exact hg
      · rcases hadm with ⟨e, he⟩ | ⟨e, he⟩
        · rw [← findEvent_some he]
          exact hfull e
        · exact absurd (hfull e) he
    rw [hperformed.1]
    exact addEvent_live h hg hadm

/-- Nothing to free and no room: neither a definition nor an undefinition does anything. -/
theorem addEvent_full {size : UInt32} (hnone : findEvent s id = none) (hfull : ∀ e, (s.events e).id.good) :
    (addEvent s id flags none size).server = s := by
  simp only [addEvent, hnone, createEvent_eq_none.mpr hfull]

theorem freeEvent_none (hnone : findEvent s id = none) : freeEvent s id = s := by
  simp only [freeEvent, hnone]

/-- Anywhere else the two differ in the count of events: one does not lower it, the other does not raise it. -/
theorem nothing_to_do {size : UInt32}
    (hcount : (addEvent s id 0 none size).server.eventCount = (freeEvent s id).eventCount) :
    findEvent s id = none ∧ ∀ e, (s.events e).id.good := by
  unfold addEvent freeEvent at hcount
  cases hfind : findEvent s id with
  | some e =>
    have hne : s.eventCount - 1 ≠ s.eventCount := by grind
    simp only [hfind, UInt32.zero_and, ↓reduceIte] at hcount
    exact absurd hcount.symm hne
  | none =>
    refine ⟨rfl, ?_⟩
    cases hc : createEvent s id with
    | none => exact createEvent_eq_none.mp hc
    | some r =>
      obtain ⟨s', e⟩ := r
      have hne : s.eventCount + 1 ≠ s.eventCount := by grind
      simp only [hfind, hc, (createEvent_some hc).2] at hcount
      exact absurd hcount hne

/-- **A definition sent for an undefinition.** -/
theorem undefine_reaches (hm : p.header.msg = .define) (hid : p.header.id = id)
    (hf : SameFlags p.header.type 0) :
    Reaches env s c (.undefine id) p ↔ (Request.undefine id).Sound s := by
  have hserver : (clientProcessPacket env s c p).server =
      (addEvent s id 0 none p.header.dataSize.toUInt32).server.received c := by
    simp only [clientProcessPacket, clientDispatch, hm, hid, addEvent_word hf]
    rfl
  have hout : (clientProcessPacket env s c p).out = [] := by
    simp only [clientProcessPacket, clientDispatch, hm]
  constructor
  · intro hreach
    have hperformed := congrArg Server.eventCount hreach.performed.1
    rw [hserver] at hperformed
    exact nothing_to_do hperformed
  · rintro ⟨hnone, hfull⟩
    rw [addEvent_full hnone hfull] at hserver
    refine ⟨⟨?_, hout⟩, ?_, fun id' _ => ?_⟩
    · rw [hserver, Request.perform, freeEvent_none hnone]
    · rw [hserver]
      change ¬ LiveId s.events id
      rw [LiveId, look_of_not_found hnone]
      decide
    · rw [hserver]
      rfl

theorem subscribe_reaches {updateCounter : UInt64} (h : TableInv s.events) (hm : p.header.msg = .subscribe)
    (hid : p.header.id = id) (hf : SameFlags p.header.type flags) (hu : p.header.updateCounter = updateCounter) :
    Reaches env s c (.subscribe id flags updateCounter) p := by
  subst hu
  have hperformed : (clientProcessPacket env s c p).server =
        (clientSubscribe env s c id flags p.header.updateCounter).server.received c ∧
      (clientProcessPacket env s c p).out = (clientSubscribe env s c id flags p.header.updateCounter).out := by
    simp only [clientProcessPacket, clientDispatch, hm, hid, clientSubscribe_word hf]
    exact ⟨rfl, trivial⟩
  refine ⟨hperformed, fun hadm => ?_, fun id' hne => ?_⟩
  · have hr : (clientSubscribe env s c id flags p.header.updateCounter).ret = 0 := clientSubscribe_admits.mpr hadm
    obtain ⟨s', e, ho, _⟩ := clientSubscribe_accepted hr
    have hev := clientSubscribe_events ho hr
    obtain ⟨cs, n, hsame⟩ := addConsumer_same (s'.events e) c
    rw [hperformed.1]
    refine ⟨e, ?_, ?_⟩
    · change findEvent (clientSubscribe env s c id flags p.header.updateCounter).server id = some e
      rw [findEvent_update hev (by rw [hsame])]
      exact findEvent_opened ho
    · change Holds ((clientSubscribe env s c id flags p.header.updateCounter).server.events e).consumers c
      rw [hev, Function.update_self]
      exact (holds_addConsumer (openEvent_spec h (typeVarMask_idem flags) ho).slot).mpr (Or.inl rfl)
  · refine packet_others h (by rw [hm]; decide) fun heq => hne ?_
    rw [heq, hid, Request.event]

theorem unsubscribe_reaches (h : TableInv s.events) (hm : p.header.msg = .unsubscribe) (hid : p.header.id = id) :
    Reaches env s c (.unsubscribe id) p := by
  have hperformed : (clientProcessPacket env s c p).server = (clientUnsubscribe s c id).received c ∧
      (clientProcessPacket env s c p).out = [] := by
    simp only [clientProcessPacket, clientDispatch, hm, hid]
    exact ⟨rfl, trivial⟩
  refine ⟨hperformed, ?_, fun id' hne => ?_⟩
  · rw [hperformed.1]
    rintro ⟨e, he, hh⟩
    change findEvent (clientUnsubscribe s c id) id = some e at he
    change Holds ((clientUnsubscribe s c id).events e).consumers c at hh
    unfold clientUnsubscribe at he hh
    cases hfind : findEvent s id with
    | none =>
      simp only [hfind, reduceCtorEq] at he
    | some i =>
      obtain ⟨cs, n, hsame⟩ := dropConsumer_same (s.events i) c
      simp only [hfind] at he hh
      rw [findEvent_update removeClientFromEvent_events (by rw [hsame]), hfind] at he
      cases he
      rw [removeClientFromEvent_events, Function.update_self, holds_dropConsumer (h.slots e)] at hh
      exact hh.1 rfl
  · refine packet_others h (by rw [hm]; decide) fun heq => hne ?_
    rw [heq, hid, Request.event]

theorem clientWrite_admits_word {size : UInt32} {data : List UInt8} (hf : SameFlags p.header.type flags) :
    (clientWrite env s c id p.header.type data size).ret = 0 ↔ Admits s id flags (flags &&& typeVarMask = ·) := by
  rw [clientWrite_word hf rfl, clientWrite_admits]

/-- An admitted WRITE stores its payload, for every later READ. -/
theorem write_stored (hm : p.header.msg = .write) (hid : p.header.id = id) (hf : SameFlags p.header.type flags)
    (hsize : p.header.dataSize.toNat ≤ variableSizeMaximum) (hadm : Admits s id flags (flags &&& typeVarMask = ·))
    (env' : Env) : (readPacket env' (clientProcessPacket env s c p).server id).payload = p.payload := by
  subst hid
  exact read_after_write env env' s c hm hsize ((clientWrite_admits_word hf).mpr hadm)

/-- A WRITE with the payload of the call is the call. -/
theorem write_performed {bytes : List UInt8} (hm : p.header.msg = .write) (hid : p.header.id = id)
    (hf : SameFlags p.header.type flags) (hn : p.header.dataSize.toNat = bytes.length) (hpayload : p.payload = bytes) :
    (clientProcessPacket env s c p).server = ((Request.write id flags bytes).perform env s c).1.received c ∧
      (clientProcessPacket env s c p).out = ((Request.write id flags bytes).perform env s c).2 := by
  have hword : p.header.dataSize.toUInt32 = UInt32.ofNat bytes.length := by
    rw [← hn]
    exact UInt32.toNat_inj.mp (by simp)
  have hread : Lib.Bytes.read p.buffer p.header.dataSize.toUInt32.toNat =
      Lib.Bytes.read bytes p.header.dataSize.toUInt32.toNat := by
    have hnat : p.header.dataSize.toUInt32.toNat = p.header.dataSize.toNat := by simp
    rw [hnat, hn, read_length_self, ← hn]
    exact hpayload
  have hcall : clientWrite env s c id p.header.type p.buffer p.header.dataSize.toUInt32 =
      clientWrite env s c id flags bytes (UInt32.ofNat bytes.length) := by
    rw [clientWrite_word hf hread, hword]
  simp only [clientProcessPacket, clientDispatch, hm, hid, hcall]
  exact ⟨rfl, rfl⟩

/-- Refused, both change nothing. -/
theorem write_refused {bytes : List UInt8} (hm : p.header.msg = .write) (hid : p.header.id = id)
    (hf : SameFlags p.header.type flags) (hno : ¬ Admits s id flags (flags &&& typeVarMask = ·)) :
    (clientProcessPacket env s c p).server = ((Request.write id flags bytes).perform env s c).1.received c ∧
      (clientProcessPacket env s c p).out = ((Request.write id flags bytes).perform env s c).2 := by
  have hsent : ∀ {data size}, (clientWrite env s c id p.header.type data size).server = s ∧
      (clientWrite env s c id p.header.type data size).out = [] :=
    fun {data size} => clientWrite_refused (mt (clientWrite_admits_word hf).mp hno)
  have hasked : (clientWrite env s c id flags bytes (UInt32.ofNat bytes.length)).server = s ∧ _ :=
    clientWrite_refused (mt clientWrite_admits.mp hno)
  simp only [clientProcessPacket, clientDispatch, hm, hid, hsent, Request.perform, hasked]
  exact ⟨rfl, trivial⟩

/-- A WRITE whose payload is that of the call, as far as it fits. -/
theorem write_reaches {bytes : List UInt8} (h : TableInv s.events) (hm : p.header.msg = .write)
    (hid : p.header.id = id) (hf : SameFlags p.header.type flags)
    (hsize : p.header.dataSize.toNat ≤ variableSizeMaximum)
    (hfits : bytes.length ≤ variableSizeMaximum → p.header.dataSize.toNat = bytes.length ∧ p.payload = bytes) :
    Reaches env s c (.write id flags bytes) p ↔
      bytes.length ≤ variableSizeMaximum ∨ ¬ Admits s id flags (flags &&& typeVarMask = ·) := by
  have hothers : ∀ id', (Request.write id flags bytes).event ≠ some id' →
      look (clientProcessPacket env s c p).server.events id' = look s.events id' := by
    intro id' hne
    refine packet_others h (by rw [hm]; decide) fun heq => hne ?_
    rw [heq, hid, Request.event]
  by_cases hlen : bytes.length ≤ variableSizeMaximum
  · obtain ⟨hn, hpayload⟩ := hfits hlen
    refine iff_of_true ⟨write_performed hm hid hf hn hpayload, fun hadm env' => ?_, hothers⟩ (Or.inl hlen)
    rw [write_stored hm hid hf hsize hadm env', hpayload]
  · constructor
    · intro hreach
      refine Or.inr fun hadm => hlen ?_
      rw [← hreach.done hadm env, write_stored hm hid hf hsize hadm env, Packet.payload, length_read]
      exact hsize
    · intro hsound
      have hno := hsound.resolve_left hlen
      exact ⟨write_refused hm hid hf hno, fun hadm => absurd hadm hno, hothers⟩

/-- A request that changes no event. -/
theorem quiet_reaches {r : Request} (h : TableInv s.events) (hk : packetChange env s c p = .keep)
    (hdone : ∀ s', r.Done s c s')
    (hperformed : (clientProcessPacket env s c p).server = (r.perform env s c).1.received c ∧
      (clientProcessPacket env s c p).out = (r.perform env s c).2) : Reaches env s c r p :=
  ⟨hperformed, hdone _, fun _ _ => packet_keeps h hk⟩

theorem read_reaches (h : TableInv s.events) (hm : p.header.msg = .read) (hid : p.header.id = id) :
    Reaches env s c (.read id) p := by
  refine quiet_reaches h (by simp only [packetChange, hm]) (fun _ => trivial) ?_
  simp only [clientProcessPacket, clientDispatch, hm, hid]
  exact ⟨rfl, rfl⟩

theorem list_reaches {l : ListName} {q : UInt8} (h : TableInv s.events) (hm : p.header.msg = l.msg)
    (hq : p.header.id.c 0 = q) : Reaches env s c (.list l q) p := by
  refine quiet_reaches h ?_ (fun _ => trivial) ?_
  · cases l <;> simp only [packetChange, hm, ListName.msg]
  · cases l
    all_goals
      simp only [clientProcessPacket, clientDispatch, hm, hq, ListName.msg]
      exact ⟨rfl, rfl⟩

theorem channelAnons_reaches {ticket : Ticket} {more : List UInt8} (h : TableInv s.events) (hm : p.header.msg = .channel)
    (hid : p.header.id = id) (ht : p.header.type &&& channelMask = channelAnons)
    (hb : p.buffer = ticket.encode ++ more) : Reaches env s c (.channelAnons id ticket) p := by
  refine quiet_reaches h (by simp only [packetChange, hm]) (fun _ => trivial) ?_
  simp only [clientProcessPacket, clientDispatch, hm, clientChannel, ht, hid, hb, addChannel_encode, ↓reduceIte,
    addChannel_out]
  exact ⟨rfl, rfl⟩

theorem channelRequest_reaches (h : TableInv s.events) (hm : p.header.msg = .channel) (hid : p.header.id = id)
    (ht : p.header.type &&& channelMask = channelRequest) : Reaches env s c (.channelRequest id) p := by
  have hne : channelRequest ≠ channelAnons := by decide
  refine quiet_reaches h (by simp only [packetChange, hm]) (fun _ => trivial) ?_
  simp only [clientProcessPacket, clientDispatch, hm, clientChannel, ht, hid, if_neg hne, ↓reduceIte]
  exact ⟨rfl, rfl⟩

end Kinds

/-! ## All requests -/

/-- The bytes of the call are the payload, as far as they fit. -/
theorem writeRequest_bytes (env : ClientEnv) (flags : UInt32) (cid : List UInt8) (data : Option (List UInt8))
    (dataSize : UInt32) (h : (writtenBytes flags data dataSize).length ≤ variableSizeMaximum) :
    (writeRequest env flags cid data dataSize).packet.header.dataSize.toNat =
        (writtenBytes flags data dataSize).length ∧
      (writeRequest env flags cid data dataSize).packet.payload = writtenBytes flags data dataSize := by
  cases data with
  | none => exact ⟨rfl, read_zero _⟩
  | some d =>
    simp only [writtenBytes, length_read] at h ⊢
    exact writeRequest_fits h

theorem copies_iff (env : ClientEnv) (flags : UInt32) (cid : List UInt8) (data : Option (List UInt8))
    (dataSize : UInt32) :
    (ClientAct.write env flags cid data dataSize).Copies ↔
      (writtenBytes flags data dataSize).length ≤ eventDataSizeMaximum := by
  cases data with
  | none => exact iff_of_true (Or.inl rfl) (Nat.zero_le _)
  | some d =>
    simp only [writtenBytes, length_read]
    exact or_iff_right (by simp)

/-- Every call builds a packet. -/
theorem request_framed {cl : Connect} {a : ClientAct} {r : Request} {o : Outgoing} (h : a.request cl = some (r, o)) :
    Framed o.packet o.wire := by
  cases a with
  | define cenv cid flags =>
    cases h
    exact (clientSender_framed (.define cenv cid flags)).1
  | undefine cenv cid =>
    cases h
    exact (clientSender_framed (.undefine cenv cid)).1
  | write cenv flags cid data dataSize =>
    cases h
    exact writeRequest_framed cenv flags cid data dataSize
  | read cenv flags cid =>
    cases h
    exact (clientSender_framed (.read cenv cid flags)).1
  | subscribe cenv flags cid | subscribeSync cenv flags cid | subscribeSyncUser cenv flags cid =>
    obtain ⟨e, _, he⟩ := Option.map_eq_some_iff.mp h
    cases he
    exact (clientSender_framed (.subscribe cenv (idstr cid) flags (cl.events e).updateCounter)).1
  | unsubscribe cenv cid =>
    obtain ⟨e, _, he⟩ := Option.map_eq_some_iff.mp h
    cases he
    exact (clientSender_framed (.unsubscribe cenv (cl.events e).id (cl.events e).flags)).1
  | channelAnons cenv cid flags port =>
    obtain ⟨k, _, hk⟩ := Option.map_eq_some_iff.mp h
    cases hk
    exact (clientSender_framed (.channelAnons cenv (idstr cid) ⟨0, port, flags⟩)).1
  | channelRequest cenv cid =>
    cases h
    exact (clientSender_framed (.channelRequest cenv cid)).1
  | requestList cenv l =>
    cases h
    exact (clientSender_framed (.list cenv l ((cl.lists l).sequence + 1))).1
  | waitEvent | requestListEnd | freeList | sockets | sendId | packet => cases h

/-- **Every call reaches the operation it names**, whatever the state of the client, the stack and the server, with
three exceptions: the packet of `syncs_undefine` defines, nothing is live under a name that starts with the free
mark, and of a write above 511 bytes only a part arrives, if the call comes back from copying it at all. -/
theorem requests_reach_iff (env : Env) (beyond : List UInt8) (cl : Connect) (a : ClientAct) (sid : List UInt8)
    (acts : List Act) (c : ClientIx) {r : Request} {o : Outgoing} (h : a.request cl = some (r, o)) :
    (a.Copies ∧ Reaches env (run act (serverCreate sid) acts).1 c r (o.arrival beyond)) ↔
      r.Sound (run act (serverCreate sid) acts).1 := by
  have hinv := run_tableInv sid acts
  generalize (run act (serverCreate sid) acts).1 = s at hinv ⊢
  have hframed := request_framed h
  rw [hframed.arrival]
  cases a with
  | define cenv cid flags =>
    cases h
    exact (and_iff_right trivial).trans <|
      define_reaches hinv (msg_request .define flags) rfl (sameFlags_request .define flags) rfl
  | undefine cenv cid =>
    cases h
    have hflags : SameFlags Msg.define.code 0 := ⟨by decide, by decide, by decide⟩
    exact (and_iff_right trivial).trans <| undefine_reaches (Msg.ofWord_code .define) rfl hflags
  | write cenv flags cid data dataSize =>
    cases h
    obtain ⟨htype, hid⟩ := writeRequest_type cenv flags cid data dataSize
    have hpayload : ∀ x, Packet.payload ⟨(writeRequest cenv flags cid data dataSize).packet.header,
        (writeRequest cenv flags cid data dataSize).packet.payload ++ x⟩ =
          (writeRequest cenv flags cid data dataSize).packet.payload :=
      fun x => read_append (length_read _ _)
    have hreach : Reaches env s c (.write (idstr cid) flags (writtenBytes flags data dataSize))
        ⟨(writeRequest cenv flags cid data dataSize).packet.header,
          (writeRequest cenv flags cid data dataSize).packet.payload ++ beyond⟩ ↔
        (writtenBytes flags data dataSize).length ≤ variableSizeMaximum ∨
          ¬ Admits s (idstr cid) flags (flags &&& typeVarMask = ·) := by
      refine write_reaches hinv (writeRequest_msg cenv flags cid data dataSize) hid ?_ hframed.size fun hlen => ?_
      · rw [htype]
        exact sameFlags_request .write flags
      · rw [hpayload]
        exact writeRequest_bytes cenv flags cid data dataSize hlen
    have hroom : variableSizeMaximum ≤ eventDataSizeMaximum := by decide
    rw [copies_iff, hreach, Request.Sound, and_or_left, and_iff_right_of_imp fun hlen => le_trans hlen hroom,
      and_comm (a := ¬ _)]
  | read cenv flags cid =>
    cases h
    exact iff_of_true ⟨trivial, read_reaches hinv (Msg.ofWord_or .read (and_and_eq_zero flags (by decide))) rfl⟩ trivial
  | subscribe cenv flags cid | subscribeSync cenv flags cid | subscribeSyncUser cenv flags cid =>
    obtain ⟨e, _, he⟩ := Option.map_eq_some_iff.mp h
    cases he
    exact iff_of_true ⟨trivial,
      subscribe_reaches hinv (msg_request .subscribe flags) rfl (sameFlags_request .subscribe flags) rfl⟩ trivial
  | unsubscribe cenv cid =>
    obtain ⟨e, hfind, he⟩ := Option.map_eq_some_iff.mp h
    cases he
    have hid : (cl.events e).id = idstr cid := idcmp_iff.mp (first_some hfind)
    exact iff_of_true ⟨trivial, unsubscribe_reaches hinv (msg_request .unsubscribe (cl.events e).flags) hid⟩ trivial
  | channelAnons cenv cid flags port =>
    obtain ⟨k, _, hk⟩ := Option.map_eq_some_iff.mp h
    cases hk
    have hpayload : (channelAnonsRequest cenv (idstr cid) ⟨0, port, flags⟩).packet.payload =
        Ticket.encode ⟨0, port, flags⟩ := by
      have hread := read_write_zero cenv.stack.buffer (Ticket.encode ⟨0, port, flags⟩)
      rw [Ticket.length_encode] at hread
      exact hread
    rw [hpayload]
    have hm : Msg.ofWord (Msg.channel.code ||| SyncScribe.channelAnons) = .channel := by decide
    have ht : (Msg.channel.code ||| SyncScribe.channelAnons) &&& channelMask = SyncScribe.channelAnons := by decide
    exact iff_of_true ⟨trivial, channelAnons_reaches hinv hm rfl ht rfl⟩ trivial
  | channelRequest cenv cid =>
    cases h
    have hm : Msg.ofWord (Msg.channel.code ||| SyncScribe.channelRequest) = .channel := by decide
    have ht : (Msg.channel.code ||| SyncScribe.channelRequest) &&& channelMask = SyncScribe.channelRequest := by decide
    exact iff_of_true ⟨trivial, channelRequest_reaches hinv hm rfl ht⟩ trivial
  | requestList cenv l =>
    cases h
    refine iff_of_true ⟨trivial, list_reaches hinv (Msg.ofWord_code l.msg) ?_⟩ trivial
    simp only [listRequest, Header.fillBasicRequest, Header.fillBasic]
    rw [Id.c_setC _ _ _ (by omega), if_pos rfl]
  | waitEvent | requestListEnd | freeList | sockets | sendId | packet => cases h

/-- `syncs_define` of the first client of a new server. -/
theorem define_reaches_new :
    (ClientAct.define .calm [97] typeVarInt32).Copies ∧
      Reaches .calm (run act (serverCreate []) [.accept (some (3, ⟨1, 2⟩))]).1 0 (.define (idstr [97]) typeVarInt32)
        ((defineRequest .calm [97] typeVarInt32).arrival []) :=
  (requests_reach_iff .calm [] (connectCreate [] []) (.define .calm [97] typeVarInt32) []
    [.accept (some (3, ⟨1, 2⟩))] 0 rfl).mpr (Or.inl (by decide))

/-- A client has defined an event. -/
def definedServer : Server :=
  (run act (serverCreate []) [.accept (some (3, ⟨1, 2⟩)),
    .packet .calm 0 ((defineRequest .calm [97] typeVarInt32).arrival [])]).1

/-- Undefining it leaves it live. -/
theorem undefine_misses :
    LiveId (clientProcessPacket .calm definedServer 0 ((undefineRequest .calm [97]).arrival [])).server.events
      (idstr [97]) ∧
    ¬ Reaches .calm definedServer 0 (.undefine (idstr [97])) ((undefineRequest .calm [97]).arrival []) := by
  have hlive : LiveId (clientProcessPacket .calm definedServer 0 ((undefineRequest .calm [97]).arrival [])).server.events
      (idstr [97]) := by
    decide +kernel
  exact ⟨hlive, fun h => h.done hlive⟩

end SyncScribe
