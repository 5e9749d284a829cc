import SyncScribe.Server.Rejections

/-!
Two comparisons of runs. The first contact of a subscriber and a writer with an
event that does not exist yet, in either order: the first request creates the
event and fixes its type, the second is judged by a gate of its own. And the two
ways to write, `syncs_client_write` and `syncs_server_write`, which are separate
copies of the same steps.
-/

namespace SyncScribe
open Lib Lib.Bytes Lib.Slots Lib.Keyed

variable {env : Env} {s s' : Server} {c : ClientIx} {e : EventIx} {id : Id} {flags dataType size : UInt32}
  {data : List UInt8}

/-! ## Searching again -/

theorem findEvent_congr (h : ∀ i, (s'.events i).id = (s.events i).id) : findEvent s' id = findEvent s id := by
  simp only [findEvent, h]

/-- A store that keeps the identifier of its slot is not seen by a search. -/
theorem findEvent_update {ev : Event} (hs : s'.events = Function.update s.events e ev)
    (hid : ev.id = (s.events e).id) : findEvent s' id = findEvent s id := by
  apply findEvent_congr
  intro i
  rw [hs]
  by_cases hi : i = e
  · rw [hi, Function.update_self, hid]
  · rw [Function.update_of_ne hi]

theorem findEvent_created (hn : findEvent s id = none) : findEvent (createdServer s id e dataType) id = some e := by
  refine first_eq_some_of_unique (idcmp_iff.mpr (by simp [createdServer, eventInit])) ?_
  intro j hj
  by_contra hne
  have hid := idcmp_iff.mp hj
  simp only [createdServer, Server.setEvent_of_ne _ _ hne] at hid
  exact findEvent_eq_none.mp hn j hid

theorem openEvent_found (hf : findEvent s id = some e) : openEvent s id flags dataType = .ok (s, e) := by
  simp only [openEvent, hf]

theorem openEvent_created (dataType : UInt32) (hn : findEvent s id = none) (hforce : flags &&& typeForce ≠ 0)
    (hfree : ∃ e, ¬ (s.events e).id.good) :
    ∃ e, openEvent s id flags dataType = .ok (createdServer s id e dataType, e) := by
  cases ho : openEvent s id flags dataType with
  | error r =>
    obtain ⟨e, he⟩ := hfree
    rcases (openEvent_error ho).2.2 with hz | hall
    · exact absurd hz hforce
    · exact absurd (hall e) he
  | ok r =>
    obtain ⟨s', e⟩ := r
    rcases openEvent_ok ho with ⟨hf, _⟩ | ⟨_, _, _, rfl⟩
    · rw [hn] at hf
      cases hf
    · exact ⟨e, rfl⟩

/-- The event a call opened is the one a later search finds. -/
theorem findEvent_opened (ho : openEvent s id flags dataType = .ok (s', e)) : findEvent s' id = some e := by
  rcases openEvent_ok ho with ⟨hf, rfl⟩ | ⟨hn, _, _, rfl⟩
  · exact hf
  · exact findEvent_created hn

/-! ## First contact -/

theorem clientSubscribe_opened {updateCounter : UInt64}
    (ho : openEvent s id flags (flags &&& typeVarMask) = .ok (s', e)) :
    (clientSubscribe env s c id flags updateCounter).ret = 0 ↔
      subscribeAdmits flags (s'.events e).dataType = true := by
  simp only [clientSubscribe, ho]
  split
  · rename_i ha
    simp only [ha, iff_true]
    split <;> rfl
  · rename_i ha
    simp [ha]

theorem clientSubscribe_events {updateCounter : UInt64}
    (ho : openEvent s id flags (flags &&& typeVarMask) = .ok (s', e))
    (hr : (clientSubscribe env s c id flags updateCounter).ret = 0) :
    (clientSubscribe env s c id flags updateCounter).server.events =
      Function.update s'.events e ((s'.events e).addConsumer c) := by
  obtain ⟨t, i, ho', _, hq, _⟩ := clientSubscribe_accepted hr
  rw [ho] at ho'
  cases ho'
  rw [hq.events, addClientToEvent_events]

theorem clientWrite_opened (ho : openEvent s id flags (flags &&& typeVarMask) = .ok (s', e)) :
    (clientWrite env s c id flags data size).ret = 0 ↔ flags &&& typeVarMask = (s'.events e).dataType := by
  simp only [clientWrite, ho]
  exact clientWriteEvent_ret

theorem clientWrite_events (ho : openEvent s id flags (flags &&& typeVarMask) = .ok (s', e))
    (hr : (clientWrite env s c id flags data size).ret = 0) :
    (clientWrite env s c id flags data size).server.events =
      Function.update s'.events e (writeStore s' c (s'.events e) data size) := by
  obtain ⟨t, i, ho', _, hs, _⟩ := clientWrite_accepted hr
  rw [ho] at ho'
  cases ho'
  rw [hs, (sendEvent_quiet _ _ _ _).events]
  rfl

/-- The operation behind an act returned 0. -/
def Act.accepted (s : Server) (a : Act) : Prop := ∃ op, a.operation s = some op ∧ (op.call s).ret = 0

/-- `c` consumes the event `id`, which has the given type and value. -/
def Introduced (s : Server) (c : ClientIx) (id : Id) (type : UInt32) (payload : List UInt8) : Prop :=
  ∃ e, findEvent s id = some e ∧ Holds (s.events e).consumers c ∧ (s.events e).dataType = type ∧
    read (s.events e).data (s.events e).dataSize.toNat = payload

/-- The acts are all accepted, and at their end `c` and the value have met. -/
def Meet (s : Server) (as : List Act) (c : ClientIx) (id : Id) (type : UInt32) (payload : List UInt8) : Prop :=
  Along act Act.accepted s as ∧ Introduced (run act s as).1 c id type payload

/-- A SUBSCRIBE and a WRITE, both with FORCE, to an event that does not exist and for which there
is room. The subscriber asks for the type of the writer, or for any. -/
structure FirstContact (s : Server) (a b : ClientIx) (pa pb : Packet) : Prop where
  different : a ≠ b
  subscribe : pa.header.msg = .subscribe
  write : pb.header.msg = .write
  id : pb.header.id = pa.header.id
  forceA : pa.header.type &&& typeForce ≠ 0
  forceB : pb.header.type &&& typeForce ≠ 0
  types : pa.header.type &&& typeVarMask = typeVarAny ∨
    pa.header.type &&& typeVarMask = pb.header.type &&& typeVarMask
  size : pb.header.dataSize.toNat ≤ variableSizeMaximum
  absent : findEvent s pa.header.id = none
  free : ∃ e, (s.events e).live = false

namespace FirstContact

variable {a b : ClientIx} {pa pb : Packet} (h : FirstContact s a b pa pb) (env env' : Env)
include h

theorem hasRoom : ∃ e, ¬ (s.events e).id.good := by
  obtain ⟨e, he⟩ := h.free
  exact ⟨e, by rw [← Event.live_iff, he]; exact Bool.false_ne_true⟩

end FirstContact

section Steps

variable {p : Packet} (hopen : openEvent s p.header.id p.header.type (p.header.type &&& typeVarMask) = .ok (s', e))
include hopen

/-- An admitted SUBSCRIBE. -/
theorem subscribe_step (env : Env) (c : ClientIx) (hm : p.header.msg = .subscribe)
    (ha : subscribeAdmits p.header.type (s'.events e).dataType = true) :
    Act.accepted s (.packet env c p) ∧
      (act s (.packet env c p)).1.events = Function.update s'.events e ((s'.events e).addConsumer c) := by
  have hop : packetOperation env c p =
      some (.clientSubscribe env c p.header.id p.header.type p.header.updateCounter) := by
    simp only [packetOperation, hm]
  have hr : (clientSubscribe env s c p.header.id p.header.type p.header.updateCounter).ret = 0 :=
    (clientSubscribe_opened hopen).mpr ha
  refine ⟨⟨_, hop, hr⟩, ?_⟩
  rw [act, (packet_eq_operation hop).1]
  exact clientSubscribe_events hopen hr

/-- A WRITE is accepted when its type is that of the event. -/
theorem write_accepted (env : Env) (c : ClientIx) (hm : p.header.msg = .write) :
    Act.accepted s (.packet env c p) ↔ p.header.type &&& typeVarMask = (s'.events e).dataType := by
  have hop : packetOperation env c p =
      some (.clientWrite env c p.header.id p.header.type p.buffer p.header.dataSize.toUInt32) := by
    simp only [packetOperation, hm]
  simp only [Act.accepted, Act.operation, hop, Option.some.injEq, exists_eq_left', Operation.call]
  exact clientWrite_opened hopen

theorem write_step (env : Env) (c : ClientIx) (hm : p.header.msg = .write)
    (ht : p.header.type &&& typeVarMask = (s'.events e).dataType) :
    (act s (.packet env c p)).1.events =
      Function.update s'.events e (writeStore s' c (s'.events e) p.buffer p.header.dataSize.toUInt32) := by
  have hop : packetOperation env c p =
      some (.clientWrite env c p.header.id p.header.type p.buffer p.header.dataSize.toUInt32) := by
    simp only [packetOperation, hm]
  rw [act, (packet_eq_operation hop).1]
  exact clientWrite_events hopen ((clientWrite_opened hopen).mpr ht)

end Steps

section Orders

variable {a b : ClientIx} {pa pb : Packet} (h : FirstContact s a b pa pb)
include h

/-- **The subscriber first.** The event takes its type, and the writer has to bring the same. -/
theorem subscriber_first (env₁ env₂ : Env) :
    Meet s [.packet env₁ a pa, .packet env₂ b pb] a pa.header.id (pb.header.type &&& typeVarMask) pb.payload ↔
      pa.header.type &&& typeVarMask = pb.header.type &&& typeVarMask := by
  obtain ⟨e, hopen⟩ := openEvent_created (pa.header.type &&& typeVarMask) h.absent h.forceA h.hasRoom
  have hfresh := createdServer_self s pa.header.id e (pa.header.type &&& typeVarMask)
  have hslot := fresh_inv (s.events e) pa.header.id (typeVarMask_idem pa.header.type)
  obtain ⟨hacc, hev⟩ := subscribe_step hopen env₁ a h.subscribe
    (by rw [hfresh]; exact subscribeAdmits_fresh _)
  generalize hs₁ : (act s (.packet env₁ a pa)).1 = s₁ at hev
  rw [hfresh] at hev
  obtain ⟨cs, n, hsame⟩ := addConsumer_same
    { eventInit (s.events e) pa.header.id with dataType := pa.header.type &&& typeVarMask } a
  have hfound : findEvent s₁ pb.header.id = some e := by
    rw [h.id, findEvent_update hev (by rw [hsame, hfresh])]
    exact findEvent_opened hopen
  have htype : (s₁.events e).dataType = pa.header.type &&& typeVarMask := by
    rw [hev, Function.update_self, hsame]
  have hwrite := write_accepted (openEvent_found hfound) env₂ b h.write
  rw [htype] at hwrite
  simp only [Meet, Along, hs₁, hacc, hwrite, true_and, and_true, run]
  constructor
  · rintro ⟨ht, _⟩
    exact ht.symm
  · intro ht
    have hev₂ := write_step (openEvent_found hfound) env₂ b h.write (by rw [htype, ht])
    generalize (act s₁ (.packet env₂ b pb)).1 = s₂ at hev₂
    refine ⟨ht.symm, e, ?_, ?_, ?_, ?_⟩
    · rw [findEvent_update hev₂ rfl, ← h.id]
      exact hfound
    · rw [hev₂, Function.update_self]
      simp only [writeStore, hev, Function.update_self]
      exact (holds_addConsumer hslot).mpr (Or.inl rfl)
    · rw [hev₂, Function.update_self]
      exact htype.trans ht
    · rw [hev₂, Function.update_self]
      simp only [writeStore, read_write_read, Packet.payload, UInt16.toNat_toUInt32]

/-- **The writer first.** The subscriber is admitted with the writer's type, and with any. -/
theorem writer_first (env₁ env₂ : Env) :
    Meet s [.packet env₁ b pb, .packet env₂ a pa] a pa.header.id (pb.header.type &&& typeVarMask) pb.payload := by
  have habsent : findEvent s pb.header.id = none := by rw [h.id]; exact h.absent
  obtain ⟨e, hopen⟩ := openEvent_created (pb.header.type &&& typeVarMask) habsent h.forceB h.hasRoom
  have hfresh := createdServer_self s pb.header.id e (pb.header.type &&& typeVarMask)
  have hslot := fresh_inv (s.events e) pb.header.id (typeVarMask_idem pb.header.type)
  have ht : pb.header.type &&& typeVarMask =
      ((createdServer s pb.header.id e (pb.header.type &&& typeVarMask)).events e).dataType := by
    rw [hfresh]
  have hacc := (write_accepted hopen env₁ b h.write).mpr ht
  have hev := write_step hopen env₁ b h.write ht
  generalize hs₁ : (act s (.packet env₁ b pb)).1 = s₁ at hev
  rw [hfresh] at hev
  have hfound : findEvent s₁ pa.header.id = some e := by
    rw [← h.id, findEvent_update hev (by rw [hfresh]; rfl)]
    exact findEvent_opened hopen
  have htype : (s₁.events e).dataType = pb.header.type &&& typeVarMask := by
    rw [hev, Function.update_self]
    rfl
  have hadmits : subscribeAdmits pa.header.type (s₁.events e).dataType = true := by
    rw [htype]
    rcases h.types with hany | hsame
    · simp [subscribeAdmits, hany]
    · simp [subscribeAdmits, hsame]
  obtain ⟨hacc₂, hev₂⟩ := subscribe_step (openEvent_found hfound) env₂ a h.subscribe hadmits
  have hslot₁ : SlotInv (s₁.events e) := by
    rw [hev, Function.update_self]
    exact writeStore_inv hslot
  obtain ⟨cs, n, hsame⟩ := addConsumer_same (s₁.events e) a
  refine ⟨⟨hacc, by rw [hs₁]; exact hacc₂, trivial⟩, ?_⟩
  simp only [run, hs₁]
  generalize (act s₁ (.packet env₂ a pa)).1 = s₂ at hev₂
  refine ⟨e, ?_, ?_, ?_, ?_⟩
  · rw [findEvent_update hev₂ (by rw [hsame])]
    exact hfound
  · rw [hev₂, Function.update_self]
    exact (holds_addConsumer hslot₁).mpr (Or.inl rfl)
  · rw [hev₂, Function.update_self, hsame]
    exact htype
  · rw [hev₂, Function.update_self, hsame]
    simp only [hev, Function.update_self, writeStore, read_write_read, Packet.payload, UInt16.toNat_toUInt32]

end Orders

/-- **First contact depends on who comes first** unless both bring the same type: a subscriber to any
type that comes first makes an event no typed writer can write. -/
theorem first_contact_iff {s : Server} {a b : ClientIx} {pa pb : Packet} (h : FirstContact s a b pa pb)
    (env : Fin 4 → Env) :
    (Meet s [.packet (env 0) a pa, .packet (env 1) b pb] a pa.header.id (pb.header.type &&& typeVarMask) pb.payload ∧
      Meet s [.packet (env 2) b pb, .packet (env 3) a pa] a pa.header.id (pb.header.type &&& typeVarMask)
        pb.payload) ↔
      pa.header.type &&& typeVarMask = pb.header.type &&& typeVarMask := by
  rw [subscriber_first h]
  exact and_iff_left (writer_first h _ _)

/-- A forced SUBSCRIBE to the event 0 for the given type. -/
def contactSubscribe (type : UInt32) : Packet := Packet.make (Msg.subscribe.code ||| typeForce ||| type) .zero []

/-- A forced WRITE of an INT32 to the event 0. -/
def contactWrite : Packet := Packet.make (Msg.write.code ||| typeForce ||| typeVarInt32) .zero [1, 2, 3, 4]

theorem contact (type : UInt32) (hm : (contactSubscribe type).header.msg = .subscribe)
    (hf : (contactSubscribe type).header.type &&& typeForce ≠ 0)
    (ht : (contactSubscribe type).header.type &&& typeVarMask = typeVarAny ∨
      (contactSubscribe type).header.type &&& typeVarMask = contactWrite.header.type &&& typeVarMask) :
    FirstContact (serverCreate []) 0 1 (contactSubscribe type) contactWrite :=
  ⟨by decide, hm, by decide, rfl, hf, by decide, ht, by decide,
    findEvent_eq_none.mpr fun _ => show Id.zero.free ≠ Id.zero by decide, 0, by decide⟩

theorem first_contact_same_type :
    Meet (serverCreate []) [.packet .calm 0 (contactSubscribe typeVarInt32), .packet .calm 1 contactWrite] 0 .zero
        typeVarInt32 [1, 2, 3, 4] ∧
      Meet (serverCreate []) [.packet .calm 1 contactWrite, .packet .calm 0 (contactSubscribe typeVarInt32)] 0 .zero
        typeVarInt32 [1, 2, 3, 4] :=
  (first_contact_iff (contact typeVarInt32 (by decide) (by decide) (by decide)) fun _ => .calm).mpr (by decide)

/-- A subscriber to any type comes first: the event is of type ANY, and the INT32 is refused. -/
theorem first_contact_any :
    FirstContact (serverCreate []) 0 1 (contactSubscribe typeVarAny) contactWrite ∧
      ¬ Meet (serverCreate []) [.packet .calm 0 (contactSubscribe typeVarAny), .packet .calm 1 contactWrite] 0 .zero
        typeVarInt32 [1, 2, 3, 4] ∧
      Meet (serverCreate []) [.packet .calm 1 contactWrite, .packet .calm 0 (contactSubscribe typeVarAny)] 0 .zero
        typeVarInt32 [1, 2, 3, 4] := by
  have h := contact typeVarAny (by decide) (by decide) (by decide)
  refine ⟨h, ?_, writer_first h _ _⟩
  intro hmeet
  exact absurd ((subscriber_first h _ _).mp hmeet) (by decide)

/-! ## The server's own writes -/

/-- The counter of an event; one that does not exist yet will start from 0. -/
def eventCounter (s : Server) (id : Id) : UInt64 :=
  match findEvent s id with
  | some e => (s.events e).updateCounter
  | none => 0

/-- Two writes to `id` in the state `s` are both refused, or both leave the event with one type and
one value and with a counter past the one it had. -/
structure WritesAgree (s : Server) (id : Id) (r r' : Res) : Prop where
  ret : r.ret = 0 ↔ r'.ret = 0
  stored : r.ret = 0 → ∃ e e', findEvent r.server id = some e ∧ findEvent r'.server id = some e' ∧
    (r.server.events e).dataType = (r'.server.events e').dataType ∧
    (r.server.events e).dataSize = (r'.server.events e').dataSize ∧
    read (r.server.events e).data (r.server.events e).dataSize.toNat =
      read (r'.server.events e').data (r'.server.events e').dataSize.toNat
  counter : r.ret = 0 → eventCounter s id < eventCounter r.server id ∧ eventCounter s id < eventCounter r'.server id

/-- `syncs_server_write` never moves the counter of its event. -/
theorem serverWrite_counter {cid : List UInt8} (hr : (serverWrite env s flags cid data size).ret = 0) :
    eventCounter (serverWrite env s flags cid data size).server (idstr cid) = eventCounter s (idstr cid) := by
  obtain ⟨s', e, ho, hs, _⟩ := serverWrite_accepted hr
  have hev : (serverWrite env s flags cid data size).server.events =
      Function.update s'.events e (serverWriteStore (s'.events e) data (serverWriteSize flags size)) := by
    rw [hs, (sendEvent_quiet _ _ _ _).events]
    rfl
  have hfound : findEvent (serverWrite env s flags cid data size).server (idstr cid) = some e := by
    rw [findEvent_update hev rfl]
    exact findEvent_opened ho
  have hafter : eventCounter (serverWrite env s flags cid data size).server (idstr cid) =
      (s'.events e).updateCounter := by
    rw [eventCounter, hfound]
    simp only [hev, Function.update_self]
    rfl
  rw [hafter, eventCounter]
  rcases openEvent_ok ho with ⟨hf, rfl⟩ | ⟨hn, _, _, rfl⟩
  · rw [hf]
  · rw [hn]
    simp [createdServer, eventInit]

/-- A call that may create its event is refused when there is none and it may not or cannot. -/
theorem openEvent_error_iff (dataType : UInt32) :
    (∃ r, openEvent s id flags dataType = .error r) ↔
      findEvent s id = none ∧ (flags &&& typeForce = 0 ∨ ∀ e, (s.events e).id.good) := by
  constructor
  · rintro ⟨r, hr⟩
    exact (openEvent_error hr).2
  · rintro ⟨hn, hwhy⟩
    cases ho : openEvent s id flags dataType with
    | error r => exact ⟨r, rfl⟩
    | ok r =>
      obtain ⟨s', e⟩ := r
      rcases openEvent_ok ho with ⟨hf, _⟩ | ⟨_, hforce, hfree, _⟩
      · rw [hn] at hf
        cases hf
      · rcases hwhy with hz | hall
        · exact absurd hz hforce
        · exact absurd (hall e) hfree

/-- **The two write paths agree on nothing but refusals**: as soon as `syncs_server_write` accepts, it
leaves the counter of the event where it was. -/
theorem writes_agree_iff (s : Server) (c : ClientIx) (cid : List UInt8) (flags : UInt32) (data : List UInt8)
    (size : UInt32) (env env' : Env) :
    WritesAgree s (idstr cid) (serverWrite env s flags cid data size)
        (clientWrite env' s c (idstr cid) flags data size) ↔
      findEvent s (idstr cid) = none ∧ (flags &&& typeForce = 0 ∨ ∀ e, (s.events e).id.good) := by
  constructor
  · intro h
    have hr : (serverWrite env s flags cid data size).ret ≠ 0 := by
      intro hr
      have hlt := (h.counter hr).1
      rw [serverWrite_counter hr] at hlt
      exact UInt64.lt_irrefl _ hlt
    rw [← openEvent_error_iff 0]
    cases ho : openEvent s (idstr cid) flags 0 with
    | error r => exact ⟨r, rfl⟩
    | ok r =>
      simp only [serverWrite, ho] at hr
      exact absurd rfl hr
  · intro h
    obtain ⟨r, hr⟩ := (openEvent_error_iff 0).mpr h
    obtain ⟨r', hr'⟩ := (openEvent_error_iff (flags &&& typeVarMask)).mpr h
    have hserver : (serverWrite env s flags cid data size).ret ≠ 0 := by
      simp only [serverWrite, hr]
      exact openEvent_refused hr
    have hclient : (clientWrite env' s c (idstr cid) flags data size).ret ≠ 0 := by
      simp only [clientWrite, hr']
      exact openEvent_refused hr'
    exact ⟨iff_of_false hserver hclient, fun h => absurd h hserver, fun h => absurd h hserver⟩

/-- A client has written the event 0 twice; then the server and another client write it. -/
def writtenTwice : Server := (run act (serverCreate []) [.packet .calm 0 contactWrite, .packet .calm 0 contactWrite]).1

/-- Both writes are accepted, but the server's leaves the counter where it was. -/
theorem writes_disagree :
    (serverWrite .calm writtenTwice typeVarInt32 [] [5, 6, 7, 8] 4).ret = 0 ∧
      (clientWrite .calm writtenTwice 1 (idstr []) typeVarInt32 [5, 6, 7, 8] 4).ret = 0 ∧
      ¬ WritesAgree writtenTwice (idstr []) (serverWrite .calm writtenTwice typeVarInt32 [] [5, 6, 7, 8] 4)
        (clientWrite .calm writtenTwice 1 (idstr []) typeVarInt32 [5, 6, 7, 8] 4) := by
  have hr : (serverWrite .calm writtenTwice typeVarInt32 [] [5, 6, 7, 8] 4).ret = 0 := by decide +kernel
  refine ⟨hr, by decide +kernel, ?_⟩
  intro h
  have hlt := (h.counter hr).1
  rw [serverWrite_counter hr] at hlt
  exact UInt64.lt_irrefl _ hlt

end SyncScribe
