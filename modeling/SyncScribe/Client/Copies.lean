import SyncScribe.Client.SyncEvents

/-!
The copies a client keeps. An EVENT for a slot that has memory is stored there, so
the memory is a copy of the event at the server, as old as the last EVENT. Nothing
but an EVENT for its identifier and the calls that subscribe or unsubscribe it
changes a copy (`copies_act`).
-/

namespace SyncScribe
open Lib Lib.Bytes Lib.Slots Lib.Keyed

/-- The copy of the event `id`. -/
def copyOf (s : Connect) (id : Id) : Option (List UInt8) :=
  (s.findEvent id).bind fun e => (s.events e).data.map fun mem => read mem (s.events e).dataSize.toNat

/-- The client has a slot with memory for `id`. -/
structure Copies (s : Connect) (id : Id) : Prop where
  table : ClientTable s.events
  good : id.good
  slot : ∃ e, (s.events e).id = id ∧ (s.events e).data.isSome = true

/-- An act other than a call that subscribes or unsubscribes `id`. -/
def ClientAct.leaves (id : Id) : ClientAct → Prop
  | .subscribe _ _ cid _ _ | .subscribeSync _ _ cid _ | .subscribeSyncUser _ _ cid _ _ | .unsubscribe _ cid =>
    GoodName cid ∧ idstr cid ≠ id
  | _ => True

/-- The payloads of the EVENTs for `id` among the packets. -/
def tellings (id : Id) (ps : List Packet) : List (List UInt8) :=
  ps.filterMap fun p => if p.header.msg = .event ∧ p.header.id = id then some p.payload else none

section Copies

variable {s : Connect} {id : Id} {e : EventIx} {a : ClientAct} {p : Packet}

theorem ClientTable.find (h : ClientTable s.events) (hg : id.good) (he : (s.events e).id = id) :
    s.findEvent id = some e := by
  apply first_eq_some_of_unique (idcmp_iff.mpr he)
  intro j hj
  have hid := idcmp_iff.mp hj
  exact h.unique j e (by rw [hid]; exact hg) (hid.trans he.symm)

theorem copyOf_slot (h : ClientTable s.events) (hg : id.good) (he : (s.events e).id = id) :
    copyOf s id = (s.events e).data.map fun mem => read mem (s.events e).dataSize.toNat := by
  rw [copyOf, h.find hg he]
  rfl

/-- What leaves the slot of a copy alone leaves the copy alone. -/
theorem Copies.keep (h : Copies s id) {s' : Connect} (ht : ClientTable s'.events)
    (hsame : ∀ e, (s.events e).id = id → s'.events e = s.events e) : Copies s' id ∧ copyOf s' id = copyOf s id := by
  obtain ⟨e, he, hmem⟩ := h.slot
  have hev := hsame e he
  have he' : (s'.events e).id = id := by rw [hev, he]
  refine ⟨⟨ht, h.good, e, he', by rw [hev]; exact hmem⟩, ?_⟩
  rw [copyOf_slot ht h.good he', copyOf_slot h.table h.good he, hev]

theorem Copies.same (h : Copies s id) {s' : Connect} (hsame : s'.events = s.events) :
    Copies s' id ∧ copyOf s' id = copyOf s id :=
  h.keep (by rw [hsame]; exact h.table) fun e _ => by rw [hsame]

/-- Subscribing another name takes another slot. -/
theorem Copies.subscribe (h : Copies s id) {cid : List UInt8} (hname : GoodName cid) (hne : idstr cid ≠ id)
    (hs : s.getEventStr cid = some e) {ev : ClientEvent} (hev : ev.id = idstr cid) :
    Copies (s.setEvent e ev) id ∧ copyOf (s.setEvent e ev) id = copyOf s id := by
  apply h.keep (h.table.subscribe hname hs hev).1
  intro i hi
  apply Function.update_of_ne
  rintro rfl
  rcases getEventStr_some h.table hname hs with heq | ⟨hfree, _⟩
  · exact hne (heq.symm.trans hi)
  · rw [hi] at hfree
    exact hfree h.good

/-- So does unsubscribing one. -/
theorem Copies.unsubscribe (h : Copies s id) {cid : List UInt8} (hname : GoodName cid) (hne : idstr cid ≠ id)
    (env : ClientEnv) :
    Copies (unsubscribeEvent env s cid).1 id ∧ copyOf (unsubscribeEvent env s cid).1 id = copyOf s id := by
  rw [unsubscribeEvent]
  cases hf : s.findEvent (idstr cid) with
  | none => exact h.same rfl
  | some e =>
    have hid := Connect.findEvent_some hf
    have hg : (s.events e).id.good := by
      rw [hid]
      exact hname.good
    apply h.keep (h.table.unsubscribe hg).1
    intro i hi
    apply Function.update_of_ne
    rintro rfl
    exact hne (hid.symm.trans hi)

/-- A slot after an EVENT for it. -/
theorem processEvent_slot (hf : s.findEvent p.header.id = some e) :
    (∀ i, i ≠ e → (processEvent s p).1.events i = s.events i) ∧
      ((processEvent s p).1.events e).id = (s.events e).id ∧
      ((processEvent s p).1.events e).data.isSome = (s.events e).data.isSome := by
  simp only [processEvent, hf]
  cases hmem : (s.events e).data with
  | none =>
    refine ⟨fun i hi => Function.update_of_ne hi _ _, ?_, ?_⟩
    all_goals simp [Connect.setEvent]
  | some mem =>
    refine ⟨fun i hi => Function.update_of_ne hi _ _, ?_, ?_⟩
    all_goals simp [Connect.setEvent]

theorem processEvent_table (h : ClientTable s.events) (p : Packet) : ClientTable (processEvent s p).1.events := by
  refine ⟨?_, ?_⟩
  · intro i j hi hij
    rw [processEvent_id] at hi hij
    rw [processEvent_id] at hij
    exact h.unique i j hi hij
  · intro i hi
    rw [processEvent_id] at hi ⊢
    exact h.named i hi

/-- **An EVENT renews the copy**, or is for another. -/
theorem Copies.event (h : Copies s id) (p : Packet) : Copies (processEvent s p).1 id ∧
    copyOf (processEvent s p).1 id = if p.header.id = id then some p.payload else copyOf s id := by
  have ht := processEvent_table h.table p
  by_cases hp : p.header.id = id
  · obtain ⟨e, he, hmem⟩ := h.slot
    have hf : s.findEvent p.header.id = some e := by
      rw [hp]
      exact h.table.find h.good he
    obtain ⟨_, hid, hdata⟩ := processEvent_slot hf
    have he' : ((processEvent s p).1.events e).id = id := hid.trans he
    refine ⟨⟨ht, h.good, e, he', by rw [hdata]; exact hmem⟩, ?_⟩
    obtain ⟨mem, hm, hread⟩ := (processEvent_pending hf hmem).data
    rw [if_pos hp, copyOf_slot ht h.good he', hm, (processEvent_pending hf hmem).size, UInt16.toNat_toUInt32,
      Option.map_some, hread]
  · rw [if_neg hp]
    apply h.keep ht
    intro i hi
    cases hf : s.findEvent p.header.id with
    | none => simp only [processEvent, hf]
    | some e =>
      apply (processEvent_slot hf).1
      rintro rfl
      exact hp ((Connect.findEvent_some hf).symm.trans hi)

/-- The copy after a packet. -/
theorem Copies.packet (h : Copies s id) (env : ClientEnv) (p : Packet) : Copies (processPacket env s p).1 id ∧
    copyOf (processPacket env s p).1 id = (tellings id [p]).getLast?.or (copyOf s id) := by
  by_cases hm : p.header.msg = .event
  · obtain ⟨hc, hcopy⟩ := h.event p
    simp only [processPacket, hm]
    refine ⟨hc, hcopy.trans ?_⟩
    by_cases hp : p.header.id = id
    · simp [tellings, hm, hp]
    · simp [tellings, hm, hp]
  · have hnone : tellings id [p] = [] := by simp [tellings, hm]
    have hevents : (processPacket env s p).1.events = s.events := by
      cases hm' : p.header.msg
      all_goals simp only [processPacket, hm']
      case event => exact absurd hm' hm
      case channel => rw [channelProcessPacket_frame]
      case read => rw [processRead_frame]
      case serverStatus => rw [processError_frame]
      all_goals rfl
    rw [hnone]
    exact h.same hevents

/-- **What an act leaves of a copy.** -/
theorem copies_act (h : Copies s id) (ha : a.leaves id) (hp : ∀ env p, a ≠ .packet env p) :
    Copies (clientAct s a).1 id ∧ copyOf (clientAct s a).1 id = copyOf s id := by
  cases a with
  | subscribe env flags cid cb args =>
    simp only [clientAct, subscribeEvent]
    cases hs : s.getEventStr cid with
    | none => exact h.same rfl
    | some e => exact h.subscribe ha.1 ha.2 hs rfl
  | subscribeSync env flags cid eventData =>
    simp only [clientAct, subscribeEventSync]
    cases hs : s.getEventStr cid with
    | none => exact h.same rfl
    | some e => exact h.subscribe ha.1 ha.2 hs rfl
  | subscribeSyncUser env flags cid userData userDataSize =>
    simp only [clientAct, subscribeEventSyncUser]
    cases hs : s.getEventStr cid with
    | none => exact h.same rfl
    | some e => exact h.subscribe ha.1 ha.2 hs rfl
  | unsubscribe env cid => exact h.unsubscribe ha.1 ha.2 env
  | requestList env l =>
    apply h.same
    simp only [clientAct, requestList]
    split <;> rfl
  | requestListEnd inetAddr l =>
    apply h.same
    simp only [clientAct, requestListEnd]
    cases l <;> rfl
  | freeList l => exact h.same rfl
  | packet env p => exact absurd rfl (hp env p)
  | _ => exact h.same (clientAct_frame rfl rfl).1

end Copies

end SyncScribe
