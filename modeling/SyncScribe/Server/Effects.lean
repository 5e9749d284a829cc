import SyncScribe.Server.Table

/-!
What each operation does to the event table: which identifier it sets in the
map and to what event, or that it leaves the server as it was. A call that
refuses leaves the server untouched.
-/

namespace SyncScribe
open Lib Lib.Bytes Lib.Slots Lib.Keyed

variable {s s' : Server} {c c' : ClientIx} {e : EventIx} {id id' : Id} {flags dataType : UInt32}

/-! ## Consumers of one event -/

/-- An event after `syncs_add_client_to_event`. -/
def Event.addConsumer (ev : Event) (c : ClientIx) : Event :=
  match first fun i => ev.consumers i == some c with
  | some _ => ev
  | none =>
    match first fun i => (ev.consumers i).isNone with
    | some i =>
      { ev with
        consumers := Function.update ev.consumers i (some c)
        consumersCount := ev.consumersCount + 1 }
    | none => ev

/-- An event after `syncs_remove_client_from_event`. -/
def Event.dropConsumer (ev : Event) (c : ClientIx) : Event :=
  match first fun i => ev.consumers i == some c with
  | some i =>
    { ev with
      consumers := Function.update ev.consumers i none
      consumersCount := ev.consumersCount - 1 }
  | none => ev

/-- Two events that differ in their consumers at most. -/
def SameButConsumers (ev ev' : Event) : Prop :=
  ∃ cs n, ev' = { ev with consumers := cs, consumersCount := n }

section Consumers

variable {ev : Event}

theorem addConsumer_same (ev : Event) (c : ClientIx) : SameButConsumers ev (ev.addConsumer c) := by
  unfold Event.addConsumer
  split
  · exact ⟨_, _, rfl⟩
  · split <;> exact ⟨_, _, rfl⟩

theorem dropConsumer_same (ev : Event) (c : ClientIx) : SameButConsumers ev (ev.dropConsumer c) := by
  unfold Event.dropConsumer
  split <;> exact ⟨_, _, rfl⟩

theorem first_consumer_none (h : (first fun i => ev.consumers i == some c) = none) :
    ¬ Holds ev.consumers c := by
  rintro ⟨i, hi⟩
  have := first_eq_none.mp h i
  simp [hi] at this

theorem first_consumer_some {i : Fin clientMaximum}
    (h : (first fun i => ev.consumers i == some c) = some i) : ev.consumers i = some c := by
  simpa using first_some h

/-- A count of entries fits its 32-bit counter. -/
theorem count_lt (t : Fin clientMaximum → Option ClientIx) : count t < 2 ^ 32 := by
  have h := count_le t
  simp only [clientMaximum] at h
  omega

theorem succ_counter {n : UInt32} {k : Nat} (h : n.toNat = k) (hk : k + 1 < 2 ^ 32) :
    (n + 1).toNat = k + 1 := by
  rw [UInt32.toNat_add, h]
  simp
  omega

theorem pred_counter {n : UInt32} {k : Nat} (h : n.toNat = k + 1) : (n - 1).toNat = k := by
  have hle : (1 : UInt32) ≤ n := by
    rw [UInt32.le_iff_toNat_le, h]
    simp
  rw [UInt32.toNat_sub_of_le _ _ hle, h]
  simp

/-- An event that misses a client has a free entry for it. -/
theorem exists_first_hole (h : SlotInv ev) (hnot : ¬ Holds ev.consumers c) :
    ∃ i, (first fun i => (ev.consumers i).isNone) = some i ∧ ev.consumers i = none := by
  obtain ⟨j, hj⟩ := exists_hole h.distinct hnot
  obtain ⟨i, hi⟩ := exists_first (p := fun i => (ev.consumers i).isNone) (i := j) (by simp [hj])
  exact ⟨i, hi, by simpa using first_some hi⟩

theorem addConsumer_inv (h : SlotInv ev) : SlotInv (ev.addConsumer c) := by
  unfold Event.addConsumer
  cases hf : first fun i => ev.consumers i == some c with
  | some i => exact h
  | none =>
    have hnot := first_consumer_none hf
    obtain ⟨i, hi, hhole⟩ := exists_first_hole h hnot
    have hcount := count_store (a := c) hhole
    have hlt := count_lt (Function.update ev.consumers i (some c))
    simp only [hi]
    refine ⟨distinct_store h.distinct hnot, ?_, h.typed⟩
    rw [hcount]
    exact succ_counter h.counted (by omega)

theorem holds_addConsumer (h : SlotInv ev) :
    Holds (ev.addConsumer c).consumers c' ↔ c' = c ∨ Holds ev.consumers c' := by
  unfold Event.addConsumer
  cases hf : first fun i => ev.consumers i == some c with
  | some i =>
    constructor
    · exact Or.inr
    · rintro (rfl | hc)
      · exact ⟨i, first_consumer_some hf⟩
      · exact hc
  | none =>
    obtain ⟨i, hi, hhole⟩ := exists_first_hole h (first_consumer_none hf)
    simp only [hi]
    exact holds_store hhole

theorem dropConsumer_inv (h : SlotInv ev) : SlotInv (ev.dropConsumer c) := by
  unfold Event.dropConsumer
  cases hf : first fun i => ev.consumers i == some c with
  | none => exact h
  | some i =>
    have hcount := count_clear (first_consumer_some hf)
    refine ⟨distinct_clear h.distinct, ?_, h.typed⟩
    exact pred_counter (by rw [h.counted, hcount])

theorem holds_dropConsumer (h : SlotInv ev) :
    Holds (ev.dropConsumer c).consumers c' ↔ c' ≠ c ∧ Holds ev.consumers c' := by
  unfold Event.dropConsumer
  cases hf : first fun i => ev.consumers i == some c with
  | none =>
    constructor
    · intro hc
      refine ⟨?_, hc⟩
      rintro rfl
      exact first_consumer_none hf hc
    · exact fun hc => hc.2
  | some i => exact holds_clear h.distinct (first_consumer_some hf)

end Consumers

/-! ## The consumer operations -/

theorem addClientToEvent_events :
    (addClientToEvent s c e).2.events = Function.update s.events e ((s.events e).addConsumer c) := by
  unfold addClientToEvent Event.addConsumer
  cases first fun i => (s.events e).consumers i == some c with
  | some _ => simp
  | none =>
    cases first fun i => ((s.events e).consumers i).isNone with
    | some _ => rfl
    | none => simp

/-- **Adding a consumer never fails.** -/
theorem addClientToEvent_ret (h : TableInv s.events) : (addClientToEvent s c e).1 = 0 := by
  unfold addClientToEvent
  cases hf : first fun i => (s.events e).consumers i == some c with
  | some i => rfl
  | none =>
    obtain ⟨i, hi, _⟩ := exists_first_hole (h.slots e) (first_consumer_none hf)
    simp [hi]

theorem removeClientFromEvent_events :
    (removeClientFromEvent s c e).events = Function.update s.events e ((s.events e).dropConsumer c) := by
  unfold removeClientFromEvent Event.dropConsumer
  cases first fun i => (s.events e).consumers i == some c with
  | some _ => rfl
  | none => simp

/-- The connection in a slot: its socket and the bytes received on it and not yet consumed. -/
def Server.conn (s : Server) (c : ClientIx) : Int × List UInt8 :=
  ((s.clients c).socketfd, (s.clients c).buffer)

/-- A store into a client that leaves its connection alone. -/
theorem conn_modify {f : Client → Client} (hf : ∀ cl, (f cl).socketfd = cl.socketfd)
    (hb : ∀ cl, (f cl).buffer = cl.buffer) (i : ClientIx) : (s.modifyClient c f).conn i = s.conn i := by
  rw [Server.conn, Server.modifyClient_clients]
  split
  · rename_i h
    rw [hf, hb, h, Server.conn]
  · rfl

/-- Everything but the events and the counters of the clients. -/
structure SameRest (s s' : Server) : Prop where
  conn : ∀ c, s'.conn c = s.conn c
  channels : s'.channels = s.channels
  updateCounter : s'.updateCounter = s.updateCounter

theorem SameRest.refl (s : Server) : SameRest s s := ⟨fun _ => rfl, rfl, rfl⟩

theorem SameRest.trans {s t u : Server} (h : SameRest s t) (h' : SameRest t u) : SameRest s u :=
  ⟨fun c => (h'.conn c).trans (h.conn c), h'.channels.trans h.channels,
    h'.updateCounter.trans h.updateCounter⟩

theorem SameRest.setEvent (h : SameRest s s') (e : EventIx) (ev : Event) :
    SameRest s (s'.setEvent e ev) :=
  ⟨h.conn, h.channels, h.updateCounter⟩

theorem SameRest.modify {f : Client → Client} (h : SameRest s s')
    (hf : ∀ cl, (f cl).socketfd = cl.socketfd) (hb : ∀ cl, (f cl).buffer = cl.buffer) :
    SameRest s (s'.modifyClient c f) :=
  ⟨fun i => (conn_modify hf hb i).trans (h.conn i), h.channels, h.updateCounter⟩

theorem Quiet.sameRest (h : Quiet s s') : SameRest s s' :=
  ⟨fun c => Prod.ext (h.socketfd c) (h.buffer c), h.channels, h.updateCounter⟩

theorem addClientToEvent_rest : SameRest s (addClientToEvent s c e).2 := by
  unfold addClientToEvent
  split
  · exact SameRest.refl s
  · split
    · dsimp only
      exact ((SameRest.refl s).setEvent e _).modify (by intro; rfl) (by intro; rfl)
    · exact SameRest.refl s

theorem removeClientFromEvent_rest : SameRest s (removeClientFromEvent s c e) := by
  unfold removeClientFromEvent
  split
  · exact ((SameRest.refl s).setEvent e _).modify (by intro; rfl) (by intro; rfl)
  · exact SameRest.refl s

/-! ## Closing -/

/-- A slot after `syncs_remove_client_from_events`. -/
def Event.closed (c : ClientIx) (ev : Event) : Event := if ev.live then ev.dropConsumer c else ev

theorem closed_same (c : ClientIx) (ev : Event) : SameButConsumers ev (ev.closed c) := by
  unfold Event.closed
  split
  · exact dropConsumer_same ev c
  · exact ⟨_, _, rfl⟩

theorem closed_id (c : ClientIx) (ev : Event) : (ev.closed c).id = ev.id := by
  obtain ⟨cs, n, h⟩ := closed_same c ev
  rw [h]

theorem removeLoop_events (c : ClientIx) (es : List EventIx) (hnd : es.Nodup) (s : Server) (i : EventIx) :
    (removeClientFromEventsLoop c es s).events i = if i ∈ es then (s.events i).closed c else s.events i := by
  induction es generalizing s with
  | nil => simp [removeClientFromEventsLoop]
  | cons e es ih =>
    have hhead : (if (s.events e).live then removeClientFromEvent s c e else s).events =
        Function.update s.events e ((s.events e).closed c) := by
      unfold Event.closed
      split
      · exact removeClientFromEvent_events
      · simp
    obtain ⟨hni, hnd⟩ := List.nodup_cons.mp hnd
    rw [removeClientFromEventsLoop, ih hnd, hhead]
    by_cases hi : i = e
    · subst hi
      simp [hni]
    · simp [hi]

theorem removeLoop_rest (c : ClientIx) (es : List EventIx) (s : Server) :
    SameRest s (removeClientFromEventsLoop c es s) := by
  induction es generalizing s with
  | nil => exact SameRest.refl s
  | cons e es ih =>
    unfold removeClientFromEventsLoop
    split
    · exact removeClientFromEvent_rest.trans (ih _)
    · exact ih s

theorem closeClientSocket_events (s : Server) (c : ClientIx) :
    (closeClientSocket s c).events = fun i => (s.events i).closed c := by
  funext i
  rw [closeClientSocket, Server.modifyClient_events, removeChannelsOfClient, removeClientFromEvents]
  dsimp only
  rw [removeLoop_events c _ (List.nodup_finRange _), if_pos (List.mem_finRange i)]

theorem removeClientFromEvents_rest (s : Server) (c : ClientIx) : SameRest s (removeClientFromEvents s c) := by
  rw [removeClientFromEvents]
  exact removeLoop_rest c _ s

theorem closeClientSocket_updateCounter (s : Server) (c : ClientIx) :
    (closeClientSocket s c).updateCounter = s.updateCounter := by
  simp only [closeClientSocket, Server.modifyClient_updateCounter, removeChannelsOfClient,
    (removeClientFromEvents_rest s c).updateCounter]

theorem closed_inv {ev : Event} (h : SlotInv ev) : SlotInv (ev.closed c) := by
  unfold Event.closed
  split
  · exact dropConsumer_inv h
  · exact h

/-- **Closing a client** takes it out of every live event. -/
theorem closeClientSocket_table (h : TableInv s.events) :
    TableInv (closeClientSocket s c).events ∧
      ∀ id, look (closeClientSocket s c).events id = (look s.events id).map (Event.closed c) := by
  rw [closeClientSocket_events]
  exact ⟨⟨h.unique.map (closed_id c), fun i => closed_inv (h.slots i)⟩,
    fun id => lookup_map (closed_id c)⟩

theorem closeClientSocket_consumes (h : TableInv s.events) :
    Consumes (closeClientSocket s c).events c' id ↔ c' ≠ c ∧ Consumes s.events c' id := by
  simp only [Consumes, (closeClientSocket_table h).2, Option.map_eq_some_iff, exists_exists_and_eq_and]
  constructor
  · rintro ⟨ev, hl, hh⟩
    have hlive : ev.live = true := Event.live_iff.mpr (by rw [look_id hl]; exact look_good hl)
    rw [Event.closed, if_pos hlive, holds_dropConsumer (h.slotInv hl)] at hh
    exact ⟨hh.1, ev, hl, hh.2⟩
  · rintro ⟨hne, ev, hl, hh⟩
    have hlive : ev.live = true := Event.live_iff.mpr (by rw [look_id hl]; exact look_good hl)
    refine ⟨ev, hl, ?_⟩
    rw [Event.closed, if_pos hlive, holds_dropConsumer (h.slotInv hl)]
    exact ⟨hne, hh⟩

end SyncScribe
