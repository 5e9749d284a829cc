import SyncScribe.Server.Output

/-!
What is left of an event in its slot. UNDEFINE only marks the slot as free, and
`syncs_event_init` clears the first byte of its data, while DEFINE sets the size
of a new event without storing anything. `Traces` says which bytes of the slots
were last stored by a WRITE of the event in question; two runs that differ in the
payloads of these WRITEs are the same but for such bytes, and send the same as
long as they do not show them.
-/

namespace SyncScribe
open Lib Lib.Bytes Lib.Slots

/-! ## Traces of an event -/

/-- Byte `j` of slot `i` was last stored by a WRITE of the event. -/
abbrev Traces := EventIx → Nat → Bool

/-- The first `n` bytes of slot `e` are stored, by a WRITE of the event or not. -/
def Traces.store (t : Traces) (e : EventIx) (n : Nat) (own : Bool) : Traces :=
  fun i j => if i = e ∧ j < n then own else t i j

/-- A call that creates its event clears the first byte. -/
def Traces.opened (t : Traces) (s : Server) (id : Id) (flags : UInt32) : Traces :=
  match openEvent s id flags 0 with
  | .ok (_, e) => if (findEvent s id).isSome then t else t.store e 1 false
  | .error _ => t

/-- The traces of `x` after a packet. -/
def packetTraces (x : Id) (s : Server) (p : Packet) (t : Traces) : Traces :=
  let h := p.header
  match h.msg with
  | .subscribe => t.opened s h.id h.type
  | .define => t.opened s h.id typeForce
  | .write =>
    match openEvent s h.id h.type (h.type &&& typeVarMask) with
    | .ok (s', e) =>
      if h.type &&& typeVarMask ≠ (s'.events e).dataType then t.opened s h.id h.type
      else (t.opened s h.id h.type).store e h.dataSize.toNat (h.id == x)
    | .error _ => t
  | _ => t

/-- The traces of `x` after an act. What the server's application stores is no trace; that a definition of its
own with data overwrites some is not made use of. -/
def tracesAfter (x : Id) (s : Server) (t : Traces) : Act → Traces
  | .packet _ _ p => packetTraces x s p t
  | .datagram _ addr p =>
    match uclientOf s addr p.header with
    | some (s, _) => packetTraces x s p t
    | none => t
  | .serverWrite _ flags cid _ dataSize =>
    match openEvent s (idstr cid) flags 0 with
    | .ok (_, e) => (t.opened s (idstr cid) flags).store e (serverWriteSize flags dataSize).toNat false
    | .error _ => t
  | .serverDefine cid _ _ size =>
    if size.toNat > variableSizeMaximum then t else t.opened s (idstr cid) typeForce
  | .serverSubscribeEvent flags cid _ _ => t.opened s (idstr cid) flags
  | .accept _ | .close _ | .keep _ _ | .serverUndefine _ | .serverUnsubscribeEvent _ | .setSyncOffset _ => t

/-- A server and the traces of `x` in it. -/
def tracedAct (x : Id) (st : Server × Traces) (a : Act) : (Server × Traces) × List Out :=
  (((act st.1 a).1, tracesAfter x st.1 st.2 a), (act st.1 a).2)

/-! ## What is shown -/

/-- A SUBSCRIBE is answered by the event. -/
def resends (s : Server) (h : Header) (e : EventIx) : Bool :=
  subscribeAdmits h.type (s.events e).dataType && decide (h.updateCounter < (s.events e).updateCounter)

/-- How many bytes of slot `e` a packet makes the server send, other than those the packet stores. -/
def packetShows (s : Server) (p : Packet) (e : EventIx) : Nat :=
  let h := p.header
  match h.msg with
  | .read => if findEvent s h.id = some e then (s.events e).dataSize.toNat else 0
  | .subscribe => if findEvent s h.id = some e ∧ resends s h e = true then (s.events e).dataSize.toNat else 0
  | .eventList =>
    if (s.events e).live then min (s.events e).dataSize.toNat variableInfoSizeMaximum else 0
  | _ => 0

/-- The same for an act. -/
def shows (s : Server) : Act → EventIx → Nat
  | .packet _ _ p, e => packetShows s p e
  | .datagram _ addr p, e =>
    match uclientOf s addr p.header with
    | some (s, _) => packetShows s p e
    | none => 0
  | _, _ => 0

/-- Nothing that is shown is a trace. -/
def Clean (t : Traces) (s : Server) (a : Act) : Prop := ∀ e, ∀ j < shows s a e, t e j = false

instance (t : Traces) (s : Server) (a : Act) : Decidable (Clean t s a) :=
  inferInstanceAs (Decidable (∀ e, ∀ j < shows s a e, t e j = false))

/-! ## Servers that differ in traces -/

/-- The server with other data in its slots. -/
def Server.withData (s : Server) (d : EventIx → List UInt8) : Server :=
  { s with events := fun i => { s.events i with data := d i } }

/-- The data agree where there is no trace. -/
def Agree (t : Traces) (evs : EventIx → Event) (d : EventIx → List UInt8) : Prop :=
  ∀ i j, t i j = false → (evs i).data.getD j 0 = (d i).getD j 0

/-- `s'` is `s` up to traces. -/
def Twin (t : Traces) (s s' : Server) : Prop := ∃ d, s' = s.withData d ∧ Agree t s.events d

section Twin

variable {t : Traces} {s s' u u' : Server} {d : EventIx → List UInt8} {e : EventIx} {id : Id} {c : ClientIx}
  {flags dataType size : UInt32}

theorem Agree.read_eq {evs : EventIx → Event} (h : Agree t evs d) {n : Nat} (hn : ∀ j < n, t e j = false) :
    Lib.Bytes.read (evs e).data n = Lib.Bytes.read (d e) n := by
  rw [← slice_zero, ← slice_zero]
  refine slice_congr fun j hj => ?_
  rw [Nat.zero_add]
  exact h e j (hn j hj)

/-- A store that is the same on both sides, or one of the event. -/
theorem Agree.store {evs : EventIx → Event} (h : Agree t evs d) {ev : Event} {b b' : List UInt8} (own : Bool)
    (hev : ev.data = write (evs e).data 0 b) (hlen : b'.length = b.length) (hb : own = false → b = b') :
    Agree (t.store e b.length own) (Function.update evs e ev) (Function.update d e (write (d e) 0 b')) := by
  intro i j hij
  by_cases hi : i = e
  · subst hi
    rw [Function.update_self, Function.update_self, hev, getD_write, getD_write]
    simp only [Traces.store, true_and] at hij
    by_cases hj : j < b.length
    · rw [if_pos hj] at hij
      rw [if_pos (by omega), if_pos (by omega), hb hij]
    · rw [if_neg hj] at hij
      rw [if_neg (by omega), if_neg (by omega)]
      exact h i j hij
  · rw [Function.update_of_ne hi, Function.update_of_ne hi]
    simp only [Traces.store, hi, false_and, if_false] at hij
    exact h i j hij

/-- A store that leaves the data alone. -/
theorem Agree.keep {evs : EventIx → Event} (h : Agree t evs d) {ev : Event} (hev : ev.data = (evs e).data) :
    Agree t (Function.update evs e ev) d := by
  intro i j hij
  by_cases hi : i = e
  · subst hi
    rw [Function.update_self, hev]
    exact h i j hij
  · rw [Function.update_of_ne hi]
    exact h i j hij

@[simp] theorem withData_events (s : Server) (d : EventIx → List UInt8) (i : EventIx) :
    (s.withData d).events i = { s.events i with data := d i } := rfl

@[simp] theorem findEvent_withData (s : Server) (d : EventIx → List UInt8) (id : Id) :
    findEvent (s.withData d) id = findEvent s id := rfl

theorem setEvent_withData (s : Server) (d : EventIx → List UInt8) (e : EventIx) (ev : Event) (m : List UInt8) :
    (s.withData d).setEvent e { ev with data := m } = (s.setEvent e ev).withData (Function.update d e m) := by
  have hevents : ((s.withData d).setEvent e { ev with data := m }).events =
      ((s.setEvent e ev).withData (Function.update d e m)).events := by
    funext i
    by_cases hi : i = e
    · subst hi
      simp [Server.setEvent]
    · simp [Server.setEvent, hi]
  exact congrArg (fun evs => { s with events := evs }) hevents

/-- The same with the data left alone. -/
theorem setEvent_withData_keep (s : Server) (d : EventIx → List UInt8) (e : EventIx) (ev : Event) :
    (s.withData d).setEvent e { ev with data := d e } = (s.setEvent e ev).withData d := by
  rw [setEvent_withData, Function.update_eq_self]

theorem modifyClient_withData (s : Server) (d : EventIx → List UInt8) (c : ClientIx) (f : Client → Client) :
    (s.withData d).modifyClient c f = (s.modifyClient c f).withData d := rfl

theorem Twin.refl (t : Traces) (s : Server) : Twin t s s :=
  ⟨fun i => (s.events i).data, rfl, fun _ _ _ => rfl⟩

theorem Agree.mono {evs : EventIx → Event} {t' : Traces} (h : Agree t evs d) (ht : ∀ i j, t' i j = false → t i j = false) :
    Agree t' evs d := fun i j hij => h i j (ht i j hij)

/-! ### The operations on slots -/

/-- The data after a call that may have created its event in slot `e`. -/
def openedData (s : Server) (d : EventIx → List UInt8) (id : Id) (e : EventIx) : EventIx → List UInt8 :=
  if (findEvent s id).isSome then d else Function.update d e (write (d e) 0 [0])

theorem createEvent_withData (s : Server) (d : EventIx → List UInt8) (id : Id) :
    createEvent (s.withData d) id =
      (createEvent s id).map fun r => (r.1.withData (Function.update d r.2 (write (d r.2) 0 [0])), r.2) := by
  unfold createEvent
  simp only [withData_events]
  cases first fun e => (s.events e).id.i0 == freeMark with
  | none => rfl
  | some e =>
    have hset := setEvent_withData s d e (eventInit (s.events e) id) (write (d e) 0 [0])
    simp only [Option.map_some, Option.some.injEq, Prod.mk.injEq, and_true]
    exact congrArg (fun u => { u with eventCount := s.eventCount + 1 }) hset

theorem openEvent_withData (s : Server) (d : EventIx → List UInt8) (id : Id) (flags dataType : UInt32) :
    openEvent (s.withData d) id flags dataType =
      (openEvent s id flags dataType).map fun r => (r.1.withData (openedData s d id r.2), r.2) := by
  unfold openEvent
  simp only [findEvent_withData, createEvent_withData]
  cases hf : findEvent s id with
  | some e => simp [Except.map, openedData, hf]
  | none =>
    by_cases hflag : flags &&& typeForce = 0
    · simp only [if_pos hflag, Except.map]
    · simp only [if_neg hflag]
      cases hc : createEvent s id with
      | none => rfl
      | some r =>
        obtain ⟨s', e⟩ := r
        have hset := setEvent_withData_keep s' (Function.update d e (write (d e) 0 [0])) e
          { s'.events e with dataType := dataType }
        simp only [Option.map_some, Except.map, openedData, hf, Option.isSome_none, Bool.false_eq_true, if_false,
          Except.ok.injEq, Prod.mk.injEq, and_true]
        exact hset

/-- The slot does not depend on the type. -/
theorem openEvent_slot (ho : openEvent s id flags dataType = .ok (s', e)) :
    ∃ s'', openEvent s id flags 0 = .ok (s'', e) := by
  unfold openEvent at ho ⊢
  split at ho
  · cases ho
    exact ⟨_, rfl⟩
  · split at ho
    · cases ho
    · rename_i hflag
      rw [if_neg hflag]
      split at ho
      · cases ho
      · cases ho
        exact ⟨_, rfl⟩

/-- The store of `syncs_event_init`. -/
theorem write_zero_byte (s : Server) (id : Id) (e : EventIx) (dataType : UInt32) :
    Event.data { eventInit (s.events e) id with dataType := dataType } = write (s.events e).data 0 [0] := rfl

theorem Agree.opened (h : Agree t s.events d) (ho : openEvent s id flags dataType = .ok (s', e)) :
    Agree (t.opened s id flags) s'.events (openedData s d id e) := by
  obtain ⟨s'', hslot⟩ := openEvent_slot ho
  simp only [Traces.opened, hslot, openedData]
  rcases openEvent_ok ho with ⟨hf, rfl⟩ | ⟨hn, _, _, rfl⟩
  · simp only [hf, Option.isSome_some, if_true]
    exact h
  · simp only [hn, Option.isSome_none, Bool.false_eq_true, if_false]
    exact h.store false (write_zero_byte s id e _) rfl fun _ => rfl

theorem addClientToEvent_withData (s : Server) (d : EventIx → List UInt8) (c : ClientIx) (e : EventIx) :
    addClientToEvent (s.withData d) c e = ((addClientToEvent s c e).1, (addClientToEvent s c e).2.withData d) := by
  unfold addClientToEvent
  simp only [withData_events]
  split
  · rfl
  · split
    · rename_i i _
      have hset := setEvent_withData_keep s d e
        { s.events e with
          consumers := Function.update (s.events e).consumers i (some c)
          consumersCount := (s.events e).consumersCount + 1 }
      exact congrArg (fun u => ((0 : Int), u.modifyClient c fun cl => { cl with eventSubscribe := cl.eventSubscribe + 1 }))
        hset
    · rfl

theorem removeClientFromEvent_withData (s : Server) (d : EventIx → List UInt8) (c : ClientIx) (e : EventIx) :
    removeClientFromEvent (s.withData d) c e = (removeClientFromEvent s c e).withData d := by
  unfold removeClientFromEvent
  simp only [withData_events]
  split
  · rename_i i _
    have hset := setEvent_withData_keep s d e
      { s.events e with
        consumers := Function.update (s.events e).consumers i none
        consumersCount := (s.events e).consumersCount - 1 }
    exact congrArg (fun u => u.modifyClient c fun cl => { cl with eventSubscribe := cl.eventSubscribe - 1 }) hset
  · rfl

theorem removeLoop_withData (c : ClientIx) (es : List EventIx) (s : Server) (d : EventIx → List UInt8) :
    removeClientFromEventsLoop c es (s.withData d) = (removeClientFromEventsLoop c es s).withData d := by
  induction es generalizing s with
  | nil => rfl
  | cons e es ih =>
    unfold removeClientFromEventsLoop
    have hlive : ((s.withData d).events e).live = (s.events e).live := rfl
    rw [hlive]
    split
    · rw [removeClientFromEvent_withData, ih]
    · exact ih s

theorem closeClientSocket_withData (s : Server) (d : EventIx → List UInt8) (c : ClientIx) :
    closeClientSocket (s.withData d) c = (closeClientSocket s c).withData d := by
  unfold closeClientSocket removeClientFromEvents
  rw [removeLoop_withData]
  generalize removeClientFromEventsLoop c (List.finRange eventMaximum) s = u
  rfl

theorem freeEvent_withData (s : Server) (d : EventIx → List UInt8) (id : Id) :
    freeEvent (s.withData d) id = (freeEvent s id).withData d := by
  unfold freeEvent
  simp only [findEvent_withData]
  split
  · rename_i e _
    have hset := setEvent_withData_keep s d e { s.events e with id := (s.events e).id.free }
    exact congrArg (fun u => { u with eventCount := s.eventCount - 1 }) hset
  · rfl

/-! ### Sending -/

/-- Neither the counters nor the recipients of an event depend on its data. -/
theorem sendEventLoop_withData (env : Env) (ev : Event) (m : List UInt8) (flags : UInt32) (p p' : Packet)
    (is : List (Fin clientMaximum)) (s : Server) (d : EventIx → List UInt8) :
    (sendEventLoop env { ev with data := m } flags p' is (s.withData d)).1 =
        (sendEventLoop env ev flags p is s).1.withData d ∧
      (p' = p → (sendEventLoop env { ev with data := m } flags p' is (s.withData d)).2 =
        (sendEventLoop env ev flags p is s).2) := by
  induction is generalizing s with
  | nil => exact ⟨rfl, fun _ => rfl⟩
  | cons i is ih =>
    have hsends : ∀ c, sendsTo { ev with data := m } flags c = sendsTo ev flags c := fun _ => rfl
    unfold sendEventLoop
    simp only [hsends]
    cases ev.consumers i with
    | none => exact ih s
    | some c =>
      simp only
      split
      · have hsend : ∀ u : Server, clientSend env (u.withData d) c = clientSend env u c := fun _ => rfl
        simp only [modifyClient_withData, hsend]
        split
        · refine ⟨(ih _).1, fun hp => ?_⟩
          rw [(ih _).2 hp, hp]
        · refine ⟨(ih _).1, fun hp => ?_⟩
          rw [(ih _).2 hp, hp]
      · exact ih s

theorem sendEvent_withData_server (env : Env) (s : Server) (d : EventIx → List UInt8) (e : EventIx) (flags : UInt32) :
    (sendEvent env (s.withData d) e flags).1 = (sendEvent env s e flags).1.withData d :=
  (sendEventLoop_withData env (s.events e) (d e) flags _ _ _ s d).1

theorem eventPacket_withData (env : Env) (s : Server) (d : EventIx → List UInt8) (e : EventIx) (flags : UInt32)
    (hread : Lib.Bytes.read (d e) (s.events e).dataSize.toNat =
      Lib.Bytes.read (s.events e).data (s.events e).dataSize.toNat) :
    eventPacket env (s.withData d) ((s.withData d).events e) flags = eventPacket env s (s.events e) flags := by
  simp only [eventPacket, withData_events, hread]
  rfl

theorem sendEvent_withData_out (env : Env) (s : Server) (d : EventIx → List UInt8) (e : EventIx) (flags : UInt32)
    (hread : Lib.Bytes.read (d e) (s.events e).dataSize.toNat =
      Lib.Bytes.read (s.events e).data (s.events e).dataSize.toNat) :
    (sendEvent env (s.withData d) e flags).2 = (sendEvent env s e flags).2 :=
  (sendEventLoop_withData env (s.events e) (d e) flags _ _ _ s d).2 (eventPacket_withData env s d e flags hread)

/-! ### Lists -/

section Lists

variable {n : Nat} {k : ListKind n}

/-- The loop of a list counts the same slots. -/
theorem foldl_listStep_withData_server (hocc : ∀ s i, k.occupied (s.withData d) i = k.occupied s i)
    (is : List (Fin n)) (st st' : ListState) (hserver : st'.server = st.server.withData d)
    (hcount : st'.count = st.count) :
    (is.foldl (listStep k c) st').server = (is.foldl (listStep k c) st).server.withData d ∧
      (is.foldl (listStep k c) st').count = (is.foldl (listStep k c) st).count := by
  induction is generalizing st st' with
  | nil => exact ⟨hserver, hcount⟩
  | cons i is ih =>
    refine ih _ _ ?_ ?_
    · unfold listStep
      rw [hserver, hcount, hocc]
      split
      · simp only
        split <;> rfl
      · exact hserver
    · unfold listStep
      rw [hserver, hcount, hocc]
      split
      · simp only
        split <;> rfl
      · exact hcount

theorem sendList_withData_server (env : Env) (hocc : ∀ s i, k.occupied (s.withData d) i = k.occupied s i) (s : Server)
    (q : UInt8) : (sendList env k (s.withData d) c q).1 = (sendList env k s c q).1.withData d := by
  have hend := (foldl_listStep_withData_server (c := c) hocc (List.finRange n) ⟨s, listPacket env k s q, 0, []⟩
    ⟨s.withData d, listPacket env k (s.withData d) q, 0, []⟩ rfl rfl).1
  simp only [sendList, sendCounted, hend]
  rfl

/-- A list is the same when its entries are. -/
theorem foldl_listStep_withData (hocc : ∀ s i, k.occupied (s.withData d) i = k.occupied s i)
    (hfill : ∀ u, u.events = s.events → ∀ i, k.occupied u i = true →
      ∀ buf off, k.fill (u.withData d) i buf off = k.fill u i buf off)
    (is : List (Fin n)) (st : ListState) (hst : st.server.events = s.events) :
    is.foldl (listStep k c) { st with server := st.server.withData d } =
      { is.foldl (listStep k c) st with server := (is.foldl (listStep k c) st).server.withData d } := by
  induction is generalizing st with
  | nil => rfl
  | cons i is ih =>
    have hstep : listStep k c { st with server := st.server.withData d } i =
        { listStep k c st i with server := (listStep k c st i).server.withData d } := by
      unfold listStep
      simp only [hocc]
      by_cases ho : k.occupied st.server i = true
      · simp only [if_pos ho, hfill st.server hst i ho]
        split <;> rfl
      · simp only [if_neg ho]
    rw [List.foldl_cons, List.foldl_cons, hstep]
    refine ih _ ?_
    rw [← hst]
    exact (listStep_quiet k c st i).events

theorem sendList_withData (env : Env) (hocc : ∀ s i, k.occupied (s.withData d) i = k.occupied s i)
    (htotal : k.total (s.withData d) = k.total s)
    (hfill : ∀ u, u.events = s.events → ∀ i, k.occupied u i = true →
      ∀ buf off, k.fill (u.withData d) i buf off = k.fill u i buf off) (q : UInt8) :
    (sendList env k (s.withData d) c q).2 = (sendList env k s c q).2 := by
  have hpacket : listPacket env k (s.withData d) q = listPacket env k s q := by
    simp only [listPacket, htotal]
  have hend := foldl_listStep_withData (c := c) hocc hfill (List.finRange n) ⟨s, listPacket env k s q, 0, []⟩ rfl
  simp only [sendList, hpacket, hend]
  rfl

end Lists

/-! ### Calls -/

variable {env : Env} {updateCounter : UInt64} {b b' : List UInt8}

theorem opened_error {r : Int} (ho : openEvent s id flags dataType = .error r) : t.opened s id flags = t := by
  have h0 : ∃ r', openEvent s id flags 0 = .error r' := by
    unfold openEvent at ho ⊢
    split at ho
    · cases ho
    · split at ho
      · rename_i hflag
        exact ⟨_, if_pos hflag⟩
      · rename_i hflag
        rw [if_neg hflag]
        split at ho
        · exact ⟨_, rfl⟩
        · cases ho
  obtain ⟨r', h0⟩ := h0
  simp only [Traces.opened, h0]

theorem clientSubscribe_twin (h : Agree t s.events d) (env : Env) (c : ClientIx) (id : Id) (flags : UInt32)
    (updateCounter : UInt64) :
    ∃ d', (clientSubscribe env (s.withData d) c id flags updateCounter).server =
        (clientSubscribe env s c id flags updateCounter).server.withData d' ∧
      Agree (t.opened s id flags) (clientSubscribe env s c id flags updateCounter).server.events d' := by
  unfold clientSubscribe
  rw [openEvent_withData]
  cases ho : openEvent s id flags (flags &&& typeVarMask) with
  | error r =>
    rw [opened_error ho]
    exact ⟨d, rfl, h⟩
  | ok r =>
    obtain ⟨s', e⟩ := r
    have hopened := h.opened ho
    have hadded : Agree (t.opened s id flags) (addClientToEvent s' c e).2.events (openedData s d id e) := by
      obtain ⟨cs, n, hsame⟩ := addConsumer_same (s'.events e) c
      rw [addClientToEvent_events]
      exact hopened.keep (by rw [hsame])
    refine ⟨openedData s d id e, ?_⟩
    simp only [Except.map, addClientToEvent_withData, withData_events]
    split
    · split
      · exact ⟨rfl, hadded⟩
      · exact ⟨rfl, hadded⟩
    · exact ⟨rfl, hopened⟩

theorem clientSubscribe_withData_out
    (hread : ∀ e, findEvent s id = some e → subscribeAdmits flags (s.events e).dataType = true →
      updateCounter < (s.events e).updateCounter → Lib.Bytes.read (d e) (s.events e).dataSize.toNat =
        Lib.Bytes.read (s.events e).data (s.events e).dataSize.toNat) :
    (clientSubscribe env (s.withData d) c id flags updateCounter).out =
      (clientSubscribe env s c id flags updateCounter).out := by
  unfold clientSubscribe
  rw [openEvent_withData]
  cases ho : openEvent s id flags (flags &&& typeVarMask) with
  | error r => rfl
  | ok r =>
    obtain ⟨s', e⟩ := r
    obtain ⟨cs, n, hsame⟩ := addConsumer_same (s'.events e) c
    have hev : (addClientToEvent s' c e).2.events e = { s'.events e with consumers := cs, consumersCount := n } := by
      rw [addClientToEvent_events, Function.update_self, hsame]
    simp only [Except.map, addClientToEvent_withData, withData_events, hev]
    split
    · rename_i hadmits
      split
      · rename_i hless
        rcases openEvent_ok ho with ⟨hf, rfl⟩ | ⟨hn, _, _, rfl⟩
        · have hdata := hread e hf hadmits hless
          simp only [resendEvent, sendCounted, withData_events, hev, openedData, hf, Option.isSome_some, if_true,
            resendPacket, hdata]
        · -- a new event has counter 0 and is not sent again
          simp [createdServer, eventInit] at hless
      · rfl
    · rfl

theorem addEvent_store_twin (h : Agree t s.events d) (mem : Option (List UInt8)) :
    ∃ d', (s.withData d).setEvent e (addEventStore ((s.withData d).events e) flags mem size) =
        (s.setEvent e (addEventStore (s.events e) flags mem size)).withData d' ∧
      Agree t (s.setEvent e (addEventStore (s.events e) flags mem size)).events d' := by
  refine ⟨Function.update d e (addEventStore { s.events e with data := d e } flags mem size).data, ?_, ?_⟩
  · exact setEvent_withData s d e (addEventStore (s.events e) flags mem size) _
  · cases mem with
    | none =>
      have hkeep : Function.update d e (addEventStore { s.events e with data := d e } flags none size).data = d :=
        Function.update_eq_self e d
      rw [hkeep]
      exact h.keep rfl
    | some m =>
      have hdata : (addEventStore (s.events e) flags (some m) size).data = write (s.events e).data 0
          (Lib.Bytes.read m (addEventStore (s.events e) flags (some m) size).dataSize.toNat) := rfl
      have hstore := h.store false hdata rfl fun _ => rfl
      refine hstore.mono fun i j hij => ?_
      simp only [Traces.store, hij, ite_self]

theorem addEvent_twin (h : Agree t s.events d) (id : Id) (flags : UInt32) (mem : Option (List UInt8)) (size : UInt32) :
    ∃ d', (addEvent (s.withData d) id flags mem size).server = (addEvent s id flags mem size).server.withData d' ∧
      Agree (t.opened s id typeForce) (addEvent s id flags mem size).server.events d' := by
  unfold addEvent
  simp only [findEvent_withData, createEvent_withData]
  cases hf : findEvent s id with
  | some e =>
    have hopened : t.opened s id typeForce = t := by simp [Traces.opened, openEvent, hf]
    rw [hopened]
    simp only
    split
    · exact ⟨d, rfl, h⟩
    · exact addEvent_store_twin h mem
  | none =>
    cases hc : createEvent s id with
    | none =>
      have hopened : t.opened s id typeForce = t := by simp [Traces.opened, openEvent, hf, hc, typeForce]
      rw [hopened]
      exact ⟨d, rfl, h⟩
    | some r =>
      obtain ⟨s', e⟩ := r
      have hopened : t.opened s id typeForce = t.store e 1 false := by
        simp [Traces.opened, openEvent, hf, hc, typeForce]
      have hagree : Agree (t.store e 1 false) s'.events (Function.update d e (write (d e) 0 [0])) := by
        rw [(createEvent_some hc).2]
        exact h.store false (write_zero_byte s id e _) rfl fun _ => rfl
      rw [hopened]
      exact addEvent_store_twin hagree mem

/-- The server between the store of a write and its send, with other data. -/
theorem writtenServer_withData (s : Server) (d : EventIx → List UInt8) (c : ClientIx) (e : EventIx) (b b' : List UInt8)
    (size : UInt32) :
    writtenServer (s.withData d) c e b' size =
      (writtenServer s c e b size).withData (Function.update d e (write (d e) 0 (Lib.Bytes.read b' size.toNat))) := by
  have hset := setEvent_withData s d e (writeStore s c (s.events e) b size)
    (write (d e) 0 (Lib.Bytes.read b' size.toNat))
  exact congrArg (fun u => { u.modifyClient c fun cl => { cl with eventWrite := cl.eventWrite + 1 } with
    updateCounter := s.updateCounter + 1 }) hset

/-- `syncs_client_write` on an event of another type. -/
theorem clientWriteEvent_mismatch (ht : flags &&& typeVarMask ≠ (s.events e).dataType) :
    clientWriteEvent env s c e id flags b size = ⟨s, [], -3⟩ := if_pos ht

theorem clientWriteEvent_match (ht : flags &&& typeVarMask = (s.events e).dataType) :
    clientWriteEvent env s c e id flags b size =
      ⟨(sendEvent env (writtenServer s c e b size) e (flags &&& (typeVarMask ||| typeSync ||| typeEcho))).1,
        callLocal (writeStore s c (s.events e) b size) id ++
          (sendEvent env (writtenServer s c e b size) e (flags &&& (typeVarMask ||| typeSync ||| typeEcho))).2, 0⟩ :=
  if_neg (not_not.mpr ht)

/-- WRITE, with its own payload on either side or with one payload. -/
theorem clientWrite_twin (x : Id) (h : Agree t s.events d) (env : Env) (c : ClientIx) (id : Id) (flags size : UInt32)
    (hb : id ≠ x → b = b') :
    ∃ d', (clientWrite env (s.withData d) c id flags b' size).server =
        (clientWrite env s c id flags b size).server.withData d' ∧
      Agree (match openEvent s id flags (flags &&& typeVarMask) with
        | .ok (s', e) =>
          if flags &&& typeVarMask ≠ (s'.events e).dataType then t.opened s id flags
          else (t.opened s id flags).store e size.toNat (id == x)
        | .error _ => t) (clientWrite env s c id flags b size).server.events d' := by
  unfold clientWrite
  rw [openEvent_withData]
  cases ho : openEvent s id flags (flags &&& typeVarMask) with
  | error r => exact ⟨d, rfl, h⟩
  | ok r =>
    obtain ⟨s', e⟩ := r
    have hopened := h.opened ho
    simp only [Except.map]
    by_cases ht : flags &&& typeVarMask = (s'.events e).dataType
    · have ht' : flags &&& typeVarMask = ((s'.withData (openedData s d id e)).events e).dataType := ht
      have hwritten := writtenServer_withData s' (openedData s d id e) c e b b' size
      have hown : (id == x) = false → Lib.Bytes.read b size.toNat = Lib.Bytes.read b' size.toNat := by
        intro hne
        rw [hb (by simpa using hne)]
      have hdata : (writeStore s' c (s'.events e) b size).data =
          write (s'.events e).data 0 (Lib.Bytes.read b size.toNat) := rfl
      have hlen : (Lib.Bytes.read b' size.toNat).length = (Lib.Bytes.read b size.toNat).length := by
        rw [length_read, length_read]
      have hstore := hopened.store (id == x) hdata hlen hown
      rw [length_read] at hstore
      rw [clientWriteEvent_match ht, clientWriteEvent_match ht', if_neg (not_not.mpr ht)]
      simp only [hwritten, sendEvent_withData_server]
      refine ⟨_, rfl, ?_⟩
      rw [(sendEvent_quiet env _ e _).events]
      exact hstore
    · have ht' : flags &&& typeVarMask ≠ ((s'.withData (openedData s d id e)).events e).dataType := ht
      rw [clientWriteEvent_mismatch ht, clientWriteEvent_mismatch ht', if_pos ht]
      exact ⟨_, rfl, hopened⟩

theorem clientWrite_withData_out :
    (clientWrite env (s.withData d) c id flags b size).out = (clientWrite env s c id flags b size).out := by
  unfold clientWrite
  rw [openEvent_withData]
  cases ho : openEvent s id flags (flags &&& typeVarMask) with
  | error r => rfl
  | ok r =>
    obtain ⟨s', e⟩ := r
    simp only [Except.map]
    by_cases ht : flags &&& typeVarMask = (s'.events e).dataType
    · have ht' : flags &&& typeVarMask = ((s'.withData (openedData s d id e)).events e).dataType := ht
      have hwritten := writtenServer_withData s' (openedData s d id e) c e b b size
      have hcall : callLocal (writeStore (s'.withData (openedData s d id e)) c
          ((s'.withData (openedData s d id e)).events e) b size) id =
          callLocal (writeStore s' c (s'.events e) b size) id := by
        simp only [callLocal, writeStore, read_write_read]
        rfl
      rw [clientWriteEvent_match ht, clientWriteEvent_match ht']
      simp only [hcall, hwritten]
      congr 1
      refine sendEvent_withData_out env _ _ e _ ?_
      simp only [writtenServer, Server.modifyClient_events, Server.setEvent_same, writeStore, Function.update_self]
      rw [read_write_read, read_write_read]
    · have ht' : flags &&& typeVarMask ≠ ((s'.withData (openedData s d id e)).events e).dataType := ht
      rw [clientWriteEvent_mismatch ht, clientWriteEvent_mismatch ht']

theorem clientUnsubscribe_twin (h : Agree t s.events d) (c : ClientIx) (id : Id) :
    clientUnsubscribe (s.withData d) c id = (clientUnsubscribe s c id).withData d ∧
      Agree t (clientUnsubscribe s c id).events d := by
  unfold clientUnsubscribe
  simp only [findEvent_withData, removeClientFromEvent_withData]
  split
  · rename_i e _
    obtain ⟨cs, n, hsame⟩ := dropConsumer_same (s.events e) c
    rw [removeClientFromEvent_events]
    exact ⟨rfl, h.keep (by rw [hsame])⟩
  · exact ⟨rfl, h⟩

theorem Agree.freeEvent (h : Agree t s.events d) : Agree t (freeEvent s id).events d := by
  unfold SyncScribe.freeEvent
  split
  · exact h.keep rfl
  · exact h

theorem Agree.closeClientSocket (h : Agree t s.events d) : Agree t (closeClientSocket s c).events d := by
  rw [closeClientSocket_events]
  intro i j hij
  obtain ⟨cs, n, hsame⟩ := closed_same c (s.events i)
  simp only [hsame]
  exact h i j hij

theorem clientIdentify_twin (h : Agree t s.events d) (env : Env) (c : ClientIx) (hd : Header) :
    (clientIdentify env (s.withData d) c hd).1 = (clientIdentify env s c hd).1.withData d ∧
      Agree t (clientIdentify env s c hd).1.events d := by
  unfold clientIdentify
  simp only [Server.modifyClient_events]
  split
  · have hsent : (sendServerStatus env (s.withData d) c errorNotsupport).1 =
        (sendServerStatus env s c errorNotsupport).1.withData d := rfl
    have hagree : Agree t (sendServerStatus env s c errorNotsupport).1.events d := h
    rw [hsent, closeClientSocket_withData, modifyClient_withData]
    exact ⟨rfl, hagree.closeClientSocket⟩
  · exact ⟨rfl, h⟩

theorem addChannel_withData (s : Server) (d : EventIx → List UInt8) (c : ClientIx) (id : Id) (b : List UInt8) :
    (addChannel (s.withData d) c id b).server = (addChannel s c id b).server.withData d := by
  have hfind : findChannel (s.withData d) id = findChannel s id := rfl
  unfold addChannel createChannel
  simp only [hfind]
  cases findChannel s id with
  | some k => rfl
  | none =>
    have hfree : (first fun k => ((s.withData d).channels k).id.i0 == freeMark) =
        first fun k => (s.channels k).id.i0 == freeMark := rfl
    simp only [hfree]
    cases first fun k => (s.channels k).id.i0 == freeMark with
    | some k => rfl
    | none => rfl

theorem clientChannel_twin (h : Agree t s.events d) (env : Env) (c : ClientIx) (p : Packet) :
    (clientChannel env (s.withData d) c p).server = (clientChannel env s c p).server.withData d ∧
      Agree t (clientChannel env s c p).server.events d := by
  constructor
  · rw [clientChannel_server, clientChannel_server]
    split
    · exact addChannel_withData s d c p.header.id p.buffer
    · rfl
  · rw [(clientChannel_rest p).1]
    exact h

/-- The three lists look at occupied slots, not at their data. -/
theorem sendList_twin {n : Nat} (k : ListKind n) (hocc : ∀ s i, k.occupied (s.withData d) i = k.occupied s i)
    (h : Agree t s.events d) (env : Env) (c : ClientIx) (q : UInt8) :
    (sendList env k (s.withData d) c q).1 = (sendList env k s c q).1.withData d ∧
      Agree t (sendList env k s c q).1.events d := by
  refine ⟨sendList_withData_server env hocc s q, ?_⟩
  rw [(sendList_quiet env k s c q).events]
  exact h

/-- **A packet keeps servers twins**, also when it is a WRITE of `x` with two payloads. -/
theorem clientProcessPacket_twin (x : Id) (h : Agree t s.events d) (env : Env) (c : ClientIx) (hd : Header)
    (hb : ¬ (hd.msg = .write ∧ hd.id = x) → b = b') :
    ∃ d', (clientProcessPacket env (s.withData d) c ⟨hd, b'⟩).server =
        (clientProcessPacket env s c ⟨hd, b⟩).server.withData d' ∧
      Agree (packetTraces x s ⟨hd, b⟩ t) (clientProcessPacket env s c ⟨hd, b⟩).server.events d' := by
  have hreceived : ∀ u u' : Server, ∀ d', u' = u.withData d' →
      (u'.modifyClient c fun cl => { cl with rxEventCount := cl.rxEventCount + 1 }) =
        (u.modifyClient c fun cl => { cl with rxEventCount := cl.rxEventCount + 1 }).withData d' := by
    rintro u u' d' rfl
    exact modifyClient_withData u d' c _
  cases hm : hd.msg
  all_goals simp only [clientProcessPacket, clientDispatch, hm, packetTraces, Server.modifyClient_events]
  case subscribe =>
    obtain ⟨d', hs, ha⟩ := clientSubscribe_twin h env c hd.id hd.type hd.updateCounter
    exact ⟨d', hreceived _ _ d' hs, ha⟩
  case unsubscribe =>
    obtain ⟨hs, ha⟩ := clientUnsubscribe_twin h c hd.id
    exact ⟨d, hreceived _ _ d hs, ha⟩
  case define =>
    obtain ⟨d', hs, ha⟩ := addEvent_twin h hd.id hd.type none hd.dataSize.toUInt32
    exact ⟨d', hreceived _ _ d' hs, ha⟩
  case undefine => exact ⟨d, hreceived _ _ d (freeEvent_withData s d hd.id), h.freeEvent⟩
  case write =>
    obtain ⟨d', hs, ha⟩ := clientWrite_twin x h env c hd.id hd.type hd.dataSize.toUInt32
      fun hne => hb fun hw => hne hw.2
    rw [UInt16.toNat_toUInt32] at ha
    exact ⟨d', hreceived _ _ d' hs, ha⟩
  case read => exact ⟨d, rfl, h⟩
  case clientList =>
    obtain ⟨hs, ha⟩ := sendList_twin clientKind (fun _ _ => rfl) h env c (hd.id.c 0)
    exact ⟨d, hreceived _ _ d hs, ha⟩
  case eventList =>
    obtain ⟨hs, ha⟩ := sendList_twin eventKind (fun _ _ => rfl) h env c (hd.id.c 0)
    exact ⟨d, hreceived _ _ d hs, ha⟩
  case channelList =>
    obtain ⟨hs, ha⟩ := sendList_twin channelKind (fun _ _ => rfl) h env c (hd.id.c 0)
    exact ⟨d, hreceived _ _ d hs, ha⟩
  case clientId =>
    obtain ⟨hs, ha⟩ := clientIdentify_twin h env c hd
    exact ⟨d, hreceived _ _ d hs, ha⟩
  case channel =>
    obtain rfl := hb (fun hw => by rw [hm] at hw; cases hw.1)
    obtain ⟨hs, ha⟩ := clientChannel_twin h env c ⟨hd, b⟩
    exact ⟨d, hreceived _ _ d hs, ha⟩
  all_goals exact ⟨d, rfl, h⟩

theorem readPacket_withData
    (hread : ∀ e, findEvent s id = some e → Lib.Bytes.read (d e) (s.events e).dataSize.toNat =
      Lib.Bytes.read (s.events e).data (s.events e).dataSize.toNat) :
    readPacket env (s.withData d) id = readPacket env s id := by
  simp only [readPacket, findEvent_withData]
  cases hf : findEvent s id with
  | none => rfl
  | some e => simp only [withData_events, hread e hf]

theorem fillEventInfo_data (ev : Event) (m buf : List UInt8) (off : Nat)
    (hread : Lib.Bytes.read m (min ev.dataSize.toNat variableInfoSizeMaximum) =
      Lib.Bytes.read ev.data (min ev.dataSize.toNat variableInfoSizeMaximum)) :
    fillEventInfo { ev with data := m } buf off = fillEventInfo ev buf off := by
  simp only [fillEventInfo, hread]

theorem clientChannel_withData_out (p : Packet) :
    (clientChannel env (s.withData d) c p).out = (clientChannel env s c p).out := by
  unfold clientChannel
  split
  · exact addChannel_out.trans addChannel_out.symm
  · split
    · have hfind : findChannel (s.withData d) p.header.id = findChannel s p.header.id := rfl
      unfold clientChannelRequest
      simp only [hfind]
      cases findChannel s p.header.id with
      | none => rfl
      | some k => rfl
    · rfl

/-- **A packet that shows no trace** makes both servers send the same. -/
theorem clientProcessPacket_withData_out (h : Agree t s.events d) (p : Packet)
    (hclean : ∀ e, ∀ j < packetShows s p e, t e j = false) :
    (clientProcessPacket env (s.withData d) c p).out = (clientProcessPacket env s c p).out := by
  have hsame : ∀ {n : Nat} {e : EventIx}, n ≤ packetShows s p e →
      Lib.Bytes.read (d e) n = Lib.Bytes.read (s.events e).data n := by
    intro n e hn
    exact (h.read_eq fun j hj => hclean e j (by omega)).symm
  cases hm : p.header.msg
  all_goals simp only [packetShows, hm] at hsame
  all_goals simp only [clientProcessPacket, clientDispatch, hm]
  case subscribe =>
    refine clientSubscribe_withData_out fun e hf hadmits hless => hsame ?_
    rw [if_pos ⟨hf, by simp [resends, hadmits, hless]⟩]
  case write => exact clientWrite_withData_out
  case read =>
    simp only [clientRead, sendCounted]
    rw [readPacket_withData fun e hf => hsame (by rw [if_pos hf])]
  case clientList =>
    exact sendList_withData env (k := clientKind) (fun _ _ => rfl) rfl (fun _ _ _ _ _ _ => rfl) _
  case eventList =>
    refine sendList_withData env (k := eventKind) (fun _ _ => rfl) rfl ?_ _
    intro u hu i ho buf off
    refine fillEventInfo_data _ _ buf off ?_
    rw [hu]
    have hlive : (s.events i).live = true := by
      rw [← hu]
      exact ho
    exact hsame (by rw [if_pos hlive])
  case channelList =>
    exact sendList_withData env (k := channelKind) (fun _ _ => rfl) rfl (fun _ _ _ _ _ _ => rfl) _
  case clientId =>
    simp only [clientIdentify]
    split <;> rfl
  case channel => exact clientChannel_withData_out p

/-! ### Acts -/

theorem uclientOf_withData (s : Server) (d : EventIx → List UInt8) (addr : SockAddr) (h : Header) :
    uclientOf (s.withData d) addr h = (uclientOf s addr h).map fun r => (r.1.withData d, r.2) := by
  have haddr : findUclientAddr (s.withData d) addr = findUclientAddr s addr := rfl
  have hid : findUclientId (s.withData d) h.id = findUclientId s h.id := rfl
  have hfree : getFreeClient (s.withData d) = getFreeClient s := rfl
  unfold uclientOf addUclient
  simp only [haddr, hid, hfree]
  cases findUclientAddr s addr with
  | some c => rfl
  | none =>
    simp only
    split
    · cases findUclientId s h.id with
      | some c => rfl
      | none =>
        cases getFreeClient s with
        | none => rfl
        | some c => rfl
    · rfl

theorem serverWrite_twin (h : Agree t s.events d) (env : Env) (flags : UInt32) (cid b : List UInt8) (size : UInt32) :
    ∃ d', (serverWrite env (s.withData d) flags cid b size).server =
        (serverWrite env s flags cid b size).server.withData d' ∧
      Agree (match openEvent s (idstr cid) flags 0 with
        | .ok (_, e) => (t.opened s (idstr cid) flags).store e (serverWriteSize flags size).toNat false
        | .error _ => t) (serverWrite env s flags cid b size).server.events d' := by
  unfold serverWrite
  rw [openEvent_withData]
  cases ho : openEvent s (idstr cid) flags 0 with
  | error r => exact ⟨d, rfl, h⟩
  | ok r =>
    obtain ⟨s', e⟩ := r
    have hset := setEvent_withData s' (openedData s d (idstr cid) e) e
      (serverWriteStore (s'.events e) b (serverWriteSize flags size))
      (write (openedData s d (idstr cid) e e) 0 (Lib.Bytes.read b (serverWriteSize flags size).toNat))
    have hdata : (serverWriteStore (s'.events e) b (serverWriteSize flags size)).data =
        write (s'.events e).data 0 (Lib.Bytes.read b (serverWriteSize flags size).toNat) := rfl
    have hstore := (h.opened ho).store false hdata rfl fun _ => rfl
    rw [length_read] at hstore
    simp only [Except.map]
    refine ⟨_, (congrArg (fun u => (sendEvent env u e flags).1) hset).trans (sendEvent_withData_server env _ _ e _), ?_⟩
    rw [(sendEvent_quiet env _ e _).events]
    exact hstore

theorem serverWrite_withData_out (cid : List UInt8) :
    (serverWrite env (s.withData d) flags cid b size).out = (serverWrite env s flags cid b size).out := by
  unfold serverWrite
  rw [openEvent_withData]
  cases ho : openEvent s (idstr cid) flags 0 with
  | error r => rfl
  | ok r =>
    obtain ⟨s', e⟩ := r
    have hset := setEvent_withData s' (openedData s d (idstr cid) e) e
      (serverWriteStore (s'.events e) b (serverWriteSize flags size))
      (write (openedData s d (idstr cid) e e) 0 (Lib.Bytes.read b (serverWriteSize flags size).toNat))
    simp only [Except.map]
    refine (congrArg (fun u => (sendEvent env u e flags).2) hset).trans (sendEvent_withData_out env _ _ e _ ?_)
    simp only [Server.setEvent_same, serverWriteStore, Function.update_self]
    rw [read_write_read, read_write_read]

theorem serverSubscribeEvent_twin (h : Agree t s.events d) (flags : UInt32) (cid : List UInt8) (cb : Option Nat) (args : Nat) :
    ∃ d', (serverSubscribeEvent (s.withData d) flags cid cb args).server =
        (serverSubscribeEvent s flags cid cb args).server.withData d' ∧
      Agree (t.opened s (idstr cid) flags) (serverSubscribeEvent s flags cid cb args).server.events d' := by
  unfold serverSubscribeEvent
  rw [openEvent_withData]
  cases ho : openEvent s (idstr cid) flags 0 with
  | error r =>
    rw [opened_error ho]
    exact ⟨d, rfl, h⟩
  | ok r =>
    obtain ⟨s', e⟩ := r
    have hset := setEvent_withData_keep s' (openedData s d (idstr cid) e) e { s'.events e with args := args, cb := cb }
    exact ⟨_, hset, (h.opened ho).keep rfl⟩

theorem serverUnsubscribeEvent_twin (h : Agree t s.events d) (cid : List UInt8) :
    serverUnsubscribeEvent (s.withData d) cid = (serverUnsubscribeEvent s cid).withData d ∧
      Agree t (serverUnsubscribeEvent s cid).events d := by
  unfold serverUnsubscribeEvent
  simp only [findEvent_withData]
  split
  · rename_i e _
    exact ⟨setEvent_withData_keep s d e { s.events e with cb := none, args := 0 }, h.keep rfl⟩
  · exact ⟨rfl, h⟩

theorem addClient_withData (s : Server) (d : EventIx → List UInt8) (accepted : Option (Nat × SockAddr)) :
    addClient (s.withData d) accepted = (addClient s accepted).withData d := by
  have hfree : getFreeClient (s.withData d) = getFreeClient s := rfl
  unfold addClient
  simp only [hfree]
  cases getFreeClient s with
  | none => rfl
  | some c =>
    cases accepted with
    | none => rfl
    | some a => rfl

end Twin

/-! ## Runs -/

/-- The same act, or a WRITE of `x` with another payload. -/
inductive SameButPayload (x : Id) : Act → Act → Prop
  | same (a : Act) : SameButPayload x a a
  | packet (env : Env) (c : ClientIx) (h : Header) (b b' : List UInt8) (hw : h.msg = .write) (hx : h.id = x) :
      SameButPayload x (.packet env c ⟨h, b⟩) (.packet env c ⟨h, b'⟩)
  | datagram (env : Env) (addr : SockAddr) (h : Header) (b b' : List UInt8) (hw : h.msg = .write) (hx : h.id = x) :
      SameButPayload x (.datagram env addr ⟨h, b⟩) (.datagram env addr ⟨h, b'⟩)

section Runs

variable {x : Id} {t : Traces} {s s' : Server}

theorem uclientProcessPacket_twin {d : EventIx → List UInt8} (h : Agree t s.events d) (env : Env) (addr : SockAddr)
    (hd : Header) {b b' : List UInt8} (hb : ¬ (hd.msg = .write ∧ hd.id = x) → b = b') :
    Twin (tracesAfter x s t (.datagram env addr ⟨hd, b⟩)) (uclientProcessPacket env s addr ⟨hd, b⟩).server
      (uclientProcessPacket env (s.withData d) addr ⟨hd, b'⟩).server := by
  simp only [uclientProcessPacket, tracesAfter, uclientOf_withData]
  cases hu : uclientOf s addr hd with
  | none =>
    simp only [Option.map_none]
    split <;> exact ⟨d, rfl, h⟩
  | some r =>
    obtain ⟨u, c⟩ := r
    have hevents : Agree t u.events d := by rwa [(uclientOf_rest hu).1]
    obtain ⟨d', hs, ha⟩ := clientProcessPacket_twin x hevents env c hd hb
    exact ⟨d', hs, ha⟩

/-- **One act** keeps servers twins. -/
theorem act_twin (h : Twin t s s') {a a' : Act} (hsame : SameButPayload x a a') :
    Twin (tracesAfter x s t a) (act s a).1 (act s' a').1 := by
  obtain ⟨d, rfl, h⟩ := h
  cases hsame with
  | packet env c hd b b' hw hx =>
    obtain ⟨d', hs, ha⟩ := @clientProcessPacket_twin t s d b b' x h env c hd fun hnot => absurd ⟨hw, hx⟩ hnot
    exact ⟨d', hs, ha⟩
  | datagram env addr hd b b' hw hx => exact uclientProcessPacket_twin h env addr hd fun hnot => absurd ⟨hw, hx⟩ hnot
  | same a =>
    cases a with
    | accept accepted =>
      refine ⟨d, addClient_withData s d accepted, ?_⟩
      simp only [act, tracesAfter, (addClient_rest accepted).1]
      exact h
    | packet env c p =>
      obtain ⟨d', hs, ha⟩ := @clientProcessPacket_twin t s d p.buffer p.buffer x h env c p.header fun _ => rfl
      exact ⟨d', hs, ha⟩
    | datagram env addr p => exact uclientProcessPacket_twin h env addr p.header fun _ => rfl
    | close c => exact ⟨d, closeClientSocket_withData s d c, h.closeClientSocket⟩
    | keep c buffer => exact ⟨d, rfl, h⟩
    | serverWrite env flags cid data size =>
      obtain ⟨d', hs, ha⟩ := serverWrite_twin h env flags cid data size
      exact ⟨d', hs, ha⟩
    | serverDefine cid flags mem size =>
      simp only [act, serverDefine, tracesAfter]
      split
      · exact ⟨d, rfl, h⟩
      · obtain ⟨d', hs, ha⟩ := addEvent_twin h (idstr cid) flags mem size
        exact ⟨d', hs, ha⟩
    | serverUndefine cid => exact ⟨d, freeEvent_withData s d _, h.freeEvent⟩
    | serverSubscribeEvent flags cid cb args =>
      obtain ⟨d', hs, ha⟩ := serverSubscribeEvent_twin h flags cid cb args
      exact ⟨d', hs, ha⟩
    | serverUnsubscribeEvent cid =>
      obtain ⟨hs, ha⟩ := serverUnsubscribeEvent_twin h cid
      exact ⟨d, hs, ha⟩
    | setSyncOffset ms => exact ⟨d, rfl, h⟩

/-- **One act that shows no trace** does the same to the outside. -/
theorem act_out_twin (h : Twin t s s') (a : Act) (hclean : Clean t s a) : (act s a).2 = (act s' a).2 := by
  obtain ⟨d, rfl, h⟩ := h
  cases a with
  | packet env c p => exact (clientProcessPacket_withData_out h p hclean).symm
  | datagram env addr p =>
    simp only [act, uclientProcessPacket, uclientOf_withData]
    cases hu : uclientOf s addr p.header with
    | none =>
      simp only [Option.map_none]
      split <;> rfl
    | some r =>
      obtain ⟨u, c⟩ := r
      have hevents : Agree t u.events d := by rwa [(uclientOf_rest hu).1]
      refine (clientProcessPacket_withData_out hevents p ?_).symm
      intro e j hj
      refine hclean e j ?_
      simpa only [shows, hu] using hj
  | serverWrite env flags cid data size => exact (serverWrite_withData_out cid).symm
  | accept _ | close _ | keep _ _ | serverDefine _ _ _ _ | serverUndefine _ | serverSubscribeEvent _ _ _ _
  | serverUnsubscribeEvent _ | setSyncOffset _ => rfl

theorem run_tracedAct (x : Id) (st : Server × Traces) (as : List Act) :
    (run (tracedAct x) st as).1.1 = (run act st.1 as).1 := by
  induction as generalizing st with
  | nil => rfl
  | cons a as ih => exact ih (tracedAct x st a).1

/-- **A run** keeps servers twins. -/
theorem run_twin {as as' : List Act} (hsame : List.Forall₂ (SameButPayload x) as as') (h : Twin t s s') :
    Twin (run (tracedAct x) (s, t) as).1.2 (run act s as).1 (run act s' as').1 := by
  induction hsame generalizing s s' t with
  | nil => exact h
  | cons hhead _ ih => exact ih (act_twin h hhead)

end Runs

/-- An UNDEFINE of `x` by the client `c`. -/
def undefineOf (x : Id) (env : Env) (c : ClientIx) (h : Header) : Act := .packet env c ⟨h.fill x Msg.undefine.code, []⟩

/-- The act asks for `x` itself. -/
def Act.asksFor (x : Id) : Act → Bool
  | .packet _ _ p | .datagram _ _ p => p.header.id == x && (p.header.msg == .read || p.header.msg == .subscribe)
  | _ => false

/-- **What is left of an undefined event stays hidden**: two runs that differ in the payloads of the WRITEs of
`x` send the same after the UNDEFINE, but for answers about `x` itself, if nothing that is shown is a trace of
these payloads. -/
theorem undefined_event_hidden (x : Id) (sid : List UInt8) (pre pre' post : List Act) (env : Env) (c : ClientIx)
    (h : Header) (hpre : List.Forall₂ (SameButPayload x) pre pre')
    (hal : Along (tracedAct x) (fun st a => a.asksFor x = false → Clean st.2 st.1 a)
      (run (tracedAct x) (serverCreate sid, fun _ _ => false) (pre ++ [undefineOf x env c h])).1 post) :
    ∀ before a after, post = before ++ a :: after → a.asksFor x = false →
      (act (run act (serverCreate sid) (pre ++ [undefineOf x env c h] ++ before)).1 a).2 =
        (act (run act (serverCreate sid) (pre' ++ [undefineOf x env c h] ++ before)).1 a).2 := by
  intro before a after hpost ha
  subst hpost
  have hsame : ∀ as : List Act, List.Forall₂ (SameButPayload x) as as :=
    fun as => List.forall₂_same.mpr fun a _ => .same a
  have hboth : List.Forall₂ (SameButPayload x) (pre ++ [undefineOf x env c h] ++ before)
      (pre' ++ [undefineOf x env c h] ++ before) :=
    List.rel_append (List.rel_append hpre (hsame _)) (hsame before)
  have htwin := run_twin hboth (Twin.refl (fun _ _ => false) (serverCreate sid))
  refine act_out_twin htwin a ?_
  -- the act is taken in the state the condition speaks of
  have hclean := ((along_append _ before (a :: after)).mp hal).2.1 ha
  have hrun : (run (tracedAct x) (serverCreate sid, fun _ _ => false) (pre ++ [undefineOf x env c h] ++ before)).1 =
      (run (tracedAct x) (run (tracedAct x) (serverCreate sid, fun _ _ => false) (pre ++ [undefineOf x env c h])).1
        before).1 := by
    rw [run_append]
  rw [← hrun, run_tracedAct] at hclean
  exact hclean

/-- A client writes `a`. -/
def secretRun (payload : List UInt8) : List Act :=
  [.accept (some (3, ⟨1, 2⟩)),
    .packet .calm 0 (Packet.make (Msg.write.code ||| typeForce) (idstr [97]) payload)]

/-- Then it undefines `a` and writes `b`, which gets the slot. -/
def overwriteRun : List Act := [.packet .calm 0 (Packet.make (Msg.write.code ||| typeForce) (idstr [98]) [5, 6])]

/-- It reads `b`. -/
def readBack : Act := .packet .calm 0 (Packet.make Msg.read.code (idstr [98]) [])

theorem secretRun_same : List.Forall₂ (SameButPayload (idstr [97])) (secretRun [1, 2, 3, 4]) (secretRun [9, 9, 9, 9]) :=
  .cons (.same _) (.cons (.packet _ _ _ _ _ (by decide) rfl) .nil)

/-- `b` is shown as far as it was written. -/
theorem overwriteRun_hidden :
    (act (run act (serverCreate []) (secretRun [1, 2, 3, 4] ++
        [undefineOf (idstr [97]) .calm 0 Env.calm.stack.header] ++ overwriteRun)).1 readBack).2 =
      (act (run act (serverCreate []) (secretRun [9, 9, 9, 9] ++
        [undefineOf (idstr [97]) .calm 0 Env.calm.stack.header] ++ overwriteRun)).1 readBack).2 :=
  undefined_event_hidden (idstr [97]) [] (secretRun [1, 2, 3, 4]) (secretRun [9, 9, 9, 9]) (overwriteRun ++ [readBack])
    .calm 0 Env.calm.stack.header secretRun_same
    ⟨fun _ => by decide +kernel, fun _ => by decide +kernel, trivial⟩ overwriteRun readBack [] rfl (by decide)

/-- After a definition of `b` as a 32-bit word instead, its bytes are those of `a`. -/
theorem secretRun_revealed : ¬ ∀ pre pre', List.Forall₂ (SameButPayload (idstr [97])) pre pre' →
    (act (run act (serverCreate []) (pre ++ [undefineOf (idstr [97]) .calm 0 Env.calm.stack.header] ++
        [.packet .calm 0 (Packet.make (Msg.define.code ||| typeVarInt32) (idstr [98]) [])])).1 readBack).2 =
    (act (run act (serverCreate []) (pre' ++ [undefineOf (idstr [97]) .calm 0 Env.calm.stack.header] ++
        [.packet .calm 0 (Packet.make (Msg.define.code ||| typeVarInt32) (idstr [98]) [])])).1 readBack).2 := by
  intro h
  exact absurd (h _ _ secretRun_same) (by decide +kernel)

end SyncScribe
