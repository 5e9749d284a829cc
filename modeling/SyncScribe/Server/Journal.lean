import SyncScribe.Server.Calls
import SyncScribe.Lib.Since

/-!
The journal of a run. An act makes one change to the event table at most
(`changeOf`): an accepted call edits the event of its identifier, which it may
have created, UNDEFINE frees it, and a close takes a client out of all events.
`act_change` says what each change does to the map; the history of a run is the
list of its changes (`journal`).
-/

namespace SyncScribe
open Lib Lib.Bytes Lib.Slots Lib.Keyed

/-! ## Changes -/

/-- What an accepted call does to its event. -/
inductive Edit
  | subscribe (c : ClientIx) (flags : UInt32)
  | unsubscribe (c : ClientIx)
  | define (flags : UInt32) (data : Option (List UInt8)) (size : UInt32)
  | write (c : ClientIx) (flags : UInt32) (data : List UInt8) (size : UInt32)
  | serverWrite (flags : UInt32) (data : List UInt8) (size : UInt32)
  | callback (cb : Option Nat) (args : Nat)

inductive Change
  | keep
  /-- an accepted call on the event `id`, `created` by it or found -/
  | edit (id : Id) (created : Bool) (k : Edit)
  | free (id : Id)
  | close (c : ClientIx)

def Edit.apply (s : Server) : Edit → Event → Event
  | .subscribe c _, ev => ev.addConsumer c
  | .unsubscribe c, ev => ev.dropConsumer c
  | .define flags data size, ev => addEventStore ev flags data size
  | .write c _ data size, ev => writeStore s c ev data size
  | .serverWrite flags data size, ev => serverWriteStore ev data (serverWriteSize flags size)
  | .callback cb args, ev => { ev with args := args, cb := cb }

/-- The type a call gives to an event it creates. -/
def Edit.freshType : Edit → UInt32
  | .subscribe _ flags => flags &&& typeVarMask
  | .write _ flags _ _ => flags &&& typeVarMask
  | _ => 0

/-- The type check an accepted call has passed. -/
def Edit.admits (ev : Event) : Edit → Prop
  | .subscribe _ flags => subscribeAdmits flags ev.dataType = true
  | .write _ flags _ _ => flags &&& typeVarMask = ev.dataType
  | _ => True

/-- An accepted call of the server `s` on `id`. -/
def accepted (s : Server) (id : Id) (ret : Int) (k : Edit) : Change :=
  if ret = 0 then .edit id (!(look s.events id).isSome) k else .keep

theorem accepted_cases {P : Change → Prop} {s : Server} {id : Id} {k : Edit} (ret : Int) (hkeep : P .keep)
    (hedit : ∀ created, P (.edit id created k)) : P (accepted s id ret k) := by
  unfold accepted
  split
  · exact hedit _
  · exact hkeep

/-- An accepted write of a client. -/
def Change.isWrite : Change → Bool
  | .edit _ _ (.write ..) => true
  | _ => false

/-- How far a change advances the counter of the server. -/
def Change.ticks (ch : Change) : UInt64 := if ch.isWrite then 1 else 0

/-- The change made by a packet. -/
def packetChange (env : Env) (s : Server) (c : ClientIx) (p : Packet) : Change :=
  let h := p.header
  match h.msg with
  | .subscribe =>
    accepted s h.id (clientSubscribe env s c h.id h.type h.updateCounter).ret (.subscribe c h.type)
  | .unsubscribe => if (look s.events h.id).isSome then .edit h.id false (.unsubscribe c) else .keep
  | .define =>
    accepted s h.id (addEvent s h.id h.type none h.dataSize.toUInt32).ret
      (.define h.type none h.dataSize.toUInt32)
  | .undefine => .free h.id
  | .write =>
    accepted s h.id (clientWrite env s c h.id h.type p.buffer h.dataSize.toUInt32).ret
      (.write c h.type p.buffer h.dataSize.toUInt32)
  | .clientId => if h.unsupported then .close c else .keep
  | _ => .keep

/-- The changes a packet of `c` can make, by its type. -/
inductive PacketChanges (c : ClientIx) (p : Packet) : Change → Prop
  | keep : PacketChanges c p .keep
  | subscribe (created : Bool) (hm : p.header.msg = .subscribe) :
    PacketChanges c p (.edit p.header.id created (.subscribe c p.header.type))
  | unsubscribe (hm : p.header.msg = .unsubscribe) : PacketChanges c p (.edit p.header.id false (.unsubscribe c))
  | define (created : Bool) (hm : p.header.msg = .define) :
    PacketChanges c p (.edit p.header.id created (.define p.header.type none p.header.dataSize.toUInt32))
  | undefine (hm : p.header.msg = .undefine) : PacketChanges c p (.free p.header.id)
  | write (created : Bool) (hm : p.header.msg = .write) :
    PacketChanges c p (.edit p.header.id created (.write c p.header.type p.buffer p.header.dataSize.toUInt32))
  | close (hu : p.header.unsupported = true) : PacketChanges c p (.close c)

theorem packetChange_cases (env : Env) (s : Server) (c : ClientIx) (p : Packet) :
    PacketChanges c p (packetChange env s c p) := by
  cases hm : p.header.msg
  all_goals simp only [packetChange, hm]
  case subscribe => exact accepted_cases _ .keep fun created => .subscribe created hm
  case define => exact accepted_cases _ .keep fun created => .define created hm
  case write => exact accepted_cases _ .keep fun created => .write created hm
  case undefine => exact .undefine hm
  case unsubscribe =>
    split
    · exact .unsubscribe hm
    · exact .keep
  case clientId =>
    split
    · rename_i hu
      exact .close hu
    · exact .keep
  all_goals exact .keep

/-- The change made by an act. -/
def changeOf (s : Server) : Act → Change
  | .packet env c p => packetChange env s c p
  | .datagram env addr p =>
    match uclientOf s addr p.header with
    | some (s, c) => packetChange env s c p
    | none => .keep
  | .close c => .close c
  | .serverWrite env flags cid data size =>
    accepted s (idstr cid) (serverWrite env s flags cid data size).ret (.serverWrite flags data size)
  | .serverDefine cid flags data size =>
    accepted s (idstr cid) (serverDefine s cid flags data size).ret (.define flags data size)
  | .serverUndefine cid => .free (idstr cid)
  | .serverSubscribeEvent flags cid cb args =>
    accepted s (idstr cid) (serverSubscribeEvent s flags cid cb args).ret (.callback cb args)
  | .serverUnsubscribeEvent cid =>
    if (look s.events (idstr cid)).isSome then .edit (idstr cid) false (.callback none 0) else .keep
  | .accept _ => .keep
  | .keep _ _ => .keep
  | .setSyncOffset _ => .keep

/-- The changes of a run, in order. -/
def journal : Server → List Act → List Change
  | _, [] => []
  | s, a :: as => changeOf s a :: journal (act s a).1 as

theorem journal_append (s : Server) (as bs : List Act) :
    journal s (as ++ bs) = journal s as ++ journal (run act s as).1 bs := by
  induction as generalizing s with
  | nil => rfl
  | cons a as ih => simp [journal, run, ih]

theorem journal_concat (s : Server) (as : List Act) (a : Act) :
    journal s (as ++ [a]) = journal s as ++ [changeOf (run act s as).1 a] :=
  journal_append s as [a]

/-! ## What a change does -/

/-- The event an edit starts from. -/
structure Origin (s : Server) (id : Id) (created : Bool) (freshType : UInt32) (ev : Event) : Prop where
  id_eq : ev.id = id
  slot : SlotInv ev
  found : created = false → look s.events id = some ev
  fresh : created = true → look s.events id = none ∧
    (id.good → ∃ old, ev = { eventInit old id with dataType := freshType })

def Change.Applies (s : Server) : Change → Table → Prop
  | .keep, t' => TableInv t' ∧ ∀ id, look t' id = look s.events id
  | .edit id created k, t' =>
    ∃ ev, Origin s id created k.freshType ev ∧ k.admits ev ∧ SetsTo s.events id (k.apply s ev) t'
  | .free id, t' => TableInv t' ∧ ∀ id', look t' id' = if id' = id then none else look s.events id'
  | .close c, t' => TableInv t' ∧ ∀ id', look t' id' = (look s.events id').map (Event.closed c)

section Changes

variable {env : Env} {s s' : Server} {c : ClientIx} {e : EventIx} {id : Id} {ret : Int} {k : Edit}

/-- An edit keeps the identifier and the well-formedness of its event. -/
theorem edit_spec {ev : Event} (h : SlotInv ev) : (k.apply s ev).id = ev.id ∧ SlotInv (k.apply s ev) := by
  cases k with
  | subscribe c flags =>
    obtain ⟨cs, n, hsame⟩ := addConsumer_same ev c
    exact ⟨by rw [Edit.apply, hsame], addConsumer_inv h⟩
  | unsubscribe c =>
    obtain ⟨cs, n, hsame⟩ := dropConsumer_same ev c
    exact ⟨by rw [Edit.apply, hsame], dropConsumer_inv h⟩
  | define flags data size => exact ⟨rfl, addEventStore_inv h⟩
  | write c flags data size => exact ⟨rfl, writeStore_inv h⟩
  | serverWrite flags data size => exact ⟨rfl, serverWriteStore_inv h⟩
  | callback cb args => exact ⟨rfl, h.same rfl rfl rfl⟩

theorem Opened.toOrigin (ho : Opened s id k.freshType s' e) :
    Origin s id (!(look s.events id).isSome) k.freshType (s'.events e) := by
  refine ⟨ho.id_eq, ho.slot, ?_, ?_⟩
  · intro hc
    rw [Bool.not_eq_false'] at hc
    obtain ⟨ev, hl⟩ := Option.isSome_iff_exists.mp hc
    have hs := ho.sets.look id
    rcases ho.origin with ⟨hf, rfl⟩ | ⟨hn, _⟩
    · exact look_of_find (look_good hl) hf
    · rw [look_of_not_found hn] at hl
      cases hl
  · intro hc
    rw [Bool.not_eq_true', Option.isSome_eq_false_iff, Option.isNone_iff_eq_none] at hc
    refine ⟨hc, ?_⟩
    intro hg
    rcases ho.origin with ⟨hf, rfl⟩ | ⟨_, hev⟩
    · rw [look_of_find hg hf] at hc
      cases hc
    · exact ⟨_, hev⟩

/-- Storing the result of an edit into the event a call opened. -/
theorem Opened.applies (ho : Opened s id k.freshType s' e) (hadm : k.admits (s'.events e)) {t' : Table}
    (ht : t' = Function.update s'.events e (k.apply s (s'.events e))) :
    (Change.edit id (!(look s.events id).isSome) k).Applies s t' := by
  obtain ⟨hid, hinv⟩ := edit_spec (s := s) (k := k) ho.slot
  exact ⟨_, ho.toOrigin, hadm, by rw [ht]; exact ho.store hid hinv⟩

theorem keep_applies (h : TableInv s.events) : Change.keep.Applies s s.events := ⟨h, fun _ => rfl⟩

/-- A call that edits when accepted and does nothing when refused. -/
theorem accepted_applies (h : TableInv s.events) {t' : Table} (hkeep : ret ≠ 0 → t' = s.events)
    (hedit : ret = 0 → (Change.edit id (!(look s.events id).isSome) k).Applies s t') :
    (accepted s id ret k).Applies s t' := by
  unfold accepted
  split
  · rename_i hr
    exact hedit hr
  · rename_i hr
    rw [hkeep hr]
    exact keep_applies h

theorem typeVarMask_idem (flags : UInt32) : flags &&& typeVarMask &&& typeVarMask = flags &&& typeVarMask :=
  and_mask_idem flags typeVarMask

theorem zero_and_mask : (0 : UInt32) &&& typeVarMask = 0 := by decide

theorem clientSubscribe_applies (h : TableInv s.events) (flags : UInt32) (uc : UInt64) :
    (accepted s id (clientSubscribe env s c id flags uc).ret (.subscribe c flags)).Applies s
      (clientSubscribe env s c id flags uc).server.events := by
  refine accepted_applies h (fun hr => by rw [(clientSubscribe_refused hr).1]) fun hr => ?_
  obtain ⟨s', e, ho, hadm, hq, _⟩ := clientSubscribe_accepted hr
  have hop : Opened s id (Edit.subscribe c flags).freshType s' e :=
    openEvent_spec h (typeVarMask_idem flags) ho
  exact hop.applies hadm (by rw [hq.events, addClientToEvent_events]; rfl)

theorem addEvent_applies (h : TableInv s.events) (flags : UInt32) (data : Option (List UInt8)) (size : UInt32) :
    (accepted s id (addEvent s id flags data size).ret (.define flags data size)).Applies s
      (addEvent s id flags data size).server.events := by
  refine accepted_applies h (fun hr => by rw [addEvent_refused hr]) fun hr => ?_
  obtain ⟨s', e, ho, hs⟩ := addEvent_accepted h hr
  exact Opened.applies (k := .define flags data size) ho trivial (by rw [hs]; rfl)

theorem clientWrite_applies (h : TableInv s.events) (flags : UInt32) (data : List UInt8) (size : UInt32) :
    (accepted s id (clientWrite env s c id flags data size).ret (.write c flags data size)).Applies s
      (clientWrite env s c id flags data size).server.events := by
  refine accepted_applies h (fun hr => by rw [(clientWrite_refused hr).1]) fun hr => ?_
  obtain ⟨s', e, ho, hadm, hs, _⟩ := clientWrite_accepted hr
  have hop : Opened s id (Edit.write c flags data size).freshType s' e :=
    openEvent_spec h (typeVarMask_idem flags) ho
  refine hop.applies hadm ?_
  rw [hs, (sendEvent_quiet _ _ _ _).events]
  simp only [Edit.apply, writeStore, ← hop.rest.updateCounter]
  rfl

theorem serverWrite_applies (h : TableInv s.events) (flags : UInt32) (cid data : List UInt8) (size : UInt32) :
    (accepted s (idstr cid) (serverWrite env s flags cid data size).ret (.serverWrite flags data size)).Applies s
      (serverWrite env s flags cid data size).server.events := by
  refine accepted_applies h (fun hr => by rw [(serverWrite_refused hr).1]) fun hr => ?_
  obtain ⟨s', e, ho, hs, _⟩ := serverWrite_accepted hr
  have hop : Opened s (idstr cid) (Edit.serverWrite flags data size).freshType s' e :=
    openEvent_spec h zero_and_mask ho
  exact hop.applies trivial (by rw [hs, (sendEvent_quiet _ _ _ _).events]; rfl)

theorem serverSubscribeEvent_applies (h : TableInv s.events) (flags : UInt32) (cid : List UInt8)
    (cb : Option Nat) (args : Nat) :
    (accepted s (idstr cid) (serverSubscribeEvent s flags cid cb args).ret (.callback cb args)).Applies s
      (serverSubscribeEvent s flags cid cb args).server.events := by
  refine accepted_applies h (fun hr => by rw [serverSubscribeEvent_refused hr]) fun hr => ?_
  obtain ⟨s', e, ho, hs⟩ := serverSubscribeEvent_accepted hr
  have hop : Opened s (idstr cid) (Edit.callback cb args).freshType s' e :=
    openEvent_spec h zero_and_mask ho
  exact hop.applies trivial (by rw [hs]; rfl)

theorem serverDefine_applies (h : TableInv s.events) (cid : List UInt8) (flags : UInt32)
    (data : Option (List UInt8)) (size : UInt32) :
    (accepted s (idstr cid) (serverDefine s cid flags data size).ret (.define flags data size)).Applies s
      (serverDefine s cid flags data size).server.events := by
  by_cases hr : (serverDefine s cid flags data size).ret = 0
  · rw [serverDefine_accepted hr]
    exact addEvent_applies h flags data size
  · exact accepted_applies h (fun hr => by rw [serverDefine_refused hr]) (fun hr' => absurd hr' hr)

/-- A call that edits a live event in place and does nothing when there is none. -/
theorem inPlace_applies (h : TableInv s.events) (hadm : ∀ ev, k.admits ev) {t' : Table}
    (hnone : findEvent s id = none → t' = s.events)
    (hsome : ∀ e, findEvent s id = some e → SetsTo s.events id (k.apply s (s.events e)) t') :
    (if (look s.events id).isSome then Change.edit id false k else .keep).Applies s t' := by
  by_cases hg : id.good
  · rw [look_eq_find hg]
    cases hf : findEvent s id with
    | none =>
      rw [hnone hf]
      exact keep_applies h
    | some e =>
      have hl := look_of_find hg hf
      exact ⟨s.events e, ⟨look_id hl, h.slots e, fun _ => hl, fun hc => by cases hc⟩, hadm _, hsome e hf⟩
  · have hnot : look s.events id = none := by
      rw [look, lookup_eq_none]
      exact fun hg' => absurd hg' hg
    rw [hnot]
    cases hf : findEvent s id with
    | none =>
      rw [hnone hf]
      exact keep_applies h
    | some e =>
      refine ⟨(hsome e hf).inv, ?_⟩
      intro id'
      rw [(hsome e hf).look, if_neg]
      rintro ⟨hg', rfl⟩
      exact hg hg'

theorem clientUnsubscribe_applies (h : TableInv s.events) :
    (if (look s.events id).isSome then Change.edit id false (.unsubscribe c) else .keep).Applies s
      (clientUnsubscribe s c id).events := by
  refine inPlace_applies (k := .unsubscribe c) h (fun _ => trivial) ?_ (fun e hf => clientUnsubscribe_table h hf)
  intro hn
  simp [clientUnsubscribe, hn]

theorem serverUnsubscribeEvent_applies (h : TableInv s.events) (cid : List UInt8) :
    (if (look s.events (idstr cid)).isSome then Change.edit (idstr cid) false (.callback none 0) else .keep).Applies
      s (serverUnsubscribeEvent s cid).events := by
  refine inPlace_applies (k := .callback none 0) h (fun _ => trivial) ?_ ?_
  · intro hn
    simp [serverUnsubscribeEvent, hn]
  · intro e hf
    simp only [serverUnsubscribeEvent, hf]
    exact h.store (findEvent_some hf) rfl ((h.slots e).same rfl rfl rfl)

theorem Change.applies_congr {ch : Change} {t' : Table} (hev : s'.events = s.events)
    (huc : s'.updateCounter = s.updateCounter) (h : ch.Applies s' t') : ch.Applies s t' := by
  cases ch with
  | keep => exact ⟨h.1, by rw [← hev]; exact h.2⟩
  | edit id created k =>
    obtain ⟨ev, ho, hadm, hs⟩ := h
    have happly : k.apply s' ev = k.apply s ev := by
      cases k <;> simp only [Edit.apply, writeStore, huc]
    refine ⟨ev, ⟨ho.id_eq, ho.slot, by rw [← hev]; exact ho.found, by rw [← hev]; exact ho.fresh⟩, hadm, ?_⟩
    rw [← hev, ← happly]
    exact hs
  | free id => exact ⟨h.1, by rw [← hev]; exact h.2⟩
  | close c => exact ⟨h.1, by rw [← hev]; exact h.2⟩

/-! ## Acts -/

theorem clientIdentify_events (h : Header) :
    (clientIdentify env s c h).1.events =
      if h.sync.data0 ≠ versionMajor then fun i => (s.events i).closed c else s.events := by
  unfold clientIdentify
  split
  · rw [Server.modifyClient_events, closeClientSocket_events, sendServerStatus,
      (sendCounted_quiet _ _ _).events]
  · rfl

theorem clientIdentify_updateCounter (h : Header) :
    (clientIdentify env s c h).1.updateCounter = s.updateCounter := by
  unfold clientIdentify
  split
  · rw [Server.modifyClient_updateCounter, closeClientSocket_updateCounter, sendServerStatus,
      (sendCounted_quiet _ _ _).updateCounter]
  · rfl

theorem identify_applies (h : TableInv s.events) (hd : Header) (hm : hd.msg = .clientId) :
    (if hd.unsupported then Change.close c else .keep).Applies s (clientIdentify env s c hd).1.events := by
  have hu : hd.unsupported = true ↔ hd.sync.data0 ≠ versionMajor := by simp [Header.unsupported, hm]
  rw [clientIdentify_events]
  by_cases hv : hd.sync.data0 ≠ versionMajor
  · rw [if_pos hv, if_pos (hu.mpr hv), ← closeClientSocket_events]
    exact closeClientSocket_table h
  · rw [if_neg hv, if_neg (mt hu.mp hv)]
    exact keep_applies h

theorem clientChannel_rest (p : Packet) :
    (clientChannel env s c p).server.events = s.events ∧
      (clientChannel env s c p).server.updateCounter = s.updateCounter := by
  rw [clientChannel_frame]
  exact ⟨rfl, rfl⟩

theorem packet_change (h : TableInv s.events) (p : Packet) :
    (packetChange env s c p).Applies s (clientProcessPacket env s c p).server.events := by
  have hquiet : ∀ {u : Server}, Quiet s u → Change.keep.Applies s u.events := fun hq => by
    rw [hq.events]
    exact keep_applies h
  cases hm : p.header.msg
  all_goals simp only [clientProcessPacket, clientDispatch, packetChange, hm, Server.modifyClient_events]
  case subscribe => exact clientSubscribe_applies h p.header.type p.header.updateCounter
  case unsubscribe => exact clientUnsubscribe_applies h
  case define => exact addEvent_applies h p.header.type none p.header.dataSize.toUInt32
  case undefine => exact freeEvent_table h
  case write => exact clientWrite_applies h p.header.type p.buffer p.header.dataSize.toUInt32
  case read => exact hquiet (sendCounted_quiet s c (readPacket env s p.header.id))
  case clientList => exact hquiet (sendList_quiet env clientKind s c (p.header.id.c 0))
  case eventList => exact hquiet (sendList_quiet env eventKind s c (p.header.id.c 0))
  case channelList => exact hquiet (sendList_quiet env channelKind s c (p.header.id.c 0))
  case clientId => exact identify_applies h p.header hm
  case channel =>
    rw [(clientChannel_rest p).1]
    exact keep_applies h
  all_goals exact keep_applies h

/-- Finding or adding the client of a datagram touches the clients only. -/
theorem uclientOf_rest {addr : SockAddr} {hd : Header} (h : uclientOf s addr hd = some (s', c)) :
    s'.events = s.events ∧ s'.channels = s.channels ∧ s'.updateCounter = s.updateCounter :=
  (uclientOf_cases h).2.sameRest

theorem addClient_rest (accepted : Option (Nat × SockAddr)) :
    (addClient s accepted).events = s.events ∧ (addClient s accepted).channels = s.channels ∧
      (addClient s accepted).updateCounter = s.updateCounter := by
  rcases addClient_cases s accepted with heq | ⟨c, fd, _, hslot⟩
  · rw [heq]
    exact ⟨rfl, rfl, rfl⟩
  · exact hslot.sameRest

/-- **Every act makes its change** and no other. -/
theorem act_change (h : TableInv s.events) (a : Act) : (changeOf s a).Applies s (act s a).1.events := by
  cases a with
  | accept accepted =>
    simp only [act, changeOf, (addClient_rest accepted).1]
    exact keep_applies h
  | packet env c p => exact packet_change h p
  | datagram env addr p =>
    simp only [act, changeOf, uclientProcessPacket]
    cases hu : uclientOf s addr p.header with
    | none =>
      simp only
      split <;> exact keep_applies h
    | some sc =>
      obtain ⟨s', c⟩ := sc
      obtain ⟨hev, _, huc⟩ := uclientOf_rest hu
      exact Change.applies_congr hev huc (packet_change (by rw [hev]; exact h) p)
  | close c => exact closeClientSocket_table h
  | keep c buffer => exact keep_applies h
  | serverWrite env flags cid data size => exact serverWrite_applies h flags cid data size
  | serverDefine cid flags data size => exact serverDefine_applies h cid flags data size
  | serverUndefine cid => exact freeEvent_table h
  | serverSubscribeEvent flags cid cb args => exact serverSubscribeEvent_applies h flags cid cb args
  | serverUnsubscribeEvent cid => exact serverUnsubscribeEvent_applies h cid
  | setSyncOffset ms => exact keep_applies h

theorem Change.Applies.inv {ch : Change} {t' : Table} (h : ch.Applies s t') : TableInv t' := by
  cases ch with
  | keep => exact h.1
  | edit id created k =>
    obtain ⟨ev, _, _, hs⟩ := h
    exact hs.inv
  | free id => exact h.1
  | close c => exact h.1

/-- **The table invariant holds in every reachable state.** -/
theorem run_tableInv (cid : List UInt8) (as : List Act) : TableInv (run act (serverCreate cid) as).1.events :=
  run_inductive (fun s a h => (act_change (s := s) h a).inv) as _ (tableInv_init cid)

end Changes

end SyncScribe
