import SyncScribe.Server.Subscriptions

/-!
The event table refines a finite map. A READ sees the type, the size and the
bytes of its event and nothing else (`readPacket_eq`); only writes, definitions
and creations of an identifier change them (`value_change`), so what a READ
returns is the latest write (`latest_write_read`).
-/

namespace SyncScribe
open Lib Lib.Bytes Lib.Slots Lib.Keyed

/-! ## What a READ sees -/

/-- The READ reply for an event, or for none. -/
def valuePacket (env : Env) (id : Id) : Option Event → Packet
  | some ev =>
    { header := { env.stack.header.fill id Msg.read.code with
        dataSize := ev.dataSize.toUInt16
        type := Msg.read.code ||| (ev.dataType &&& typeVarMask) }
      buffer := write env.stack.buffer 0 (read ev.data ev.dataSize.toNat) }
  | none =>
    { header := { env.stack.header.fill id Msg.read.code with
        type := Msg.read.code ||| typeVarNotDefined
        dataSize := 0 }
      buffer := env.stack.buffer }

/-- Two events a READ cannot tell apart. -/
structure SameValue (ev ev' : Event) : Prop where
  dataType : ev'.dataType = ev.dataType
  dataSize : ev'.dataSize = ev.dataSize
  data : ev'.data = ev.data

section Values

variable {env : Env} {s : Server} {ch : Change} {t' : Table} {id : Id} {ev ev' : Event}

theorem readPacket_eq (hg : id.good) : readPacket env s id = valuePacket env id (look s.events id) := by
  unfold readPacket
  cases hf : findEvent s id with
  | none =>
    rw [look_of_not_found hf]
    rfl
  | some e =>
    rw [look_of_find hg hf]
    rfl

theorem SameButConsumers.sameValue (h : SameButConsumers ev ev') : SameValue ev ev' := by
  obtain ⟨cs, n, rfl⟩ := h
  exact ⟨rfl, rfl, rfl⟩

/-! ## What changes a value -/

/-- An edit that stores a type, a size or bytes. -/
def Edit.stores : Edit → Bool
  | .define .. | .write .. | .serverWrite .. => true
  | .subscribe .. | .unsubscribe .. | .callback .. => false

/-- A change after which the value of `id` is a new one. -/
def Change.stores (id : Id) : Change → Prop
  | .edit id' created k => id' = id ∧ (created = true ∨ k.stores = true)
  | _ => False

/-- An accepted WRITE of `payload` to `id`. -/
def Change.writes (id : Id) (flags : UInt32) (payload : List UInt8) : Change → Prop
  | .edit id' _ (.write _ flags' data size) => id' = id ∧ flags' = flags ∧ read data size.toNat = payload
  | _ => False

/-- The latest accepted WRITE to `id` since its latest creation or definition. -/
def LatestWrite (log : List Change) (id : Id) (flags : UInt32) (payload : List UInt8) : Prop :=
  Since (Change.writes id flags payload) (Change.stores id) log

theorem sameValue_edit {k : Edit} (hk : k.stores = false) : SameValue ev (k.apply s ev) := by
  cases k with
  | subscribe c flags => exact (addConsumer_same ev c).sameValue
  | unsubscribe c => exact (dropConsumer_same ev c).sameValue
  | callback cb args => exact ⟨rfl, rfl, rfl⟩
  | define flags data size => cases hk
  | write c flags data size => cases hk
  | serverWrite flags data size => cases hk

/-- A change that stores nothing under `id` leaves its value alone. -/
theorem value_change (h : ch.Applies s t') (hns : ¬ ch.stores id) (hl : look t' id = some ev') :
    ∃ ev, look s.events id = some ev ∧ SameValue ev ev' := by
  cases ch with
  | keep => exact ⟨ev', by rw [← h.2]; exact hl, rfl, rfl, rfl⟩
  | edit id' created k =>
    obtain ⟨ev, ho, _, hs⟩ := h
    rw [hs.look] at hl
    split at hl
    · rename_i hc
      obtain ⟨_, rfl⟩ := hc
      cases hl
      have hkeep : created = false ∧ k.stores = false := by
        simpa [Change.stores] using hns
      exact ⟨ev, ho.found hkeep.1, sameValue_edit hkeep.2⟩
    · exact ⟨ev', hl, rfl, rfl, rfl⟩
  | free id' =>
    rw [h.2] at hl
    split at hl
    · cases hl
    · exact ⟨ev', hl, rfl, rfl, rfl⟩
  | close c =>
    rw [h.2, Option.map_eq_some_iff] at hl
    obtain ⟨ev, hl, rfl⟩ := hl
    exact ⟨ev, hl, (closed_same c ev).sameValue⟩

/-- What an accepted WRITE stores. -/
structure Stored (flags : UInt32) (payload : List UInt8) (ev : Event) : Prop where
  dataType : ev.dataType = flags &&& typeVarMask
  dataSize : ev.dataSize.toNat = payload.length
  data : read ev.data ev.dataSize.toNat = payload

theorem Stored.congr {flags : UInt32} {payload : List UInt8} (h : Stored flags payload ev)
    (hv : SameValue ev ev') : Stored flags payload ev' :=
  ⟨by rw [hv.dataType, h.dataType], by rw [hv.dataSize, h.dataSize],
    by rw [hv.data, hv.dataSize, h.data]⟩

theorem stored_of_writes {flags : UInt32} {payload : List UInt8} (h : ch.Applies s t')
    (hw : ch.writes id flags payload) (hl : look t' id = some ev) : Stored flags payload ev := by
  cases ch with
  | edit id' created k =>
    cases k with
    | write c flags' data size =>
      obtain ⟨rfl, rfl, rfl⟩ := hw
      obtain ⟨ev₀, ho, hadm, hs⟩ := h
      have hg := look_good hl
      rw [hs.look, if_pos ⟨hg, rfl⟩] at hl
      cases hl
      exact ⟨hadm.symm, by simp [Edit.apply, writeStore], read_write_read _ _ _⟩
    | subscribe c flags' => cases hw
    | unsubscribe c => cases hw
    | define flags' data size => cases hw
    | serverWrite flags' data size => cases hw
    | callback cb args => cases hw
  | keep => cases hw
  | free id' => cases hw
  | close c => cases hw

end Values

/-- **The latest write is what a live event holds.** -/
theorem latest_write_stored (cid : List UInt8) (as : List Act) {id : Id} {flags : UInt32}
    {payload : List UInt8} {ev : Event} (hw : LatestWrite (journal (serverCreate cid) as) id flags payload)
    (hl : look (run act (serverCreate cid) as).1.events id = some ev) : Stored flags payload ev := by
  induction as using List.reverseRecOn generalizing ev with
  | nil => exact absurd hw not_since_nil
  | append_singleton as a ih =>
    have happ := act_change (run_tableInv cid as) a
    rw [run_concat] at hl
    rw [journal_concat, LatestWrite, since_concat] at hw
    rcases hw with hw | ⟨hw, hns⟩
    · exact stored_of_writes happ hw hl
    · obtain ⟨ev₀, hl₀, hv⟩ := value_change happ hns hl
      exact (ih hw hl₀).congr hv

/-! ## When an operation is accepted -/

/-- The number of live slots. -/
def liveCount (s : Server) : Nat := (Finset.univ.filter fun e => (s.events e).live = true).card

theorem liveCount_lt (s : Server) : liveCount s < eventMaximum ↔ ∃ e, ¬ (s.events e).id.good := by
  have hnumber : liveCount s = number fun e => (s.events e).live := rfl
  rw [hnumber, number_lt_iff]
  simp only [← Event.live_iff, Bool.not_eq_true]

section Accepted

variable {env : Env} {s : Server} {c : ClientIx} {id : Id} {flags size : UInt32} {data : List UInt8}

/-- When an event that is not there is made. -/
theorem openEvent_new_iff (dataType : UInt32) (hf : findEvent s id = none) :
    (∃ s' e, openEvent s id flags dataType = .ok (s', e)) ↔ flags &&& typeForce ≠ 0 ∧ liveCount s < eventMaximum := by
  rw [liveCount_lt]
  constructor
  · rintro ⟨s', e, ho⟩
    rcases openEvent_ok ho with ⟨hsome, _⟩ | ⟨_, hforce, hfree, _⟩
    · rw [hf] at hsome
      cases hsome
    · exact ⟨hforce, e, hfree⟩
  · rintro ⟨hforce, e, hfree⟩
    cases hopen : openEvent s id flags dataType with
    | error r =>
      rcases (openEvent_error hopen).2.2 with hz | hall
      · exact absurd hz hforce
      · exact absurd (hall e) hfree
    | ok se => exact ⟨se.1, se.2, rfl⟩

/-- When a WRITE is accepted. -/
theorem clientWrite_ret_iff (hg : id.good) :
    (clientWrite env s c id flags data size).ret = 0 ↔
      (∃ ev, look s.events id = some ev ∧ flags &&& typeVarMask = ev.dataType) ∨
        (look s.events id = none ∧ flags &&& typeForce ≠ 0 ∧ liveCount s < eventMaximum) := by
  cases hf : findEvent s id with
  | some e =>
    have hl := look_of_find hg hf
    have hopen : openEvent s id flags (flags &&& typeVarMask) = .ok (s, e) := by simp [openEvent, hf]
    simp [clientWrite, hopen, clientWriteEvent_ret, hl]
  | none =>
    have hl := look_of_not_found hf
    simp only [hl, reduceCtorEq, false_and, exists_false, true_and, false_or]
    rw [← openEvent_new_iff (flags &&& typeVarMask) hf]
    constructor
    · intro hr
      obtain ⟨s', e, ho, _⟩ := clientWrite_accepted hr
      exact ⟨s', e, ho⟩
    · rintro ⟨s', e, hopen⟩
      rcases openEvent_ok hopen with ⟨hsome, _⟩ | ⟨_, _, _, rfl⟩
      · rw [hf] at hsome
        cases hsome
      · simp only [clientWrite, hopen]
        exact clientWriteEvent_ret.mpr (by rw [createdServer_self])

/-- When a SUBSCRIBE is accepted. -/
theorem clientSubscribe_ret_iff {updateCounter : UInt64} (hg : id.good) :
    (clientSubscribe env s c id flags updateCounter).ret = 0 ↔
      (∃ ev, look s.events id = some ev ∧ subscribeAdmits flags ev.dataType = true) ∨
        (look s.events id = none ∧ flags &&& typeForce ≠ 0 ∧ liveCount s < eventMaximum) := by
  have hret : ∀ {s' e}, openEvent s id flags (flags &&& typeVarMask) = .ok (s', e) →
      ((clientSubscribe env s c id flags updateCounter).ret = 0 ↔
        subscribeAdmits flags (s'.events e).dataType = true) := by
    intro s' e ho
    simp only [clientSubscribe, ho]
    split
    · rename_i hadm
      refine iff_of_true ?_ hadm
      split <;> rfl
    · rename_i hadm
      exact iff_of_false (by simp) hadm
  cases hf : findEvent s id with
  | some e =>
    have hl := look_of_find hg hf
    have hopen : openEvent s id flags (flags &&& typeVarMask) = .ok (s, e) := by simp [openEvent, hf]
    rw [hret hopen]
    simp [hl]
  | none =>
    have hl := look_of_not_found hf
    simp only [hl, reduceCtorEq, false_and, exists_false, true_and, false_or]
    rw [← openEvent_new_iff (flags &&& typeVarMask) hf]
    constructor
    · intro hr
      obtain ⟨s', e, ho, _⟩ := clientSubscribe_accepted hr
      exact ⟨s', e, ho⟩
    · rintro ⟨s', e, hopen⟩
      rcases openEvent_ok hopen with ⟨hsome, _⟩ | ⟨_, _, _, rfl⟩
      · rw [hf] at hsome
        cases hsome
      · refine (hret hopen).mpr ?_
        rw [createdServer_self]
        simp [subscribeAdmits]

/-- When a DEFINE is accepted. -/
theorem addEvent_ret_iff (hg : id.good) (mem : Option (List UInt8)) :
    (addEvent s id flags mem size).ret = 0 ↔
      ((look s.events id).isSome = true ∧ flags &&& typeForce ≠ 0) ∨
        (look s.events id = none ∧ liveCount s < eventMaximum) := by
  unfold addEvent
  cases hf : findEvent s id with
  | some e =>
    have hl := look_of_find hg hf
    simp only [hl, Option.isSome_some, true_and, reduceCtorEq, false_and, or_false]
    split
    · rename_i hflag
      exact iff_of_false (by simp) (not_not.mpr hflag)
    · rename_i hflag
      exact iff_of_true rfl hflag
  | none =>
    have hl := look_of_not_found hf
    simp only [hl, Option.isSome_none, Bool.false_eq_true, false_and, true_and, false_or, liveCount_lt]
    cases hc : createEvent s id with
    | none =>
      refine iff_of_false (by simp) ?_
      rintro ⟨e, hfree⟩
      exact hfree (createEvent_eq_none.mp hc e)
    | some se =>
      refine iff_of_true rfl ?_
      by_contra hall
      have hnone : createEvent s id = none := createEvent_eq_none.mpr fun e => by
        by_contra hfree
        exact hall ⟨e, hfree⟩
      rw [hc] at hnone
      cases hnone

end Accepted

/-! ## The refinement -/

/-- A DEFINE, UNDEFINE, WRITE, SUBSCRIBE, UNSUBSCRIBE or READ packet, with an identifier that cannot
be taken for a free slot and a masked size. -/
def Act.onTable : Act → Prop
  | .packet _ _ p =>
    p.header.msg ∈ [.define, .undefine, .write, .subscribe, .unsubscribe, .read] ∧ p.header.id.good ∧
      p.header.dataSize.toNat ≤ variableSizeMaximum
  | _ => False

instance : DecidablePred Act.onTable
  | .packet _ _ p => inferInstanceAs (Decidable (_ ∧ p.header.id.good ∧ _ ≤ _))
  | .datagram .. | .accept _ | .close _ | .keep _ _ | .serverWrite .. | .serverDefine ..
  | .serverUndefine _ | .serverSubscribeEvent .. | .serverUnsubscribeEvent _ | .setSyncOffset _ =>
    inferInstanceAs (Decidable False)

/-- `id` is the identifier of a live slot. -/
def Defined (s : Server) (id : Id) : Prop := ∃ e, (s.events e).live = true ∧ (s.events e).id = id

/-- The packet makes its event, or changes it: a DEFINE, SUBSCRIBE or WRITE that is accepted. -/
def Packet.opens (env : Env) (s : Server) (c : ClientIx) (p : Packet) : Prop :=
  match p.header.msg with
  | .define => (addEvent s p.header.id p.header.type none p.header.dataSize.toUInt32).ret = 0
  | .subscribe => (clientSubscribe env s c p.header.id p.header.type p.header.updateCounter).ret = 0
  | .write => (clientWrite env s c p.header.id p.header.type p.buffer p.header.dataSize.toUInt32).ret = 0
  | _ => False

/-- The state `s` after the changes `log` behaves as a finite map from identifiers to values. -/
structure RefinesMap (s : Server) (log : List Change) : Prop where
  unique : ∀ i j, (s.events i).live = true → (s.events j).live = true →
    (s.events i).id = (s.events j).id → i = j
  /-- when a WRITE is accepted -/
  write : ∀ env c p, p.header.msg = .write → (Act.packet env c p).onTable →
    ((clientWrite env s c p.header.id p.header.type p.buffer p.header.dataSize.toUInt32).ret = 0 ↔
      (∃ e, (s.events e).live = true ∧ (s.events e).id = p.header.id ∧
        p.header.type &&& typeVarMask = (s.events e).dataType &&& typeVarMask) ∨
      (¬ Defined s p.header.id ∧ p.header.type &&& typeForce ≠ 0 ∧ liveCount s < eventMaximum))
  /-- when a DEFINE is accepted -/
  define : ∀ env c p, p.header.msg = .define → (Act.packet env c p).onTable →
    ((addEvent s p.header.id p.header.type none p.header.dataSize.toUInt32).ret = 0 ↔
      (Defined s p.header.id ∧ p.header.type &&& typeForce ≠ 0) ∨
      (¬ Defined s p.header.id ∧ liveCount s < eventMaximum))
  /-- when a SUBSCRIBE is accepted -/
  subscribe : ∀ env c p, p.header.msg = .subscribe → (Act.packet env c p).onTable →
    ((clientSubscribe env s c p.header.id p.header.type p.header.updateCounter).ret = 0 ↔
      (∃ e, (s.events e).live = true ∧ (s.events e).id = p.header.id ∧
        subscribeAdmits p.header.type (s.events e).dataType = true) ∨
      (¬ Defined s p.header.id ∧ p.header.type &&& typeForce ≠ 0 ∧ liveCount s < eventMaximum))
  /-- the identifiers after an operation -/
  domain : ∀ env c p id, (Act.packet env c p).onTable → id.good →
    (Defined (act s (.packet env c p)).1 id ↔
      if id = p.header.id then p.opens env s c ∨ (Defined s id ∧ p.header.msg ≠ .undefine) else Defined s id)
  /-- a READ of nothing -/
  absent : ∀ env c p, p.header.msg = .read → (Act.packet env c p).onTable → ¬ Defined s p.header.id →
    ∃ q, (act s (.packet env c p)).2 = [.send c q] ∧
      q.header.type = Msg.read.code ||| typeVarNotDefined ∧ q.header.dataSize = 0
  /-- a READ of a written event -/
  latest : ∀ env c p flags payload, p.header.msg = .read → (Act.packet env c p).onTable →
    Defined s p.header.id → LatestWrite log p.header.id flags payload →
    ∃ q, (act s (.packet env c p)).2 = [.send c q] ∧
      q.header.type = Msg.read.code ||| (flags &&& typeVarMask) ∧
      q.header.dataSize.toNat = payload.length ∧ q.payload = payload
  /-- a READ after an accepted DEFINE -/
  defined : ∀ env c p env' c' r, p.header.msg = .define → (Act.packet env c p).onTable → p.opens env s c →
    r.header.msg = .read → (Act.packet env' c' r).onTable → r.header.id = p.header.id →
    ∃ q, (act (act s (.packet env c p)).1 (.packet env' c' r)).2 = [.send c' q] ∧
      q.header.type = Msg.read.code ||| (p.header.type &&& typeVarMask) ∧
      q.header.dataSize =
        if 1 < p.header.dataSize.toNat ∧ p.header.dataSize.toNat < variableSizeMaximum then p.header.dataSize
        else (getSizeByType p.header.type).toUInt16
  /-- a READ after an operation that stores no value -/
  kept : ∀ env c p env' c' r, p.header.msg ∈ [.subscribe, .unsubscribe, .read] → (Act.packet env c p).onTable →
    Defined s p.header.id → r.header.msg = .read → (Act.packet env' c' r).onTable → r.header.id = p.header.id →
    (act (act s (.packet env c p)).1 (.packet env' c' r)).2 = (act s (.packet env' c' r)).2
  /-- an operation on one identifier, then a READ of another -/
  frame : ∀ env c p env' c' r, (Act.packet env c p).onTable → r.header.msg = .read →
    (Act.packet env' c' r).onTable → r.header.id ≠ p.header.id →
    (act (act s (.packet env c p)).1 (.packet env' c' r)).2 = (act s (.packet env' c' r)).2

section Refinement

variable {env : Env} {s : Server} {c : ClientIx} {p : Packet} {id : Id}

theorem read_out (hm : p.header.msg = .read) :
    (act s (.packet env c p)).2 = [.send c (readPacket env s p.header.id)] := by
  simp only [act, clientProcessPacket, clientDispatch, hm]
  rfl

theorem defined_iff_look (hg : id.good) : Defined s id ↔ (look s.events id).isSome = true := by
  rw [look_eq_find hg, Option.isSome_map]
  constructor
  · rintro ⟨e, _, he⟩
    obtain ⟨e', hf⟩ := exists_findEvent he
    rw [hf]
    rfl
  · intro h
    obtain ⟨e, hf⟩ := Option.isSome_iff_exists.mp h
    have he := findEvent_some hf
    exact ⟨e, Event.live_iff.mpr (by rw [he]; exact hg), he⟩

/-- The operations considered touch one identifier only. -/
theorem look_other (hinv : TableInv s.events) (hon : (Act.packet env c p).onTable)
    (hne : id ≠ p.header.id) : look (act s (.packet env c p)).1.events id = look s.events id := by
  have happ : (packetChange env s c p).Applies s (act s (.packet env c p)).1.events := packet_change hinv p
  have hcases := packetChange_cases env s c p
  have hedit : ∀ {created k}, (Change.edit p.header.id created k).Applies s (act s (.packet env c p)).1.events →
      look (act s (.packet env c p)).1.events id = look s.events id := by
    rintro created k ⟨ev, _, _, hs⟩
    rw [hs.look, if_neg fun hc => hne hc.2]
  generalize packetChange env s c p = ch at happ hcases
  cases hcases with
  | keep => exact happ.2 id
  | subscribe created hm => exact hedit happ
  | unsubscribe hm => exact hedit happ
  | define created hm => exact hedit happ
  | write created hm => exact hedit happ
  | undefine hm => rw [happ.2, if_neg hne]
  | close hu =>
    have hmem := hon.1
    simp only [Header.unsupported, Bool.and_eq_true, beq_iff_eq] at hu
    rw [hu.1] at hmem
    exact absurd hmem (by decide)

/-- A live slot with the identifier, and what it holds. -/
theorem TableInv.exists_slot_iff (hinv : TableInv s.events) {P : Event → Prop} (hg : id.good) :
    (∃ ev, look s.events id = some ev ∧ P ev) ↔
      ∃ e, (s.events e).live = true ∧ (s.events e).id = id ∧ P (s.events e) := by
  constructor
  · rintro ⟨ev, hl, hp⟩
    obtain ⟨_, e, he, rfl⟩ := hinv.slot_of_look hl
    exact ⟨e, Event.live_iff.mpr (by rw [he]; exact hg), he, hp⟩
  · rintro ⟨e, hlive, rfl, hp⟩
    exact ⟨_, hinv.look_self (Event.live_iff.mp hlive), hp⟩

/-- An accepted packet edits its event. -/
theorem packetChange_opens (h : p.opens env s c) :
    ∃ k, packetChange env s c p = .edit p.header.id (!(look s.events p.header.id).isSome) k := by
  cases hm : p.header.msg <;> simp only [Packet.opens, hm] at h
  all_goals
    simp only [packetChange, hm, accepted, if_pos h]
    exact ⟨_, rfl⟩

/-- Any other edits an event that is there, if any. -/
theorem packetChange_shut (hon : (Act.packet env c p).onTable) (h : ¬ p.opens env s c) (hm : p.header.msg ≠ .undefine) :
    packetChange env s c p = .keep ∨
      ((look s.events p.header.id).isSome = true ∧
        packetChange env s c p = .edit p.header.id false (.unsubscribe c)) := by
  have hmem := hon.1
  simp only [List.mem_cons, List.not_mem_nil, or_false] at hmem
  rcases hmem with hmsg | hmsg | hmsg | hmsg | hmsg | hmsg
  all_goals simp only [Packet.opens, hmsg] at h
  all_goals simp only [packetChange, hmsg]
  · exact .inl (if_neg h)
  · exact absurd hmsg hm
  · exact .inl (if_neg h)
  · exact .inl (if_neg h)
  · split
    · rename_i hsome
      exact .inr ⟨hsome, rfl⟩
    · exact .inl rfl
  · exact .inl trivial

/-- The identifiers after an operation. -/
theorem look_packet (hinv : TableInv s.events) (hon : (Act.packet env c p).onTable) :
    (look (act s (.packet env c p)).1.events p.header.id).isSome = true ↔
      p.opens env s c ∨ ((look s.events p.header.id).isSome = true ∧ p.header.msg ≠ .undefine) := by
  have happ : (packetChange env s c p).Applies s (act s (.packet env c p)).1.events := packet_change hinv p
  have hedit : ∀ {created k}, (Change.edit p.header.id created k).Applies s (act s (.packet env c p)).1.events →
      (look (act s (.packet env c p)).1.events p.header.id).isSome = true := by
    rintro created k ⟨ev, _, _, hs⟩
    rw [hs.look, if_pos ⟨hon.2.1, rfl⟩]
    rfl
  by_cases hopens : p.opens env s c
  · obtain ⟨k, hch⟩ := packetChange_opens hopens
    rw [hch] at happ
    exact iff_of_true (hedit happ) (.inl hopens)
  · by_cases hm : p.header.msg = .undefine
    · have hch : packetChange env s c p = .free p.header.id := by simp only [packetChange, hm]
      rw [hch] at happ
      rw [happ.2, if_pos rfl]
      simp [hopens, hm]
    · simp only [hopens, false_or, ne_eq, hm, not_false_eq_true, and_true]
      rcases packetChange_shut hon hopens hm with hch | ⟨hsome, hch⟩
      · rw [hch] at happ
        rw [happ.2]
      · rw [hch] at happ
        exact iff_of_true (hedit happ) hsome

/-- An operation that stores no value. -/
theorem look_kept (hinv : TableInv s.events) (hon : (Act.packet env c p).onTable)
    (hm : p.header.msg ∈ [.subscribe, .unsubscribe, .read]) {ev : Event} (hl : look s.events p.header.id = some ev) :
    ∃ ev', look (act s (.packet env c p)).1.events p.header.id = some ev' ∧ SameValue ev ev' := by
  have happ : (packetChange env s c p).Applies s (act s (.packet env c p)).1.events := packet_change hinv p
  have hsome : (look (act s (.packet env c p)).1.events p.header.id).isSome = true := by
    rw [look_packet hinv hon, hl]
    refine .inr ⟨rfl, ?_⟩
    rintro hun
    rw [hun] at hm
    revert hm
    decide
  obtain ⟨ev', hl'⟩ := Option.isSome_iff_exists.mp hsome
  have hstores : ¬ (packetChange env s c p).stores p.header.id := by
    simp only [List.mem_cons, List.not_mem_nil, or_false] at hm
    rcases hm with hmsg | hmsg | hmsg <;> simp only [packetChange, hmsg]
    · simp only [accepted, hl]
      split <;> simp [Change.stores, Edit.stores]
    · split <;> simp [Change.stores, Edit.stores]
    · exact id
  obtain ⟨ev₀, hl₀, hsame⟩ := value_change happ hstores hl'
  rw [hl] at hl₀
  obtain rfl := Option.some.inj hl₀
  exact ⟨ev', hl', hsame⟩

/-- What an accepted DEFINE leaves. -/
theorem look_defined (hinv : TableInv s.events) (hon : (Act.packet env c p).onTable) (hm : p.header.msg = .define)
    (hopens : p.opens env s c) :
    ∃ ev, look (act s (.packet env c p)).1.events p.header.id =
      some (addEventStore ev p.header.type none p.header.dataSize.toUInt32) := by
  have happ : (packetChange env s c p).Applies s (act s (.packet env c p)).1.events := packet_change hinv p
  simp only [Packet.opens, hm] at hopens
  have hch : packetChange env s c p =
      .edit p.header.id (!(look s.events p.header.id).isSome)
        (.define p.header.type none p.header.dataSize.toUInt32) := by
    simp only [packetChange, hm, accepted, if_pos hopens]
  rw [hch] at happ
  obtain ⟨ev, _, _, hs⟩ := happ
  refine ⟨ev, ?_⟩
  rw [hs.look, if_pos ⟨hon.2.1, rfl⟩]
  rfl

end Refinement

/-- The size of a WRITE in the journal is that of its packet. -/
theorem journal_write_size (as : List Act) (hon : ∀ a ∈ as, a.onTable) (s : Server) {id : Id} {flags : UInt32}
    {payload : List UInt8} {ch : Change} (hmem : ch ∈ journal s as) (hw : ch.writes id flags payload) :
    payload.length ≤ variableSizeMaximum := by
  induction as generalizing s with
  | nil => cases hmem
  | cons a as ih =>
    rw [journal, List.mem_cons] at hmem
    rcases hmem with rfl | hmem
    · have ha := hon a (by simp)
      cases a with
      | packet env c p =>
        obtain ⟨_, _, hsize⟩ := ha
        simp only [changeOf] at hw
        have hcases := packetChange_cases env s c p
        generalize packetChange env s c p = ch at hw hcases
        cases hcases with
        | write created hm =>
          obtain ⟨_, _, rfl⟩ := hw
          simpa using hsize
        | _ => cases hw
      | _ => cases ha
    · exact ih (fun b hb => hon b (by simp [hb])) _ hmem

/-- **The event table refines a finite map.** -/
theorem event_table_refines_map (cid : List UInt8) (as : List Act) (hon : ∀ a ∈ as, a.onTable) :
    RefinesMap (run act (serverCreate cid) as).1 (journal (serverCreate cid) as) where
  unique := by
    intro i j hi _ hij
    exact (run_tableInv cid as).unique i j (Event.live_iff.mp hi) hij
  write := by
    intro env c p hm hp
    have hinv := run_tableInv cid as
    rw [clientWrite_ret_iff hp.2.1, defined_iff_look hp.2.1]
    refine or_congr ?_ ?_
    · rw [hinv.exists_slot_iff hp.2.1]
      refine exists_congr fun e => ?_
      rw [(hinv.slots e).typed]
    · simp
  define := by
    intro env c p hm hp
    rw [addEvent_ret_iff hp.2.1, defined_iff_look hp.2.1]
    simp
  subscribe := by
    intro env c p hm hp
    rw [clientSubscribe_ret_iff hp.2.1, defined_iff_look hp.2.1, (run_tableInv cid as).exists_slot_iff hp.2.1]
    simp
  domain := by
    intro env c p id hp hg
    rw [defined_iff_look hg, defined_iff_look hg]
    split
    · rename_i hid
      rw [hid]
      exact look_packet (run_tableInv cid as) hp
    · rename_i hid
      rw [look_other (run_tableInv cid as) hp hid]
  absent := by
    intro env c p hm hp hnot
    rw [defined_iff_look hp.2.1] at hnot
    have hl : look (run act (serverCreate cid) as).1.events p.header.id = none := by simpa using hnot
    refine ⟨_, read_out hm, ?_⟩
    rw [readPacket_eq hp.2.1, hl]
    exact ⟨rfl, rfl⟩
  latest := by
    intro env c p flags payload hm hp hdef hw
    rw [defined_iff_look hp.2.1] at hdef
    obtain ⟨ev, hl⟩ := Option.isSome_iff_exists.mp hdef
    have hst := latest_write_stored cid as hw hl
    have hsize : ev.dataSize.toNat ≤ variableSizeMaximum := by
      obtain ⟨pre, ch, post, hlog, hch, _⟩ := hw
      rw [hst.dataSize]
      exact journal_write_size as hon _ (by rw [hlog]; simp) hch
    refine ⟨_, read_out hm, ?_⟩
    rw [readPacket_eq hp.2.1, hl]
    refine ⟨?_, ?_, ?_⟩
    · simp [valuePacket, hst.dataType, UInt32.and_assoc]
    · simp only [valuePacket]
      rw [toUInt16_toNat hsize, hst.dataSize]
    · simp only [valuePacket, Packet.payload]
      rw [toUInt16_toNat hsize, read_write_read, hst.data]
  defined := by
    intro env c p env' c' r hm hp hopens hread hr hid
    obtain ⟨ev, hl⟩ := look_defined (run_tableInv cid as) hp hm hopens
    refine ⟨_, read_out hread, ?_⟩
    rw [readPacket_eq hr.2.1, hid, hl]
    refine ⟨?_, ?_⟩
    · simp [valuePacket, addEventStore, UInt32.and_assoc]
    · simp only [valuePacket, addEventStore]
      have hsize : p.header.dataSize.toUInt32.toNat = p.header.dataSize.toNat := rfl
      rw [hsize]
      split
      · exact UInt16.toUInt16_toUInt32 _
      · rfl
  kept := by
    intro env c p env' c' r hm hp hdef hread hr hid
    rw [defined_iff_look hp.2.1] at hdef
    obtain ⟨ev, hl⟩ := Option.isSome_iff_exists.mp hdef
    obtain ⟨ev', hl', hsame⟩ := look_kept (run_tableInv cid as) hp hm hl
    rw [read_out hread, read_out hread, readPacket_eq hr.2.1, readPacket_eq hr.2.1, hid, hl, hl']
    simp only [valuePacket, hsame.dataType, hsame.dataSize, hsame.data]
  frame := by
    intro env c p env' c' r hp hm hr hne
    rw [read_out hm, read_out hm, readPacket_eq hr.2.1, readPacket_eq hr.2.1,
      look_other (run_tableInv cid as) hp hne]

/-- Clients define `a` and write to it, one makes `b` by subscribing to it, and `a` is removed and made again by a
write. -/
def mapRun : List Act :=
  [.packet .calm 0 (.make (Msg.define.code ||| typeVarString) (idstr [97]) []),
    .packet .calm 1 (.make (Msg.write.code ||| typeVarString) (idstr [97]) [1, 2]),
    .packet .calm 1 (.make (Msg.subscribe.code ||| typeForce ||| typeVarInt32) (idstr [98]) []),
    .packet .calm 0 (.make (Msg.undefine.code) (idstr [97]) []),
    .packet .calm 0 (.make (Msg.write.code ||| typeForce ||| typeVarString) (idstr [97]) [3]),
    .packet .calm 1 (.make Msg.unsubscribe.code (idstr [98]) []),
    .packet .calm 1 (.make Msg.read.code (idstr [97]) [])]

theorem mapRun_refines_map : (∀ a ∈ mapRun, a.onTable) ∧
    RefinesMap (run act (serverCreate []) mapRun).1 (journal (serverCreate []) mapRun) := by
  have hon : ∀ a ∈ mapRun, a.onTable := by decide +kernel
  exact ⟨hon, event_table_refines_map [] mapRun hon⟩

end SyncScribe
