import SyncScribe.Server.Frame
import SyncScribe.Lib.Keyed

/-!
The event table. `TableInv` collects what every operation keeps: one slot for
each live identifier, consumers without duplicates, a correct count of them, and
a type made of type bits only. `look` is the finite map the table stands for;
most operations set one identifier in it (`SetsTo`).
-/

namespace SyncScribe
open Lib Lib.Bytes Lib.Slots Lib.Keyed

/-- An identifier that cannot be taken for the mark of a free slot. -/
def Id.good (id : Id) : Prop := id.i0 ≠ freeMark

instance : DecidablePred Id.good := fun id => inferInstanceAs (Decidable (id.i0 ≠ freeMark))

theorem Event.live_iff {e : Event} : e.live = true ↔ e.id.good := by simp [Event.live, Id.good]

theorem Id.not_good_free (id : Id) : ¬ id.free.good := by simp [Id.good, Id.free]

/-! ## Searching and creating -/

section Search

variable {s s' : Server} {id : Id} {e : EventIx} {flags dataType : UInt32} {r : Int}

theorem findEvent_some (h : findEvent s id = some e) : (s.events e).id = id :=
  idcmp_iff.mp (first_some h)

theorem findEvent_eq_none : findEvent s id = none ↔ ∀ e, (s.events e).id ≠ id := by
  rw [findEvent, first_eq_none]
  constructor
  · intro h e he
    have := h e
    rw [idcmp_iff.mpr he] at this
    cases this
  · intro h e
    cases hc : idcmp (s.events e).id id with
    | false => rfl
    | true => exact absurd (idcmp_iff.mp hc) (h e)

theorem exists_findEvent (h : (s.events e).id = id) : ∃ e', findEvent s id = some e' :=
  exists_first (idcmp_iff.mpr h)

/-- What `syncs_create_event` does when it finds a free slot. -/
def createdServer (s : Server) (id : Id) (e : EventIx) (dataType : UInt32) : Server :=
  { s.setEvent e { eventInit (s.events e) id with dataType := dataType } with
    eventCount := s.eventCount + 1 }

theorem createdServer_self (s : Server) (id : Id) (e : EventIx) (dataType : UInt32) :
    (createdServer s id e dataType).events e = { eventInit (s.events e) id with dataType := dataType } :=
  Server.setEvent_same _ _ _

theorem createEvent_some (h : createEvent s id = some (s', e)) :
    ¬ (s.events e).id.good ∧ s' = createdServer s id e 0 := by
  unfold createEvent at h
  split at h
  · rename_i i hi
    simp only [Option.some.injEq, Prod.mk.injEq] at h
    obtain ⟨rfl, rfl⟩ := h
    have := first_some hi
    exact ⟨by simpa [Id.good] using this, rfl⟩
  · cases h

theorem createEvent_eq_none : createEvent s id = none ↔ ∀ e, (s.events e).id.good := by
  unfold createEvent
  cases hf : first fun e => (s.events e).id.i0 == freeMark with
  | none => simpa [Id.good] using first_eq_none.mp hf
  | some e =>
    have := first_some hf
    simp only [reduceCtorEq, false_iff, not_forall]
    exact ⟨e, by simpa [Id.good] using this⟩

theorem openEvent_ok (h : openEvent s id flags dataType = .ok (s', e)) :
    (findEvent s id = some e ∧ s' = s) ∨
      (findEvent s id = none ∧ flags &&& typeForce ≠ 0 ∧ ¬ (s.events e).id.good ∧
        s' = createdServer s id e dataType) := by
  unfold openEvent at h
  split at h
  · rename_i e' he
    simp only [Except.ok.injEq, Prod.mk.injEq] at h
    obtain ⟨rfl, rfl⟩ := h
    exact Or.inl ⟨he, rfl⟩
  · rename_i hn
    split at h
    · cases h
    · rename_i hf
      split at h
      · cases h
      · rename_i s₁ e₁ hc
        simp only [Except.ok.injEq, Prod.mk.injEq] at h
        obtain ⟨rfl, rfl⟩ := h
        obtain ⟨hg, rfl⟩ := createEvent_some hc
        refine Or.inr ⟨hn, hf, hg, ?_⟩
        simp [createdServer, Server.setEvent, eventInit]

theorem openEvent_error (h : openEvent s id flags dataType = .error r) :
    r ≠ 0 ∧ findEvent s id = none ∧ (flags &&& typeForce = 0 ∨ ∀ e, (s.events e).id.good) := by
  unfold openEvent at h
  split at h
  · cases h
  · rename_i hn
    split at h
    · rename_i hf
      cases h
      exact ⟨by decide, hn, Or.inl hf⟩
    · split at h
      · rename_i hc
        cases h
        exact ⟨by decide, hn, Or.inr (createEvent_eq_none.mp hc)⟩
      · cases h

/-- The event a call opened carries the identifier asked for. -/
theorem openEvent_id (h : openEvent s id flags dataType = .ok (s', e)) : (s'.events e).id = id := by
  rcases openEvent_ok h with ⟨hf, rfl⟩ | ⟨_, _, _, rfl⟩
  · exact findEvent_some hf
  · simp [createdServer, eventInit]

end Search

/-! ## The invariant and the map -/

abbrev Table := EventIx → Event

/-- What holds of every slot, free or not. -/
structure SlotInv (ev : Event) : Prop where
  distinct : Distinct ev.consumers
  counted : ev.consumersCount.toNat = count ev.consumers
  typed : ev.dataType &&& typeVarMask = ev.dataType

/-- It does not read the identifier, the value or the callback. -/
theorem SlotInv.same {ev ev' : Event} (h : SlotInv ev) (hc : ev'.consumers = ev.consumers)
    (hn : ev'.consumersCount = ev.consumersCount) (ht : ev'.dataType = ev.dataType) : SlotInv ev' :=
  ⟨hc ▸ h.distinct, hn ▸ hc ▸ h.counted, ht ▸ h.typed⟩

structure TableInv (t : Table) : Prop where
  unique : Unique Event.id Id.good t
  slots : ∀ i, SlotInv (t i)

/-- The event a good identifier names. -/
def look (t : Table) (id : Id) : Option Event := lookup Event.id Id.good t id

/-- The live event `id` lists `c` as a consumer. -/
def Consumes (t : Table) (c : ClientIx) (id : Id) : Prop :=
  ∃ ev, look t id = some ev ∧ Holds ev.consumers c

/-- `id` is the identifier of a live event. -/
def LiveId (t : Table) (id : Id) : Prop := (look t id).isSome = true

instance (t : Table) (id : Id) : Decidable (LiveId t id) := inferInstanceAs (Decidable (_ = true))

/-- `t'` is `t` with the identifier `id` naming `ev`. -/
structure SetsTo (t : Table) (id : Id) (ev : Event) (t' : Table) : Prop where
  inv : TableInv t'
  look : ∀ id', look t' id' = if id'.good ∧ id' = id then some ev else look t id'

section Table

variable {s : Server} {t t' : Table} {e : EventIx} {ev : Event} {c : ClientIx} {id id' : Id}

theorem tableInv_init (cid : List UInt8) : TableInv (serverCreate cid).events where
  unique := by
    intro i j h
    exact absurd h (Id.not_good_free _)
  slots := by
    intro i
    exact ⟨distinct_empty, by simp [serverCreate, Event.init], by simp [serverCreate, Event.init]⟩

theorem look_init (cid : List UInt8) (id : Id) : look (serverCreate cid).events id = none := by
  rw [look, lookup_eq_none]
  rintro hg i rfl
  exact Id.not_good_free _ hg

theorem look_good (h : look t id = some ev) : id.good := good_of_lookup h

theorem look_id (h : look t id = some ev) : ev.id = id := key_of_lookup h

theorem look_eq_find (hg : id.good) : look s.events id = (findEvent s id).map s.events := by
  have hcmp : ∀ e, decide ((s.events e).id = id) = idcmp (s.events e).id id := by
    intro e
    rw [Bool.eq_iff_iff, decide_eq_true_iff, idcmp_iff]
  simp only [look, lookup, hg, ↓reduceIte, findEvent, hcmp]

theorem look_of_find (hg : id.good) (h : findEvent s id = some e) :
    look s.events id = some (s.events e) := by
  rw [look_eq_find hg, h, Option.map_some]

theorem look_of_not_found (h : findEvent s id = none) : look s.events id = none := by
  by_cases hg : id.good
  · rw [look_eq_find hg, h, Option.map_none]
  · rw [look, lookup, if_neg hg]

theorem TableInv.look_self (h : TableInv t) (hg : (t e).id.good) : look t (t e).id = some (t e) :=
  lookup_self h.unique hg

theorem TableInv.slot_of_look (h : TableInv t) (hl : SyncScribe.look t id = some ev) :
    id.good ∧ ∃ e, (t e).id = id ∧ t e = ev :=
  (lookup_eq_some h.unique).mp hl

theorem TableInv.slotInv (h : TableInv t) (hl : SyncScribe.look t id = some ev) : SlotInv ev := by
  obtain ⟨_, e, _, rfl⟩ := h.slot_of_look hl
  exact h.slots e

/-- A store that keeps the identifier of its slot. -/
theorem TableInv.store (h : TableInv t) (hat : (t e).id = id) (hid : ev.id = (t e).id) (hev : SlotInv ev) :
    SetsTo t id ev (Function.update t e ev) := by
  refine ⟨⟨h.unique.update hid, forall_update h.slots hev⟩, ?_⟩
  intro id'
  rw [← hat, ← hid]
  exact lookup_update h.unique hid

/-- Taking a free slot for a new identifier. -/
theorem TableInv.insert (h : TableInv t) (hfree : ¬ (t e).id.good) (hnew : ∀ i, (t i).id ≠ ev.id)
    (hev : SlotInv ev) : SetsTo t ev.id ev (Function.update t e ev) :=
  ⟨⟨h.unique.insert hnew, forall_update h.slots hev⟩, fun _ => lookup_insert h.unique hfree hnew⟩

/-- Setting twice is setting once. -/
theorem SetsTo.trans {t'' : Table} {ev' : Event} (h : SetsTo t id ev t') (h' : SetsTo t' id ev' t'') :
    SetsTo t id ev' t'' := by
  refine ⟨h'.inv, ?_⟩
  intro id'
  rw [h'.look]
  split
  · rfl
  · rename_i hn
    rw [h.look, if_neg hn]

theorem SetsTo.consumes (h : SetsTo t id ev t') :
    Consumes t' c id' ↔ if id'.good ∧ id' = id then Holds ev.consumers c else Consumes t c id' := by
  simp only [Consumes, h.look]
  split
  · simp
  · rfl

theorem SetsTo.liveId (h : SetsTo t id ev t') : LiveId t' id' ↔ (id'.good ∧ id' = id) ∨ LiveId t id' := by
  simp only [LiveId, h.look]
  split
  · rename_i hc
    exact ⟨fun _ => Or.inl hc, fun _ => rfl⟩
  · rename_i hc
    simp [hc]

theorem Consumes.good (h : Consumes t c id) : id.good := by
  obtain ⟨ev, hl, _⟩ := h
  exact look_good hl

/-- For a live slot, being a consumer of its identifier is being listed in it. -/
theorem TableInv.consumes_iff (h : TableInv t) (hg : (t e).id.good) :
    Consumes t c (t e).id ↔ Holds (t e).consumers c := by
  simp [Consumes, h.look_self hg]

end Table

end SyncScribe
