import SyncScribe.Server.Journal
import SyncScribe.Server.Overrun

/-!
The consumers of an event are its subscribers. Two readings of the journal say
who is subscribed: since the accepted SUBSCRIBE nothing ended the subscription
(`Subscribed`), or the latest request of the client since the creation of the
event is a SUBSCRIBE (`SubscribedSinceCreation`). Both agree with the consumer
arrays in every reachable state.
-/

namespace SyncScribe
open Lib Lib.Bytes Lib.Slots Lib.Keyed

/-- An accepted SUBSCRIBE of `c` to `id`. -/
def Change.subscribes (c : ClientIx) (id : Id) : Change → Prop
  | .edit id' _ (.subscribe c' _) => c' = c ∧ id' = id
  | _ => False

/-- An UNSUBSCRIBE of `c` from `id`, or a close of `c`. -/
def Change.unsubscribes (c : ClientIx) (id : Id) : Change → Prop
  | .edit id' _ (.unsubscribe c') => c' = c ∧ id' = id
  | .close c' => c' = c
  | _ => False

def Change.creates (id : Id) : Change → Prop
  | .edit id' created _ => created = true ∧ id' = id
  | _ => False

def Change.frees (id : Id) : Change → Prop
  | .free id' => id' = id
  | _ => False

instance (c : ClientIx) (id : Id) : DecidablePred (Change.subscribes c id)
  | .edit id' _ (.subscribe c' _) => inferInstanceAs (Decidable (c' = c ∧ id' = id))
  | .edit _ _ (.unsubscribe ..) | .edit _ _ (.define ..) | .edit _ _ (.write ..)
  | .edit _ _ (.serverWrite ..) | .edit _ _ (.callback ..) | .keep | .free _ | .close _ =>
    inferInstanceAs (Decidable False)

instance (c : ClientIx) (id : Id) : DecidablePred (Change.unsubscribes c id)
  | .edit id' _ (.unsubscribe c') => inferInstanceAs (Decidable (c' = c ∧ id' = id))
  | .close c' => inferInstanceAs (Decidable (c' = c))
  | .edit _ _ (.subscribe ..) | .edit _ _ (.define ..) | .edit _ _ (.write ..)
  | .edit _ _ (.serverWrite ..) | .edit _ _ (.callback ..) | .keep | .free _ =>
    inferInstanceAs (Decidable False)

instance (id : Id) : DecidablePred (Change.creates id)
  | .edit id' created _ => inferInstanceAs (Decidable (created = true ∧ id' = id))
  | .keep | .free _ | .close _ => inferInstanceAs (Decidable False)

instance (id : Id) : DecidablePred (Change.frees id)
  | .free id' => inferInstanceAs (Decidable (id' = id))
  | .keep | .edit .. | .close _ => inferInstanceAs (Decidable False)

/-- `c` subscribed to `id` and neither left, nor was closed, nor was `id` undefined since. -/
def Subscribed (log : List Change) (c : ClientIx) (id : Id) : Prop :=
  Since (Change.subscribes c id) (fun ch => ch.unsubscribes c id ∨ ch.frees id) log

/-- The latest SUBSCRIBE, UNSUBSCRIBE or close of `c` since the creation of `id` is a SUBSCRIBE. -/
def SubscribedSinceCreation (log : List Change) (c : ClientIx) (id : Id) : Prop :=
  Since (Change.subscribes c id) (fun ch => ch.unsubscribes c id ∨ ch.creates id) log

instance (log : List Change) (c : ClientIx) (id : Id) : Decidable (Subscribed log c id) :=
  inferInstanceAs (Decidable (Since _ _ log))

instance (log : List Change) (c : ClientIx) (id : Id) : Decidable (SubscribedSinceCreation log c id) :=
  inferInstanceAs (Decidable (Since _ _ log))

section Steps

variable {s : Server} {ch : Change} {t' : Table} {c : ClientIx} {id : Id}

/-- The consumers an edit of the event leaves. -/
theorem holds_edit (id : Id) {ev : Event} (k : Edit) (h : SlotInv ev) (created : Bool) :
    Holds (k.apply s ev).consumers c ↔
      (Change.edit id created k).subscribes c id ∨
        (Holds ev.consumers c ∧ ¬ (Change.edit id created k).unsubscribes c id) := by
  cases k with
  | subscribe c' flags =>
    simp only [Edit.apply, holds_addConsumer h, Change.subscribes, Change.unsubscribes, and_true, not_false_iff]
    rw [eq_comm]
  | unsubscribe c' =>
    simp only [Edit.apply, holds_dropConsumer h, Change.subscribes, Change.unsubscribes, and_true, false_or]
    rw [and_comm, eq_comm]
  | define flags data size => simp [Edit.apply, addEventStore, Change.subscribes, Change.unsubscribes]
  | write c' flags data size => simp [Edit.apply, writeStore, Change.subscribes, Change.unsubscribes]
  | serverWrite flags data size => simp [Edit.apply, serverWriteStore, Change.subscribes, Change.unsubscribes]
  | callback cb args => simp [Edit.apply, Change.subscribes, Change.unsubscribes]

/-- A new event has no consumers. -/
theorem Origin.consumes {created : Bool} {dataType : UInt32} {ev : Event} (h : Origin s id created dataType ev)
    (hg : id.good) : Holds ev.consumers c ↔ Consumes s.events c id := by
  cases created with
  | false => simp [Consumes, h.found rfl]
  | true =>
    obtain ⟨hnone, hfresh⟩ := h.fresh rfl
    obtain ⟨old, rfl⟩ := hfresh hg
    simp only [Consumes, hnone, reduceCtorEq, false_and, exists_false, iff_false]
    exact not_holds_empty c

/-- An edit of one event is not seen by another. -/
theorem edit_other {id' : Id} (k : Edit) (created : Bool) (hne : id ≠ id') :
    ¬ (Change.edit id' created k).subscribes c id ∧ ¬ (Change.edit id' created k).unsubscribes c id := by
  cases k <;> simp [Change.subscribes, Change.unsubscribes, hne.symm]

/-- **What a change does to the consumers.** -/
theorem consumes_change (hinv : TableInv s.events) (h : ch.Applies s t') (hg : id.good) :
    Consumes t' c id ↔
      ch.subscribes c id ∨ (Consumes s.events c id ∧ ¬ (ch.unsubscribes c id ∨ ch.frees id)) := by
  cases ch with
  | keep => simp [Consumes, h.2, Change.subscribes, Change.unsubscribes, Change.frees]
  | edit id' created k =>
    obtain ⟨ev, ho, _, hs⟩ := h
    rw [hs.consumes]
    by_cases hid : id = id'
    · subst hid
      rw [if_pos ⟨hg, rfl⟩, holds_edit id k ho.slot created, ho.consumes hg]
      simp [Change.frees]
    · rw [if_neg (fun hh => hid hh.2)]
      have hother := edit_other (c := c) k created hid
      simp [hother.1, hother.2, Change.frees]
  | free id' =>
    simp only [Consumes, h.2, Change.subscribes, Change.unsubscribes, Change.frees, false_or]
    by_cases hid : id = id'
    · subst hid
      simp
    · simp [hid, Ne.symm hid]
  | close c' =>
    have hmap : Consumes t' c id ↔ Consumes (closeClientSocket s c').events c id := by
      simp only [Consumes, h.2, (closeClientSocket_table hinv).2]
    rw [hmap, closeClientSocket_consumes hinv]
    simp only [Change.subscribes, Change.unsubscribes, Change.frees, or_false, false_or]
    rw [and_comm, eq_comm]

/-- What a change does to the set of live identifiers. -/
theorem liveId_change (h : ch.Applies s t') (hlive : LiveId t' id) :
    ¬ ch.frees id ∧ (LiveId s.events id ∨ ch.creates id) := by
  cases ch with
  | keep =>
    simp only [LiveId, h.2] at hlive
    exact ⟨fun hf => hf, Or.inl hlive⟩
  | edit id' created k =>
    obtain ⟨ev, ho, _, hs⟩ := h
    refine ⟨fun hf => hf, ?_⟩
    rcases hs.liveId.mp hlive with ⟨_, rfl⟩ | hl
    · cases created with
      | true => exact Or.inr ⟨rfl, rfl⟩
      | false => exact Or.inl (by simp [LiveId, ho.found rfl])
    · exact Or.inl hl
  | free id' =>
    simp only [LiveId, h.2] at hlive
    split at hlive
    · cases hlive
    · rename_i hne
      exact ⟨fun hf => hne hf.symm, Or.inl hlive⟩
  | close c =>
    simp only [LiveId, h.2, Option.isSome_map] at hlive
    exact ⟨fun hf => hf, Or.inl hlive⟩

/-- A creation is an accepted call. -/
theorem Change.creates_cases (hc : ch.creates id) : ∃ k, ch = .edit id true k := by
  cases ch with
  | edit id' created k =>
    obtain ⟨rfl, rfl⟩ := hc
    exact ⟨k, rfl⟩
  | keep => cases hc
  | free id' => cases hc
  | close c' => cases hc

/-- Only what is not live is created. -/
theorem look_of_creates (h : ch.Applies s t') (hc : ch.creates id) : look s.events id = none := by
  obtain ⟨k, rfl⟩ := Change.creates_cases hc
  obtain ⟨ev, ho, _, _⟩ := h
  exact (ho.fresh rfl).1

theorem not_consumes_of_creates (h : ch.Applies s t') (hc : ch.creates id) : ¬ Consumes s.events c id := by
  rintro ⟨ev, hl, _⟩
  rw [look_of_creates h hc] at hl
  cases hl

end Steps

/-! ## Runs -/

section Runs

variable (cid : List UInt8) (as : List Act) (c : ClientIx) {id : Id}

/-- The consumers of a live event are those whose latest request is a SUBSCRIBE. -/
theorem consumes_iff_sinceCreation (hlive : LiveId (run act (serverCreate cid) as).1.events id) :
    Consumes (run act (serverCreate cid) as).1.events c id ↔
      SubscribedSinceCreation (journal (serverCreate cid) as) c id := by
  induction as using List.reverseRecOn with
  | nil => simp [run, LiveId, look_init] at hlive
  | append_singleton as a ih =>
    have hinv := run_tableInv cid as
    obtain ⟨ev, hl⟩ := Option.isSome_iff_exists.mp hlive
    have hg := look_good hl
    rw [run_concat] at hlive
    have happ := act_change hinv a
    obtain ⟨hfree, hbefore⟩ := liveId_change happ hlive
    rw [run_concat, journal_concat, SubscribedSinceCreation, since_concat, consumes_change hinv happ hg]
    by_cases hc : (changeOf (run act (serverCreate cid) as).1 a).creates id
    · simp [hc, not_consumes_of_creates happ hc]
    · have hlive' := hbefore.resolve_right hc
      rw [ih hlive']
      simp [hc, hfree, SubscribedSinceCreation]

/-- The consumers of the live events are the subscribers that the log says, without duplicates and correctly counted,
and there is always room for one more. -/
structure ConsumersExact (s : Server) (log : List Change) : Prop where
  distinct : ∀ e, (s.events e).id.good → Distinct (s.events e).consumers
  subscribed : ∀ e, (s.events e).id.good → ∀ c,
    Holds (s.events e).consumers c ↔ SubscribedSinceCreation log c (s.events e).id
  counted : ∀ e, (s.events e).id.good → (s.events e).consumersCount.toNat = count (s.events e).consumers
  room : ∀ c id flags s' e, openEvent s id flags (flags &&& typeVarMask) = .ok (s', e) → (addClientToEvent s' c e).1 = 0

theorem run_consumersExact : ConsumersExact (run act (serverCreate cid) as).1 (journal (serverCreate cid) as) := by
  have hinv := run_tableInv cid as
  refine ⟨fun e _ => (hinv.slots e).distinct, ?_, fun e _ => (hinv.slots e).counted, ?_⟩
  · intro e hg c
    rw [← hinv.consumes_iff hg]
    exact consumes_iff_sinceCreation cid as c (by simp [LiveId, hinv.look_self hg])
  · intro c id flags s e ho
    exact addClientToEvent_ret (openEvent_spec hinv (typeVarMask_idem flags) ho).sets.inv

/-- **The consumers array is the set of subscribers** of its event, in every run whose accepted calls of
`syncs_server_write` bring no more than the array of an event holds. -/
theorem consumers_exact (place : Places)
    (h : Along (memoryAct place) ServerMemory.InArray (.whole (serverCreate cid)) as) :
    ∃ s, (run (memoryAct place) (.whole (serverCreate cid)) as).1 = .whole s ∧
      ConsumersExact s (journal (serverCreate cid) as) :=
  ⟨_, congrArg Prod.fst (run_memoryAct as h), run_consumersExact cid as⟩

/-- A client subscribes, another one does too, the first one leaves, and the application writes. -/
def subscribersRun : List Act :=
  [.accept (some (3, ⟨1, 2⟩)), .accept (some (4, ⟨5, 6⟩)),
    .packet .calm 0 (Packet.make (Msg.subscribe.code ||| typeForce ||| typeVarString) (idstr [97]) []),
    .packet .calm 1 (Packet.make (Msg.subscribe.code ||| typeVarString) (idstr [97]) []), .close 0,
    .serverWrite .calm typeVarString [97] [104, 105, 0] 3]

/-- A place for every client. -/
def somePlaces : Places := fun c => UInt64.ofNat (65536 * (c + 1))

theorem subscribersRun_exact : ∃ s,
    (run (memoryAct somePlaces) (.whole (serverCreate [])) subscribersRun).1 = .whole s ∧
      ConsumersExact s (journal (serverCreate []) subscribersRun) := by
  have hshort : ∀ s : Server, Act.inArray s (.serverWrite .calm typeVarString [97] [104, 105, 0] 3) :=
    fun _ _ => by decide
  exact consumers_exact [] subscribersRun somePlaces ⟨fun _ _ => trivial, fun _ _ => trivial, fun _ _ => trivial,
    fun _ _ => trivial, fun _ _ => trivial, fun s _ => hshort s, trivial⟩

/-- 540 bytes for a new event: the last four of them are behind its `update_counter`. -/
def countedWrite : Act :=
  .serverWrite .calm (typeForce ||| typeVarString) [97] (List.replicate 536 0 ++ [1, 0, 0, 0]) 540

/-- The event counts a consumer it does not have. -/
theorem countedWrite_miscounts : ∃ s,
    (run (memoryAct somePlaces) (.whole (serverCreate [])) [countedWrite]).1 = .overrun s ∧
      ¬ ConsumersExact s (journal (serverCreate []) [countedWrite]) := by
  have hleft : ((run (memoryAct somePlaces) (.whole (serverCreate [])) [countedWrite]).1.spoilt.map fun s =>
      (decide (s.events 0).id.good, (s.events 0).consumersCount.toNat, count (s.events 0).consumers)) =
        some (true, 1, 0) := by
    decide +kernel
  obtain ⟨s, hs, hvalues⟩ := Option.map_eq_some_iff.mp hleft
  simp only [Prod.mk.injEq, decide_eq_true_eq] at hvalues
  refine ⟨s, ServerMemory.spoilt_iff.mp hs, fun h => ?_⟩
  have hcounted := h.counted 0 hvalues.1
  rw [hvalues.2.1, hvalues.2.2] at hcounted
  cases hcounted

end Runs

end SyncScribe
