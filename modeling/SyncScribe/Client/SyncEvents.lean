import SyncScribe.Client.Machine
import SyncScribe.Client.Table
import Mathlib.Data.List.Induction

/-!
Synchronous events. An EVENT for a slot that has memory is stored there and made
the pending event, a single pointer that the next `syncs_wait_event` takes. An
event that arrives while another identifier is pending replaces it; in runs in
which none does, a call that finds nothing pending comes after the latest payload
of every identifier was returned.
-/

namespace SyncScribe
open Lib Lib.Bytes Lib.Slots

/-- A call of `syncs_subscribe_event_sync` that got its memory. -/
def ClientAct.subscribesSync : ClientAct → Prop
  | .subscribeSync _ _ _ eventData => eventData.isSome = true
  | _ => False

/-! ## What is asked -/

/-- Some `syncs_wait_event` among the acts returns `payload` for `id`. -/
def Seen (s : Connect) (acts : List ClientAct) (id : Id) (payload : List UInt8) : Prop :=
  ∃ before size after w, acts = before ++ .waitEvent size :: after ∧
    (waitEvent (run clientAct s before).1 size).1 = some w ∧ w.id = id ∧ w.data = payload

/-- The latest packet for `id` among the acts is `p`, the acts behind it being `after`. -/
def LatestEvent (acts before : List ClientAct) (env : ClientEnv) (p : Packet) (after : List ClientAct) : Prop :=
  acts = before ++ .packet env p :: after ∧
    ∀ env' p', .packet env' p' ∈ after → p'.header.id ≠ p.header.id

/-- Whenever a call finds nothing pending, the latest payload of every identifier of the table was
returned after it arrived. -/
def NoneLost (s : Connect) (acts : List ClientAct) : Prop :=
  ∀ pre size post, acts = pre ++ .waitEvent size :: post →
    (waitEvent (run clientAct s pre).1 size).1 = none →
    ∀ before env p after, LatestEvent pre before env p after → InTable s.events p.header.id →
      Seen (clientAct (run clientAct s before).1 (.packet env p)).1 after p.header.id p.payload

/-- EVENT packets for identifiers of the table, and calls with a buffer for every payload. -/
def ClientAct.isSync (s : Connect) : ClientAct → Prop
  | .packet _ p => p.header.msg = .event ∧ p.header.dataSize.toNat ≤ variableSizeMaximum ∧
    InTable s.events p.header.id
  | .waitEvent size => variableSizeMaximum ≤ size
  | _ => False

/-- No event arrives while another identifier is pending. -/
def ClientAct.uncrowded (s : Connect) : ClientAct → Prop
  | .packet _ p => s.eventsQueue = none ∨ s.eventsQueue = s.findEvent p.header.id
  | _ => True

/-! ## Packets and calls -/

/-- Every identifier of the table has memory for its events. -/
def HasMemory (s : Connect) : Prop := ∀ e, (s.events e).id.good → (s.events e).data.isSome = true

/-- The payload of `p` is stored and pending. -/
structure PendingOf (s : Connect) (p : Packet) (e : EventIx) : Prop where
  queue : s.eventsQueue = some e
  id : (s.events e).id = p.header.id
  size : (s.events e).dataSize = p.header.dataSize.toUInt32
  data : ∃ mem, (s.events e).data = some mem ∧ Lib.Bytes.read mem p.header.dataSize.toNat = p.payload

section Steps

variable {s : Connect} {p : Packet} {e : EventIx}

theorem Connect.findEvent_some {id : Id} (h : s.findEvent id = some e) : (s.events e).id = id :=
  idcmp_iff.mp (first_some h)

theorem InTable.find {id : Id} (h : InTable s.events id) : ∃ e, s.findEvent id = some e := by
  obtain ⟨e, _, he⟩ := h
  exact exists_first (idcmp_iff.mpr he)

theorem InTable.good {id : Id} (h : InTable s.events id) : id.good := by
  obtain ⟨e, hg, rfl⟩ := h
  exact hg

/-- The identifiers of the table stay as they are. -/
theorem processEvent_id (s : Connect) (p : Packet) (i : EventIx) :
    ((processEvent s p).1.events i).id = (s.events i).id := by
  unfold processEvent
  split
  · rfl
  · rename_i e _
    by_cases hi : i = e
    · subst hi
      simp only
      split <;> simp [Connect.setEvent]
    · simp only
      split <;> simp [Connect.setEvent, hi]

/-- An EVENT for an identifier with memory is stored and pending. -/
theorem processEvent_pending (hf : s.findEvent p.header.id = some e) (hmem : (s.events e).data.isSome = true) :
    PendingOf (processEvent s p).1 p e := by
  obtain ⟨mem, hmem⟩ := Option.isSome_iff_exists.mp hmem
  have hid := Connect.findEvent_some hf
  simp only [processEvent, hf, hmem]
  refine ⟨rfl, ?_, ?_, write mem 0 p.payload, ?_, ?_⟩
  · simpa [Connect.setEvent] using hid
  · simp [Connect.setEvent]
  · simp [Connect.setEvent, Packet.payload]
  · exact read_write_read _ _ _

theorem processEvent_memory (h : HasMemory s) : HasMemory (processEvent s p).1 := by
  intro i hi
  rw [processEvent_id] at hi
  have hmem := h i hi
  unfold processEvent
  split
  · exact hmem
  · rename_i e hf
    by_cases hie : i = e
    · subst hie
      obtain ⟨mem, hmem⟩ := Option.isSome_iff_exists.mp hmem
      simp [hmem, Connect.setEvent]
    · simp only
      split <;> simpa [Connect.setEvent, hie] using hmem

/-- A call that finds the payload pending returns it. -/
theorem waitEvent_pending (h : PendingOf s p e) {size : Nat} (hsize : p.header.dataSize.toNat ≤ size) :
    ∃ w, (waitEvent s size).1 = some w ∧ w.id = p.header.id ∧ w.data = p.payload := by
  obtain ⟨mem, hmem, hread⟩ := h.data
  have hmin : min size (s.events e).dataSize.toNat = p.header.dataSize.toNat := by
    rw [h.size, UInt16.toNat_toUInt32]
    omega
  simp only [waitEvent, h.queue]
  exact ⟨_, rfl, h.id, by simp only [hmem, Option.getD_some, hmin, hread]⟩

/-- A call leaves the table alone. -/
theorem waitEvent_events (s : Connect) (size : Nat) : (waitEvent s size).2.events = s.events := by
  unfold waitEvent
  split <;> rfl

/-- What packets and calls keep. -/
theorem clientAct_sync {a : ClientAct} (hm : HasMemory s) (ha : a.isSync s) :
    HasMemory (clientAct s a).1 ∧ ∀ i, ((clientAct s a).1.events i).id = (s.events i).id := by
  cases a with
  | packet env p =>
    simp only [clientAct, Connect.call?, processPacket, ha.1]
    exact ⟨processEvent_memory hm, processEvent_id s p⟩
  | waitEvent size =>
    have hev := waitEvent_events s size
    refine ⟨?_, ?_⟩
    · intro i hi
      simp only [clientAct, hev] at hi ⊢
      exact hm i hi
    · intro i
      simp only [clientAct, hev]
  | _ => exact ha.elim

end Steps

/-! ## Runs -/

section Runs

variable {s : Connect}

theorem run_sync (hm : HasMemory s) (as : List ClientAct)
    (hal : Along clientAct (fun s a => a.isSync s ∧ a.uncrowded s) s as) :
    HasMemory (run clientAct s as).1 ∧ ∀ i, ((run clientAct s as).1.events i).id = (s.events i).id := by
  induction as using List.reverseRecOn with
  | nil => exact ⟨hm, fun _ => rfl⟩
  | append_singleton as a ih =>
    rw [along_append] at hal
    obtain ⟨hmem, hids⟩ := ih hal.1
    obtain ⟨hmem', hids'⟩ := clientAct_sync hmem hal.2.1.1
    rw [run_concat]
    exact ⟨hmem', fun i => (hids' i).trans (hids i)⟩

/-- The latest packet of an identifier, when one act follows. -/
theorem latestEvent_concat {as before after : List ClientAct} {a : ClientAct} {env : ClientEnv} {p : Packet}
    (h : LatestEvent (as ++ [a]) before env p after) :
    (as = before ∧ a = .packet env p ∧ after = []) ∨
      ∃ after', after = after' ++ [a] ∧ LatestEvent as before env p after' := by
  obtain ⟨heq, hlast⟩ := h
  rcases List.eq_nil_or_concat after with rfl | ⟨after', b, rfl⟩
  · obtain ⟨hb, ha⟩ := List.append_inj' heq rfl
    rw [List.singleton_inj] at ha
    exact Or.inl ⟨hb, ha, rfl⟩
  · rw [List.concat_eq_append] at heq hlast ⊢
    rw [← List.cons_append, ← List.append_assoc] at heq
    obtain ⟨hb, ha⟩ := List.append_inj' heq rfl
    rw [List.singleton_inj] at ha
    subst ha
    refine Or.inr ⟨after', rfl, hb, ?_⟩
    intro env' p' hp'
    exact hlast env' p' (by simp [hp'])

theorem Seen.append {acts : List ClientAct} {id : Id} {payload : List UInt8} (h : Seen s acts id payload)
    (more : List ClientAct) : Seen s (acts ++ more) id payload := by
  obtain ⟨before, size, after, w, rfl, hw⟩ := h
  exact ⟨before, size, after ++ more, w, by simp, hw⟩

/-- **The invariant**: the latest payload of an identifier was returned, or is pending. -/
theorem seen_or_pending (hm : HasMemory s) (as : List ClientAct)
    (hal : Along clientAct (fun s a => a.isSync s ∧ a.uncrowded s) s as) {before after : List ClientAct} {env : ClientEnv}
    {p : Packet} (hl : LatestEvent as before env p after) :
    Seen (clientAct (run clientAct s before).1 (.packet env p)).1 after p.header.id p.payload ∨
      (∃ e, PendingOf (run clientAct s as).1 p e) := by
  induction as using List.reverseRecOn generalizing after with
  | nil =>
    have := hl.1
    simp at this
  | append_singleton as a ih =>
    rw [along_append] at hal
    obtain ⟨hmem, _⟩ := run_sync hm as hal.1
    obtain ⟨hsync, hcrowd⟩ := hal.2.1
    rw [run_concat]
    rcases latestEvent_concat hl with ⟨rfl, rfl, rfl⟩ | ⟨after', rfl, hl'⟩
    · -- the packet itself: it is pending now
      obtain ⟨e, hf⟩ := hsync.2.2.find
      have hgood : ((run clientAct s as).1.events e).id.good := by
        rw [Connect.findEvent_some hf]
        exact hsync.2.2.good
      refine Or.inr ⟨e, ?_⟩
      simp only [clientAct, Connect.call?, processPacket, hsync.1]
      exact processEvent_pending hf (hmem e hgood)
    · rcases ih hal.1 hl' with hseen | ⟨e, hpend⟩
      · exact Or.inl (hseen.append [a])
      · cases a with
        | packet env' p' =>
          -- another identifier arrives: nothing of this one can be pending
          have hne := hl.2 env' p' (by simp)
          rcases hcrowd with hnone | hsame
          · rw [hpend.queue] at hnone
            cases hnone
          · rw [hpend.queue] at hsame
            exact absurd ((Connect.findEvent_some hsame.symm).symm.trans hpend.id) hne
        | waitEvent size =>
          left
          have hsize : p.header.dataSize.toNat ≤ size := by
            obtain ⟨heq, _⟩ := hl'
            have hpre := hal.1
            rw [heq, along_append] at hpre
            have hp : p.header.dataSize.toNat ≤ variableSizeMaximum := hpre.2.1.1.2.1
            exact hp.trans hsync
          obtain ⟨w, hw, hid, hdata⟩ := waitEvent_pending hpend hsize
          refine ⟨after', size, [], w, rfl, ?_, hid, hdata⟩
          have hrun : (run clientAct (clientAct (run clientAct s before).1 (.packet env p)).1 after').1 =
              (run clientAct s as).1 := by
            rw [hl'.1, run_append, run]
          rw [hrun]
          exact hw
        | _ => exact hsync.elim

end Runs

/-! ## From the first subscription -/

theorem subscribeSync_memory {s : Connect} (h : HasMemory s) {a : ClientAct} (ha : a.subscribesSync) :
    HasMemory (clientAct s a).1 := by
  cases a with
  | subscribeSync env flags cid eventData =>
    simp only [clientAct, subscribeEventSync]
    cases s.getEventStr cid with
    | none => exact h
    | some e =>
      intro i hi
      by_cases hie : i = e
      · subst hie
        simp only [Option.map_some, Connect.call?, subscribeSlot, Connect.setEvent, Function.update_self]
        exact ha
      · simp only [Option.map_some, Connect.call?, subscribeSlot, Connect.setEvent,
          Function.update_of_ne hie] at hi ⊢
        exact h i hi
  | _ => exact ha.elim

/-- After subscribing with `syncs_subscribe_event_sync` every identifier has memory. -/
theorem run_subscribeSync (name addr : List UInt8) (subs : List ClientAct) (hsubs : ∀ a ∈ subs, a.subscribesSync) :
    HasMemory (run clientAct (connectCreate name addr) subs).1 := by
  induction subs using List.reverseRecOn with
  | nil => exact fun e he => absurd he (Id.not_good_free _)
  | append_singleton subs a ih =>
    have hm := ih fun b hb => hsubs b (by simp [hb])
    rw [run_concat]
    exact subscribeSync_memory hm (hsubs a (by simp))

/-- **Synchronous events are not lost** in a run in which no event arrives while another identifier is pending. -/
theorem sync_events_seen (name addr : List UInt8) (subs acts : List ClientAct)
    (hsubs : ∀ a ∈ subs, a.subscribesSync)
    (hal : Along clientAct (fun s a => a.isSync s ∧ a.uncrowded s)
      (run clientAct (connectCreate name addr) subs).1 acts) :
    NoneLost (run clientAct (connectCreate name addr) subs).1 acts := by
  have hm := run_subscribeSync name addr subs hsubs
  intro pre size post heq hnone before env p after hl _
  rw [heq, along_append] at hal
  rcases seen_or_pending hm pre hal.1 hl with hseen | ⟨e, hpend⟩
  · exact hseen
  · simp only [waitEvent, hpend.queue] at hnone
    cases hnone

/-- What `malloc` returns for the data of an event. -/
def allocated : List UInt8 := List.replicate eventDataSizeMaximum 0

/-- The subscriptions to two events. -/
def twoSubscriptions : List ClientAct :=
  [.subscribeSync .calm typeVarInt32 [97] (some allocated), .subscribeSync .calm typeVarString [98] (some allocated)]

/-- An EVENT packet with one byte for the event of the given name. -/
def eventFor (name value : UInt8) : ClientAct := .packet .calm (Packet.make Msg.event.code (idstr [name]) [value])

/-- Each event is returned before the next one arrives. -/
def alternatingRun : List ClientAct :=
  [eventFor 97 1, .waitEvent 511, eventFor 98 2, .waitEvent 511, .waitEvent 511]

theorem inTable_of_eq {s : Connect} {id : Id} (e : EventIx) (hg : id.good) (h : (s.events e).id = id) :
    InTable s.events id := ⟨e, by rwa [h], h⟩

theorem alternatingRun_seen : NoneLost (run clientAct (connectCreate [] []) twoSubscriptions).1 alternatingRun := by
  refine sync_events_seen [] [] twoSubscriptions alternatingRun ?_ ⟨⟨⟨?_, ?_, ?_⟩, ?_⟩, ⟨?_, trivial⟩, ⟨⟨?_, ?_, ?_⟩, ?_⟩,
    ⟨?_, trivial⟩, ⟨?_, trivial⟩, trivial⟩
  · intro a ha
    simp only [twoSubscriptions, List.mem_cons, List.not_mem_nil, or_false] at ha
    rcases ha with rfl | rfl <;> rfl
  · decide
  · decide
  · exact inTable_of_eq 0 (by decide) (by decide +kernel)
  · exact Or.inl (by decide +kernel)
  · exact Nat.le_refl _
  · decide
  · decide
  · exact inTable_of_eq 1 (by decide) (by decide +kernel)
  · exact Or.inl (by decide +kernel)
  · exact Nat.le_refl _
  · exact Nat.le_refl _

/-- The second event arrives before the first is returned. -/
def crowdedRun : List ClientAct := [eventFor 97 1, eventFor 98 2, .waitEvent 511, .waitEvent 511]

/-- The payload of the first event is never returned. -/
theorem crowdedRun_lost : ¬ NoneLost (run clientAct (connectCreate [] []) twoSubscriptions).1 crowdedRun := by
  intro h
  obtain ⟨before, size, after, w, heq, hw, hid, _⟩ :=
    h [eventFor 97 1, eventFor 98 2, .waitEvent 511] 511 [] rfl (by decide +kernel) [] .calm _
      [eventFor 98 2, .waitEvent 511] ⟨rfl, by
        intro env' p' hp'
        simp only [eventFor, List.mem_cons, List.not_mem_nil, or_false, reduceCtorEq,
          ClientAct.packet.injEq] at hp'
        rw [hp'.2]
        decide⟩ (inTable_of_eq 0 (by decide) (by decide +kernel))
  -- the only call behind the first event is the one that returns the second
  have hbefore : before = [eventFor 98 2] := by
    cases before with
    | nil => cases heq
    | cons a before =>
      rw [List.cons_append, List.cons.injEq] at heq
      cases before with
      | nil => rw [← heq.1]
      | cons b before => simp at heq
  have hsize : size = 511 := by
    subst hbefore
    simp only [List.cons_append, List.nil_append, List.cons.injEq, ClientAct.waitEvent.injEq] at heq
    exact heq.2.1.symm
  subst hbefore hsize
  have hreturned : (waitEvent (run clientAct (clientAct (run clientAct
      (run clientAct (connectCreate [] []) twoSubscriptions).1 []).1 (eventFor 97 1)).1
      [eventFor 98 2]).1 511).1.map Waited.id = some (idstr [98]) := by decide +kernel
  rw [show (eventFor 97 1) = .packet .calm (Packet.make Msg.event.code (idstr [97]) [1]) from rfl, hw] at hreturned
  rw [Option.map_some, hid] at hreturned
  exact absurd hreturned (by decide)

end SyncScribe
