import SyncScribe.Client.SyncEvents
import SyncScribe.Lib.Since

/-!
Subscriptions of the client and the slots they use. Unsubscribing marks a slot
free and leaves everything else in it: callback, counter, and the pending pointer
that may point to it. The three subscribing calls overwrite different parts of
this. A log of the calls says what each subscription should see; in runs in which
no call meets what an earlier user of its slot left behind (`ClientAct.careful`),
it sees that and nothing else.
-/

namespace SyncScribe
open Lib Lib.Bytes Lib.Slots Lib.Keyed

/-! ## The log -/

inductive SubChange
  | keep
  /-- an accepted `syncs_subscribe_event`, with the slot it got -/
  | callback (e : EventIx) (id : Id) (cb : Option Nat) (args : Nat)
  /-- an accepted `syncs_subscribe_event_sync` or `syncs_subscribe_event_sync_user` -/
  | sync (e : EventIx) (id : Id)
  | leave (id : Id)
  /-- a received EVENT packet -/
  | event (id : Id) (payload : List UInt8) (counter : UInt64)
  deriving DecidableEq

namespace SubChange

/-- A subscription to `id`. -/
def begins (id : Id) : SubChange → Prop
  | .callback _ id' _ _ | .sync _ id' => id' = id
  | _ => False

/-- A subscription to `id` that uses the slot `e`. -/
def uses (e : EventIx) (id : Id) : SubChange → Prop
  | .callback e' id' _ _ | .sync e' id' => e' = e ∧ id' = id
  | _ => False

/-- A subscription that uses the slot `e`. -/
def takes (e : EventIx) : SubChange → Prop
  | .callback e' _ _ _ | .sync e' _ => e' = e
  | _ => False

/-- A `syncs_subscribe_event` for `id` that gives this callback. -/
def gives (id : Id) (cb : Option Nat) (args : Nat) : SubChange → Prop
  | .callback _ id' cb' args' => id' = id ∧ cb' = cb ∧ args' = args
  | _ => False

/-- An accepted subscription. -/
def subscribes : SubChange → Prop
  | .callback .. | .sync .. => True
  | _ => False

/-- A `syncs_subscribe_event` for `id`. -/
def resets (id : Id) : SubChange → Prop
  | .callback _ id' _ _ => id' = id
  | _ => False

end SubChange

/-- The change of an act. -/
def subChangeOf (s : Connect) : ClientAct → SubChange
  | .subscribe _ _ cid cb args =>
    match s.getEventStr cid with
    | some e => .callback e (idstr cid) cb args
    | none => .keep
  | .subscribeSync _ _ cid _ | .subscribeSyncUser _ _ cid _ _ =>
    match s.getEventStr cid with
    | some e => .sync e (idstr cid)
    | none => .keep
  | .unsubscribe _ cid => .leave (idstr cid)
  | .packet _ p => if p.header.msg = .event then .event p.header.id p.payload p.header.updateCounter else .keep
  | _ => .keep

/-- The client with its log. -/
structure Subscriber where
  connect : Connect
  log : List SubChange

def subscriberAct (t : Subscriber) (a : ClientAct) : Subscriber × List ClientObs :=
  (⟨(clientAct t.connect a).1, t.log ++ [subChangeOf t.connect a]⟩, (clientAct t.connect a).2)

def subscriberStart (name addr : List UInt8) : Subscriber := ⟨connectCreate name addr, []⟩

/-! ## What a subscription should see -/

section Log

variable (log : List SubChange)

/-- `id` was subscribed and not unsubscribed since. -/
def IsSubscribed (id : Id) : Prop := Since (SubChange.begins id) (· = .leave id) log

/-- The latest `syncs_subscribe_event` for `id` gave this callback, and `id` was not unsubscribed
since. -/
def CallbackOf (id : Id) (cb : Option Nat) (args : Nat) : Prop :=
  Since (SubChange.gives id cb args) (fun ch => ch.resets id ∨ ch = .leave id) log

/-- The slot `e` was last used for `id`. -/
def LastUser (e : EventIx) (id : Id) : Prop := Since (SubChange.uses e id) (SubChange.takes e) log

/-- An EVENT with this payload was received for `id` under its present subscription. -/
def ReceivedFor (id : Id) (payload : List UInt8) : Prop :=
  ∃ pre counter post, log = pre ++ .event id payload counter :: post ∧ IsSubscribed pre id ∧
    ∀ ch ∈ post, ch ≠ .leave id

end Log

def ClientAct.subscribesTo : ClientAct → Option Id
  | .subscribe _ _ cid _ _ | .subscribeSync _ _ cid _ | .subscribeSyncUser _ _ cid _ _ => some (idstr cid)
  | _ => none

/-- What an act shows is that of the subscription it belongs to. -/
structure OwnOnly (t : Subscriber) (a : ClientAct) : Prop where
  callback : ∀ env p, a = .packet env p → p.header.msg = .event → ∀ cb args id data,
    .out (.call cb args id data) ∈ (subscriberAct t a).2 ↔
      CallbackOf t.log p.header.id (some cb) args ∧ id = p.header.id ∧ data = p.payload
  waited : ∀ size w, a = .waitEvent size → (waitEvent t.connect size).1 = some w →
    IsSubscribed t.log w.id ∧ ∃ payload, ReceivedFor t.log w.id payload ∧ w.data = payload.take size
  counter : ∀ id o, a.subscribesTo = some id → ¬ IsSubscribed t.log id →
    .out (.tcp o) ∈ (subscriberAct t a).2 ∨ .out (.udp o) ∈ (subscriberAct t a).2 →
    o.packet.header.updateCounter = 0 ∨ ∃ payload, .event id payload o.packet.header.updateCounter ∈ t.log

/-! ## The condition -/

/-- A free slot that a subscription gets was last used for the same identifier, or has no counter. -/
def CounterFits (t : Subscriber) (cid : List UInt8) : Prop :=
  ∀ e, t.connect.getEventStr cid = some e → (t.connect.events e).live = false →
    (t.connect.events e).updateCounter = 0 ∨ LastUser t.log e (idstr cid)

/-- It has no callback, and the slot of the subscription is not pending. -/
def SlotQuiet (t : Subscriber) (cid : List UInt8) : Prop :=
  ∀ e, t.connect.getEventStr cid = some e →
    ((t.connect.events e).live = false → (t.connect.events e).cb = none) ∧ t.connect.eventsQueue ≠ some e

/-- Names that are not taken for a free slot, and calls that meet nothing an earlier user of the slot left. -/
def ClientAct.careful (t : Subscriber) : ClientAct → Prop
  | .subscribe _ _ cid _ _ => GoodName cid ∧ CounterFits t cid
  | .subscribeSync _ _ cid _ | .subscribeSyncUser _ _ cid _ _ => GoodName cid ∧ CounterFits t cid ∧ SlotQuiet t cid
  | .unsubscribe _ cid => GoodName cid ∧
    ∀ e, t.connect.findEvent (idstr cid) = some e → t.connect.eventsQueue ≠ some e
  | .packet _ p => p.header.msg = .event ∧
    ∀ e, t.connect.findEvent p.header.id = some e → (t.connect.events e).live = true
  | .waitEvent _ | .sockets .. => True
  | _ => False

/-! ## The log, entry by entry -/

section Entries

variable {log : List SubChange} {ch : SubChange} {id : Id} {e : EventIx} {cb : Option Nat} {args : Nat}
  {payload : List UInt8}

theorem isSubscribed_concat :
    IsSubscribed (log ++ [ch]) id ↔ ch.begins id ∨ (IsSubscribed log id ∧ ch ≠ .leave id) :=
  since_concat log ch

theorem callbackOf_concat :
    CallbackOf (log ++ [ch]) id cb args ↔
      ch.gives id cb args ∨ (CallbackOf log id cb args ∧ ¬ (ch.resets id ∨ ch = .leave id)) :=
  since_concat log ch

theorem lastUser_concat : LastUser (log ++ [ch]) e id ↔ ch.uses e id ∨ (LastUser log e id ∧ ¬ ch.takes e) :=
  since_concat log ch

/-- An entry that does not give the slot away. -/
theorem counter_concat {w : UInt64} (hch : ¬ ch.takes e)
    (h : w = 0 ∨ ∃ id payload, LastUser log e id ∧ .event id payload w ∈ log) :
    w = 0 ∨ ∃ id payload, LastUser (log ++ [ch]) e id ∧ .event id payload w ∈ log ++ [ch] := by
  refine h.imp_right ?_
  rintro ⟨id', payload, hu, hm⟩
  exact ⟨id', payload, lastUser_concat.mpr (Or.inr ⟨hu, hch⟩), List.mem_append_left _ hm⟩

/-! ### Entries that are no subscriptions -/

theorem not_takes (hch : ¬ ch.subscribes) : ¬ ch.takes e := by
  cases ch <;> simp_all [SubChange.subscribes, SubChange.takes]

theorem isSubscribed_of_not (hch : ¬ ch.subscribes) :
    IsSubscribed (log ++ [ch]) id ↔ IsSubscribed log id ∧ ch ≠ .leave id := by
  have hbegins : ¬ ch.begins id := by
    cases ch <;> simp_all [SubChange.subscribes, SubChange.begins]
  simp only [isSubscribed_concat, hbegins, false_or]

theorem lastUser_of_not (hch : ¬ ch.subscribes) : LastUser (log ++ [ch]) e id ↔ LastUser log e id := by
  have huses : ¬ ch.uses e id := by
    cases ch <;> simp_all [SubChange.subscribes, SubChange.uses]
  simp only [lastUser_concat, huses, not_takes hch, false_or, not_false_eq_true, and_true]

theorem callbackOf_of_not (hch : ¬ ch.subscribes) :
    CallbackOf (log ++ [ch]) id cb args ↔ CallbackOf log id cb args ∧ ch ≠ .leave id := by
  have hgives : ¬ ch.gives id cb args := by
    cases ch <;> simp_all [SubChange.subscribes, SubChange.gives]
  have hresets : ¬ ch.resets id := by
    cases ch <;> simp_all [SubChange.subscribes, SubChange.resets]
  simp only [callbackOf_concat, hgives, hresets, false_or, ne_eq]

theorem ReceivedFor.concat (h : ReceivedFor log id payload) (hne : ch ≠ .leave id) :
    ReceivedFor (log ++ [ch]) id payload := by
  obtain ⟨pre, counter, post, rfl, hs, hpost⟩ := h
  refine ⟨pre, counter, post ++ [ch], by simp, hs, ?_⟩
  intro b hb
  rw [List.mem_append, List.mem_singleton] at hb
  rcases hb with hb | rfl
  · exact hpost b hb
  · exact hne

theorem ReceivedFor.now (h : IsSubscribed log id) (counter : UInt64) :
    ReceivedFor (log ++ [.event id payload counter]) id payload :=
  ⟨log, counter, [], rfl, h, by simp⟩

/-- Only a subscription has a callback. -/
theorem CallbackOf.isSubscribed (h : CallbackOf log id cb args) : IsSubscribed log id := by
  refine Since.mono h ?_ ?_
  · intro a ha
    cases a <;> simp_all [SubChange.gives, SubChange.begins]
  · intro a ha
    exact Or.inr ha

end Entries

/-! ## The invariant -/

/-- What the log says of the slots. -/
structure SlotsMatch (t : Subscriber) : Prop where
  table : ClientTable t.connect.events
  subscribed : ∀ id, InTable t.connect.events id ↔ IsSubscribed t.log id
  user : ∀ e, (t.connect.events e).id.good → LastUser t.log e (t.connect.events e).id
  callback : ∀ e, (t.connect.events e).id.good → ∀ cb args,
    CallbackOf t.log (t.connect.events e).id (some cb) args ↔
      (t.connect.events e).cb = some cb ∧ (t.connect.events e).args = args
  pending : ∀ e, t.connect.eventsQueue = some e → (t.connect.events e).id.good ∧ ∃ mem payload,
    (t.connect.events e).data = some mem ∧ ReceivedFor t.log (t.connect.events e).id payload ∧
      (t.connect.events e).dataSize.toNat = payload.length ∧ Lib.Bytes.read mem payload.length = payload
  counter : ∀ e, (t.connect.events e).updateCounter = 0 ∨
    ∃ id payload, LastUser t.log e id ∧ .event id payload (t.connect.events e).updateCounter ∈ t.log

theorem slotsMatch_start (name addr : List UInt8) : SlotsMatch (subscriberStart name addr) where
  table := clientTable_init name addr
  subscribed := by
    intro id
    constructor
    · rintro ⟨e, he, _⟩
      exact absurd he (Id.not_good_free _)
    · intro h
      exact absurd h not_since_nil
  user := fun e he => absurd he (Id.not_good_free _)
  callback := fun e he => absurd he (Id.not_good_free _)
  pending := by
    intro e he
    cases he
  counter := fun e => Or.inl rfl

section Steps

variable {t : Subscriber} {e : EventIx} {cid : List UInt8}

/-- An act that changes neither the table nor what is pending, and ends no subscription. -/
theorem SlotsMatch.same (h : SlotsMatch t) {s : Connect} (hev : s.events = t.connect.events)
    (hq : s.eventsQueue = t.connect.eventsQueue ∨ s.eventsQueue = none) {ch : SubChange} (hch : ¬ ch.subscribes)
    (hleave : ∀ id, InTable t.connect.events id → ch ≠ .leave id) : SlotsMatch ⟨s, t.log ++ [ch]⟩ := by
  have hne : ∀ i, (t.connect.events i).id.good → ch ≠ .leave (t.connect.events i).id :=
    fun i hi => hleave _ ⟨i, hi, rfl⟩
  constructor
  · simpa only [hev] using h.table
  · intro id
    simp only [hev]
    rw [isSubscribed_of_not hch, ← h.subscribed]
    exact (and_iff_left_of_imp (hleave id)).symm
  · intro i hi
    simp only [hev] at hi ⊢
    exact (lastUser_of_not hch).mpr (h.user i hi)
  · intro i hi cb args
    simp only [hev] at hi ⊢
    rw [callbackOf_of_not hch, h.callback i hi]
    exact and_iff_left (hne i hi)
  · intro i hi
    rcases hq with hq | hq
    · obtain ⟨hg, mem, payload, hmem, hrec, hlen, hread⟩ := h.pending i (hq.symm.trans hi)
      simp only [hev]
      exact ⟨hg, mem, payload, hmem, hrec.concat (hne i hg), hlen, hread⟩
    · exact absurd (hq.symm.trans hi) (by simp)
  · intro i
    simp only [hev]
    exact counter_concat (not_takes hch) (h.counter i)

/-- The same for an act that logs nothing. -/
theorem SlotsMatch.keep (h : SlotsMatch t) {s : Connect} (hev : s.events = t.connect.events)
    (hq : s.eventsQueue = t.connect.eventsQueue ∨ s.eventsQueue = none) : SlotsMatch ⟨s, t.log ++ [.keep]⟩ :=
  h.same hev hq (fun hch => hch) fun _ _ => by simp

/-- The slots of other subscriptions than the one that gets `e`. -/
theorem id_ne_of_ne (h : ClientTable t.connect.events) (hc : GoodName cid)
    (hs : t.connect.getEventStr cid = some e) {i : EventIx} (hi : i ≠ e)
    (hg : (t.connect.events i).id.good) : idstr cid ≠ (t.connect.events i).id := by
  intro heq
  rcases getEventStr_some h hc hs with hid | ⟨_, hnew⟩
  · exact hi (h.unique i e hg (heq.symm.trans hid.symm))
  · exact hnew i heq.symm

/-- The counter of the slot of a new subscription, as what its user left. -/
theorem counter_subscribe (h : SlotsMatch t) (hc : GoodName cid) (hs : t.connect.getEventStr cid = some e)
    (hfit : CounterFits t cid) : (t.connect.events e).updateCounter = 0 ∨
      ∃ payload, .event (idstr cid) payload (t.connect.events e).updateCounter ∈ t.log := by
  have hlast : (t.connect.events e).updateCounter = 0 ∨ LastUser t.log e (idstr cid) := by
    rcases getEventStr_some h.table hc hs with hid | ⟨hfree, _⟩
    · rw [← hid]
      exact Or.inr (h.user e (by rw [hid]; exact hc.good))
    · refine hfit e hs ?_
      rw [Bool.eq_false_iff, ne_eq, ClientEvent.live_iff]
      exact hfree
  rcases hlast with h0 | hlast
  · exact Or.inl h0
  · refine (h.counter e).imp id ?_
    rintro ⟨id', payload, hu, hm⟩
    have hsame : id' = idstr cid := by
      obtain ⟨pre, a, post, hlog, ha, hpost⟩ := hu
      obtain ⟨pre', a', post', hlog', ha', hpost'⟩ := hlast
      have htakes : ∀ {b : SubChange} {x : Id}, b.uses e x → b.takes e := by
        intro b x hb
        cases b <;> simp_all [SubChange.uses, SubChange.takes]
      have hpre := last_unique (hlog.symm.trans hlog') (htakes ha) (htakes ha') hpost hpost'
      subst hpre
      have heq := hlog.symm.trans hlog'
      rw [List.append_cancel_left_eq, List.cons.injEq] at heq
      rw [← heq.1] at ha'
      cases a <;> simp_all [SubChange.uses]
    exact ⟨payload, hsame ▸ hm⟩

/-- **A subscribing call** that gets the slot `e` and leaves `ev` in it. -/
theorem SlotsMatch.subscribe (h : SlotsMatch t) (hc : GoodName cid) (hs : t.connect.getEventStr cid = some e)
    (hfit : CounterFits t cid) {ch : SubChange} {ev : ClientEvent} (hev : ev.id = idstr cid)
    (hcount : ev.updateCounter = (t.connect.events e).updateCounter)
    (huses : ∀ i id, ch.uses i id ↔ i = e ∧ id = idstr cid) (htakes : ∀ i, ch.takes i ↔ i = e)
    (hbegins : ∀ id, ch.begins id ↔ id = idstr cid) (hleave : ∀ id, ch ≠ .leave id)
    (hresets : ∀ id, id ≠ idstr cid → ¬ ch.resets id ∧ ∀ cb args, ¬ ch.gives id cb args)
    (hcb : ∀ cb args, CallbackOf (t.log ++ [ch]) (idstr cid) (some cb) args ↔ ev.cb = some cb ∧ ev.args = args)
    (hdata : t.connect.eventsQueue = some e → ev.data = (t.connect.events e).data ∧
      ev.dataSize = (t.connect.events e).dataSize) :
    SlotsMatch ⟨t.connect.setEvent e ev, t.log ++ [ch]⟩ := by
  have hslot : ∀ i, (t.connect.setEvent e ev).events i = if i = e then ev else t.connect.events i := by
    intro i
    simp [Connect.setEvent, Function.update_apply]
  obtain ⟨htable, hin⟩ := h.table.subscribe hc hs hev
  constructor
  · exact htable
  · intro id
    refine (hin id).trans ?_
    rw [isSubscribed_concat, hbegins, h.subscribed]
    exact or_congr Iff.rfl (and_iff_left (hleave id)).symm
  · intro i hi
    simp only [hslot] at hi ⊢
    split at hi
    · rename_i hie
      rw [if_pos hie, hev]
      exact lastUser_concat.mpr (Or.inl ((huses i _).mpr ⟨hie, rfl⟩))
    · rename_i hie
      rw [if_neg hie]
      exact lastUser_concat.mpr (Or.inr ⟨h.user i hi, fun ht => hie ((htakes i).mp ht)⟩)
  · intro i hi cb args
    simp only [hslot] at hi ⊢
    split at hi
    · rename_i hie
      simp only [if_pos hie, hev]
      exact hcb cb args
    · rename_i hie
      obtain ⟨hno, hnot⟩ := hresets _ (id_ne_of_ne h.table hc hs hie hi).symm
      simp only [if_neg hie]
      rw [callbackOf_concat, h.callback i hi]
      simp [hnot, hno, hleave]
  · intro i hi
    obtain ⟨hg, mem, payload, hmem, hrec, hlen, hread⟩ := h.pending i hi
    by_cases hie : i = e
    · subst hie
      obtain ⟨hd, hsz⟩ := hdata hi
      have hid : (t.connect.events i).id = idstr cid := by
        rcases getEventStr_some h.table hc hs with hid | ⟨hfree, _⟩
        · exact hid
        · exact absurd hg hfree
      simp only [hslot, ↓reduceIte, hev, hd, hsz, ← hid]
      exact ⟨hg, mem, payload, hmem, hrec.concat (hleave _), hlen, hread⟩
    · simp only [hslot, if_neg hie]
      exact ⟨hg, mem, payload, hmem, hrec.concat (hleave _), hlen, hread⟩
  · intro i
    simp only [hslot]
    split
    · rename_i hie
      rw [hcount]
      refine (counter_subscribe h hc hs hfit).imp id ?_
      rintro ⟨payload, hm⟩
      exact ⟨idstr cid, payload, lastUser_concat.mpr (Or.inl ((huses i _).mpr ⟨hie, rfl⟩)), by simp [hm]⟩
    · rename_i hie
      exact counter_concat (fun ht => hie ((htakes i).mp ht)) (h.counter i)

theorem not_callbackOf (h : SlotsMatch t) {id : Id} (hid : ∀ i, (t.connect.events i).id ≠ id) (cb : Option Nat)
    (args : Nat) : ¬ CallbackOf t.log id cb args := by
  intro hcb
  obtain ⟨i, _, hi⟩ := (h.subscribed id).mpr hcb.isSubscribed
  exact hid i hi

theorem SlotsMatch.subscribeCallback (h : SlotsMatch t) (hc : GoodName cid)
    (hs : t.connect.getEventStr cid = some e) (hfit : CounterFits t cid) (flags : UInt32) (cb : Option Nat)
    (args : Nat) :
    SlotsMatch ⟨t.connect.setEvent e { t.connect.events e with
      cb := cb, args := args, flags := flags, id := idstr cid }, t.log ++ [.callback e (idstr cid) cb args]⟩ := by
  refine h.subscribe hc hs hfit rfl rfl ?_ ?_ ?_ ?_ ?_ ?_ (fun _ => ⟨rfl, rfl⟩)
  · intro i id
    simp only [SubChange.uses, eq_comm]
  · intro i
    simp only [SubChange.takes, eq_comm]
  · intro id
    simp only [SubChange.begins, eq_comm]
  · intro id
    simp
  · intro id hne
    exact ⟨fun hr => hne hr.symm, fun _ _ hg => hne hg.1.symm⟩
  · intro cb' args'
    simp [callbackOf_concat, SubChange.gives, SubChange.resets]

theorem SlotsMatch.subscribeMemory (h : SlotsMatch t) (hc : GoodName cid)
    (hs : t.connect.getEventStr cid = some e) (hfit : CounterFits t cid) (hquiet : SlotQuiet t cid)
    (flags size : UInt32) (data : Option (List UInt8)) :
    SlotsMatch ⟨t.connect.setEvent e { t.connect.events e with
      data := data, dataUserSize := size, flags := flags, id := idstr cid }, t.log ++ [.sync e (idstr cid)]⟩ := by
  obtain ⟨hnone, hqueue⟩ := hquiet e hs
  refine h.subscribe hc hs hfit rfl rfl ?_ ?_ ?_ ?_ ?_ ?_ (fun hq => absurd hq hqueue)
  · intro i id
    simp only [SubChange.uses, eq_comm]
  · intro i
    simp only [SubChange.takes, eq_comm]
  · intro id
    simp only [SubChange.begins, eq_comm]
  · intro id
    simp
  · intro id _
    exact ⟨fun hr => hr, fun _ _ hg => hg⟩
  · intro cb args
    rw [callbackOf_concat]
    simp only [SubChange.gives, SubChange.resets, reduceCtorEq, or_self, not_false_eq_true, and_true, false_or]
    rcases getEventStr_some h.table hc hs with hid | ⟨hfree, hnew⟩
    · rw [← hid]
      exact h.callback e (by rw [hid]; exact hc.good) cb args
    · have hcb := hnone (by rw [Bool.eq_false_iff, ne_eq, ClientEvent.live_iff]; exact hfree)
      simp only [hcb, reduceCtorEq, false_and, iff_false]
      exact not_callbackOf h hnew _ _

/-- The slot of `cid` becomes free. -/
theorem SlotsMatch.release (h : SlotsMatch t) (hc : GoodName cid) (hid : (t.connect.events e).id = idstr cid)
    (hq : t.connect.eventsQueue ≠ some e) :
    SlotsMatch ⟨t.connect.setEvent e { t.connect.events e with id := (t.connect.events e).id.free },
      t.log ++ [.leave (idstr cid)]⟩ := by
  have hch : ¬ (SubChange.leave (idstr cid)).subscribes := fun hch => hch
  have hgood : (t.connect.events e).id.good := by
    rw [hid]
    exact hc.good
  obtain ⟨htable, hin⟩ := h.table.unsubscribe hgood
  generalize hs' : t.connect.setEvent e { t.connect.events e with id := (t.connect.events e).id.free } = s'
  have hslot : ∀ i, i ≠ e → s'.events i = t.connect.events i := by
    intro i hi
    simp [← hs', Connect.setEvent, hi]
  have hself : s'.events e = { t.connect.events e with id := (t.connect.events e).id.free } := by
    simp [← hs', Connect.setEvent]
  have hother : ∀ i, (t.connect.events i).id.good → i ≠ e →
      SubChange.leave (idstr cid) ≠ .leave (t.connect.events i).id := by
    intro i hi hie heq
    rw [SubChange.leave.injEq] at heq
    exact hie (h.table.unique i e hi (heq.symm.trans hid.symm))
  have hne : ∀ i, (s'.events i).id.good → i ≠ e := by
    rintro i hi rfl
    rw [hself] at hi
    exact Id.not_good_free _ hi
  constructor
  · subst hs'
    exact htable
  · intro id
    have hrest : InTable s'.events id ↔ id ≠ idstr cid ∧ InTable t.connect.events id := by
      subst hs'
      rw [← hid]
      exact hin id
    rw [hrest, isSubscribed_of_not hch, ← h.subscribed, ne_eq, ne_eq, SubChange.leave.injEq, eq_comm, and_comm]
  · intro i hi
    have hie := hne i hi
    simp only [hslot i hie] at hi ⊢
    exact (lastUser_of_not hch).mpr (h.user i hi)
  · intro i hi cb args
    have hie := hne i hi
    simp only [hslot i hie] at hi ⊢
    rw [callbackOf_of_not hch, h.callback i hi]
    exact and_iff_left (hother i hi hie)
  · intro i hi
    have hqueue : s'.eventsQueue = t.connect.eventsQueue := by rw [← hs', Connect.setEvent]
    rw [hqueue] at hi
    have hie : i ≠ e := by
      rintro rfl
      exact hq hi
    obtain ⟨hg, mem, payload, hmem, hrec, hlen, hread⟩ := h.pending i hi
    simp only [hslot i hie]
    exact ⟨hg, mem, payload, hmem, hrec.concat (hother i hg hie), hlen, hread⟩
  · intro i
    have hcounter : (s'.events i).updateCounter = (t.connect.events i).updateCounter := by
      by_cases hie : i = e
      · rw [hie, hself]
      · rw [hslot i hie]
    rw [hcounter]
    exact counter_concat (not_takes hch) (h.counter i)

/-- **`syncs_unsubscribe_event`** of an identifier whose slot is not pending. -/
theorem SlotsMatch.unsubscribe (h : SlotsMatch t) (hc : GoodName cid)
    (hq : ∀ e, t.connect.findEvent (idstr cid) = some e → t.connect.eventsQueue ≠ some e) (env : ClientEnv) :
    SlotsMatch ⟨(unsubscribeEvent env t.connect cid).1, t.log ++ [.leave (idstr cid)]⟩ := by
  cases hf : t.connect.findEvent (idstr cid) with
  | none =>
    simp only [unsubscribeEvent, hf]
    refine h.same rfl (Or.inl rfl) (fun hch => hch) ?_
    rintro id ⟨i, _, hi⟩ heq
    rw [SubChange.leave.injEq] at heq
    have hnot := first_eq_none.mp hf i
    rw [idcmp_iff.mpr (hi.trans heq.symm)] at hnot
    cases hnot
  | some e =>
    simp only [unsubscribeEvent, hf]
    exact h.release hc (Connect.findEvent_some hf) (hq e hf)

/-- What an EVENT leaves in the slot it finds. -/
structure EventStored (s s' : Connect) (p : Packet) (e : EventIx) : Prop where
  others : ∀ i, i ≠ e → s'.events i = s.events i
  id : (s'.events e).id = (s.events e).id
  cb : (s'.events e).cb = (s.events e).cb
  args : (s'.events e).args = (s.events e).args
  counter : (s'.events e).updateCounter = p.header.updateCounter
  queue : (s'.eventsQueue = s.eventsQueue ∧ (s.events e).data = none) ∨
    (s'.eventsQueue = some e ∧ (s'.events e).dataSize.toNat = p.payload.length ∧
      ∃ mem, (s'.events e).data = some mem ∧ Lib.Bytes.read mem p.payload.length = p.payload)

theorem processEvent_stored {s : Connect} {p : Packet} (hf : s.findEvent p.header.id = some e) :
    EventStored s (processEvent s p).1 p e := by
  have hlen : p.payload.length = p.header.dataSize.toNat := length_read _ _
  cases hd : (s.events e).data with
  | none =>
    simp only [processEvent, hf, hd]
    constructor
    · intro i hi
      simp [Connect.setEvent, hi]
    all_goals simp [Connect.setEvent, hd]
  | some mem =>
    simp only [processEvent, hf, hd]
    constructor
    · intro i hi
      simp [Connect.setEvent, hi]
    case queue =>
      refine Or.inr ⟨rfl, ?_, write mem 0 p.payload, ?_, ?_⟩
      · simp [Connect.setEvent, hlen]
      · simp [Connect.setEvent, Packet.payload]
      · rw [hlen]
        exact read_write_read _ _ _
    all_goals simp [Connect.setEvent]

/-- An EVENT is stored in the slot of a subscription. -/
theorem SlotsMatch.stored (h : SlotsMatch t) {p : Packet} {s' : Connect} (hst : EventStored t.connect s' p e)
    (hid : (t.connect.events e).id = p.header.id) (hgood : (t.connect.events e).id.good) :
    SlotsMatch ⟨s', t.log ++ [.event p.header.id p.payload p.header.updateCounter]⟩ := by
  have hch : ¬ (SubChange.event p.header.id p.payload p.header.updateCounter).subscribes := fun hch => hch
  have hids : ∀ i, (s'.events i).id = (t.connect.events i).id := by
    intro i
    by_cases hie : i = e
    · rw [hie, hst.id]
    · rw [hst.others i hie]
  constructor
  · refine ⟨?_, ?_⟩
    · intro i j hi hij
      simp only [hids] at hi hij
      exact h.table.unique i j hi hij
    · intro i hi
      simp only [hids] at hi ⊢
      exact h.table.named i hi
  · intro id
    rw [isSubscribed_of_not hch, ← h.subscribed]
    simp only [InTable, hids, ne_eq, reduceCtorEq, not_false_eq_true, and_true]
  · intro i hi
    simp only [hids] at hi ⊢
    exact (lastUser_of_not hch).mpr (h.user i hi)
  · intro i hi cb args
    simp only [hids] at hi ⊢
    rw [callbackOf_of_not hch, and_iff_left (by simp), h.callback i hi]
    by_cases hie : i = e
    · rw [hie, hst.cb, hst.args]
    · rw [hst.others i hie]
  · intro i hi
    rcases hst.queue with ⟨hq, hnone⟩ | ⟨hq, hlen, mem, hmem, hread⟩
    · obtain ⟨hg, mem, payload, hmem, hrec, hlen, hread⟩ := h.pending i (hq.symm.trans hi)
      have hie : i ≠ e := by
        rintro rfl
        rw [hnone] at hmem
        cases hmem
      simp only [hst.others i hie]
      exact ⟨hg, mem, payload, hmem, hrec.concat (by simp), hlen, hread⟩
    · have hie : i = e := Option.some.inj (hi.symm.trans hq)
      subst hie
      simp only [hids]
      refine ⟨hgood, mem, p.payload, hmem, ?_, hlen, hread⟩
      rw [hid]
      exact .now ((h.subscribed _).mp ⟨i, hgood, hid⟩) _
  · intro i
    by_cases hie : i = e
    · subst hie
      refine Or.inr ⟨p.header.id, p.payload, (lastUser_of_not hch).mpr ?_, ?_⟩
      · rw [← hid]
        exact h.user i hgood
      · simp [hst.counter]
    · simp only [hst.others i hie]
      exact counter_concat (not_takes hch) (h.counter i)

/-- **An EVENT packet** that finds no free slot. -/
theorem SlotsMatch.event (h : SlotsMatch t) (p : Packet)
    (hlive : ∀ e, t.connect.findEvent p.header.id = some e → (t.connect.events e).live = true) :
    SlotsMatch ⟨(processEvent t.connect p).1,
      t.log ++ [.event p.header.id p.payload p.header.updateCounter]⟩ := by
  cases hf : t.connect.findEvent p.header.id with
  | none =>
    simp only [processEvent, hf]
    exact h.same rfl (Or.inl rfl) (fun hch => hch) fun _ _ => by simp
  | some e =>
    exact h.stored (processEvent_stored hf) (Connect.findEvent_some hf) (ClientEvent.live_iff.mp (hlive e hf))

/-- **One act.** -/
theorem SlotsMatch.act (h : SlotsMatch t) (a : ClientAct) (ha : a.careful t) :
    SlotsMatch (subscriberAct t a).1 := by
  cases a with
  | subscribe env flags cid cb args =>
    simp only [subscriberAct, clientAct, subscribeEvent, subChangeOf]
    cases hs : t.connect.getEventStr cid with
    | none => exact h.keep rfl (Or.inl rfl)
    | some e => exact h.subscribeCallback ha.1 hs ha.2 flags cb args
  | subscribeSync env flags cid eventData =>
    simp only [subscriberAct, clientAct, subscribeEventSync, subChangeOf]
    cases hs : t.connect.getEventStr cid with
    | none => exact h.keep rfl (Or.inl rfl)
    | some e => exact h.subscribeMemory ha.1 hs ha.2.1 ha.2.2 flags _ eventData
  | subscribeSyncUser env flags cid userData userDataSize =>
    simp only [subscriberAct, clientAct, subscribeEventSyncUser, subChangeOf]
    cases hs : t.connect.getEventStr cid with
    | none => exact h.keep rfl (Or.inl rfl)
    | some e => exact h.subscribeMemory ha.1 hs ha.2.1 ha.2.2 flags userDataSize userData
  | unsubscribe env cid => exact h.unsubscribe ha.1 ha.2 env
  | packet env p =>
    simp only [subscriberAct, clientAct, Connect.call?, processPacket, subChangeOf, ha.1, ↓reduceIte]
    exact h.event p ha.2
  | waitEvent size =>
    refine h.keep (waitEvent_events t.connect size) ?_
    simp only [clientAct, waitEvent]
    cases hq : t.connect.eventsQueue <;> simp [hq]
  | sockets tcp udp => exact h.keep rfl (Or.inl rfl)
  | _ => exact ha.elim

/-! ## What the acts show -/

/-- The callback an EVENT runs is that of the slot it finds. -/
theorem mem_processEvent {s : Connect} {p : Packet} {cb args : Nat} {id : Id} {data : List UInt8} :
    .call cb args id data ∈ (processEvent s p).2 ↔ ∃ e, s.findEvent p.header.id = some e ∧
      (s.events e).cb = some cb ∧ args = (s.events e).args ∧ id = p.header.id ∧ data = p.payload := by
  cases hf : s.findEvent p.header.id with
  | none => simp [processEvent, hf]
  | some e =>
    have hid := Connect.findEvent_some hf
    cases hcb : (s.events e).cb with
    | none =>
      have hout : (processEvent s p).2 = [] := by
        simp only [processEvent, hf, hcb]
        cases (s.events e).data <;> rfl
      simp [hout, hcb]
    | some cb' =>
      have hout : (processEvent s p).2 = [.call cb' (s.events e).args p.header.id p.payload] := by
        simp only [processEvent, hf, hid, hcb, Packet.payload]
        cases (s.events e).data <;> rfl
      simp [hout, hcb, eq_comm]

theorem SlotsMatch.callback_own (h : SlotsMatch t) {p : Packet}
    (hlive : ∀ e, t.connect.findEvent p.header.id = some e → (t.connect.events e).live = true) (cb args : Nat)
    (id : Id) (data : List UInt8) :
    .call cb args id data ∈ (processEvent t.connect p).2 ↔
      CallbackOf t.log p.header.id (some cb) args ∧ id = p.header.id ∧ data = p.payload := by
  rw [mem_processEvent]
  constructor
  · rintro ⟨e, hf, hcb, rfl, rfl, rfl⟩
    have hid := Connect.findEvent_some hf
    refine ⟨?_, rfl, rfl⟩
    rw [← hid]
    exact (h.callback e (ClientEvent.live_iff.mp (hlive e hf)) _ _).mpr ⟨hcb, rfl⟩
  · rintro ⟨hcb, rfl, rfl⟩
    obtain ⟨e, hf⟩ := ((h.subscribed _).mpr hcb.isSubscribed).find
    have hid := Connect.findEvent_some hf
    rw [← hid] at hcb
    obtain ⟨h1, h2⟩ := (h.callback e (ClientEvent.live_iff.mp (hlive e hf)) _ _).mp hcb
    exact ⟨e, hf, h1, h2.symm, rfl, rfl⟩

theorem SlotsMatch.waited_own (h : SlotsMatch t) {size : Nat} {w : Waited}
    (hw : (waitEvent t.connect size).1 = some w) :
    IsSubscribed t.log w.id ∧ ∃ payload, ReceivedFor t.log w.id payload ∧ w.data = payload.take size := by
  unfold waitEvent at hw
  split at hw
  · cases hw
  · rename_i e hq
    obtain ⟨hg, mem, payload, hmem, hrec, hlen, hread⟩ := h.pending e hq
    simp only [hmem, Option.getD_some, hlen, Option.some.injEq] at hw
    subst hw
    refine ⟨(h.subscribed _).mp ⟨e, hg, rfl⟩, payload, hrec, ?_⟩
    have htake := take_read mem (Nat.min_le_right size payload.length)
    rw [hread] at htake
    rw [← htake, List.take_eq_take_iff]
    simp

/-- The counter a subscribing call sends is that of its slot. -/
theorem subscribeSlot_counter {env : ClientEnv} {s : Connect} {ev : ClientEvent} {flags : UInt32} {o : Outgoing}
    (h : .out (.tcp o) ∈ (s.call? (some (subscribeSlot env s e ev flags cid))).2 ∨
      .out (.udp o) ∈ (s.call? (some (subscribeSlot env s e ev flags cid))).2) :
    o.packet.header.updateCounter = ev.updateCounter := by
  simp only [Connect.call?, subscribeSlot, connectSend] at h
  split at h
  · split at h
    · simp only [List.map_cons, List.map_nil, List.mem_cons, ClientObs.out.injEq, ClientOut.tcp.injEq,
        List.not_mem_nil, or_false, reduceCtorEq] at h
      rw [h]
      rfl
    · split at h
      · simp only [List.map_cons, List.map_nil, List.mem_cons, ClientObs.out.injEq, ClientOut.udp.injEq,
          List.not_mem_nil, or_false, reduceCtorEq, false_or] at h
        rw [h]
        rfl
      · simp at h
  · simp at h

/-- A call that gets a slot and keeps its counter sends one of its own identifier. -/
theorem SlotsMatch.counter_sent (h : SlotsMatch t) (hc : GoodName cid) (hfit : CounterFits t cid) {env : ClientEnv}
    {ev : EventIx → ClientEvent} (hev : ∀ e, (ev e).updateCounter = (t.connect.events e).updateCounter)
    {flags : UInt32} {o : Outgoing} {obs : List ClientObs}
    (hobs : obs = (t.connect.call? ((t.connect.getEventStr cid).map fun e =>
      subscribeSlot env t.connect e (ev e) flags cid)).2)
    (ho : .out (.tcp o) ∈ obs ∨ .out (.udp o) ∈ obs) :
    o.packet.header.updateCounter = 0 ∨
      ∃ payload, .event (idstr cid) payload o.packet.header.updateCounter ∈ t.log := by
  subst hobs
  cases hs : t.connect.getEventStr cid with
  | none => simp [hs, Connect.call?] at ho
  | some e =>
    rw [hs, Option.map_some] at ho
    rw [subscribeSlot_counter ho, hev]
    exact counter_subscribe h hc hs hfit

theorem SlotsMatch.counter_own (h : SlotsMatch t) {a : ClientAct} (ha : a.careful t) {id : Id} {o : Outgoing}
    (hid : a.subscribesTo = some id)
    (ho : .out (.tcp o) ∈ (subscriberAct t a).2 ∨ .out (.udp o) ∈ (subscriberAct t a).2) :
    o.packet.header.updateCounter = 0 ∨ ∃ payload, .event id payload o.packet.header.updateCounter ∈ t.log := by
  cases a with
  | subscribe env flags cid cb args =>
    cases hid
    simp only [subscriberAct, clientAct, subscribeEvent] at ho
    exact h.counter_sent ha.1 ha.2 (fun _ => by rfl) rfl ho
  | subscribeSync env flags cid eventData =>
    cases hid
    simp only [subscriberAct, clientAct, subscribeEventSync] at ho
    exact h.counter_sent ha.1 ha.2.1 (fun _ => by rfl) rfl ho
  | subscribeSyncUser env flags cid userData userDataSize =>
    cases hid
    simp only [subscriberAct, clientAct, subscribeEventSyncUser] at ho
    exact h.counter_sent ha.1 ha.2.1 (fun _ => by rfl) rfl ho
  | _ => cases hid

theorem SlotsMatch.ownOnly (h : SlotsMatch t) (a : ClientAct) (ha : a.careful t) : OwnOnly t a where
  callback := by
    rintro env p rfl hm cb args id data
    have hmem : .out (.call cb args id data) ∈ (subscriberAct t (.packet env p)).2 ↔
        .call cb args id data ∈ (processEvent t.connect p).2 := by
      simp only [subscriberAct, clientAct, Connect.call?, processPacket, hm]
      simp
    rw [hmem]
    exact h.callback_own ha.2 cb args id data
  waited := by
    rintro size w rfl hw
    exact h.waited_own hw
  counter := fun id o hid _ ho => h.counter_own ha hid ho

end Steps

/-- **Subscriptions do not inherit** from earlier users of their slots, in every run whose calls meet nothing these
left behind. -/
theorem subscriptions_own_only (name addr : List UInt8) (acts : List ClientAct)
    (h : Along subscriberAct (fun t a => a.careful t) (subscriberStart name addr) acts) :
    Along subscriberAct OwnOnly (subscriberStart name addr) acts := by
  have hstep : ∀ t a, SlotsMatch t → ClientAct.careful t a → SlotsMatch (subscriberAct t a).1 :=
    fun _ a ht ha => ht.act a ha
  exact along_of_invariant hstep (fun _ a ht ha => ht.ownOnly a ha) acts _ (slotsMatch_start name addr) h

/-- A subscription ends when its event was returned, and another one takes its slot. -/
def handoverRun : List ClientAct :=
  [.subscribeSync .calm 0 [97] (some allocated), eventFor 97 1, .waitEvent 511, .unsubscribe .calm [97],
    .subscribe .calm 0 [98] (some 7) 9, eventFor 98 2]

theorem forall_of_eq_some {α : Type} {x : Option α} {a : α} {P : α → Prop} (h : x = some a) (ha : P a) :
    ∀ b, x = some b → P b := by
  intro b hb
  cases h.symm.trans hb
  exact ha

theorem handoverRun_own_only : Along subscriberAct OwnOnly (subscriberStart [] []) handoverRun := by
  have ha : GoodName [97] := ⟨by decide, by decide⟩
  have hb : GoodName [98] := ⟨by decide, by decide⟩
  refine subscriptions_own_only [] [] handoverRun ⟨⟨ha, ?_, ?_⟩, ⟨?_, ?_⟩, trivial, ⟨ha, ?_⟩, ⟨hb, ?_⟩, ⟨?_, ?_⟩, trivial⟩
  · exact forall_of_eq_some (a := 0) (by decide +kernel) fun _ => Or.inl (by decide +kernel)
  · exact forall_of_eq_some (a := 0) (by decide +kernel) ⟨fun _ => by decide +kernel, by decide +kernel⟩
  · decide
  · exact forall_of_eq_some (a := 0) (by decide +kernel) (by decide +kernel)
  · exact forall_of_eq_some (a := 0) (by decide +kernel) (by decide +kernel)
  · exact forall_of_eq_some (a := 0) (by decide +kernel) fun _ => Or.inl (by decide +kernel)
  · decide
  · exact forall_of_eq_some (a := 0) (by decide +kernel) (by decide +kernel)

/-- A synchronous subscription gets the slot of one that had a callback. -/
def inheritRun : List ClientAct :=
  [.subscribe .calm 0 [97] (some 7) 9, .unsubscribe .calm [97], .subscribeSync .calm 0 [98] (some allocated), eventFor 98 2]

/-- The callback of `a` runs for an event of `b`. -/
theorem inheritRun_calls : ¬ Along subscriberAct OwnOnly (subscriberStart [] []) inheritRun := by
  rintro ⟨_, _, _, h, _⟩
  have hcalls := h.callback .calm _ rfl (by decide) 7 9 (idstr [98]) [2]
  have hmem : .call 7 9 (idstr [98]) [2] ∈ (processEvent
      (run subscriberAct (subscriberStart [] []) (inheritRun.take 3)).1.connect
      (Packet.make Msg.event.code (idstr [98]) [2])).2 :=
    mem_processEvent.mpr ⟨0, by decide +kernel, by decide +kernel, by decide +kernel, rfl, by decide⟩
  obtain ⟨⟨pre, a, post, hlog, ha, _⟩, _⟩ := hcalls.mp (List.mem_map_of_mem hmem)
  have hmem : a ∈ (run subscriberAct (subscriberStart [] []) (inheritRun.take 3)).1.log := by
    rw [show (run subscriberAct (subscriberStart [] []) (inheritRun.take 3)).1.log = pre ++ a :: post from hlog]
    simp
  rw [show (run subscriberAct (subscriberStart [] []) (inheritRun.take 3)).1.log =
    [.callback 0 (idstr [97]) (some 7) 9, .leave (idstr [97]), .sync 0 (idstr [98])] by decide +kernel] at hmem
  simp only [List.mem_cons, List.not_mem_nil, or_false] at hmem
  rcases hmem with rfl | rfl | rfl
  · exact absurd ha.1 (by decide)
  · exact ha
  · exact ha

end SyncScribe
