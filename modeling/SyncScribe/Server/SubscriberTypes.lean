import SyncScribe.Server.Subscriptions

/-!
The types of subscriptions. A SUBSCRIBE is admitted when its type and the type of
the event are equal or one of them is ANY, and no WRITE changes the type of an
event. A DEFINE with FORCE does: it keeps the consumers of the event and gives it
a new type. The types of the subscriptions agree with those of the events in
every state of a run exactly when every such DEFINE suits the consumers present.
-/

namespace SyncScribe
open Lib Lib.Bytes Lib.Slots Lib.Keyed

/-- A subscription for `type` may hold an event of type `dataType`. -/
def TypesFit (type dataType : UInt32) : Prop := type = typeVarAny ∨ type = dataType ∨ dataType = typeVarAny

instance (type dataType : UInt32) : Decidable (TypesFit type dataType) :=
  inferInstanceAs (Decidable (_ ∨ _ ∨ _))

/-- The type bits of an accepted SUBSCRIBE of `c` to `id`. -/
def Change.subscription (c : ClientIx) (id : Id) : Change → Option UInt32
  | .edit id' _ (.subscribe c' flags) => if c' = c ∧ id' = id then some (flags &&& typeVarMask) else none
  | _ => none

/-- The type bits of the latest accepted SUBSCRIBE of `c` to `id`. -/
def acceptedType (log : List Change) (c : ClientIx) (id : Id) : Option UInt32 :=
  log.foldl (fun type ch => (ch.subscription c id).or type) none

theorem acceptedType_concat (log : List Change) (ch : Change) (c : ClientIx) (id : Id) :
    acceptedType (log ++ [ch]) c id = (ch.subscription c id).or (acceptedType log c id) := by
  simp [acceptedType]

/-- Every consumer of a live event holds it under a compatible type. -/
def TypesAgree (t : Table) (log : List Change) : Prop :=
  ∀ e, (t e).live = true → ∀ c, Holds (t e).consumers c →
    ∃ type, acceptedType log c (t e).id = some type ∧ TypesFit type (t e).dataType

/-- The identifier and the flags of a DEFINE with FORCE that reaches `syncs_add_event`. -/
def Act.redefines (s : Server) : Act → Option (Id × UInt32)
  | .packet _ _ p =>
    if p.header.msg = .define ∧ p.header.type &&& typeForce ≠ 0 then some (p.header.id, p.header.type) else none
  | .datagram _ addr p =>
    if (findUclientAddr s addr).isSome ∧ p.header.msg = .define ∧ p.header.type &&& typeForce ≠ 0 then
      some (p.header.id, p.header.type)
    else none
  | .serverDefine cid flags _ size =>
    if size.toNat ≤ variableSizeMaximum ∧ flags &&& typeForce ≠ 0 then some (idstr cid, flags) else none
  | _ => none

/-- A DEFINE with FORCE of a live event gives it a type that suits the consumers it has. -/
def Act.suits (s : Server) (log : List Change) (a : Act) : Prop :=
  ∀ id flags, a.redefines s = some (id, flags) → ∀ e, (s.events e).live = true → (s.events e).id = id →
    ∀ c, Holds (s.events e).consumers c → ∀ type, acceptedType log c id = some type →
      TypesFit type (flags &&& typeVarMask)

section Steps

variable {env : Env} {s : Server} {t t' : Table} {log : List Change} {ch : Change} {c : ClientIx} {id : Id}

/-- The same, by identifier. -/
theorem typesAgree_iff (h : TableInv t) :
    TypesAgree t log ↔ ∀ id ev, look t id = some ev → ∀ c, Holds ev.consumers c →
      ∃ type, acceptedType log c id = some type ∧ TypesFit type ev.dataType := by
  constructor
  · intro ha id ev hl c hc
    obtain ⟨hg, e, hid, rfl⟩ := h.slot_of_look hl
    obtain ⟨type, ht, hcomp⟩ := ha e (Event.live_iff.mpr (by rw [hid]; exact hg)) c hc
    exact ⟨type, by rw [← hid]; exact ht, hcomp⟩
  · intro ha e hlive c hc
    exact ha _ _ (h.look_self (Event.live_iff.mp hlive)) c hc

/-- What the gate of `syncs_client_subscribe` checks. -/
theorem typesFit_of_admits {flags : UInt32} {ev : Event} (hslot : SlotInv ev)
    (h : subscribeAdmits flags ev.dataType = true) : TypesFit (flags &&& typeVarMask) ev.dataType := by
  simp only [subscribeAdmits, hslot.typed, Bool.or_eq_true, beq_iff_eq] at h
  rcases h with (hany | hany) | heq
  · exact Or.inr (Or.inr hany)
  · exact Or.inl hany
  · exact Or.inr (Or.inl heq)

/-- Only a DEFINE gives an event another type. -/
theorem edit_dataType {k : Edit} (ev : Event) (hk : ∀ flags data size, k ≠ .define flags data size) :
    (k.apply s ev).dataType = ev.dataType := by
  cases k with
  | subscribe c' flags =>
    obtain ⟨cs, n, hsame⟩ := addConsumer_same ev c'
    rw [Edit.apply, hsame]
  | unsubscribe c' =>
    obtain ⟨cs, n, hsame⟩ := dropConsumer_same ev c'
    rw [Edit.apply, hsame]
  | define flags data size => exact absurd rfl (hk flags data size)
  | write c' flags data size => rfl
  | serverWrite flags data size => rfl
  | callback cb args => rfl

theorem subscription_eq_none (h : ¬ ch.subscribes c id) : ch.subscription c id = none := by
  cases ch with
  | edit id' created k =>
    cases k with
    | subscribe c' flags => exact if_neg h
    | _ => rfl
  | _ => rfl

/-- The latest SUBSCRIBE stays the latest. -/
theorem acceptedType_keep (h : ¬ ch.subscribes c id) : acceptedType (log ++ [ch]) c id = acceptedType log c id := by
  rw [acceptedType_concat, subscription_eq_none h, Option.none_or]

/-- A change of the type suits the consumers it finds. -/
def Change.suits (s : Server) (log : List Change) : Change → Prop
  | .edit id false (.define flags _ _) => ∀ ev, look s.events id = some ev → ∀ c, Holds ev.consumers c →
      ∀ type, acceptedType log c id = some type → TypesFit type (flags &&& typeVarMask)
  | _ => True

/-- The type an edited event has suits a consumer that was there before. -/
theorem edit_typesFit {created : Bool} {k : Edit} {ev : Event} {type : UInt32}
    (hs : (Change.edit id created k).suits s log) (hcr : created = false) (hl : look s.events id = some ev)
    (hc : Holds ev.consumers c) (ht : acceptedType log c id = some type) (hcomp : TypesFit type ev.dataType) :
    TypesFit type (k.apply s ev).dataType := by
  subst hcr
  cases k with
  | define flags data size => exact hs ev hl c hc type ht
  | _ =>
    rw [edit_dataType ev (by simp)]
    exact hcomp

/-- The consumer an edit adds has just been admitted; the others were there before. -/
theorem edit_typesAgree {created : Bool} {k : Edit} (hinv : TableInv s.events) (ha : TypesAgree s.events log)
    (hs : (Change.edit id created k).suits s log) (h : (Change.edit id created k).Applies s t') :
    TypesAgree t' (log ++ [.edit id created k]) := by
  obtain ⟨ev, ho, hadm, hset⟩ := h
  rw [typesAgree_iff hinv] at ha
  rw [typesAgree_iff hset.inv]
  intro id' ev' hl c hc
  rw [hset.look] at hl
  split at hl
  · rename_i hid
    obtain ⟨hg, rfl⟩ := hid
    cases hl
    rw [holds_edit id' k ho.slot created] at hc
    by_cases hsub : (Change.edit id' created k).subscribes c id'
    · cases k with
      | subscribe c' flags =>
        obtain ⟨rfl, _⟩ := hsub
        refine ⟨flags &&& typeVarMask, by simp [acceptedType_concat, Change.subscription], ?_⟩
        rw [edit_dataType ev (by simp)]
        exact typesFit_of_admits ho.slot hadm
      | _ => cases hsub
    · have hold := (hc.resolve_left hsub).1
      have hcr : created = false := by
        rw [Bool.eq_false_iff]
        intro hcr
        obtain ⟨old, rfl⟩ := (ho.fresh hcr).2 hg
        exact not_holds_empty c hold
      obtain ⟨type, ht, hcomp⟩ := ha id' ev (ho.found hcr) c hold
      exact ⟨type, by rw [acceptedType_keep hsub]; exact ht,
        edit_typesFit hs hcr (ho.found hcr) hold ht hcomp⟩
  · rename_i hid
    have hne : id' ≠ id := by
      rintro rfl
      exact hid ⟨look_good hl, rfl⟩
    rw [acceptedType_keep (edit_other k created hne).1]
    exact ha id' ev' hl c hc

/-- A change that subscribes nobody and leaves the types and some of the consumers. -/
theorem shrink_typesAgree (hinv : TableInv s.events) (hinv' : TableInv t') (ha : TypesAgree s.events log)
    (hsub : ∀ c id, ¬ ch.subscribes c id)
    (h : ∀ id ev', look t' id = some ev' → ∃ ev, look s.events id = some ev ∧ ev'.dataType = ev.dataType ∧
      ∀ c, Holds ev'.consumers c → Holds ev.consumers c) : TypesAgree t' (log ++ [ch]) := by
  rw [typesAgree_iff hinv] at ha
  rw [typesAgree_iff hinv']
  intro id ev' hl c hc
  obtain ⟨ev, hl', htype, hcons⟩ := h id ev' hl
  rw [acceptedType_keep (hsub c id), htype]
  exact ha id ev hl' c (hcons c hc)

theorem closed_consumers {ev : Event} (hslot : SlotInv ev) (c' : ClientIx) (hc : Holds (ev.closed c').consumers c) :
    Holds ev.consumers c := by
  unfold Event.closed at hc
  split at hc
  · exact ((holds_dropConsumer hslot).mp hc).2
  · exact hc

/-- **One change** keeps the types in agreement. -/
theorem change_typesAgree (hinv : TableInv s.events) (ha : TypesAgree s.events log) (hs : ch.suits s log)
    (h : ch.Applies s t') : TypesAgree t' (log ++ [ch]) := by
  have hinv' := h.inv
  cases ch with
  | edit id created k => exact edit_typesAgree hinv ha hs h
  | keep =>
    refine shrink_typesAgree hinv hinv' ha (by simp [Change.subscribes]) ?_
    intro id ev' hl
    exact ⟨ev', by rw [← h.2]; exact hl, rfl, fun _ hc => hc⟩
  | free id' =>
    refine shrink_typesAgree hinv hinv' ha (by simp [Change.subscribes]) ?_
    intro id ev' hl
    rw [h.2] at hl
    split at hl
    · cases hl
    · exact ⟨ev', hl, rfl, fun _ hc => hc⟩
  | close c' =>
    refine shrink_typesAgree hinv hinv' ha (by simp [Change.subscribes]) ?_
    intro id ev' hl
    rw [h.2] at hl
    obtain ⟨ev, hl', rfl⟩ := Option.map_eq_some_iff.mp hl
    obtain ⟨cs, n, hsame⟩ := closed_same c' ev
    exact ⟨ev, hl', by rw [hsame], fun _ hc => closed_consumers (hinv.slotInv hl') c' hc⟩

/-! ### Which acts change the type of an event -/

theorem addEvent_found_ret {flags size : UInt32} {data : Option (List UInt8)} (hl : (look s.events id).isSome = true) :
    (addEvent s id flags data size).ret = 0 ↔ flags &&& typeForce ≠ 0 := by
  obtain ⟨ev, hl⟩ := Option.isSome_iff_exists.mp hl
  have hg := look_good hl
  rw [look_eq_find hg] at hl
  obtain ⟨e, hf, _⟩ := Option.map_eq_some_iff.mp hl
  simp only [addEvent, hf]
  split
  · rename_i hz
    simp [hz]
  · rename_i hz
    simp [hz]

theorem accepted_eq_edit {ret : Int} {k k' : Edit} {id' : Id} {created : Bool}
    (h : accepted s id ret k = .edit id' created k') :
    ret = 0 ∧ id' = id ∧ created = !(look s.events id).isSome ∧ k' = k := by
  unfold accepted at h
  split at h
  · rename_i hr
    cases h
    exact ⟨hr, rfl, rfl, rfl⟩
  · cases h

/-- A DEFINE packet of a live event changes its type when it has FORCE, and only then. -/
theorem packet_redefines (p : Packet) (hm : p.header.msg = .define) (hl : (look s.events p.header.id).isSome = true) :
    packetChange env s c p =
      if p.header.type &&& typeForce ≠ 0 then
        .edit p.header.id false (.define p.header.type none p.header.dataSize.toUInt32) else .keep := by
  simp only [packetChange, hm, accepted, addEvent_found_ret hl, hl, Bool.not_true]

theorem packet_defines {p : Packet} {flags size : UInt32} {data : Option (List UInt8)}
    (h : packetChange env s c p = .edit id false (.define flags data size)) :
    p.header.msg = .define ∧ p.header.type &&& typeForce ≠ 0 ∧ id = p.header.id ∧ flags = p.header.type := by
  have hcases := packetChange_cases env s c p
  rw [h] at hcases
  cases hcases with
  | define created hm =>
    simp only [packetChange, hm] at h
    obtain ⟨hr, _, hcr, _⟩ := accepted_eq_edit h
    rw [eq_comm, Bool.not_eq_false'] at hcr
    exact ⟨hm, (addEvent_found_ret hcr).mp hr, rfl, rfl⟩

theorem serverDefine_ret {cid : List UInt8} {flags size : UInt32} {data : Option (List UInt8)} :
    (serverDefine s cid flags data size).ret = 0 ↔
      size.toNat ≤ variableSizeMaximum ∧ (addEvent s (idstr cid) flags data size).ret = 0 := by
  unfold serverDefine
  split
  · rename_i hs
    simp only [Nat.not_le.mpr hs, false_and, iff_false]
    decide
  · rename_i hs
    simp [Nat.not_lt.mp hs]

/-- **What redefines an event** is a DEFINE with FORCE. -/
theorem redefines_of_change {a : Act} {flags size : UInt32} {data : Option (List UInt8)}
    (h : changeOf s a = .edit id false (.define flags data size)) : a.redefines s = some (id, flags) := by
  cases a with
  | packet env c p =>
    obtain ⟨hm, hf, rfl, rfl⟩ := packet_defines h
    simp only [Act.redefines, hm, hf, ne_eq, not_false_iff, and_self, ↓reduceIte]
  | datagram env addr p =>
    simp only [changeOf] at h
    split at h
    · rename_i s' c hu
      obtain ⟨hm, hf, rfl, rfl⟩ := packet_defines h
      rw [uclientOf_known (by rw [hm]; decide)] at hu
      obtain ⟨c', hc, _⟩ := Option.map_eq_some_iff.mp hu
      simp only [Act.redefines, hc, hm, hf, Option.isSome_some, ne_eq, not_false_iff, and_self, ↓reduceIte]
    · cases h
  | serverDefine cid flags' data' size' =>
    obtain ⟨hr, rfl, hcr, hk⟩ := accepted_eq_edit h
    cases hk
    rw [eq_comm, Bool.not_eq_false'] at hcr
    obtain ⟨hsize, hadd⟩ := serverDefine_ret.mp hr
    have hf := (addEvent_found_ret hcr).mp hadd
    simp only [Act.redefines, hsize, hf, ne_eq, not_false_iff, and_self, ↓reduceIte]
  | serverWrite env flags' cid data' size' => cases (accepted_eq_edit h).2.2.2
  | serverSubscribeEvent flags' cid cb args => cases (accepted_eq_edit h).2.2.2
  | serverUnsubscribeEvent cid =>
    simp only [changeOf] at h
    split at h <;> cases h
  | accept | close | keep | serverUndefine | setSyncOffset => cases h

/-- A DEFINE with FORCE redefines its event when it is live. -/
theorem change_of_redefines {a : Act} {flags : UInt32} (hr : a.redefines s = some (id, flags))
    (hl : (look s.events id).isSome = true) :
    ∃ data size, changeOf s a = .edit id false (.define flags data size) := by
  cases a with
  | packet env c p =>
    simp only [Act.redefines] at hr
    split at hr
    · rename_i hd
      cases hr
      exact ⟨_, _, by rw [changeOf, packet_redefines p hd.1 hl, if_pos hd.2]⟩
    · cases hr
  | datagram env addr p =>
    simp only [Act.redefines] at hr
    split at hr
    · rename_i hd
      cases hr
      obtain ⟨hknown, hm, hf⟩ := hd
      obtain ⟨c, hc⟩ := Option.isSome_iff_exists.mp hknown
      refine ⟨none, p.header.dataSize.toUInt32, ?_⟩
      rw [changeOf, uclientOf_known (by rw [hm]; decide), hc]
      simp only [Option.map_some]
      rw [packet_redefines p hm hl, if_pos hf]
    · cases hr
  | serverDefine cid flags' data size =>
    simp only [Act.redefines] at hr
    split at hr
    · rename_i hd
      cases hr
      have hret : (serverDefine s cid flags data size).ret = 0 :=
        serverDefine_ret.mpr ⟨hd.1, (addEvent_found_ret hl).mpr hd.2⟩
      exact ⟨data, size, by simp only [changeOf, accepted, hret, hl, ↓reduceIte, Bool.not_true]⟩
    · cases hr
  | accept | close | keep | serverWrite | serverUndefine | serverSubscribeEvent | serverUnsubscribeEvent
  | setSyncOffset => cases hr

theorem change_suits {a : Act} (hinv : TableInv s.events) (h : a.suits s log) : (changeOf s a).suits s log := by
  cases hch : changeOf s a with
  | edit id created k =>
    cases created with
    | true => trivial
    | false =>
      cases k with
      | define flags data size =>
        intro ev hl c hc
        obtain ⟨hg, e, hid, rfl⟩ := hinv.slot_of_look hl
        exact h id flags (redefines_of_change hch) e (Event.live_iff.mpr (by rw [hid]; exact hg)) hid c hc
      | _ => trivial
  | _ => trivial

/-- Agreement after a DEFINE with FORCE means that it suited the consumers. -/
theorem suits_of_typesAgree {a : Act} (hinv : TableInv s.events)
    (ha : TypesAgree (act s a).1.events (log ++ [changeOf s a])) : a.suits s log := by
  intro id flags hr e hlive hid c hc type ht
  have hl : look s.events id = some (s.events e) := by
    rw [← hid]
    exact hinv.look_self (Event.live_iff.mp hlive)
  obtain ⟨data, size, hch⟩ := change_of_redefines hr (by rw [hl]; rfl)
  have happ := act_change hinv a
  have hinv' := happ.inv
  rw [hch] at happ ha
  obtain ⟨ev, ho, _, hset⟩ := happ
  have hev : ev = s.events e := by
    have hfound := ho.found rfl
    rw [hl] at hfound
    exact (Option.some.inj hfound).symm
  subst hev
  rw [typesAgree_iff hinv'] at ha
  have hl' := hset.look id
  rw [if_pos ⟨look_good hl, rfl⟩] at hl'
  obtain ⟨type', ht', hcomp⟩ := ha id _ hl' c hc
  rw [acceptedType_keep (by simp [Change.subscribes]), ht] at ht'
  cases ht'
  exact hcomp

end Steps

/-! ## Runs -/

theorem run_typesAgree_iff (cid : List UInt8) (as : List Act) :
    (∀ pre post, as = pre ++ post →
      TypesAgree (run act (serverCreate cid) pre).1.events (journal (serverCreate cid) pre)) ↔
    ∀ pre a post, as = pre ++ a :: post →
      a.suits (run act (serverCreate cid) pre).1 (journal (serverCreate cid) pre) := by
  constructor
  · intro h pre a post has
    have ha := h (pre ++ [a]) post (by rw [has, List.append_assoc]; rfl)
    rw [run_concat, journal_concat] at ha
    exact suits_of_typesAgree (run_tableInv cid pre) ha
  · intro h pre
    induction pre using List.reverseRecOn with
    | nil =>
      intro _ _ e hlive
      exact absurd (Event.live_iff.mp hlive) (Id.not_good_free _)
    | append_singleton pre a ih =>
      intro post has
      have hsplit : as = pre ++ a :: post := by rw [has, List.append_assoc]; rfl
      have hinv := run_tableInv cid pre
      rw [run_concat, journal_concat]
      exact change_typesAgree hinv (ih _ hsplit) (change_suits hinv (h pre a post hsplit)) (act_change hinv a)

/-- **Subscribers hold events of a compatible type** in every state of a run exactly when every DEFINE with FORCE of a
live event suits the consumers the event has then; no accepted `syncs_server_write` of the run brings more than the
array of an event holds. -/
theorem subscribers_compatible_iff (place : Places) (cid : List UInt8) (as : List Act)
    (hin : Along (memoryAct place) ServerMemory.InArray (.whole (serverCreate cid)) as) :
    (∀ pre post, as = pre ++ post → ∃ s, (run (memoryAct place) (.whole (serverCreate cid)) pre).1 = .whole s ∧
      TypesAgree s.events (journal (serverCreate cid) pre)) ↔
    ∀ pre a post, as = pre ++ a :: post → ∃ s, (run (memoryAct place) (.whole (serverCreate cid)) pre).1 = .whole s ∧
      a.suits s (journal (serverCreate cid) pre) := by
  have hwhole : ∀ {pre post : List Act} {P : Server → Prop}, as = pre ++ post →
      ((∃ s, (run (memoryAct place) (.whole (serverCreate cid)) pre).1 = .whole s ∧ P s) ↔
        P (run act (serverCreate cid) pre).1) := by
    rintro pre post P rfl
    simp only [memory_before hin, ServerMemory.whole.injEq, exists_eq_left']
  have hagree := run_typesAgree_iff cid as
  constructor
  · intro h pre a post has
    exact (hwhole has).mpr (hagree.mp (fun pre post has => (hwhole has).mp (h pre post has)) pre a post has)
  · intro h pre post has
    exact (hwhole has).mpr (hagree.mpr (fun pre a post has => (hwhole has).mp (h pre a post has)) pre post has)

/-- A client subscribes to an INT32, and another one redefines the event with the given type. -/
def retyped (type : UInt32) : List Act :=
  [.packet .calm 0 (Packet.make (Msg.subscribe.code ||| typeForce ||| typeVarInt32) .zero []),
    .packet .calm 1 (Packet.make (Msg.define.code ||| typeForce ||| type) .zero [])]

theorem retyped_iff :
    (∀ pre post, retyped typeVarInt32 = pre ++ post →
      ∃ s, (run (memoryAct somePlaces) (.whole (serverCreate [])) pre).1 = .whole s ∧
        TypesAgree s.events (journal (serverCreate []) pre)) ↔
    ∀ pre a post, retyped typeVarInt32 = pre ++ a :: post →
      ∃ s, (run (memoryAct somePlaces) (.whole (serverCreate [])) pre).1 = .whole s ∧
        a.suits s (journal (serverCreate []) pre) :=
  subscribers_compatible_iff somePlaces [] (retyped typeVarInt32) ⟨fun _ _ => trivial, fun _ _ => trivial, trivial⟩

/-- Redefined as a FLOAT, the event no longer suits its consumer. -/
theorem retyped_float_incompatible :
    (run (memoryAct somePlaces) (.whole (serverCreate [])) (retyped typeVarFloat)).1 =
        .whole (run act (serverCreate []) (retyped typeVarFloat)).1 ∧
      ¬ TypesAgree (run act (serverCreate []) (retyped typeVarFloat)).1.events
        (journal (serverCreate []) (retyped typeVarFloat)) := by
  have hin : Along (memoryAct somePlaces) ServerMemory.InArray (.whole (serverCreate [])) (retyped typeVarFloat) :=
    ⟨fun _ _ => trivial, fun _ _ => trivial, trivial⟩
  refine ⟨by rw [run_memoryAct _ hin], fun h => ?_⟩
  obtain ⟨type, ht, hcomp⟩ := h 0 (by decide +kernel) 0 (by decide +kernel)
  have ht' : acceptedType (journal (serverCreate []) (retyped typeVarFloat)) 0
      ((run act (serverCreate []) (retyped typeVarFloat)).1.events 0).id = some typeVarInt32 := by
    decide +kernel
  rw [ht'] at ht
  cases ht
  revert hcomp
  decide +kernel

end SyncScribe
