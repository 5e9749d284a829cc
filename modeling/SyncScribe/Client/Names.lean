import SyncScribe.Client.SyncEvents

/-!
Names of any length. `syncs_idcmp_str` compares one byte more than `syncs_idstr`
stores: of a name above 31 bytes it finds no identifier, its own included
(`idcmpStr_idstr_iff`). Subscribing such a name again takes another slot, and that
is the only way to fill two slots with one name.
-/

namespace SyncScribe
open Lib Lib.Bytes Lib.Slots Lib.Keyed

/-! ## The two comparisons -/

/-- The identifiers of two names are equal when their first 31 bytes are. -/
theorem idstr_eq_iff (a b : List UInt8) : idstr a = idstr b ↔ (cstr a).take 31 = (cstr b).take 31 := by
  constructor
  · intro h
    rw [← cstr_bytes_idstr, h, cstr_bytes_idstr]
  · intro h
    rw [idstr, idstr, idstrLoop_eq, idstrLoop_eq, h]

theorem idcmpStr_idstr_iff (a b : List UInt8) :
    idcmpStr (idstr a) b = true ↔ (cstr a).take 31 = (cstr b).take 32 := by
  rw [idcmpStr, idcmpStrLoop_iff, cstr_bytes_idstr, List.take_take]
  rfl

/-- The comparisons of `b` with the identifier of `a`, and of the first 31 bytes. -/
structure NamesAgree (a b : List UInt8) : Prop where
  str : idcmpStr (idstr a) b = true ↔ idcmp (idstr a) (idstr b) = true
  bytes : idcmp (idstr a) (idstr b) = true ↔ (cstr a).take 31 = (cstr b).take 31

/-- They agree but on longer names that start alike. -/
theorem namesAgree_iff (a b : List UInt8) :
    NamesAgree a b ↔ ¬ (31 < (cstr b).length ∧ (cstr a).take 31 = (cstr b).take 31) := by
  have hbytes : idcmp (idstr a) (idstr b) = true ↔ (cstr a).take 31 = (cstr b).take 31 := by
    rw [idcmp_iff, idstr_eq_iff]
  constructor
  · rintro h ⟨hlong, heq⟩
    have hstr := h.str.mpr (hbytes.mpr heq)
    rw [idcmpStr_idstr_iff] at hstr
    have hlen := congrArg List.length hstr
    rw [List.length_take, List.length_take] at hlen
    omega
  · intro h
    refine ⟨?_, hbytes⟩
    rw [hbytes, idcmpStr_idstr_iff]
    by_cases hlong : 31 < (cstr b).length
    · have hne : (cstr a).take 31 ≠ (cstr b).take 31 := fun heq => h ⟨hlong, heq⟩
      refine iff_of_false ?_ hne
      intro heq
      have hlen := congrArg List.length heq
      rw [List.length_take, List.length_take] at hlen
      omega
    · rw [List.take_of_length_le (i := 32) (by omega), List.take_of_length_le (i := 31) (l := cstr b) (by omega)]

/-! ## The identifiers of the table -/

def Connect.ids (s : Connect) : EventIx → Id := fun e => (s.events e).id

/-- The name a call subscribes. -/
def ClientAct.subscribedName : ClientAct → Option (List UInt8)
  | .subscribe _ _ cid _ _ | .subscribeSync _ _ cid _ | .subscribeSyncUser _ _ cid _ _ => some cid
  | _ => none

/-- What an act can do to the identifiers. -/
inductive IdsChange (s : Connect) (a : ClientAct) (ids : EventIx → Id) : Prop
  | keep (h : ids = s.ids) (hrefused : ∀ cid, a.subscribedName = some cid → s.getEventStr cid = none)
  | store (cid : List UInt8) (e : EventIx) (hname : a.subscribedName = some cid) (hs : s.getEventStr cid = some e)
    (h : ids = Function.update s.ids e (idstr cid))
  | free (e : EventIx) (hname : a.subscribedName = none) (h : ids = Function.update s.ids e (s.ids e).free)

section Steps

variable {s : Connect} {a : ClientAct} {cid : List UInt8} {e : EventIx}

theorem ids_setEvent (s : Connect) (e : EventIx) (ev : ClientEvent) :
    (s.setEvent e ev).ids = Function.update s.ids e ev.id := by
  funext i
  by_cases hi : i = e
  · subst hi
    simp [Connect.ids, Connect.setEvent]
  · simp [Connect.ids, Connect.setEvent, hi]

theorem ids_subscribeSlot (env : ClientEnv) (s : Connect) (e : EventIx) (ev : ClientEvent) (flags : UInt32)
    (cid : List UInt8) : (subscribeSlot env s e ev flags cid).1.ids = Function.update s.ids e (idstr cid) :=
  ids_setEvent s e _

/-- The three subscribing calls. -/
theorem subscribed_ids {r : Option (Connect × List ClientOut)} {env : ClientEnv} {flags : UInt32}
    (ev : EventIx → ClientEvent) (ha : a.subscribedName = some cid)
    (hr : r = (s.getEventStr cid).map fun e => subscribeSlot env s e (ev e) flags cid) :
    IdsChange s a (s.call? r).1.ids := by
  cases hs : s.getEventStr cid with
  | none =>
    rw [hs] at hr
    subst hr
    refine .keep rfl fun cid' hname => ?_
    rw [ha, Option.some.injEq] at hname
    rw [← hname, hs]
  | some e =>
    rw [hs] at hr
    subst hr
    exact .store cid e ha hs (ids_subscribeSlot env s e (ev e) flags cid)

theorem processPacket_ids (env : ClientEnv) (s : Connect) (p : Packet) : (processPacket env s p).1.ids = s.ids := by
  unfold processPacket
  split
  · funext i
    exact processEvent_id s p i
  · rw [channelProcessPacket_frame]
    rfl
  · rw [processError_frame]
    rfl
  · rw [processRead_frame]
    rfl
  all_goals rfl

/-- **One act** on the identifiers. -/
theorem clientAct_ids (s : Connect) (a : ClientAct) : IdsChange s a (clientAct s a).1.ids := by
  have hkeep : ∀ {b : ClientAct}, b.subscribedName = none → (clientAct s b).1.events = s.events →
      IdsChange s b (clientAct s b).1.ids := by
    intro b hb hev
    refine .keep (congrArg (fun (t : EventIx → ClientEvent) (e : EventIx) => (t e).id) hev) fun cid hname => ?_
    rw [hb] at hname
    cases hname
  cases a with
  | subscribe env flags cid cb args =>
    exact subscribed_ids (fun e => { s.events e with cb := cb, args := args }) rfl rfl
  | subscribeSync env flags cid eventData =>
    exact subscribed_ids (fun e => { s.events e with
      data := eventData, dataUserSize := UInt32.ofNat eventDataSizeMaximum }) rfl rfl
  | subscribeSyncUser env flags cid userData userDataSize =>
    exact subscribed_ids (fun e => { s.events e with data := userData, dataUserSize := userDataSize }) rfl rfl
  | unsubscribe env cid =>
    cases hf : s.findEvent (idstr cid) with
    | none => exact hkeep rfl (by simp [clientAct, Connect.call?, unsubscribeEvent, hf])
    | some e =>
      refine .free e rfl ?_
      simp only [clientAct, Connect.call?, unsubscribeEvent, hf]
      exact ids_setEvent s e _
  | packet env p =>
    exact .keep (processPacket_ids env s p) fun cid hname => by cases hname
  | requestList env l =>
    refine hkeep rfl ?_
    simp only [clientAct, requestList]
    split <;> rfl
  | requestListEnd inetAddr l => exact hkeep rfl rfl
  | freeList l => exact hkeep rfl rfl
  | write | define | undefine | read | waitEvent | channelAnons | channelRequest | sockets | sendId =>
    exact hkeep rfl (clientAct_frame rfl rfl).1

end Steps

/-! ## One slot for each name -/

/-- No name is in two slots. -/
def OneSlotEach (s : Connect) : Prop :=
  ∀ name e e', (s.events e).live = true → (s.events e').live = true → (s.events e).id = idstr name →
    (s.events e').id = idstr name → e = e'

/-- A call that subscribes a name above 31 bytes finds no slot that has it already, or no free one. -/
def ClientAct.takesNoSecond (s : Connect) (a : ClientAct) : Prop :=
  ∀ cid, a.subscribedName = some cid →
    ¬ (31 < (cstr cid).length ∧ InTable s.events (idstr cid) ∧ s.getFreeEvent.isSome = true)

/-- The identifiers of live slots are those of names, and the last byte of every identifier is zero. -/
structure StoredNames (s : Connect) : Prop where
  named : ∀ e, (s.ids e).good → ∃ name, s.ids e = idstr name
  ended : ∀ e, (s.ids e).c 31 = 0

section Slots

variable {s s' : Connect} {a : ClientAct} {cid : List UInt8} {e : EventIx}

theorem oneSlotEach_iff (h : StoredNames s) : OneSlotEach s ↔ Unique (fun x : Id => x) Id.good s.ids := by
  constructor
  · intro hone i j hi hij
    obtain ⟨name, hname⟩ := h.named i hi
    have hj : (s.ids j).good := by
      rwa [← show s.ids i = s.ids j from hij]
    exact hone name i j (ClientEvent.live_iff.mpr hi) (ClientEvent.live_iff.mpr hj) hname (hij.symm.trans hname)
  · intro hu name i j hi _ hname hname'
    exact hu i j (ClientEvent.live_iff.mp hi) (hname.trans hname'.symm)

theorem idstr_ended (cid : List UInt8) : (idstr cid).c 31 = 0 := by
  rw [Id.c, idstr, Id.bytes_ofBytes, idstrLoop_eq, ← slice_zero, getD_slice, if_pos (by decide), Nat.zero_add,
    List.getD_eq_getElem?_getD, List.getElem?_eq_none (by rw [List.length_take]; omega)]
  rfl

theorem free_ended {x : Id} (h : x.c 31 = 0) : x.free.c 31 = 0 := by
  have hword : ∀ w : UInt64, (leBytes 8 w.toNat).length = 8 := fun w => length_leBytes _ _
  simp only [Id.c, Id.bytes, Id.free, List.append_assoc, List.getD_eq_getElem?_getD] at h ⊢
  rw [List.getElem?_append_right (by rw [hword]; omega), hword] at h ⊢
  exact h

/-- An ended identifier has at most 31 characters. -/
theorem length_cstr_bytes {x : Id} (h : x.c 31 = 0) : (cstr x.bytes).length ≤ 31 := by
  by_contra hlong
  have hall : cstr x.bytes = x.bytes :=
    (List.takeWhile_prefix _).eq_of_length_le (by rw [Id.length_bytes]; exact Nat.lt_of_not_le hlong)
  have hmem : x.c 31 ∈ cstr x.bytes := by
    have hlt : 31 < x.bytes.length := by rw [Id.length_bytes]; decide
    rw [hall, Id.c, List.getD_eq_getElem?_getD, List.getElem?_eq_getElem hlt, Option.getD_some]
    exact List.getElem_mem hlt
  rw [h] at hmem
  have hnonzero := List.mem_takeWhile_imp hmem
  exact absurd hnonzero (by decide)

/-- Eight bytes `0xff` at the start are the free mark. -/
theorem not_mark_of_good {x : Id} (h : x.good) : ¬ List.replicate 8 0xff <+: x.bytes := by
  rintro ⟨rest, hrest⟩
  simp only [Id.bytes, List.append_assoc] at hrest
  have hword := (List.append_inj hrest (by rw [length_leBytes, List.length_replicate])).1
  apply h
  rw [← word64_roundtrip x.i0, ← hword]
  decide

/-- A slot found for a name has its identifier, or is free and the name is marked. -/
theorem findEventStr_some (h : StoredNames s) (hf : s.findEventStr cid = some e) :
    (cstr cid).length ≤ 31 ∧ (s.ids e = idstr cid ∨ (¬ (s.ids e).good ∧ ¬ (idstr cid).good)) := by
  have hcmp : (cstr (s.ids e).bytes).take 32 = (cstr cid).take 32 :=
    (idcmpStrLoop_iff 31 _ _).mp (first_some hf)
  have hend := length_cstr_bytes (h.ended e)
  have hshort : (cstr cid).length ≤ 31 := by
    have hlen := congrArg List.length hcmp
    rw [List.length_take, List.length_take] at hlen
    omega
  rw [List.take_of_length_le (by omega), List.take_of_length_le (by omega)] at hcmp
  refine ⟨hshort, ?_⟩
  by_cases hg : (s.ids e).good
  · left
    obtain ⟨name, hname⟩ := h.named e hg
    rw [hname, cstr_bytes_idstr] at hcmp
    rw [hname, idstr_eq_iff, hcmp, List.take_of_length_le hshort]
  · right
    refine ⟨hg, fun hgood => ?_⟩
    have hpre := mark_of_not_good hg
    have hstored := cstr_bytes_idstr cid
    rw [List.take_of_length_le hshort] at hstored
    rw [hcmp, ← hstored] at hpre
    exact not_mark_of_good hgood (hpre.trans (List.takeWhile_prefix _))

/-- What a subscribing call does to names kept apart. -/
theorem unique_store_iff (h : StoredNames s) (hu : Unique (fun x : Id => x) Id.good s.ids)
    (hs : s.getEventStr cid = some e) :
    Unique (fun x : Id => x) Id.good (Function.update s.ids e (idstr cid)) ↔
      ¬ (31 < (cstr cid).length ∧ InTable s.events (idstr cid) ∧ s.getFreeEvent.isSome = true) := by
  unfold Connect.getEventStr at hs
  split at hs
  · -- the name has no slot that is found
    rename_i hnone
    have hfree : ¬ (s.ids e).good := by
      have hmark := first_some hs
      simpa [Connect.ids, Id.good] using hmark
    by_cases hin : InTable s.events (idstr cid)
    · obtain ⟨e₀, hg, he₀⟩ := hin
      have hne : e₀ ≠ e := by
        rintro rfl
        exact hfree hg
      have hlong : 31 < (cstr cid).length := by
        by_contra hshort
        have hcmp := first_eq_none.mp hnone e₀
        have hagree := (namesAgree_iff cid cid).mpr fun hl => hshort hl.1
        rw [he₀, hagree.str.mpr (idcmp_iff.mpr rfl)] at hcmp
        cases hcmp
      refine iff_of_false (fun hu' => hne ?_) (not_not.mpr ⟨hlong, ⟨e₀, hg, he₀⟩, by rw [hs]; rfl⟩)
      refine hu' e₀ e ?_ ?_
      · rw [Function.update_of_ne hne]
        exact hg
      · rw [Function.update_of_ne hne, Function.update_self]
        exact he₀
    · refine iff_of_true ?_ fun hl => hin hl.2.1
      by_cases hgood : (idstr cid).good
      · exact hu.insert fun j hj => hin ⟨j, by rw [show (s.events j).id = idstr cid from hj]; exact hgood, hj⟩
      · exact hu.remove hgood
  · rename_i e' hfound
    cases hs
    obtain ⟨hshort, hid⟩ := findEventStr_some h hfound
    refine iff_of_true ?_ fun hl => absurd hl.1 (by omega)
    rcases hid with hid | ⟨_, hmarked⟩
    · exact hu.update hid.symm
    · exact hu.remove hmarked

theorem StoredNames.act (h : StoredNames s) (a : ClientAct) : StoredNames (clientAct s a).1 := by
  have hupdate : ∀ {e : EventIx} {x : Id}, (x.good → ∃ name, x = idstr name) → x.c 31 = 0 →
      (clientAct s a).1.ids = Function.update s.ids e x → StoredNames (clientAct s a).1 := by
    intro e x hnamed hended hids
    constructor
    · rw [hids]
      exact forall_update (P := fun x : Id => x.good → ∃ name, x = idstr name) h.named hnamed
    · rw [hids]
      exact forall_update (P := fun x : Id => x.c 31 = 0) h.ended hended
  cases clientAct_ids s a with
  | keep hids _ => exact ⟨by rw [hids]; exact h.named, by rw [hids]; exact h.ended⟩
  | store cid e _ _ hids => exact hupdate (fun _ => ⟨cid, rfl⟩) (idstr_ended cid) hids
  | free e _ hids => exact hupdate (fun hg => absurd hg (Id.not_good_free _)) (free_ended (h.ended e)) hids

/-- **One act** keeps names apart exactly when it takes no second slot. -/
theorem oneSlotEach_act (h : StoredNames s) (hone : OneSlotEach s) (a : ClientAct) :
    OneSlotEach (clientAct s a).1 ↔ a.takesNoSecond s := by
  have hu := (oneSlotEach_iff h).mp hone
  rw [oneSlotEach_iff (h.act a)]
  cases clientAct_ids s a with
  | keep hids hrefused =>
    rw [hids]
    refine iff_of_true hu fun cid hname hl => ?_
    have hnone := hrefused cid hname
    unfold Connect.getEventStr at hnone
    split at hnone
    · rw [hnone] at hl
      exact absurd hl.2.2 (by decide)
    · cases hnone
  | store cid e hname hs hids =>
    rw [hids, unique_store_iff h hu hs, ClientAct.takesNoSecond, hname]
    exact ⟨fun hnot cid' hcid => Option.some.inj hcid ▸ hnot, fun hall => hall cid rfl⟩
  | free e hname hids =>
    rw [hids]
    refine iff_of_true (hu.remove (Id.not_good_free _)) fun cid hcid => ?_
    rw [hname] at hcid
    cases hcid

end Slots

theorem storedNames_start (name addr : List UInt8) : StoredNames (connectCreate name addr) where
  named := fun _ h => absurd h (Id.not_good_free _)
  ended := fun _ => show Id.zero.free.c 31 = 0 by decide

theorem oneSlotEach_start (name addr : List UInt8) : OneSlotEach (connectCreate name addr) := by
  intro n e e' he
  exact absurd (ClientEvent.live_iff.mp he) (Id.not_good_free _)

/-- **When the comparisons agree, and when every name has one slot.** -/
theorem comparisons_agree_iff (a b name addr : List UInt8) (acts : List ClientAct) :
    (NamesAgree a b ↔ ¬ (31 < (cstr b).length ∧ (cstr a).take 31 = (cstr b).take 31)) ∧
    (Throughout clientAct OneSlotEach (connectCreate name addr) acts ↔
      Along clientAct (fun s a => a.takesNoSecond s) (connectCreate name addr) acts) :=
  ⟨namesAgree_iff a b,
    throughout_iff_along (fun _ a h => h.act a) (fun _ a h hone => oneSlotEach_act h hone a) acts _
      (storedNames_start name addr) (oneSlotEach_start name addr)⟩

/-- The long name of the tests. -/
def longName : List UInt8 :=
  [48, 49, 50, 51, 52, 53, 54, 55, 56, 57, 48, 49, 50, 51, 52, 53, 54, 55, 56, 57, 48, 49, 50, 51, 52, 53, 54, 55, 56,
    57, 49, 50, 51, 52, 53, 54, 55, 56, 57, 48, 49, 50, 51, 52, 53]

/-- A client subscribes it twice. -/
def twiceSubscribed : List ClientAct :=
  [.subscribe .calm 0 longName (some 1) 0, .subscribe .calm 0 longName (some 2) 0]

/-- The name does not match its own identifier, and gets a second slot. -/
theorem longName_twice : ¬ NamesAgree longName longName ∧
    ¬ Throughout clientAct OneSlotEach (connectCreate [] []) twiceSubscribed := by
  constructor
  · intro h
    have hstr := h.str.mpr (idcmp_iff.mpr rfl)
    exact absurd hstr (by decide)
  · intro h
    have hboth : ((run clientAct (connectCreate [] []) twiceSubscribed).1.events 0).id = idstr longName ∧
        ((run clientAct (connectCreate [] []) twiceSubscribed).1.events 1).id = idstr longName := by
      decide +kernel
    have hlive : (idstr longName).good := by decide
    have hslot := h twiceSubscribed [] rfl longName 0 1 (ClientEvent.live_iff.mpr (by rw [hboth.1]; exact hlive))
      (ClientEvent.live_iff.mpr (by rw [hboth.2]; exact hlive)) hboth.1 hboth.2
    exact absurd hslot (by decide)

end SyncScribe
