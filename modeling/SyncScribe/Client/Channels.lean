import SyncScribe.Client.Table
import SyncScribe.Client.Machine

/-!
The channel table of the client. `syncs_channel_anons` takes the first free slot
and does not look whether the identifier has one already, nor whether a slot was
found. The table is a map, and a reconnect announces each channel once, exactly
when every identifier is announced once and no more than 32 of them are
(`channel_table_iff`).
-/

namespace SyncScribe
open Lib Lib.Bytes Lib.Slots Lib.Keyed

/-! ## Announcing -/

/-- The result of `syncs_channel_anons`: it is always 0; `none` where no slot is found. -/
def channelAnonsRet (s : Connect) : Option Int := s.findFreeChannel.map fun _ => 0

/-- A call on a map from identifiers to tickets. -/
structure MapCall (before after : ChannelIx → ConnectChannel) (ret : Int) (id : Id) (ticket : Ticket) : Prop where
  /-- an error changes nothing -/
  refused : ret ≠ 0 → after = before
  /-- else one live slot has the identifier and the latest ticket -/
  accepted : ret = 0 → ∃ k, (after k).ticket = ticket ∧ ∀ j, (after j).live = true ∧ (after j).id = id ↔ j = k
  /-- the slot it had is used again -/
  again : ret = 0 → ∀ k, (before k).live = true → (before k).id = id → (after k).live = true ∧ (after k).id = id
  /-- all slots used by others are an error -/
  full : (∀ k, (before k).live = true ∧ (before k).id ≠ id) → ret ≠ 0
  /-- the other channels stay -/
  others : ∀ k, (before k).live = true → (before k).id ≠ id → after k = before k

/-- Every announcement returns, and is a call on a map. -/
def ClientAct.announcesAsMap (s : Connect) : ClientAct → Prop
  | .channelAnons env cid flags port =>
    ∃ s' out ret, channelAnonsCall env s cid flags port = some (s', out) ∧ channelAnonsRet s = some ret ∧
      MapCall s.channels s'.channels ret (idstr cid) ⟨0, port, flags⟩
  | _ => True

/-- The identifier an act announces. -/
def ClientAct.announced : ClientAct → Option Id
  | .channelAnons _ cid _ _ => some (idstr cid)
  | _ => none

/-- The ticket an act announces for an identifier. -/
def ClientAct.ticketFor (id : Id) : ClientAct → Option Ticket
  | .channelAnons _ cid flags port => if idstr cid = id then some ⟨0, port, flags⟩ else none
  | _ => none

def announcedIds (acts : List ClientAct) : List Id := acts.filterMap ClientAct.announced

/-- The ticket announced last. -/
def latestTicket (acts : List ClientAct) (id : Id) : Option Ticket :=
  acts.reverse.findSome? (ClientAct.ticketFor id)

/-- What a packet announces. -/
def Outgoing.announcement (o : Outgoing) : Option (Id × Ticket) :=
  if o.packet.header.msg = .channel then some (o.packet.header.id, Ticket.decode o.packet.buffer) else none

/-- The announcements among what is sent. -/
def announcements (out : List ClientOut) : List (Id × Ticket) :=
  out.filterMap fun
    | .tcp o | .udp o => o.announcement
    | .call .. => none

/-- On a new connection, each channel is announced once and with its latest ticket. -/
def ReannouncesLatest (s : Connect) (acts : List ClientAct) : Prop :=
  ∀ (env : ClientEnv) (fd : Int), 0 < fd → ∀ id ticket,
    (announcements (sendId env { s with socketfd := fd })).count (id, ticket) =
      if latestTicket acts id = some ticket then 1 else 0

/-- No identifier is announced twice, none starts with the free mark, and there are slots for all. -/
structure AnnouncedOnce (acts : List ClientAct) : Prop where
  once : (announcedIds acts).Nodup
  good : ∀ id ∈ announcedIds acts, id.good
  fit : (announcedIds acts).length ≤ channelMaximum

/-! ## The table -/

/-- What the table holds after announcements that were made once. -/
structure ChannelsOf (acts : List ClientAct) (t : ChannelIx → ConnectChannel) : Prop where
  unique : Unique ConnectChannel.id Id.good t
  mem : ∀ id, (∃ k, (t k).id.good ∧ (t k).id = id) ↔ id ∈ announcedIds acts
  ticket : ∀ k, (t k).id.good → latestTicket acts (t k).id = some (t k).ticket
  number : (number fun k => (t k).live) = (announcedIds acts).length

section Steps

variable {s : Connect} {acts : List ClientAct} {a : ClientAct} {env : ClientEnv} {cid : List UInt8}
  {flags : UInt32} {port : UInt16}

theorem ConnectChannel.live_iff {ch : ConnectChannel} : ch.live = true ↔ ch.id.good := by
  simp [ConnectChannel.live, Id.good]

theorem channelsOf_start (name addr : List UInt8) : ChannelsOf [] (connectCreate name addr).channels where
  unique := fun _ _ h => absurd h (Id.not_good_free _)
  mem := fun _ => iff_of_false (fun ⟨_, h, _⟩ => Id.not_good_free _ h) (by simp [announcedIds])
  ticket := fun _ h => absurd h (Id.not_good_free _)
  number := number_eq_zero fun k => Bool.eq_false_iff.mpr fun h => Id.not_good_free _ (ConnectChannel.live_iff.mp h)

theorem announcedIds_concat (acts : List ClientAct) (a : ClientAct) :
    announcedIds (acts ++ [a]) = announcedIds acts ++ a.announced.toList := by
  rw [announcedIds, List.filterMap_append]
  cases h : a.announced <;> simp [announcedIds, h]

theorem latestTicket_concat (acts : List ClientAct) (a : ClientAct) (id : Id) :
    latestTicket (acts ++ [a]) id = (a.ticketFor id).or (latestTicket acts id) := by
  rw [latestTicket, List.reverse_append, List.reverse_singleton, List.singleton_append, List.findSome?_cons]
  cases a.ticketFor id <;> rfl

/-- Only announcing changes the table. -/
theorem clientAct_channels (ha : a.announced = none) : (clientAct s a).1.channels = s.channels := by
  cases a with
  | channelAnons env cid flags port => cases ha
  | subscribe | subscribeSync | subscribeSyncUser | unsubscribe => rw [clientAct_subscribes rfl]
  | read env flags cid =>
    simp only [clientAct, clientReadCall]
    split <;> rfl
  | waitEvent size =>
    simp only [clientAct, SyncScribe.waitEvent]
    split <;> rfl
  | channelRequest env cid =>
    simp only [clientAct, channelRequestCall]
    split <;> rfl
  | requestList env l =>
    simp only [clientAct, requestList]
    split <;> rfl
  | packet env p =>
    simp only [clientAct, Connect.call?, processPacket]
    split
    · rw [processEvent_frame]
    · rw [channelProcessPacket_frame]
    · rw [processError_frame]
    · rw [processRead_frame]
    all_goals rfl
  | write | define | undefine | requestListEnd | freeList | sockets | sendId => rfl

theorem findFreeChannel_some {k : ChannelIx} (h : s.findFreeChannel = some k) : ¬ (s.channels k).id.good := by
  have hmark := first_some h
  simpa [Id.good] using hmark

/-- The table after an announcement that found a slot. -/
theorem channelAnonsCall_some (env : ClientEnv) (cid : List UInt8) (flags : UInt32) (port : UInt16)
    {k : ChannelIx} (h : s.findFreeChannel = some k) :
    ∃ out, channelAnonsCall env s cid flags port =
      some ({ s with channels := Function.update s.channels k ⟨idstr cid, ⟨0, port, flags⟩⟩ }, out) :=
  ⟨_, by rw [channelAnonsCall, h]; rfl⟩

/-- A new identifier in a free slot. -/
theorem ChannelsOf.store (h : ChannelsOf acts s.channels) {k : ChannelIx} (hfree : ¬ (s.channels k).id.good)
    (hgood : (idstr cid).good) (hnew : idstr cid ∉ announcedIds acts) :
    ChannelsOf (acts ++ [.channelAnons env cid flags port])
      (Function.update s.channels k ⟨idstr cid, ⟨0, port, flags⟩⟩) where
  unique := by
    refine h.unique.insert fun j hj => hnew ((h.mem _).mp ⟨j, ?_, hj⟩)
    rw [hj]
    exact hgood
  mem := by
    intro id
    rw [announcedIds_concat]
    simp only [ClientAct.announced, Option.toList_some, List.mem_append, List.mem_singleton]
    rw [← h.mem id]
    constructor
    · rintro ⟨j, hj, rfl⟩
      by_cases hjk : j = k
      · subst hjk
        rw [Function.update_self]
        exact Or.inr rfl
      · rw [Function.update_of_ne hjk] at hj ⊢
        exact Or.inl ⟨j, hj, rfl⟩
    · rintro (⟨j, hj, rfl⟩ | rfl)
      · have hjk : j ≠ k := by
          rintro rfl
          exact hfree hj
        exact ⟨j, by rw [Function.update_of_ne hjk]; exact hj, by rw [Function.update_of_ne hjk]⟩
      · exact ⟨k, by rw [Function.update_self]; exact hgood, by rw [Function.update_self]⟩
  ticket := by
    intro j hj
    rw [latestTicket_concat, ClientAct.ticketFor]
    by_cases hjk : j = k
    · subst hjk
      rw [Function.update_self, if_pos rfl]
      rfl
    · rw [Function.update_of_ne hjk] at hj ⊢
      have hne : idstr cid ≠ (s.channels j).id := fun heq => hnew (heq ▸ (h.mem _).mp ⟨j, hj, rfl⟩)
      rw [if_neg hne]
      exact h.ticket j hj
  number := by
    rw [announcedIds_concat, ClientAct.announced, Option.toList_some, List.length_append, List.length_singleton,
      ← h.number]
    refine number_succ (i := k) ?_ ?_ ?_
    · exact Bool.eq_false_iff.mpr fun hl => hfree (ConnectChannel.live_iff.mp hl)
    · rw [Function.update_self]
      exact ConnectChannel.live_iff.mpr hgood
    · intro j hj
      rw [Function.update_of_ne hj]

/-- A slot is found while not all are live. -/
theorem findFreeChannel_isSome_iff :
    s.findFreeChannel.isSome = true ↔ (number fun k => (s.channels k).live) < channelMaximum := by
  rw [number_lt_iff, Option.isSome_iff_exists]
  constructor
  · rintro ⟨k, hk⟩
    refine ⟨k, Bool.eq_false_iff.mpr fun hl => ?_⟩
    exact findFreeChannel_some hk (ConnectChannel.live_iff.mp hl)
  · rintro ⟨k, hk⟩
    exact exists_first (i := k) (by simpa [ConnectChannel.live] using hk)

/-- **When a store into a free slot is a call on a map**: no slot has the identifier yet. -/
theorem mapCall_store_iff {t : ChannelIx → ConnectChannel} {k : ChannelIx} (hfree : ¬ (t k).id.good) (id : Id)
    (ticket : Ticket) :
    MapCall t (Function.update t k ⟨id, ticket⟩) 0 id ticket ↔
      id.good ∧ ∀ j, (t j).live = true → (t j).id ≠ id := by
  have hother : ∀ j, (t j).live = true → j ≠ k := by
    rintro j hj rfl
    exact hfree (ConnectChannel.live_iff.mp hj)
  constructor
  · intro h
    obtain ⟨k₀, -, honly⟩ := h.accepted rfl
    have hk₀ := (honly k₀).mpr rfl
    have hgood : id.good := hk₀.2 ▸ ConnectChannel.live_iff.mp hk₀.1
    have hself : k = k₀ := by
      refine (honly k).mp ?_
      rw [Function.update_self]
      exact ⟨ConnectChannel.live_iff.mpr hgood, rfl⟩
    refine ⟨hgood, fun j hj hjid => hother j hj ?_⟩
    -- a slot that has the identifier is the one live slot that does
    rw [hself]
    refine (honly j).mp ?_
    rw [Function.update_of_ne (hother j hj)]
    exact ⟨hj, hjid⟩
  · rintro ⟨hgood, hnone⟩
    constructor
    · exact fun hret => absurd rfl hret
    · refine fun _ => ⟨k, by simp, fun j => ?_⟩
      by_cases hjk : j = k
      · subst hjk
        simpa [ConnectChannel.live_iff] using hgood
      · simp only [Function.update_of_ne hjk]
        exact iff_of_false (fun hj => hnone j hj.1 hj.2) hjk
    · exact fun _ j hj hjid => absurd hjid (hnone j hj)
    · exact fun hfull => absurd (ConnectChannel.live_iff.mp (hfull k).1) hfree
    · exact fun j hj _ => Function.update_of_ne (hother j hj) _ _

/-- **When one announcement is a call on a map.** -/
theorem announcesAsMap_iff (h : ChannelsOf acts s.channels) :
    (ClientAct.channelAnons env cid flags port).announcesAsMap s ↔
      (idstr cid).good ∧ idstr cid ∉ announcedIds acts ∧ (announcedIds acts).length < channelMaximum := by
  have hnew : (∀ j, (s.channels j).live = true → (s.channels j).id ≠ idstr cid) ↔
      idstr cid ∉ announcedIds acts := by
    rw [← h.mem]
    simp [ConnectChannel.live_iff]
  have hroom := findFreeChannel_isSome_iff (s := s)
  rw [h.number] at hroom
  rw [← hroom, ← hnew]
  cases hk : s.findFreeChannel with
  | none =>
    refine iff_of_false ?_ (by simp)
    rintro ⟨s', out, ret, -, hret, -⟩
    rw [channelAnonsRet, hk] at hret
    cases hret
  | some k =>
    obtain ⟨out, hcall⟩ := channelAnonsCall_some env cid flags port hk
    have hstore := mapCall_store_iff (findFreeChannel_some hk) (idstr cid) ⟨0, port, flags⟩
    constructor
    · rintro ⟨s', out', ret, hcall', hret, hmap⟩
      rw [hcall, Option.some.injEq, Prod.mk.injEq] at hcall'
      obtain ⟨rfl, -⟩ := hcall'
      rw [channelAnonsRet, hk, Option.map_some, Option.some.injEq] at hret
      subst hret
      obtain ⟨hgood, hnone⟩ := hstore.mp hmap
      exact ⟨hgood, hnone, rfl⟩
    · rintro ⟨hgood, hnone, -⟩
      exact ⟨_, out, 0, hcall, by rw [channelAnonsRet, hk]; rfl, hstore.mpr ⟨hgood, hnone⟩⟩

end Steps

/-! ## Runs -/

section Runs

variable {name addr : List UInt8} {acts : List ClientAct} {a : ClientAct}

/-- One announcement more. -/
theorem announcedOnce_concat {env : ClientEnv} {cid : List UInt8} {flags : UInt32} {port : UInt16} :
    AnnouncedOnce (acts ++ [.channelAnons env cid flags port]) ↔
      AnnouncedOnce acts ∧ (idstr cid).good ∧ idstr cid ∉ announcedIds acts ∧
        (announcedIds acts).length < channelMaximum := by
  have hids : announcedIds (acts ++ [.channelAnons env cid flags port]) = announcedIds acts ++ [idstr cid] :=
    announcedIds_concat acts _
  constructor
  · intro h
    have honce := h.once
    have hgood := h.good
    have hfit := h.fit
    rw [hids] at honce hgood hfit
    rw [List.length_append, List.length_singleton] at hfit
    refine ⟨⟨honce.of_append_left, fun id hid => hgood id (by simp [hid]), by omega⟩, hgood _ (by simp), ?_, by omega⟩
    exact fun hin => (List.nodup_append.mp honce).2.2 _ hin _ (List.mem_singleton_self _) rfl
  · rintro ⟨h, hgood, hnew, hlt⟩
    constructor
    · rw [hids]
      refine List.nodup_append.mpr ⟨h.once, List.nodup_singleton _, ?_⟩
      rintro id hid id' hid' rfl
      rw [List.mem_singleton] at hid'
      exact hnew (hid' ▸ hid)
    · intro id hid
      rw [hids, List.mem_append, List.mem_singleton] at hid
      rcases hid with hid | rfl
      · exact h.good id hid
      · exact hgood
    · rw [hids, List.length_append, List.length_singleton]
      omega

theorem announcedOnce_congr (h : announcedIds (acts ++ [a]) = announcedIds acts) :
    AnnouncedOnce (acts ++ [a]) ↔ AnnouncedOnce acts :=
  ⟨fun ho => ⟨h ▸ ho.once, h ▸ ho.good, h ▸ ho.fit⟩, fun ho => ⟨h ▸ ho.once, h ▸ ho.good, h ▸ ho.fit⟩⟩

/-- Acts that announce nothing. -/
theorem ChannelsOf.same {t : ChannelIx → ConnectChannel} (h : ChannelsOf acts t) (ha : a.announced = none) :
    ChannelsOf (acts ++ [a]) t := by
  have hids : announcedIds (acts ++ [a]) = announcedIds acts := by
    rw [announcedIds_concat, ha, Option.toList_none, List.append_nil]
  have hticket : ∀ id, latestTicket (acts ++ [a]) id = latestTicket acts id := by
    intro id
    rw [latestTicket_concat]
    cases a with
    | channelAnons env cid flags port => cases ha
    | _ => rfl
  exact ⟨h.unique, fun id => by rw [hids, h.mem], fun k hk => by rw [hticket, h.ticket k hk], by rw [hids, h.number]⟩

/-- **All announcements are calls on a map** exactly when each is of a new identifier and fits; the
induction carries the table. -/
theorem along_announces_iff (name addr : List UInt8) (acts : List ClientAct) :
    (Along clientAct (fun s a => a.announcesAsMap s) (connectCreate name addr) acts ↔ AnnouncedOnce acts) ∧
      (AnnouncedOnce acts → ChannelsOf acts (run clientAct (connectCreate name addr) acts).1.channels) := by
  induction acts using List.reverseRecOn with
  | nil =>
    have hnone : AnnouncedOnce [] := ⟨by simp [announcedIds], by simp [announcedIds], by simp [announcedIds]⟩
    exact ⟨iff_of_true trivial hnone, fun _ => channelsOf_start name addr⟩
  | append_singleton acts a ih =>
    obtain ⟨hiff, htable⟩ := ih
    have hlast : Along clientAct (fun s a => a.announcesAsMap s) (connectCreate name addr) (acts ++ [a]) ↔
        AnnouncedOnce acts ∧ a.announcesAsMap (run clientAct (connectCreate name addr) acts).1 := by
      rw [along_append, hiff]
      exact and_congr_right fun _ => and_iff_left trivial
    rw [hlast, run_concat]
    cases ha : a.announced with
    | none =>
      have hids : announcedIds (acts ++ [a]) = announcedIds acts := by
        rw [announcedIds_concat, ha, Option.toList_none, List.append_nil]
      have htrue : a.announcesAsMap (run clientAct (connectCreate name addr) acts).1 := by
        cases a with
        | channelAnons env cid flags port => cases ha
        | _ => trivial
      rw [announcedOnce_congr hids]
      refine ⟨and_iff_left htrue, fun ho => ?_⟩
      dsimp only
      rw [clientAct_channels ha]
      exact (htable ho).same ha
    | some id =>
      cases a with
      | channelAnons env cid flags port =>
        rw [announcedOnce_concat]
        refine ⟨and_congr_right fun ho => announcesAsMap_iff (htable ho), ?_⟩
        rintro ⟨ho, hgood, hnew, hlt⟩
        have hroom := hlt
        rw [← (htable ho).number, ← findFreeChannel_isSome_iff] at hroom
        obtain ⟨k, hk⟩ := Option.isSome_iff_exists.mp hroom
        obtain ⟨out, hcall⟩ := channelAnonsCall_some env cid flags port hk
        simp only [clientAct, Connect.call?, hcall]
        exact (htable ho).store (findFreeChannel_some hk) hgood hnew
      | _ => cases ha

end Runs

/-! ## Reconnecting -/

section Reconnect

variable {env : ClientEnv} {s : Connect} {acts : List ClientAct}

theorem announcements_append (os os' : List ClientOut) :
    announcements (os ++ os') = announcements os ++ announcements os' := List.filterMap_append

theorem announcements_connectSend (hup : 0 < s.socketfd) (o : Outgoing) :
    announcements (connectSend env s o).2 = o.announcement.toList := by
  rw [connectSend, if_pos hup]
  cases h : o.announcement <;> simp [announcements, h]

theorem announcement_of_ne {o : Outgoing} (h : o.packet.header.msg ≠ .channel) : o.announcement = none := if_neg h

theorem announcement_channelAnons (env : ClientEnv) (id : Id) (ticket : Ticket) :
    (channelAnonsRequest env id ticket).announcement = some (id, ticket) := by
  have hm : (channelAnonsRequest env id ticket).packet.header.msg = .channel :=
    Msg.ofWord_or .channel (y := channelAnons) (by decide)
  rw [Outgoing.announcement, if_pos hm]
  have hbuffer : (channelAnonsRequest env id ticket).packet.buffer =
      ticket.encode ++ env.stack.buffer.drop ticket.encode.length := write_zero _ _
  rw [hbuffer, Ticket.decode_encode]
  rfl

theorem announcements_sendSubscriptions (hup : 0 < s.socketfd) (es : List EventIx) :
    announcements (sendSubscriptions env s es) = [] := by
  induction es with
  | nil => rfl
  | cons e es ih =>
    rw [sendSubscriptions]
    split
    · have hm : (subscribeRequest env (s.events e).id (s.events e).flags (s.events e).updateCounter).packet.header.msg =
          .subscribe := msg_request .subscribe (s.events e).flags
      rw [announcements_append, ih, announcements_connectSend hup, announcement_of_ne (by rw [hm]; decide)]
      rfl
    · exact ih

/-- The announcement of a live slot. -/
def ConnectChannel.announcement (ch : ConnectChannel) : Option (Id × Ticket) :=
  if ch.live then some (ch.id, ch.ticket) else none

theorem announcements_sendChannels (hup : 0 < s.socketfd) (ks : List ChannelIx) :
    announcements (sendChannels env s ks) = ks.filterMap fun k => (s.channels k).announcement := by
  induction ks with
  | nil => rfl
  | cons k ks ih =>
    rw [sendChannels, List.filterMap_cons, ConnectChannel.announcement]
    split
    · rw [announcements_append, ih, announcements_connectSend hup, announcement_channelAnons]
      rfl
    · exact ih

/-- **A new connection** announces the live slots. -/
theorem announcements_sendId (hup : 0 < s.socketfd) :
    announcements (sendId env s) =
      (List.finRange channelMaximum).filterMap fun k => (s.channels k).announcement := by
  have hm : (clientIdRequest env s.id).packet.header.msg = .clientId := Msg.ofWord_code .clientId
  rw [sendId, announcements_append, announcements_append, announcements_sendSubscriptions hup,
    announcements_sendChannels hup, announcements_connectSend hup, announcement_of_ne (by rw [hm]; decide)]
  rfl

theorem ConnectChannel.announcement_eq_some {ch : ConnectChannel} {id : Id} {ticket : Ticket} :
    ch.announcement = some (id, ticket) ↔ ch.live = true ∧ ch.id = id ∧ ch.ticket = ticket := by
  unfold ConnectChannel.announcement
  split
  · rename_i h
    simp [h]
  · rename_i h
    simp [h]

/-- Where the table is a map, each of its entries is announced once. -/
theorem ChannelsOf.reannounces (h : ChannelsOf acts s.channels) : ReannouncesLatest s acts := by
  intro env fd hfd id ticket
  rw [announcements_sendId hfd, List.count_filterMap, List.countP_eq_length_filter, ← number_eq_length]
  split
  · rename_i hlatest
    have hin : id ∈ announcedIds acts := by
      obtain ⟨a, ha, hticket⟩ := List.exists_of_findSome?_eq_some hlatest
      refine List.mem_filterMap.mpr ⟨a, List.mem_reverse.mp ha, ?_⟩
      cases a with
      | channelAnons env cid flags port =>
        simp only [ClientAct.ticketFor] at hticket
        split at hticket
        · rename_i hid
          exact congrArg some hid
        · cases hticket
      | _ => cases hticket
    obtain ⟨k, hk, hid⟩ := (h.mem id).mpr hin
    have hticket := h.ticket k hk
    rw [hid, hlatest, Option.some.injEq] at hticket
    have hzero : (Slots.number fun _ : ChannelIx => false) = 0 := number_eq_zero fun _ => rfl
    rw [number_succ (p := fun _ => false) (i := k) rfl ?_ ?_, hzero]
    · rw [beq_iff_eq, ConnectChannel.announcement_eq_some]
      exact ⟨ConnectChannel.live_iff.mpr hk, hid, hticket.symm⟩
    · intro j hj
      rw [beq_eq_false_iff_ne, ne_eq, ConnectChannel.announcement_eq_some]
      rintro ⟨hlive, hjid, -⟩
      exact hj (h.unique j k (ConnectChannel.live_iff.mp hlive) (hjid.trans hid.symm))
  · rename_i hlatest
    refine number_eq_zero fun k => ?_
    rw [beq_eq_false_iff_ne, ne_eq, ConnectChannel.announcement_eq_some]
    rintro ⟨hlive, rfl, rfl⟩
    exact hlatest (h.ticket k (ConnectChannel.live_iff.mp hlive))

end Reconnect

/-- **When the channel table is a map**, over every run of the client. -/
theorem channel_table_iff (name addr : List UInt8) (acts : List ClientAct) :
    (Along clientAct (fun s a => a.announcesAsMap s) (connectCreate name addr) acts ∧
        ReannouncesLatest (run clientAct (connectCreate name addr) acts).1 acts) ↔
      AnnouncedOnce acts := by
  obtain ⟨hiff, htable⟩ := along_announces_iff name addr acts
  rw [hiff]
  exact and_iff_left_of_imp fun ho => (htable ho).reannounces

/-- A channel announced at one port and then at another. -/
def movedChannel : List ClientAct := [.channelAnons .calm [97] 0 1, .channelAnons .calm [97] 0 2]

/-- Thirty-two channels. -/
def manyChannels : List ClientAct :=
  (List.range channelMaximum).map fun n => .channelAnons .calm [UInt8.ofNat (n + 1)] 0 1

/-- The second announcement takes a second slot, both are announced again, and the thirty-third of
other channels finds no slot. -/
theorem movedChannel_twice :
    ¬ Along clientAct (fun s a => a.announcesAsMap s) (connectCreate [] []) movedChannel ∧
    announcements (sendId .calm { (run clientAct (connectCreate [] []) movedChannel).1 with socketfd := 3 }) =
      [(idstr [97], ⟨0, 1, 0⟩), (idstr [97], ⟨0, 2, 0⟩)] ∧
    channelAnonsCall .calm (run clientAct (connectCreate [] []) manyChannels).1 [97] 0 1 = none := by
  refine ⟨?_, ?_, ?_⟩
  · intro h
    obtain ⟨s', out, ret, hcall, hret, hmap⟩ := h.2.1
    have hzero : ret = 0 := by
      have hfound : channelAnonsRet (clientAct (connectCreate [] []) (.channelAnons .calm [97] 0 1)).1 = some 0 := by
        decide +kernel
      exact (Option.some.inj (hfound.symm.trans hret)).symm
    obtain ⟨k, -, honly⟩ := hmap.accepted hzero
    have hboth : ∀ j : ChannelIx, j = 0 ∨ j = 1 → ((channelAnonsCall .calm
        (clientAct (connectCreate [] []) (.channelAnons .calm [97] 0 1)).1 [97] 0 2).map fun r =>
          ((r.1.channels j).live, (r.1.channels j).id)) = some (true, idstr [97]) := by
      decide +kernel
    have hslot : ∀ j : ChannelIx, j = 0 ∨ j = 1 → j = k := by
      intro j hj
      have hj' := hboth j hj
      rw [hcall, Option.map_some, Option.some.injEq, Prod.mk.injEq] at hj'
      exact (honly j).mp hj'
    exact absurd ((hslot 0 (Or.inl rfl)).trans (hslot 1 (Or.inr rfl)).symm) (by decide)
  · decide +kernel
  · have hfull : (run clientAct (connectCreate [] []) manyChannels).1.findFreeChannel = none := by decide +kernel
    rw [channelAnonsCall, hfull]
    rfl

end SyncScribe
