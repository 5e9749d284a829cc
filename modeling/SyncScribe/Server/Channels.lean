import SyncScribe.Server.Marker
import SyncScribe.Server.Dangling

/-!
Who owns a channel. An announcement takes the channel of its identifier over, or
a free slot for it; a disconnect frees the channels of its client. Read from the
log of announcements and disconnects, a channel is live exactly when its latest
announcer has not disconnected since, and it carries what that announcement said.
Which announcements count is said of the table alone: those of a channel that is
there, and those of a new one while a slot is free.
-/

namespace SyncScribe
open Lib Lib.Bytes Lib.Slots Lib.Keyed

/-! ## The log -/

abbrev Channels := ChannelIx → Channel

/-- An announcement has a place: a channel of this identifier, or a free slot. -/
def HasPlace (t : Channels) (id : Id) : Prop := (∃ k, (t k).id = id) ∨ ∃ k, (t k).live = false

instance instDecidableHasPlace (t : Channels) (id : Id) : Decidable (HasPlace t id) :=
  inferInstanceAs (Decidable (_ ∨ _))

/-- What an act does to the table of channels. -/
inductive ChannelChange
  | keep
  /-- an announcement that has a place, with the ticket it says -/
  | announce (id : Id) (c : ClientIx) (ticket : Ticket)
  | disconnect (c : ClientIx)
  deriving DecidableEq

/-- The ticket of an announcement: port and flags from its payload, the address of the announcer. -/
def announcedTicket (s : Server) (c : ClientIx) (p : Packet) : Ticket :=
  { Ticket.decode p.payload with ip := (s.clients c).addr.ip }

def packetChannelChange (s : Server) (c : ClientIx) (p : Packet) : ChannelChange :=
  if p.header.announces then
    if HasPlace s.channels p.header.id then .announce p.header.id c (announcedTicket s c p) else .keep
  else if p.header.unsupported then .disconnect c
  else .keep

def channelChangeOf (s : Server) : Act → ChannelChange
  | .packet _ c p => packetChannelChange s c p
  | .datagram _ addr p =>
    match uclientOf s addr p.header with
    | some (s, c) => packetChannelChange s c p
    | none => .keep
  | .close c => .disconnect c
  | _ => .keep

def channelJournal : Server → List Act → List ChannelChange
  | _, [] => []
  | s, a :: as => channelChangeOf s a :: channelJournal (act s a).1 as

theorem channelJournal_concat (s : Server) (as : List Act) (a : Act) :
    channelJournal s (as ++ [a]) = channelJournal s as ++ [channelChangeOf (run act s as).1 a] := by
  induction as generalizing s with
  | nil => rfl
  | cons b as ih => simp [channelJournal, run, ih]

def ChannelChange.announces (id : Id) : ChannelChange → Prop
  | .announce id' _ _ => id' = id
  | _ => False

/-- `c` announced `id` with `ticket`; `id` was not announced and `c` did not disconnect since. -/
def OwnedBy (log : List ChannelChange) (id : Id) (c : ClientIx) (ticket : Ticket) : Prop :=
  Since (· = .announce id c ticket) (fun ch => ch.announces id ∨ ch = .disconnect c) log

/-- An announcement with a whole ticket, under an identifier that does not start with the marker. -/
def Packet.announcesWell (p : Packet) : Prop :=
  p.header.announces = true → p.header.id.good ∧ p.header.dataSize.toNat = ticketSize

def Act.announcesWell : Act → Prop
  | .packet _ _ p | .datagram _ _ p => p.announcesWell
  | _ => True

/-! ## What an act does -/

/-- A slot that a channel of this identifier may take: its own, or a free one if it has none. -/
def TakesSlot (t : Channels) (id : Id) (k : ChannelIx) : Prop :=
  (t k).id = id ∨ (¬ (t k).id.good ∧ ∀ j, (t j).id ≠ id)

def ChannelChange.Applies (t : Channels) : ChannelChange → Channels → Prop
  | .keep, t' => t' = t
  | .announce id c ticket, t' => id.good ∧ ∃ k ch, TakesSlot t id k ∧ t' = Function.update t k ch ∧
    ch.id = id ∧ ch.producer = some c ∧ ch.ticket = ticket
  | .disconnect c, t' => t' = fun k =>
    if (t k).live && (t k).producer == some c then { t k with id := (t k).id.free } else t k

section Steps

variable {env : Env} {s s' : Server} {c : ClientIx} {id : Id}

/-- **An announcement is accepted exactly when it has a place**: a channel that is there is taken over by
whoever announces it, and a new one is refused only when there is no free slot. -/
theorem addChannel_ret_iff (data : List UInt8) :
    (addChannel s c id data).ret = 0 ↔ HasPlace s.channels id := by
  unfold addChannel
  dsimp only
  cases hf : findChannel s id with
  | some k => exact ⟨fun _ => Or.inl ⟨k, findChannel_some hf⟩, fun _ => rfl⟩
  | none =>
    have hnew := findChannel_eq_none.mp hf
    cases hc : createChannel s id with
    | none =>
      have hall := createChannel_eq_none.mp hc
      refine ⟨fun h => absurd (show (-1 : Int) = 0 from h) (by decide), ?_⟩
      rintro (⟨k, hk⟩ | ⟨k, hk⟩)
      · exact absurd hk (hnew k)
      · rw [Channel.live_iff.mpr (hall k)] at hk
        cases hk
    | some r =>
      obtain ⟨hfree, _⟩ := createChannel_some hc
      refine ⟨fun _ => Or.inr ⟨r.2, ?_⟩, fun _ => rfl⟩
      rw [Bool.eq_false_iff]
      exact fun hl => hfree (Channel.live_iff.mp hl)

theorem clientChannel_applies (p : Packet) (hm : p.header.msg = .channel) (hp : p.announcesWell) :
    (packetChannelChange s c p).Applies s.channels (clientChannel env s c p).server.channels := by
  have hu : p.header.unsupported = false := by simp [Header.unsupported, hm]
  rw [clientChannel_server]
  by_cases ha : p.header.type &&& channelMask = channelAnons
  · have hann : p.header.announces = true := by simp [Header.announces, hm, ha]
    obtain ⟨hg, hsize⟩ := hp hann
    simp only [packetChannelChange, hann, ↓reduceIte, ha, ← addChannel_ret_iff (s := s) (c := c) p.buffer]
    split
    · rename_i hr
      obtain ⟨k, ch, hk, hch, hid, hprod, htick⟩ := addChannel_accepted p.buffer hr
      refine ⟨hg, k, ch, hk, hch, hid, hprod, ?_⟩
      rw [htick, announcedTicket, Packet.payload, hsize]
    · rename_i hr
      rw [(addChannel_refused p.buffer hr).1]
      rfl
  · have hann : p.header.announces = false := by simp [Header.announces, ha]
    simp only [packetChannelChange, hann, hu, Bool.false_eq_true, ↓reduceIte, ha]
    rfl

/-- **What a packet does to the channels.** -/
theorem packet_channels (p : Packet) (hp : p.announcesWell) :
    (packetChannelChange s c p).Applies s.channels (clientProcessPacket env s c p).server.channels := by
  by_cases hm : p.header.msg = .channel
  · simp only [clientProcessPacket, clientDispatch, hm, Server.modifyClient_channels]
    exact clientChannel_applies p hm hp
  · have hann : p.header.announces = false := by simp [Header.announces, hm]
    by_cases hid : p.header.msg = .clientId
    · simp only [clientProcessPacket, clientDispatch, hid, Server.modifyClient_channels]
      rw [clientIdentify_channels]
      by_cases hv : p.header.sync.data0 ≠ versionMajor
      · have hu : p.header.unsupported = true := by simp [Header.unsupported, hid, hv]
        simp only [packetChannelChange, hann, hu, Bool.false_eq_true, ↓reduceIte, if_pos hv]
        exact funext (closeClientSocket_channels s c)
      · have hu : p.header.unsupported = false := by simpa [Header.unsupported, hid] using hv
        simp only [packetChannelChange, hann, hu, Bool.false_eq_true, ↓reduceIte, if_neg hv]
        rfl
    · have hu : p.header.unsupported = false := by simp [Header.unsupported, hid]
      rw [packet_channels_other p hm hid]
      simp only [packetChannelChange, hann, hu, Bool.false_eq_true, ↓reduceIte]
      rfl

/-- **What an act does to the channels.** -/
theorem act_channels (s : Server) (a : Act) (ha : a.announcesWell) :
    (channelChangeOf s a).Applies s.channels (act s a).1.channels := by
  cases a with
  | accept accepted => exact (addClient_rest accepted).2.1
  | packet env c p => exact packet_channels p ha
  | datagram env addr p =>
    simp only [act, channelChangeOf, uclientProcessPacket]
    cases hu : uclientOf s addr p.header with
    | none =>
      simp only
      split <;> rfl
    | some sc =>
      obtain ⟨s', c⟩ := sc
      rw [← (uclientOf_rest hu).2.1]
      exact packet_channels p ha
  | close c => exact funext (closeClientSocket_channels s c)
  | keep c buffer => exact rfl
  | serverWrite env flags cid data size => exact serverWrite_rest.channels
  | serverDefine cid flags data size => exact (serverDefine_rest data).channels
  | serverUndefine cid => exact freeEvent_rest.channels
  | serverSubscribeEvent flags cid cb args => exact (serverSubscribeEvent_rest cb args).channels
  | serverUnsubscribeEvent cid => exact serverUnsubscribeEvent_rest.channels
  | setSyncOffset ms => exact rfl

end Steps

/-! ## Owners -/

/-- Some live channel `id` of the table belongs to `c` and holds `ticket`. -/
def Carries (t : Channels) (id : Id) (c : ClientIx) (ticket : Ticket) : Prop :=
  ∃ k, (t k).id.good ∧ (t k).id = id ∧ (t k).producer = some c ∧ (t k).ticket = ticket

/-- One slot for each identifier, and every live channel has a producer. -/
structure ChannelTable (t : Channels) : Prop where
  unique : Unique Channel.id Id.good t
  produced : ∀ k, (t k).id.good → ∃ c, (t k).producer = some c

section Owners

variable {t t' : Channels} {ch : ChannelChange} {c : ClientIx} {id : Id} {ticket : Ticket}

theorem ChannelTable.announce (h : ChannelTable t) {k : ChannelIx} {chan : Channel}
    (hk : TakesSlot t chan.id k) (hp : chan.producer = some c) : ChannelTable (Function.update t k chan) := by
  refine ⟨?_, ?_⟩
  · rcases hk with hid | ⟨_, hnew⟩
    · exact h.unique.update hid.symm
    · exact h.unique.insert hnew
  · intro j hj
    by_cases hjk : j = k
    · subst hjk
      rw [Function.update_self]
      exact ⟨c, hp⟩
    · rw [Function.update_of_ne hjk] at hj ⊢
      exact h.produced j hj

/-- Who owns what after an announcement. -/
theorem carries_announce (h : ChannelTable t) {k : ChannelIx} {chan : Channel} {c' : ClientIx}
    (hg : chan.id.good) (hk : TakesSlot t chan.id k) (hp : chan.producer = some c') :
    Carries (Function.update t k chan) id c ticket ↔
      (chan.id = id ∧ c' = c ∧ chan.ticket = ticket) ∨ (Carries t id c ticket ∧ chan.id ≠ id) := by
  constructor
  · rintro ⟨j, hj, rfl, hprod, rfl⟩
    by_cases hjk : j = k
    · subst hjk
      rw [Function.update_self] at hprod ⊢
      exact Or.inl ⟨rfl, Option.some.inj (hp.symm.trans hprod), rfl⟩
    · rw [Function.update_of_ne hjk] at hj hprod ⊢
      refine Or.inr ⟨⟨j, hj, rfl, hprod, rfl⟩, ?_⟩
      intro heq
      rcases hk with hid | ⟨_, hnew⟩
      · exact hjk (h.unique j k hj (heq.symm.trans hid.symm))
      · exact hnew j heq.symm
  · rintro (⟨rfl, rfl, rfl⟩ | ⟨⟨j, hj, rfl, hprod, rfl⟩, hne⟩)
    · exact ⟨k, by rwa [Function.update_self], by rw [Function.update_self], by rwa [Function.update_self],
        by rw [Function.update_self]⟩
    · have hjk : j ≠ k := by
        rintro rfl
        rcases hk with hid | ⟨hfree, _⟩
        · exact hne hid.symm
        · exact hfree hj
      exact ⟨j, by rwa [Function.update_of_ne hjk], by rw [Function.update_of_ne hjk],
        by rwa [Function.update_of_ne hjk], by rw [Function.update_of_ne hjk]⟩

/-- The table with the channels of `c` marked free. -/
def disconnected (t : Channels) (c : ClientIx) : Channels := fun k =>
  if (t k).live && (t k).producer == some c then { t k with id := (t k).id.free } else t k

/-- A channel that is live after a disconnect is as it was and belongs to someone else. -/
theorem disconnected_good {k : ChannelIx} (hg : (disconnected t c k).id.good) :
    disconnected t c k = t k ∧ (t k).producer ≠ some c := by
  unfold disconnected at hg ⊢
  split at hg
  · exact absurd hg (Id.not_good_free _)
  · rename_i hn
    refine ⟨if_neg hn, ?_⟩
    intro hp
    simp [Channel.live_iff.mpr hg, hp] at hn

theorem disconnected_of_ne {k : ChannelIx} (h : (t k).producer ≠ some c) : disconnected t c k = t k := by
  simp [disconnected, h]

theorem ChannelTable.disconnect (h : ChannelTable t) : ChannelTable (disconnected t c) := by
  have hback : ∀ k, (disconnected t c k).id.good → disconnected t c k = t k :=
    fun k hg => (disconnected_good hg).1
  refine ⟨?_, ?_⟩
  · intro i j hi hij
    have hj : (disconnected t c j).id.good := by
      rw [← show (disconnected t c i).id = (disconnected t c j).id from hij]
      exact hi
    have hti := hback i hi
    have htj := hback j hj
    rw [hti] at hi hij
    rw [htj] at hij
    exact h.unique i j hi hij
  · intro k hk
    have htk := hback k hk
    rw [htk] at hk ⊢
    exact h.produced k hk

theorem carries_disconnect {c' : ClientIx} :
    Carries (disconnected t c') id c ticket ↔ Carries t id c ticket ∧ c' ≠ c := by
  constructor
  · rintro ⟨k, hk, rfl, hp, rfl⟩
    obtain ⟨hsame, hne⟩ := disconnected_good hk
    rw [hsame] at hk hp ⊢
    exact ⟨⟨k, hk, rfl, hp, rfl⟩, fun h => hne (h ▸ hp)⟩
  · rintro ⟨⟨k, hk, rfl, hp, rfl⟩, hne⟩
    have hsame : disconnected t c' k = t k :=
      disconnected_of_ne fun h => hne (Option.some.inj (h.symm.trans hp))
    exact ⟨k, by rwa [hsame], by rw [hsame], by rwa [hsame], by rw [hsame]⟩

/-- **One change** keeps the table well-formed, and the owners are as the change says. -/
theorem ChannelChange.Applies.spec (h : ChannelTable t) (ha : ch.Applies t t') :
    ChannelTable t' ∧ ∀ id c ticket, Carries t' id c ticket ↔
      ch = .announce id c ticket ∨ (Carries t id c ticket ∧ ¬ (ch.announces id ∨ ch = .disconnect c)) := by
  cases ch with
  | keep =>
    cases ha
    exact ⟨h, fun id c ticket => by simp [ChannelChange.announces]⟩
  | announce id' c' ticket' =>
    obtain ⟨hg, k, chan, hk, rfl, rfl, hp, rfl⟩ := ha
    refine ⟨h.announce hk hp, ?_⟩
    intro id c ticket
    rw [carries_announce h hg hk hp]
    simp [ChannelChange.announces]
  | disconnect c' =>
    cases ha
    refine ⟨h.disconnect, ?_⟩
    intro id c ticket
    refine carries_disconnect.trans ?_
    simp [ChannelChange.announces]

end Owners

/-! ## Runs -/

theorem run_channels (cid : List UInt8) (as : List Act) (hwell : ∀ a ∈ as, a.announcesWell) :
    ChannelTable (run act (serverCreate cid) as).1.channels ∧ ∀ id c ticket,
      OwnedBy (channelJournal (serverCreate cid) as) id c ticket ↔
        Carries (run act (serverCreate cid) as).1.channels id c ticket := by
  -- from the end of the run: the last act decides as the last entry of the log does
  induction as using List.reverseRecOn with
  | nil =>
    have hbad : ∀ k, ¬ ((run act (serverCreate cid) []).1.channels k).id.good := fun _ => Id.not_good_free _
    refine ⟨⟨fun i j hi => absurd hi (hbad i), fun k hk => absurd hk (hbad k)⟩, ?_⟩
    intro id c ticket
    constructor
    · intro h
      exact absurd h not_since_nil
    · rintro ⟨k, hk, _⟩
      exact absurd hk (hbad k)
  | append_singleton as a ih =>
    obtain ⟨htable, howned⟩ := ih fun b hb => hwell b (by simp [hb])
    have hstep := act_channels (run act (serverCreate cid) as).1 a (hwell a (by simp))
    obtain ⟨htable', hcarries⟩ := hstep.spec htable
    rw [run_concat, channelJournal_concat]
    refine ⟨htable', ?_⟩
    intro id c ticket
    rw [hcarries, OwnedBy, since_concat, ← howned, OwnedBy]

/-- What holds of the channels of a server with the given log. The log counts every announcement of a channel
that is there; `takenOver` says that the server then accepts it. -/
structure OwnersFollow (s : Server) (log : List ChannelChange) : Prop where
  unique : ∀ k k', (s.channels k).live = true → (s.channels k).id = (s.channels k').id → k = k'
  live : ∀ id, (∃ k, (s.channels k).live = true ∧ (s.channels k).id = id) ↔ ∃ c ticket, OwnedBy log id c ticket
  owner : ∀ k c ticket, (s.channels k).live = true → OwnedBy log (s.channels k).id c ticket →
    (s.channels k).producer = some c ∧ (s.channels k).ticket = ticket
  others : ∀ a c k, channelChangeOf s a = .disconnect c → (s.channels k).producer ≠ some c →
    (act s a).1.channels k = s.channels k
  takenOver : ∀ c id data, (∃ k, (s.channels k).live = true ∧ (s.channels k).id = id) →
    (addChannel s c id data).ret = 0
  refused : ∀ c id data, (∀ k, (s.channels k).id ≠ id) →
    ((addChannel s c id data).ret = -1 ∧ (addChannel s c id data).server = s ↔
      ∀ k, (s.channels k).live = true)

theorem packetChannelChange_disconnect {s : Server} {c c' : ClientIx} {p : Packet}
    (h : packetChannelChange s c p = .disconnect c') : p.announcesWell := by
  intro ha
  simp only [packetChannelChange, ha, ↓reduceIte] at h
  split at h <;> cases h

theorem channelChangeOf_disconnect {s : Server} {a : Act} {c : ClientIx}
    (h : channelChangeOf s a = .disconnect c) : a.announcesWell := by
  cases a with
  | packet env c' p => exact packetChannelChange_disconnect h
  | datagram env addr p =>
    simp only [channelChangeOf] at h
    split at h
    · exact packetChannelChange_disconnect h
    · cases h
  | _ => trivial

/-- **The ownership of channels follows the last announcer**, in every run whose announcements carry a whole
ticket and name no identifier that starts with the marker. -/
theorem channel_owner_follows (cid : List UInt8) (as : List Act) (hwell : ∀ a ∈ as, a.announcesWell) :
    OwnersFollow (run act (serverCreate cid) as).1 (channelJournal (serverCreate cid) as) := by
  obtain ⟨htable, howned⟩ := run_channels cid as hwell
  generalize (run act (serverCreate cid) as).1 = s at htable howned ⊢
  refine ⟨?_, ?_, ?_, ?_, ?_, ?_⟩
  · intro k k' hk hid
    exact htable.unique k k' (Channel.live_iff.mp hk) hid
  · intro id
    constructor
    · rintro ⟨k, hk, rfl⟩
      have hg := Channel.live_iff.mp hk
      obtain ⟨c, hc⟩ := htable.produced k hg
      exact ⟨c, _, (howned _ _ _).mpr ⟨k, hg, rfl, hc, rfl⟩⟩
    · rintro ⟨c, ticket, ho⟩
      obtain ⟨k, hg, hid, _⟩ := (howned _ _ _).mp ho
      exact ⟨k, Channel.live_iff.mpr hg, hid⟩
  · intro k c ticket hk ho
    obtain ⟨j, hg, hid, hp, ht⟩ := (howned _ _ _).mp ho
    rw [← htable.unique j k hg hid]
    exact ⟨hp, ht⟩
  · intro a c k hch hp
    have hstep := act_channels s a (channelChangeOf_disconnect hch)
    rw [hch] at hstep
    exact (congrFun hstep k).trans (disconnected_of_ne hp)
  · rintro c id data ⟨k, _, hid⟩
    exact (addChannel_ret_iff data).mpr (Or.inl ⟨k, hid⟩)
  · intro c id data hnew
    constructor
    · rintro ⟨hr, _⟩ k
      by_contra hl
      rw [(addChannel_ret_iff data).mpr (Or.inr ⟨k, Bool.eq_false_iff.mpr hl⟩)] at hr
      cases hr
    · intro hall
      refine (addChannel_refused data fun hr => ?_).symm
      rcases (addChannel_ret_iff data).mp hr with ⟨k, hk⟩ | ⟨k, hk⟩
      · exact hnew k hk
      · rw [hall k] at hk
        cases hk

/-- Two clients announce the same channel, and the first of them leaves. -/
def takeOverRun : List Act :=
  [.accept (some (3, ⟨1, 2⟩)), .accept (some (4, ⟨5, 6⟩)),
    .packet .calm 0 (Packet.make (Msg.channel.code ||| channelAnons) (idstr [97]) (Ticket.encode ⟨0, 7, 8⟩)),
    .packet .calm 1 (Packet.make (Msg.channel.code ||| channelAnons) (idstr [97]) (Ticket.encode ⟨0, 9, 10⟩)),
    .close 0]

theorem takeOverRun_owner : (∀ a ∈ takeOverRun, a.announcesWell) ∧
    OwnersFollow (run act (serverCreate []) takeOverRun).1 (channelJournal (serverCreate []) takeOverRun) ∧
    ((run act (serverCreate []) takeOverRun).1.channels 0).producer = some 1 := by
  have hwell : ∀ a ∈ takeOverRun, a.announcesWell := by
    intro a ha
    simp only [takeOverRun, List.mem_cons, List.not_mem_nil, or_false] at ha
    rcases ha with rfl | rfl | rfl | rfl | rfl
    · trivial
    · trivial
    · intro _
      exact ⟨by decide, by decide⟩
    · intro _
      exact ⟨by decide, by decide⟩
    · trivial
  exact ⟨hwell, channel_owner_follows [] takeOverRun hwell, by decide +kernel⟩

end SyncScribe
