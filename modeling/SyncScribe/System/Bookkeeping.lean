import SyncScribe.Server.SubscribeCounts
import SyncScribe.System.StackFields

/-!
The counters of the server and what is told of them. Every packet of a list reply
announces, in `id.c[1]`, how many packets the reply has; the number is computed from
the counter beside the table, the packets from the table itself. The announcement
is right wherever the counter is, and the four counters are right in every run that
avoids the cases which move a table without its counter.
-/

namespace SyncScribe
open Lib Lib.Bytes Lib.Slots

/-! ## What a list reply announces -/

/-- The packet under way and those sent announce `w` packets. -/
structure Announces (w : UInt8) (c : ClientIx) (st : ListState) : Prop where
  packet : st.packet.header.id.c 1 = w
  sent : ∀ p ∈ sentTo c st.out, p.header.id.c 1 = w

/-- Every packet of a reply to the list request `l` announces the number of packets sent. -/
def ListAnnounced (l : ListName) (s : Server) : Prop :=
  ∀ env c q, ∀ p ∈ reply l env s c q, (p.header.id.c 1).toNat = (reply l env s c q).length

section Announcements

variable {l : ListName} {env : Env} {s : Server} {c : ClientIx} {q w : UInt8} {st : ListState}

theorem listStep_announces (h : Announces w c st) (i : Fin l.maximum) : Announces w c (listStep l.kind c st i) := by
  unfold listStep
  split
  · simp only
    split
    · refine ⟨?_, fun p hp => ?_⟩
      · rw [Id.c_setC _ _ _ (by omega), if_neg (by omega), stampCount_c, if_neg (by omega)]
        exact h.packet
      · simp only [sendCounted, sentTo_append, sentTo_send, List.mem_append, List.mem_singleton] at hp
        rcases hp with hp | rfl
        · exact h.sent p hp
        · change (stampCount l.kind (st.count + 1) _).header.id.c 1 = w
          rw [stampCount_c, if_neg (by omega)]
          exact h.packet
    · exact ⟨h.packet, h.sent⟩
  · exact h

theorem foldl_listStep_announces (is : List (Fin l.maximum)) (h : Announces w c st) :
    Announces w c (is.foldl (listStep l.kind c) st) := by
  induction is generalizing st with
  | nil => exact h
  | cons i is ih => exact ih (listStep_announces h i)

theorem listEnd_announces (l : ListName) (env : Env) (s : Server) (c : ClientIx) (q : UInt8) :
    Announces (UInt8.ofNat ((l.kind.total s).toNat / l.kind.perPacket + 1)) c (listEnd l env s c q) := by
  refine foldl_listStep_announces _ ⟨?_, fun p hp => ?_⟩
  · simp only [listPacket]
    rw [Id.c_setC _ _ _ (by omega), if_neg (by omega), Id.c_setC _ _ _ (by omega), if_neg (by omega),
      Id.c_setC _ _ _ (by omega), if_pos rfl]
  · cases hp

/-- The announcement is the counter in packets. -/
theorem reply_announced {p : Packet} (hp : p ∈ reply l env s c q) :
    p.header.id.c 1 = UInt8.ofNat ((l.kind.total s).toNat / l.kind.perPacket + 1) := by
  have h := listEnd_announces l env s c q
  rw [reply_eq, List.mem_append, List.mem_singleton] at hp
  rcases hp with hp | rfl
  · exact h.sent p hp
  · change (stampCount l.kind (listEnd l env s c q).count (lastPacket l env s c q)).header.id.c 1 = _
    rw [stampCount_c, if_neg (by omega), lastPacket_c, if_neg (by omega)]
    exact h.packet

/-- **When the announcement is right**: the counter and the table fill as many packets. -/
theorem listAnnounced_iff (l : ListName) (s : Server) :
    ListAnnounced l s ↔
      ((l.kind.total s).toNat / l.kind.perPacket + 1) % 256 = (l.occupied s).length / l.kind.perPacket + 1 := by
  have hnat : ∀ n, (UInt8.ofNat n).toNat = n % 256 := fun n => UInt8.toNat_ofNat'
  constructor
  · intro h
    have hlen := reply_length l .calm s 0 0
    obtain ⟨p, hmem⟩ := List.exists_mem_of_length_pos (by rw [hlen]; exact Nat.succ_pos _)
    have hp := h .calm 0 0 p hmem
    rwa [reply_announced hmem, hnat, hlen] at hp
  · intro h env c q p hp
    rw [reply_announced hp, hnat, h, reply_length]

instance (l : ListName) (s : Server) : Decidable (ListAnnounced l s) := decidable_of_iff _ (listAnnounced_iff l s).symm

theorem perPacket_bound (l : ListName) : l.maximum / l.kind.perPacket + 1 < 256 := by cases l <;> decide

/-- A counter that agrees with its table announces the right number. -/
theorem listAnnounced_of_total (h : (l.kind.total s).toNat = (l.occupied s).length) : ListAnnounced l s := by
  have hbound := perPacket_bound l
  have hle : (l.occupied s).length / l.kind.perPacket ≤ l.maximum / l.kind.perPacket :=
    Nat.div_le_div_right (occupied_length_le l s)
  rw [listAnnounced_iff, h, Nat.mod_eq_of_lt (by omega)]

theorem ClientsCounted.announced (h : ClientsCounted s) : ListAnnounced .clients s :=
  listAnnounced_of_total (h.trans (number_eq_length _))

theorem ChannelsCounted.announced (h : ChannelsCounted s) : ListAnnounced .channels s :=
  listAnnounced_of_total (h.trans (number_eq_length _))

theorem Counted.announced (h : Counted s) : ListAnnounced .events s :=
  listAnnounced_of_total (h.trans (number_eq_length _))

end Announcements

/-! ## All the counters -/

/-- The counters agree with the tables, and the lists announce what they send. -/
structure CountersAgree (s : Server) : Prop where
  clients : ClientsCounted s
  channels : ChannelsCounted s
  subscriptions : SubscriptionsCounted s
  lists : ∀ l, ListAnnounced l s

/-- The act avoids every case that moves a table without its counter. -/
structure Act.keepsCounters (s : Server) (a : Act) : Prop where
  clients : a.keepsClients s
  channels : a.keepsChannels s
  subscriptions : a.keepsSubscriptions s
  unmarked : a.unmarked

/-- A packet of a supported version under an identifier that is not marked keeps the counters unless it subscribes a
closed client or undefines an event with consumers. -/
theorem keepsCounters_packet {env : Env} {s : Server} {c : ClientIx} {p : Packet} (hv : p.header.unsupported = false)
    (hg : p.header.id.good) (hs : p.header.msg = .subscribe → (s.clients c).connected = true)
    (hu : p.header.msg = .undefine → Unlisted s p.header.id) : Act.keepsCounters s (.packet env c p) := by
  have hno : p.header.unsupported ≠ true := by simp [hv]
  exact ⟨fun h => absurd h hno, ⟨fun h => absurd h hno, fun _ _ => hg⟩, ⟨fun hm => ⟨hs hm, hg⟩, hu⟩, fun _ => hg⟩

/-- What the steps of a run keep. -/
structure Books (s : Server) : Prop where
  clients : ClientsCounted s
  channels : ChannelsCounted s
  roles : Roles s
  events : Counted s

theorem Books.agree {s : Server} (h : Books s) : CountersAgree s := by
  refine ⟨h.clients, h.channels, h.roles.subscriptionsCounted, fun l => ?_⟩
  cases l with
  | events => exact h.events.announced
  | clients => exact h.clients.announced
  | channels => exact h.channels.announced

theorem Books.act {s : Server} (h : Books s) {a : Act} (ha : a.keepsCounters s) : Books (act s a).1 :=
  ⟨h.clients.act ha.clients, h.channels.act ha.channels, h.roles.act ha.subscriptions,
    act_counted h.events a ha.unmarked⟩

theorem Books.init (cid : List UInt8) : Books (serverCreate cid) := by
  refine ⟨?_, ?_, Roles.init cid, counted_init cid⟩
  · exact (number_eq_zero fun _ => rfl).symm
  · exact (number_eq_zero fun _ => rfl).symm

/-- **The counters agree with the tables** in every state of a run in which no connected client and no owner of a
channel is closed, no event is undefined while it has consumers, only connected clients subscribe, and no
identifier starts with the marker. -/
theorem counters_agree (cid : List UInt8) (as : List Act) (h : Along act Act.keepsCounters (serverCreate cid) as) :
    Throughout act CountersAgree (serverCreate cid) as :=
  throughout_of_invariant (fun _ _ hs ha => hs.act ha) (fun _ hs => hs.agree) as _ (Books.init cid) h

/-- A client subscribes to an event of its own making, announces a channel, leaves the event and undefines it. -/
def settledRun : List Act :=
  [.accept (some (3, ⟨1, 2⟩)), .packet .calm 0 (Packet.make (Msg.subscribe.code ||| typeForce) (idstr [97]) []),
    .packet .calm 0 (Packet.make (Msg.channel.code ||| channelAnons) (idstr [98]) []),
    .packet .calm 0 (Packet.make Msg.unsubscribe.code (idstr [97]) []),
    .packet .calm 0 (Packet.make Msg.undefine.code (idstr [97]) [])]

theorem settledRun_agrees : CountersAgree (run act (serverCreate []) settledRun).1 := by
  have hsettled : Along act Act.keepsCounters (serverCreate []) settledRun := by
    refine ⟨⟨trivial, trivial, trivial, trivial⟩, ?_, ?_, ?_, ?_, trivial⟩
    · exact keepsCounters_packet (by decide) (by decide) (fun _ => by decide +kernel) (fun h => absurd h (by decide))
    · exact keepsCounters_packet (by decide) (by decide) (fun h => absurd h (by decide)) (fun h => absurd h (by decide))
    · exact keepsCounters_packet (by decide) (by decide) (fun h => absurd h (by decide)) (fun h => absurd h (by decide))
    · refine keepsCounters_packet (by decide) (by decide) (fun h => absurd h (by decide)) fun _ => ?_
      unfold Unlisted
      decide +kernel
  exact counters_agree [] settledRun hsettled settledRun [] rfl

/-- Nine connections come and go. A tenth announces a channel and goes; another subscribes to an event and
undefines it. -/
def staleRun : List Act :=
  (List.replicate 9 [.accept (some (3, ⟨1, 2⟩)), .close 0]).flatten ++
    [.accept (some (3, ⟨1, 2⟩)), .packet .calm 0 (Packet.make (Msg.channel.code ||| channelAnons) (idstr [98]) []),
      .close 0, .accept (some (3, ⟨1, 2⟩)),
      .packet .calm 0 (Packet.make (Msg.subscribe.code ||| typeForce) (idstr [97]) []),
      .packet .calm 0 (Packet.make Msg.undefine.code (idstr [97]) [])]

set_option maxRecDepth 10000 in
theorem staleRun_disagrees : ¬ ClientsCounted (run act (serverCreate []) staleRun).1 ∧
    ¬ ChannelsCounted (run act (serverCreate []) staleRun).1 ∧
    ¬ SubscriptionsCounted (run act (serverCreate []) staleRun).1 ∧
    ¬ ListAnnounced .clients (run act (serverCreate []) staleRun).1 := by
  decide +kernel

end SyncScribe
