import SyncScribe.Server.Slots
import SyncScribe.Server.Marker

/-!
The counters kept beside the tables. Each is moved by hand where its table
changes, and each misses a case: `client_count` no close, `channel_count` the
channels a close removes, `event_subscribe` the consumers of an undefined event. In
runs without the case each counter is the number it stands for.
-/

namespace SyncScribe
open Lib Lib.Bytes Lib.Slots Lib.Keyed

/-! ## Clients -/

/-- `client_count` is the number of slots in use. -/
def ClientsCounted (s : Server) : Prop := s.clientCount.toNat = number fun c => (s.clients c).connected

instance (s : Server) : Decidable (ClientsCounted s) := inferInstanceAs (Decidable (_ = _))

/-- The act closes no client that is connected. -/
def Act.keepsClients (s : Server) : Act → Prop
  | .close c => (s.clients c).connected = false
  | .packet _ c p => p.header.unsupported = true → (s.clients c).connected = false
  | .datagram _ addr p => p.header.unsupported = true → uclientOf s addr p.header = none
  | _ => True

section Clients

variable {env : Env} {s s' : Server} {c : ClientIx}

theorem ClientsCounted.same (h : ClientsCounted s) (hc : ∀ c, (s'.clients c).connected = (s.clients c).connected)
    (hn : s'.clientCount = s.clientCount) : ClientsCounted s' := by
  simp only [ClientsCounted, hc, hn]
  exact h

theorem identity_connected {cl cl' : Client} (h : cl'.identity = cl.identity) : cl'.connected = cl.connected := by
  simp only [Client.identity, Prod.mk.injEq] at h
  rw [Client.connected, h.2.1, Client.connected]

theorem SameSlots.clientsCounted (hs : SameSlots s s') (h : ClientsCounted s) : ClientsCounted s' :=
  h.same (fun c => identity_connected (hs.identity c)) hs.clientCount

/-- A new client in a free slot. -/
theorem ClientsCounted.take (h : ClientsCounted s) (hfree : (s.clients c).connected = false)
    (htaken : (s'.clients c).connected = true) (hother : ∀ i, i ≠ c → s'.clients i = s.clients i)
    (hn : s'.clientCount = s.clientCount + 1) : ClientsCounted s' := by
  have hnumber : (number fun i => (s'.clients i).connected) = (number fun i => (s.clients i).connected) + 1 :=
    number_succ hfree htaken fun i hi => by rw [hother i hi]
  have hle : (number fun i => (s'.clients i).connected) ≤ 64 := number_le _
  rw [ClientsCounted, hn, hnumber]
  exact succ_counter h (by omega)

theorem not_connected {cl : Client} (h : (cl.socketfd == -1) = true) : cl.connected = false := by
  simpa [Client.connected] using h

theorem ClientsCounted.accept (h : ClientsCounted s) (accepted : Option (Nat × SockAddr)) :
    ClientsCounted (addClient s accepted) := by
  unfold addClient
  split
  · exact h
  · exact h
  · rename_i c fd addr hf
    refine h.take (c := c) (not_connected (first_some hf)) ?_ ?_ rfl
    · simp only [Client.connected, Server.modifyClient_clients, ↓reduceIte]
      simp only [bne_iff_ne, ne_eq]
      omega
    · intro i hi
      simp only [Server.modifyClient_clients, if_neg hi]

/-- Closing a slot that is not in use. -/
theorem SlotClosed.clientsCounted (hs : SlotClosed s c s') (hc : (s.clients c).connected = false)
    (h : ClientsCounted s) : ClientsCounted s' := by
  refine h.same (fun i => ?_) hs.clientCount
  have hi := hs.identity i
  split at hi
  · rename_i heq
    rw [heq, hc]
    rw [heq] at hi
    simp only [Client.identity, Prod.mk.injEq] at hi
    simp [Client.connected, hi.2.1]
  · exact identity_connected hi

theorem packet_clientCount (p : Packet) : (clientProcessPacket env s c p).server.clientCount = s.clientCount := by
  by_cases hid : p.header.msg = .clientId
  · exact (packet_clientId env s c p hid).1
  · by_cases hchannel : p.header.msg = .channel
    · rw [packet_channel p hchannel]
      rfl
    · exact (packet_slots p hid hchannel).clientCount

theorem ClientsCounted.packet (h : ClientsCounted s) {p : Packet}
    (hp : p.header.unsupported = true → (s.clients c).connected = false) :
    ClientsCounted (clientProcessPacket env s c p).server := by
  refine h.same (fun i => ?_) (packet_clientCount p)
  have hi : ((clientProcessPacket env s c p).server.clients i).identity = _ := packet_identity p i
  split at hi
  · rename_i hc
    obtain ⟨hm, rfl⟩ := hc
    simp only [Client.identity, Prod.mk.injEq] at hi
    by_cases hv : p.header.sync.data0 = versionMajor
    · rw [if_pos hv] at hi
      simp only [Client.connected, hi.2.1]
    · rw [if_neg hv] at hi
      rw [hp (by simp [Header.unsupported, hm, hv])]
      simp [Client.connected, hi.2.1]
  · exact identity_connected hi

theorem ClientsCounted.uclientOf (h : ClientsCounted s) {addr : SockAddr} {hd : Header}
    (hu : uclientOf s addr hd = some (s', c)) : ClientsCounted s' := by
  unfold SyncScribe.uclientOf at hu
  split at hu
  · cases hu
    exact h
  · split at hu
    · split at hu
      · cases hu
        refine h.same (fun i => ?_) rfl
        rw [Server.modifyClient_clients]
        split
        · rename_i hi
          rw [hi]
          rfl
        · rfl
      · unfold addUclient at hu
        split at hu
        · cases hu
        · rename_i c' hf
          cases hu
          refine h.take (c := c) (not_connected (first_some hf)) ?_ ?_ rfl
          · simp only [Client.connected, Server.modifyClient_clients, ↓reduceIte]
            decide
          · intro i hi
            simp only [Server.modifyClient_clients, if_neg hi]
    · cases hu

theorem serverWrite_slots {flags size : UInt32} {cid data : List UInt8} :
    SameSlots s (serverWrite env s flags cid data size).server := by
  by_cases hr : (serverWrite env s flags cid data size).ret = 0
  · obtain ⟨s', e, ho, hs, _⟩ := serverWrite_accepted hr
    rw [hs]
    exact ((openEvent_slots ho).setEvent e _).trans (sendEvent_quiet _ _ _ _).sameSlots
  · rw [(serverWrite_refused hr).1]
    exact SameSlots.refl s

/-- The calls of the application leave clients and channels alone. -/
theorem local_slots {a : Act} (ha : a.isLocal = true) : SameSlots s (act s a).1 := by
  cases a with
  | serverWrite env flags cid data size => exact serverWrite_slots
  | serverDefine cid flags mem size =>
    simp only [act, serverDefine]
    split
    · exact SameSlots.refl s
    · exact addEvent_slots mem
  | serverUndefine cid => exact freeEvent_slots
  | serverSubscribeEvent flags cid cb args =>
    simp only [act, serverSubscribeEvent]
    split
    · exact SameSlots.refl s
    · rename_i s' e ho
      exact (openEvent_slots ho).setEvent e _
  | serverUnsubscribeEvent cid =>
    simp only [act, serverUnsubscribeEvent]
    split
    · exact (SameSlots.refl s).setEvent _ _
    · exact SameSlots.refl s
  | setSyncOffset ms => exact ⟨fun _ => rfl, rfl, rfl, rfl⟩
  | accept | packet | datagram | close | keep => cases ha

theorem keep_slots (buffer : List UInt8) : SameSlots s (act s (.keep c buffer)).1 := by
  simp only [act]
  exact (SameSlots.refl s).modify (by intro; rfl)

/-- **One act** that closes no connected client. -/
theorem ClientsCounted.act (h : ClientsCounted s) {a : Act} (ha : a.keepsClients s) : ClientsCounted (act s a).1 := by
  cases a with
  | accept accepted => exact h.accept accepted
  | packet env c p => exact h.packet ha
  | datagram env addr p =>
    simp only [SyncScribe.act, uclientProcessPacket]
    cases hu : SyncScribe.uclientOf s addr p.header with
    | none =>
      simp only
      split <;> exact h
    | some r =>
      obtain ⟨s', c⟩ := r
      refine (h.uclientOf hu).packet fun hun => ?_
      rw [ha hun] at hu
      cases hu
  | close c => exact (closeClientSocket_slots s c).clientsCounted ha h
  | keep c buffer => exact (keep_slots buffer).clientsCounted h
  | serverWrite | serverDefine | serverUndefine | serverSubscribeEvent | serverUnsubscribeEvent | setSyncOffset =>
    exact (local_slots rfl).clientsCounted h

end Clients

/-! ## Channels -/

/-- `channel_count` is the number of live channels. -/
def ChannelsCounted (s : Server) : Prop := s.channelCount.toNat = number fun k => (s.channels k).live

instance (s : Server) : Decidable (ChannelsCounted s) := inferInstanceAs (Decidable (_ = _))

/-- `c` owns no live channel. -/
def OwnsNone (s : Server) (c : ClientIx) : Prop := ∀ k, (s.channels k).live = true → (s.channels k).producer ≠ some c

/-- A packet of `c` closes no owner of a live channel and announces no marked identifier. -/
def Packet.keepsChannels (s : Server) (c : ClientIx) (p : Packet) : Prop :=
  (p.header.unsupported = true → OwnsNone s c) ∧
    (p.header.msg = .channel → p.header.type &&& channelMask = channelAnons → p.header.id.good)

def Act.keepsChannels (s : Server) : Act → Prop
  | .close c => OwnsNone s c
  | .packet _ c p => p.keepsChannels s c
  | .datagram _ addr p => ∀ s' c, uclientOf s addr p.header = some (s', c) → p.keepsChannels s' c
  | _ => True

section Channels

variable {env : Env} {s s' : Server} {c : ClientIx} {id : Id}

theorem ChannelsCounted.same (h : ChannelsCounted s) (hk : ∀ k, (s'.channels k).live = (s.channels k).live)
    (hn : s'.channelCount = s.channelCount) : ChannelsCounted s' := by
  simp only [ChannelsCounted, hk, hn]
  exact h

theorem SameSlots.channelsCounted (hs : SameSlots s s') (h : ChannelsCounted s) : ChannelsCounted s' :=
  h.same (fun k => by rw [hs.channels]) hs.channelCount

theorem SlotClosed.channelsCounted (hs : SlotClosed s c s') (hc : OwnsNone s c) (h : ChannelsCounted s) :
    ChannelsCounted s' := by
  refine h.same (fun k => ?_) hs.channelCount
  rw [hs.channels k, if_neg]
  intro hk
  simp only [Bool.and_eq_true, beq_iff_eq] at hk
  exact hc k hk.1 hk.2

theorem ChannelsCounted.announce (h : ChannelsCounted s) (hg : id.good) (data : List UInt8) :
    ChannelsCounted (addChannel s c id data).server := by
  unfold addChannel
  dsimp only
  split
  · rename_i k hf
    refine h.same (fun i => ?_) rfl
    by_cases hi : i = k
    · subst hi
      simp [Server.setChannel, addChannelStore, Channel.live]
    · simp [Server.setChannel, hi]
  · split
    · exact h
    · rename_i s' k hc
      obtain ⟨hfree, rfl⟩ := createChannel_some hc
      have hnumber : (number fun i => (Function.update s.channels k (addChannelStore (channelInit (s.channels k) id) c
          (s.clients c).addr (Ticket.decode (read data ticketSize))) i).live) =
          (number fun i => (s.channels i).live) + 1 := by
        refine number_succ (i := k) ?_ ?_ ?_
        · rw [Bool.eq_false_iff]
          exact fun hl => hfree (Channel.live_iff.mp hl)
        · rw [Function.update_self, Channel.live_iff]
          exact hg
        · intro i hi
          rw [Function.update_of_ne hi]
      have hle : (number fun i => (Function.update s.channels k (addChannelStore (channelInit (s.channels k) id) c
          (s.clients c).addr (Ticket.decode (read data ticketSize))) i).live) ≤ 32 := number_le _
      simp only [ChannelsCounted, Server.setChannel, Function.update_self, Function.update_idem]
      rw [hnumber]
      exact succ_counter h (by omega)

theorem ChannelsCounted.packet (h : ChannelsCounted s) {p : Packet} (hp : p.keepsChannels s c) :
    ChannelsCounted (clientProcessPacket env s c p).server := by
  by_cases hid : p.header.msg = .clientId
  · obtain ⟨_, hn, hk⟩ := packet_clientId env s c p hid
    refine h.same (fun k => ?_) hn
    rw [hk]
    split
    · rename_i hun
      simp only [removeChannelsOfClient]
      rw [if_neg]
      intro howns
      simp only [Bool.and_eq_true, beq_iff_eq] at howns
      exact hp.1 hun k howns.1 howns.2
    · rfl
  · by_cases hchannel : p.header.msg = .channel
    · rw [packet_channel p hchannel, clientChannel_server]
      split
      · rename_i hanons
        exact (h.announce (hp.2 hchannel hanons) p.buffer).same (fun _ => rfl) rfl
      · exact h.same (fun _ => rfl) rfl
    · exact (packet_slots p hid hchannel).channelsCounted h

/-- **One act** that closes no owner and announces no marked identifier. -/
theorem ChannelsCounted.act (h : ChannelsCounted s) {a : Act} (ha : a.keepsChannels s) :
    ChannelsCounted (act s a).1 := by
  cases a with
  | accept accepted =>
    rcases addClient_cases s accepted with heq | ⟨c, fd, _, hslot⟩
    · simp only [SyncScribe.act, heq]
      exact h
    · simp only [SyncScribe.act]
      rw [hslot.rest]
      exact h.same (fun _ => rfl) rfl
  | packet env c p => exact h.packet ha
  | datagram env addr p =>
    simp only [SyncScribe.act, uclientProcessPacket]
    cases hu : uclientOf s addr p.header with
    | none =>
      simp only
      split <;> exact h
    | some r =>
      obtain ⟨s', c⟩ := r
      have hs' : ChannelsCounted s' := by
        rw [(uclientOf_cases hu).2.rest]
        exact h.same (fun _ => rfl) rfl
      exact hs'.packet (ha s' c hu)
  | close c => exact (closeClientSocket_slots s c).channelsCounted ha h
  | keep c buffer => exact (keep_slots buffer).channelsCounted h
  | serverWrite | serverDefine | serverUndefine | serverSubscribeEvent | serverUnsubscribeEvent | setSyncOffset =>
    exact (local_slots rfl).channelsCounted h

end Channels

end SyncScribe
