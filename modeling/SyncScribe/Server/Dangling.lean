import SyncScribe.Server.Subscriptions
import SyncScribe.Server.Clients

/-!
References to disconnected clients. A SUBSCRIBE makes its client a consumer and
a channel announcement makes it an owner; a close takes it out of both roles. A
CLIENT_ID of an unsupported version closes the client while later packets of the
same buffer are still waiting, so a reference dangles exactly when such a packet
asks for a role again. In runs in which none does (`Input.orderly`) no reference
dangles.
-/

namespace SyncScribe
open Lib Lib.Bytes Lib.Slots Lib.Keyed

/-- Every consumer of a live event and every owner of a live channel is connected. -/
structure NoDangling (s : Server) : Prop where
  consumers : ∀ e i c, (s.events e).live = true → (s.events e).consumers i = some c →
    (s.clients c).connected = true
  owners : ∀ k c, (s.channels k).live = true → (s.channels k).producer = some c →
    (s.clients c).connected = true

/-- `c` is a consumer of no live event and the owner of no live channel. -/
structure Unowned (s : Server) (c : ClientIx) : Prop where
  consumers : ∀ e i, (s.events e).live = true → (s.events e).consumers i ≠ some c
  owners : ∀ k, (s.channels k).live = true → (s.channels k).producer ≠ some c

/-- A channel announcement. -/
def Header.announces (h : Header) : Bool := h.msg == .channel && h.type &&& channelMask == channelAnons

/-- A packet by which its client asks for a role. -/
def Header.claims (h : Header) : Bool := h.msg == .subscribe || h.announces

section Packets

variable {env : Env} {s : Server} {c c' : ClientIx} {id : Id}

/-! ## Owners of channels -/

/-- A channel the client owns after an announcement is its own or was owned before. -/
theorem addChannel_owner (data : List UInt8) (k : ChannelIx)
    (hl : ((addChannel s c id data).server.channels k).live = true)
    (hp : ((addChannel s c id data).server.channels k).producer = some c') :
    c' = c ∨ ((s.channels k).live = true ∧ (s.channels k).producer = some c') := by
  by_cases hr : (addChannel s c id data).ret = 0
  · obtain ⟨j, ch, _, hch, _, hprod, _⟩ := addChannel_accepted data hr
    rw [hch] at hl hp
    by_cases hkj : k = j
    · subst hkj
      rw [Function.update_self, hprod, Option.some.injEq] at hp
      exact Or.inl hp.symm
    · rw [Function.update_of_ne hkj] at hl hp
      exact Or.inr ⟨hl, hp⟩
  · rw [(addChannel_refused data hr).1] at hl hp
    exact Or.inr ⟨hl, hp⟩

theorem clientChannel_owner (p : Packet) (hm : p.header.msg = .channel) (k : ChannelIx)
    (hl : ((clientChannel env s c p).server.channels k).live = true)
    (hp : ((clientChannel env s c p).server.channels k).producer = some c') :
    (p.header.announces = true ∧ c' = c) ∨
      ((s.channels k).live = true ∧ (s.channels k).producer = some c') := by
  rw [clientChannel_server] at hl hp
  by_cases ha : p.header.type &&& channelMask = channelAnons
  · rw [if_pos ha] at hl hp
    rcases addChannel_owner _ k hl hp with h | h
    · exact Or.inl ⟨by simp [Header.announces, hm, ha], h⟩
    · exact Or.inr h
  · rw [if_neg ha] at hl hp
    exact Or.inr ⟨hl, hp⟩

/-- Packets other than CHANNEL and CLIENT_ID. -/
theorem packet_channels_other (p : Packet) (hchannel : p.header.msg ≠ .channel) (hid : p.header.msg ≠ .clientId) :
    (clientProcessPacket env s c p).server.channels = s.channels := by
  by_cases hwrite : p.header.msg = .write
  · exact (packet_write_rest p hwrite).channels
  · exact (packet_sameRest p hwrite hid hchannel).channels

theorem clientIdentify_channels (hd : Header) :
    (clientIdentify env s c hd).1.channels =
      if hd.sync.data0 ≠ versionMajor then (closeClientSocket s c).channels else s.channels := by
  funext k
  rw [clientIdentify, Server.modifyClient_channels]
  split
  · simp only [closeClientSocket_channels]
    rfl
  · rfl

/-- After a close the client owns nothing. -/
theorem closed_owner (k : ChannelIx) (hl : ((closeClientSocket s c).channels k).live = true)
    (hp : ((closeClientSocket s c).channels k).producer = some c') :
    (s.channels k).live = true ∧ (s.channels k).producer = some c' ∧ c' ≠ c := by
  rw [closeClientSocket_channels] at hl hp
  split at hl
  · simp [Channel.live, Id.free] at hl
  · rename_i hn
    rw [if_neg hn] at hp
    refine ⟨hl, hp, ?_⟩
    rintro rfl
    simp [hl, hp] at hn

/-- **Who owns a channel after a packet.** -/
theorem packet_owner (p : Packet) (k : ChannelIx)
    (hl : ((clientProcessPacket env s c p).server.channels k).live = true)
    (hp : ((clientProcessPacket env s c p).server.channels k).producer = some c') :
    (p.header.announces = true ∧ c' = c) ∨
      ((s.channels k).live = true ∧ (s.channels k).producer = some c' ∧
        ¬ (p.header.unsupported = true ∧ c' = c)) := by
  have hother : p.header.msg ≠ .clientId → ¬ (p.header.unsupported = true ∧ c' = c) := by
    intro hm
    simp [Header.unsupported, hm]
  by_cases hid : p.header.msg = .clientId
  · have hu : p.header.unsupported = true ↔ p.header.sync.data0 ≠ versionMajor := by
      simp [Header.unsupported, hid]
    simp only [clientProcessPacket, clientDispatch, hid, Server.modifyClient_channels] at hl hp
    rw [clientIdentify_channels] at hl hp
    by_cases hv : p.header.sync.data0 ≠ versionMajor
    · rw [if_pos hv] at hl hp
      obtain ⟨h1, h2, h3⟩ := closed_owner k hl hp
      exact Or.inr ⟨h1, h2, fun h => h3 h.2⟩
    · rw [if_neg hv] at hl hp
      exact Or.inr ⟨hl, hp, fun h => hv (hu.mp h.1)⟩
  · by_cases hchannel : p.header.msg = .channel
    · simp only [clientProcessPacket, clientDispatch, hchannel, Server.modifyClient_channels] at hl hp
      rcases clientChannel_owner p hchannel k hl hp with h | ⟨h1, h2⟩
      · exact Or.inl h
      · exact Or.inr ⟨h1, h2, hother hid⟩
    · rw [packet_channels_other p hchannel hid] at hl hp
      exact Or.inr ⟨hl, hp, hother hid⟩

/-! ## References -/

/-- `c` is a consumer of a live event or the owner of a live channel. -/
def Referred (s : Server) (c : ClientIx) : Prop :=
  (∃ id, Consumes s.events c id) ∨
    ∃ k, (s.channels k).live = true ∧ (s.channels k).producer = some c

theorem exists_consumes_iff (hinv : TableInv s.events) :
    (∃ id, Consumes s.events c id) ↔
      ∃ e i, (s.events e).live = true ∧ (s.events e).consumers i = some c := by
  constructor
  · rintro ⟨id, ev, hl, i, hi⟩
    obtain ⟨hg, e, he, rfl⟩ := hinv.slot_of_look hl
    exact ⟨e, i, Event.live_iff.mpr (by rw [he]; exact hg), hi⟩
  · rintro ⟨e, i, hlive, hi⟩
    exact ⟨_, (hinv.consumes_iff (Event.live_iff.mp hlive)).mpr ⟨i, hi⟩⟩

theorem noDangling_of_referred (hinv : TableInv s.events)
    (h : ∀ c, Referred s c → (s.clients c).connected = true) : NoDangling s where
  consumers := fun e i c hl hi => h c (Or.inl ((exists_consumes_iff hinv).mpr ⟨e, i, hl, hi⟩))
  owners := fun k c hl hp => h c (Or.inr ⟨k, hl, hp⟩)

theorem unowned_of_not_referred (hinv : TableInv s.events) (h : ¬ Referred s c) : Unowned s c where
  consumers := fun e i hl hi => h (Or.inl ((exists_consumes_iff hinv).mpr ⟨e, i, hl, hi⟩))
  owners := fun k hl hp => h (Or.inr ⟨k, hl, hp⟩)

theorem packetChange_subscribes {p : Packet} (h : (packetChange env s c p).subscribes c' id) :
    p.header.msg = .subscribe ∧ c' = c := by
  have hcases := packetChange_cases env s c p
  generalize packetChange env s c p = ch at h hcases
  cases hcases with
  | subscribe created hm => exact ⟨hm, h.1.symm⟩
  | _ => cases h

theorem packetChange_unsupported {p : Packet} (h : p.header.unsupported = true) :
    packetChange env s c p = .close c := by
  have hm : p.header.msg = .clientId := by
    simp only [Header.unsupported, Bool.and_eq_true, beq_iff_eq] at h
    exact h.1
  simp only [packetChange, hm, h, ↓reduceIte]

/-- **Who is referred to after a packet.** -/
theorem packet_referred (hinv : TableInv s.events) (p : Packet)
    (h : Referred (clientProcessPacket env s c p).server c') :
    ((p.header.claims = true ∧ c' = c) ∨ Referred s c') ∧ ¬ (c' = c ∧ p.header.unsupported = true) := by
  have hclaims : p.header.claims = true → ¬ (c' = c ∧ p.header.unsupported = true) := by
    rintro hcl ⟨_, hu⟩
    simp only [Header.unsupported, Bool.and_eq_true, beq_iff_eq] at hu
    simp [Header.claims, Header.announces, hu.1] at hcl
  rcases h with ⟨id, hc⟩ | ⟨k, hl, hp⟩
  · rw [consumes_change hinv (packet_change hinv p) hc.good] at hc
    rcases hc with hs | ⟨hc, hnot⟩
    · obtain ⟨hm, rfl⟩ := packetChange_subscribes hs
      have hcl : p.header.claims = true := by simp [Header.claims, hm]
      exact ⟨Or.inl ⟨hcl, rfl⟩, hclaims hcl⟩
    · refine ⟨Or.inr (Or.inl ⟨id, hc⟩), ?_⟩
      rintro ⟨rfl, hu⟩
      rw [packetChange_unsupported hu] at hnot
      exact hnot (Or.inl rfl)
  · rcases packet_owner p k hl hp with ⟨ha, rfl⟩ | ⟨hl, hp, hnot⟩
    · have hcl : p.header.claims = true := by simp [Header.claims, ha]
      exact ⟨Or.inl ⟨hcl, rfl⟩, hclaims hcl⟩
    · exact ⟨Or.inr (Or.inr ⟨k, hl, hp⟩), fun h => hnot ⟨h.2, h.1⟩⟩

theorem connected_of_conn {u : Server} (h : u.conn c = s.conn c) :
    (u.clients c).connected = (s.clients c).connected := by
  simp only [Server.conn, Prod.mk.injEq] at h
  rw [Client.connected, Client.connected, h.1]

/-- The invariant: a well-formed table and no reference to a disconnected client. -/
structure Safe (s : Server) : Prop where
  inv : TableInv s.events
  referred : ∀ c, Referred s c → (s.clients c).connected = true

/-- A packet of a connected client, or one that asks for no role. -/
theorem Safe.packet (h : Safe s) (p : Packet)
    (hc : (s.clients c).connected = true ∨ p.header.claims = false) :
    Safe (clientProcessPacket env s c p).server := by
  refine ⟨(packet_change h.inv p).inv, ?_⟩
  intro c' hr
  obtain ⟨hwho, hopen⟩ := packet_referred h.inv p hr
  have hconn : (clientProcessPacket env s c p).server.conn c' = s.conn c' := by
    rw [packet_conn, if_neg hopen]
  rw [connected_of_conn hconn]
  rcases hwho with ⟨hcl, rfl⟩ | hr
  · exact hc.resolve_right (by simp [hcl])
  · exact h.referred c' hr

theorem Safe.close (h : Safe s) : Safe (closeClientSocket s c) := by
  refine ⟨(closeClientSocket_table h.inv).1, ?_⟩
  intro c' hr
  have hwho : Referred s c' ∧ c' ≠ c := by
    rcases hr with ⟨id, hc⟩ | ⟨k, hl, hp⟩
    · rw [closeClientSocket_consumes h.inv] at hc
      exact ⟨Or.inl ⟨id, hc.2⟩, hc.1⟩
    · obtain ⟨hl, hp, hne⟩ := closed_owner k hl hp
      exact ⟨Or.inr ⟨k, hl, hp⟩, hne⟩
  have hconn : (closeClientSocket s c).conn c' = s.conn c' := by
    rw [closeClientSocket_conn, if_neg hwho.2]
  rw [connected_of_conn hconn]
  exact h.referred c' hwho.1

/-- References stay as they are when only connections are added. -/
theorem Safe.of_more {u : Server} (h : Safe s) (hev : u.events = s.events) (hch : u.channels = s.channels)
    (hconn : ∀ c, (s.clients c).connected = true → (u.clients c).connected = true) : Safe u := by
  refine ⟨by rw [hev]; exact h.inv, ?_⟩
  intro c hr
  refine hconn c (h.referred c ?_)
  rw [Referred, hev, hch] at hr
  exact hr

end Packets

/-! ## Inputs -/

/-- No packet behind an unsupported CLIENT_ID asks for a role. -/
def orderly : List Packet → Bool
  | [] => true
  | p :: ps => if p.header.unsupported then ps.all fun q => !q.header.claims else orderly ps

/-- A received buffer is orderly. -/
def Input.orderly (s : Server) : Input → Prop
  | .tcp _ c (.data bytes) => (s.clients c).tcp = true → headerSize ≤ bytes.length →
    SyncScribe.orderly (packets ((s.clients c).buffer ++ bytes)) = true
  | _ => True

instance (s : Server) : ∀ i : Input, Decidable (i.orderly s)
  | .tcp _ c (.data bytes) => inferInstanceAs (Decidable ((s.clients c).tcp = true → headerSize ≤ bytes.length →
    SyncScribe.orderly (packets ((s.clients c).buffer ++ bytes)) = true))
  | .tcp _ _ .again | .tcp _ _ .error | .accept _ | .udp .. | .api _ => inferInstanceAs (Decidable True)

section Inputs

variable {env : Env} {s : Server} {c : ClientIx}

theorem SlotTaken.connected {s' : Server} {fd : Int} (h : SlotTaken s c fd s') (hfd : fd ≠ -1) :
    (s'.clients c).connected = true ∧
      ∀ i, (s.clients i).connected = true → (s'.clients i).connected = true := by
  have hself : (s'.clients c).connected = true := by
    simp only [Client.connected, h.socketfd, bne_iff_ne, ne_eq]
    exact hfd
  refine ⟨hself, fun i hi => ?_⟩
  by_cases hic : i = c
  · rw [hic]
    exact hself
  · rw [h.other i hic]
    exact hi

theorem addClient_connected (accepted : Option (Nat × SockAddr)) (i : ClientIx)
    (h : (s.clients i).connected = true) : ((addClient s accepted).clients i).connected = true := by
  rcases addClient_cases s accepted with heq | ⟨c, fd, _, hslot⟩
  · rw [heq]
    exact h
  · exact (hslot.connected (by omega)).2 i h

/-- The client of a datagram is connected. -/
theorem uclientOf_connected {s' : Server} {addr : SockAddr} {hd : Header}
    (h : uclientOf s addr hd = some (s', c)) :
    (s'.clients c).connected = true ∧
      ∀ i, (s.clients i).connected = true → (s'.clients i).connected = true :=
  (uclientOf_cases h).2.connected (by decide)

/-- The packets of a buffer, once the client is connected or asks for nothing. -/
theorem Safe.packetActs (envs : Nat → Env) (ps : List Packet) (n : Nat) (h : Safe s)
    (hc : ((s.clients c).connected = true ∧ orderly ps = true) ∨ ∀ q ∈ ps, q.header.claims = false) :
    Safe (run act s (packetActs envs c n ps)).1 := by
  induction ps generalizing s n with
  | nil => exact h
  | cons p ps ih =>
    have hstep : Safe (act s (.packet (envs n) c (p.within (envs n)))).1 := by
      refine h.packet _ ?_
      rcases hc with ⟨hconn, _⟩ | hq
      · exact Or.inl hconn
      · exact Or.inr (hq p (by simp))
    refine ih (n + 1) hstep ?_
    rcases hc with ⟨hconn, hord⟩ | hq
    · by_cases hu : p.header.unsupported = true
      · refine Or.inr fun q hq => ?_
        simp only [orderly, hu, ↓reduceIte, List.all_eq_true, Bool.not_eq_true'] at hord
        exact hord q hq
      · refine Or.inl ⟨?_, by simpa [orderly, hu] using hord⟩
        have hsame : (act s (.packet (envs n) c (p.within (envs n)))).1.conn c = s.conn c := by
          refine (packet_conn (p.within (envs n)) c).trans ?_
          rw [if_neg fun hh => hu hh.2]
        rw [connected_of_conn hsame]
        exact hconn
    · exact Or.inr fun q hq' => hq q (by simp [hq'])

theorem orderly_map_frame (ps : List Packet) : orderly (ps.map Packet.frame) = orderly ps := by
  induction ps with
  | nil => rfl
  | cons p ps ih =>
    rw [List.map_cons, orderly, orderly, ih, List.all_map]
    rfl

/-- The calls of the server's own application add no reference and move no connection. -/
theorem local_rest {a : Act} (hl : a.isLocal = true) :
    (∀ i, (act s a).1.conn i = s.conn i) ∧ (act s a).1.channels = s.channels := by
  cases a with
  | serverWrite env flags cid data size => exact ⟨serverWrite_rest.conn, serverWrite_rest.channels⟩
  | serverDefine cid flags data size => exact ⟨(serverDefine_rest data).conn, (serverDefine_rest data).channels⟩
  | serverUndefine cid => exact ⟨freeEvent_rest.conn, freeEvent_rest.channels⟩
  | serverSubscribeEvent flags cid cb args =>
    exact ⟨(serverSubscribeEvent_rest cb args).conn, (serverSubscribeEvent_rest cb args).channels⟩
  | serverUnsubscribeEvent cid => exact ⟨serverUnsubscribeEvent_rest.conn, serverUnsubscribeEvent_rest.channels⟩
  | setSyncOffset ms => exact ⟨fun _ => rfl, rfl⟩
  | _ => cases hl

/-- The server's own application makes no client a consumer, and takes none out. -/
theorem local_change {a : Act} (hl : a.isLocal = true) (c : ClientIx) (id : Id) :
    ¬ (changeOf s a).subscribes c id ∧ ¬ (changeOf s a).unsubscribes c id := by
  cases a with
  | serverWrite env flags cid data size =>
    exact accepted_cases (P := fun ch => ¬ ch.subscribes c id ∧ ¬ ch.unsubscribes c id) _
      ⟨fun h => h, fun h => h⟩ fun _ => ⟨fun h => h, fun h => h⟩
  | serverDefine cid flags data size =>
    exact accepted_cases (P := fun ch => ¬ ch.subscribes c id ∧ ¬ ch.unsubscribes c id) _
      ⟨fun h => h, fun h => h⟩ fun _ => ⟨fun h => h, fun h => h⟩
  | serverSubscribeEvent flags cid cb args =>
    exact accepted_cases (P := fun ch => ¬ ch.subscribes c id ∧ ¬ ch.unsubscribes c id) _
      ⟨fun h => h, fun h => h⟩ fun _ => ⟨fun h => h, fun h => h⟩
  | serverUnsubscribeEvent cid =>
    simp only [changeOf]
    split <;> exact ⟨fun h => h, fun h => h⟩
  | serverUndefine cid => exact ⟨fun h => h, fun h => h⟩
  | setSyncOffset ms => exact ⟨fun h => h, fun h => h⟩
  | _ => cases hl

theorem local_referred {a : Act} (hinv : TableInv s.events) (hl : a.isLocal = true)
    (h : Referred (act s a).1 c) : Referred s c := by
  rcases h with ⟨id, hc⟩ | ⟨k, hlive, hp⟩
  · rw [consumes_change hinv (act_change hinv a) hc.good] at hc
    rcases hc with hs | ⟨hc, _⟩
    · exact absurd hs (local_change hl c id).1
    · exact Or.inl ⟨id, hc⟩
  · rw [(local_rest hl).2] at hlive hp
    exact Or.inr ⟨k, hlive, hp⟩

/-- A packet comes from a connected client or asks for no role. -/
def Act.orderly (s : Server) : Act → Prop
  | .packet _ c p => (s.clients c).connected = true ∨ p.header.claims = false
  | _ => True

/-- **An orderly act keeps the invariant.** -/
theorem Safe.act (h : Safe s) (a : Act) (ha : a.orderly s) : Safe (SyncScribe.act s a).1 := by
  have hlocal : a.isLocal = true → Safe (SyncScribe.act s a).1 := by
    intro hl
    refine ⟨(act_change h.inv a).inv, ?_⟩
    intro c hr
    rw [connected_of_conn ((local_rest hl).1 c)]
    exact h.referred c (local_referred h.inv hl hr)
  cases a with
  | accept accepted =>
    obtain ⟨hev, hch, _⟩ := addClient_rest (s := s) accepted
    exact h.of_more hev hch (addClient_connected accepted)
  | packet env c p => exact h.packet p ha
  | datagram env addr p =>
    simp only [SyncScribe.act, uclientProcessPacket]
    split
    · rename_i s' c' hu
      obtain ⟨hev, hch, _⟩ := uclientOf_rest hu
      obtain ⟨hc, hmore⟩ := uclientOf_connected hu
      exact (h.of_more hev hch hmore).packet p (Or.inl hc)
    · split <;> exact h
  | close c => exact h.close
  | keep c buffer =>
    refine h.of_more rfl rfl ?_
    intro i hi
    simp only [SyncScribe.act, Server.modifyClient_clients]
    split
    · rename_i hic
      rw [hic] at hi
      exact hi
    · exact hi
  | serverWrite env flags cid data size => exact hlocal rfl
  | serverDefine cid flags data size => exact hlocal rfl
  | serverUndefine cid => exact hlocal rfl
  | serverSubscribeEvent flags cid cb args => exact hlocal rfl
  | serverUnsubscribeEvent cid => exact hlocal rfl
  | setSyncOffset ms => exact hlocal rfl

/-- **One turn of the event loop keeps the invariant**, given an orderly buffer. -/
theorem Safe.handle (h : Safe s) (i : Input) (hord : i.orderly s) : Safe (handleStep s i).1 := by
  obtain ⟨as, heq, hacts⟩ := handleStep_cases s i
  rw [heq]
  cases hacts with
  | nothing => exact h
  | accept accepted => exact h.act (.accept accepted) trivial
  | close env r htcp => exact h.act (.close _) trivial
  | @loop env c bytes htcp hlen =>
    have hconn : (s.clients c).connected = true := by
      simp only [Client.tcp, gt_iff_lt, decide_eq_true_eq] at htcp
      simp only [Client.connected, bne_iff_ne, ne_eq]
      omega
    have hps := hord htcp hlen
    rw [← rawPackets_frames, orderly_map_frame] at hps
    rw [run_concat]
    have hloop := h.packetActs env (rawPackets ((s.clients c).buffer ++ bytes)) 0 (Or.inl ⟨hconn, hps⟩)
    exact hloop.act (.keep c (leftover ((s.clients c).buffer ++ bytes))) trivial
  | datagram env addr r p => exact h.act (.datagram env addr p) trivial
  | @api a hlocal =>
    refine h.act a ?_
    cases a <;> trivial

theorem safe_init (cid : List UInt8) : Safe (serverCreate cid) := by
  refine ⟨tableInv_init cid, ?_⟩
  rintro c (⟨id, ev, hl, _⟩ | ⟨k, hl, _⟩)
  · rw [look_init] at hl
    cases hl
  · simp [serverCreate, Channel.init, Channel.live, Id.free] at hl

theorem run_safe (cid : List UInt8) (is : List Input)
    (hord : Along handleStep (fun s i => i.orderly s) (serverCreate cid) is) :
    Safe (run handleStep (serverCreate cid) is).1 :=
  run_invariant (fun _ i h hi => h.handle i hi) is _ (safe_init cid) hord

/-! ## A newly accepted client -/

/-- A TCP client that holds no role yet. -/
structure Fresh (s : Server) (c : ClientIx) : Prop where
  inv : TableInv s.events
  tcp : (s.clients c).tcp = true
  free : ¬ Referred s c

/-- An input on the connection of `c`. -/
def Input.isFor (c : ClientIx) : Input → Prop
  | .tcp _ c' _ => c' = c
  | _ => False

theorem tcp_of_conn {u : Server} (h : u.conn c = s.conn c) : (u.clients c).tcp = (s.clients c).tcp := by
  simp only [Server.conn, Prod.mk.injEq] at h
  rw [Client.tcp, Client.tcp, h.1]

theorem Fresh.of_conn {u : Server} (h : Fresh s c) (hev : u.events = s.events) (hch : u.channels = s.channels)
    (hconn : u.conn c = s.conn c) : Fresh u c := by
  refine ⟨by rw [hev]; exact h.inv, by rw [tcp_of_conn hconn]; exact h.tcp, ?_⟩
  rw [Referred, hev, hch]
  exact h.free

/-- A packet of another client. -/
theorem Fresh.packet {c' : ClientIx} (h : Fresh s c) (hne : c ≠ c') (p : Packet) :
    Fresh (clientProcessPacket env s c' p).server c := by
  have hconn : (clientProcessPacket env s c' p).server.conn c = s.conn c := by
    rw [packet_conn, if_neg fun hh => hne hh.1]
  refine ⟨(packet_change h.inv p).inv, by rw [tcp_of_conn hconn]; exact h.tcp, ?_⟩
  intro hr
  rcases (packet_referred h.inv p hr).1 with ⟨_, heq⟩ | hr
  · exact hne heq
  · exact h.free hr

theorem Fresh.packetActs {c' : ClientIx} (hne : c ≠ c') (envs : Nat → Env) (ps : List Packet) (n : Nat)
    (h : Fresh s c) : Fresh (run act s (packetActs envs c' n ps)).1 c := by
  induction ps generalizing s n with
  | nil => exact h
  | cons p ps ih => exact ih (n + 1) (h.packet hne _)

theorem Fresh.close {c' : ClientIx} (h : Fresh s c) (hne : c ≠ c') : Fresh (closeClientSocket s c') c := by
  have hconn : (closeClientSocket s c').conn c = s.conn c := by
    rw [closeClientSocket_conn, if_neg hne]
  refine ⟨(closeClientSocket_table h.inv).1, by rw [tcp_of_conn hconn]; exact h.tcp, ?_⟩
  rintro (⟨id, hc⟩ | ⟨k, hl, hp⟩)
  · rw [closeClientSocket_consumes h.inv] at hc
    exact h.free (Or.inl ⟨id, hc.2⟩)
  · obtain ⟨hl, hp, _⟩ := closed_owner k hl hp
    exact h.free (Or.inr ⟨k, hl, hp⟩)

theorem SlotTaken.conn_other {s' : Server} {c' : ClientIx} {fd : Int} (h : SlotTaken s c' fd s') (hne : c ≠ c') :
    s'.conn c = s.conn c := by
  rw [Server.conn, h.other c hne, Server.conn]

/-- A slot in use is not given to anyone else. -/
theorem addClient_conn (accepted : Option (Nat × SockAddr)) (htcp : (s.clients c).tcp = true) :
    (addClient s accepted).conn c = s.conn c := by
  rcases addClient_cases s accepted with heq | ⟨c', fd, hfree, hslot⟩
  · rw [heq]
  · refine hslot.conn_other ?_
    rintro rfl
    simp [Client.tcp, hfree] at htcp

/-- A datagram never speaks for a TCP client. -/
theorem uclientOf_other {s' : Server} {c' : ClientIx} {addr : SockAddr} {hd : Header}
    (h : uclientOf s addr hd = some (s', c')) (htcp : (s.clients c).tcp = true) :
    c ≠ c' ∧ s'.conn c = s.conn c := by
  obtain ⟨hfd, hslot⟩ := uclientOf_cases h
  have hne : c ≠ c' := by
    rintro rfl
    rcases hfd with hfd | hfd <;> simp [Client.tcp, hfd, udpSocketStub] at htcp
  exact ⟨hne, hslot.conn_other hne⟩

theorem Fresh.handle (h : Fresh s c) (i : Input) (hi : ¬ i.isFor c) : Fresh (handleStep s i).1 c := by
  obtain ⟨as, heq, hacts⟩ := handleStep_cases s i
  rw [heq]
  cases hacts with
  | nothing => exact h
  | accept accepted =>
    obtain ⟨hev, hch, _⟩ := addClient_rest (s := s) accepted
    exact h.of_conn hev hch (addClient_conn accepted h.tcp)
  | close env r htcp => exact h.close fun hc => hi hc.symm
  | @loop env c' bytes htcp hlen =>
    have hne : c ≠ c' := fun hc => hi hc.symm
    rw [run_concat]
    have hloop := h.packetActs hne env (rawPackets ((s.clients c').buffer ++ bytes)) 0
    exact hloop.of_conn rfl rfl
      (by simp only [act, Server.conn, Server.modifyClient_clients, if_neg hne])
  | datagram env addr r p =>
    simp only [run, act, uclientProcessPacket]
    split
    · rename_i s' c' hu
      obtain ⟨hev, hch, _⟩ := uclientOf_rest hu
      obtain ⟨hne, hconn⟩ := uclientOf_other hu h.tcp
      exact (h.of_conn hev hch hconn).packet hne _
    · split <;> exact h
  | api hlocal =>
    refine ⟨(act_change h.inv _).inv, ?_, ?_⟩
    · simp only [run]
      rw [tcp_of_conn ((local_rest hlocal).1 c)]
      exact h.tcp
    · exact fun hr => h.free (local_referred h.inv hlocal hr)

theorem Fresh.run (h : Fresh s c) (js : List Input) (hjs : ∀ j ∈ js, ¬ j.isFor c) :
    Fresh (Lib.run handleStep s js).1 c := by
  induction js generalizing s with
  | nil => exact h
  | cons j js ih => exact ih (h.handle j (hjs j (by simp))) fun k hk => hjs k (by simp [hk])

theorem Safe.fresh (h : Safe s) (hf : getFreeClient s = some c) (fd : Nat) (addr : SockAddr) :
    Fresh (addClient s (some (fd, addr))) c := by
  obtain ⟨hev, hch, _⟩ := addClient_rest (s := s) (some (fd, addr))
  refine ⟨by rw [hev]; exact h.inv, ?_, ?_⟩
  · simp only [addClient, hf, Server.modifyClient_clients, ↓reduceIte, Client.tcp, gt_iff_lt, decide_eq_true_eq]
    omega
  · intro hr
    rw [Referred, hev, hch] at hr
    have hconn := h.referred c hr
    have hfree := first_some hf
    simp only [beq_iff_eq] at hfree
    simp [Client.connected, hfree] at hconn

end Inputs

/-- **No reference to a disconnected client** in an orderly run; and a client accepted after it holds
no role until something arrives on its connection. -/
theorem no_dangling_of_orderly (cid : List UInt8) (is : List Input)
    (hord : Along handleStep (fun s i => i.orderly s) (serverCreate cid) is) :
    NoDangling (run handleStep (serverCreate cid) is).1 ∧
      ∀ c fd addr, getFreeClient (run handleStep (serverCreate cid) is).1 = some c →
        ∀ js : List Input, (∀ j ∈ js, ¬ j.isFor c) →
          Unowned (run handleStep (serverCreate cid) (is ++ .accept (some (fd, addr)) :: js)).1 c := by
  have hsafe := run_safe cid is hord
  refine ⟨noDangling_of_referred hsafe.inv hsafe.referred, ?_⟩
  intro c fd addr hf js hjs
  have hfresh : Fresh (run handleStep (handleStep (run handleStep (serverCreate cid) is).1
      (.accept (some (fd, addr)))).1 js).1 c :=
    (hsafe.fresh hf fd addr).run js hjs
  rw [run_append, run]
  exact unowned_of_not_referred hfresh.inv hfresh.free

/-- A client subscribes to a new event, then another one is accepted. -/
def orderlyRun : List Input :=
  [.accept (some (3, ⟨1, 2⟩)),
    .tcp (fun _ => .calm) 0
      (.data (Packet.make (Msg.subscribe.code ||| typeForce) (idstr [97]) []).header.encode)]

theorem orderlyRun_no_dangling :
    Along handleStep (fun s i => i.orderly s) (serverCreate []) orderlyRun ∧
      NoDangling (run handleStep (serverCreate []) orderlyRun).1 := by
  have hord : Along handleStep (fun s i => i.orderly s) (serverCreate []) orderlyRun := by
    decide +kernel
  exact ⟨hord, (no_dangling_of_orderly [] orderlyRun hord).1⟩

/-- A client announces version 0 and subscribes in the same buffer. -/
def zombieRun : List Input :=
  [.accept (some (3, ⟨1, 2⟩)),
    .tcp (fun _ => .calm) 0
      (.data ((Packet.make Msg.clientId.code (idstr [98]) []).header.encode ++
        (Packet.make (Msg.subscribe.code ||| typeForce) (idstr [97]) []).header.encode))]

/-- The event it created lists the client, which is closed. -/
theorem zombieRun_dangling : ¬ NoDangling (run handleStep (serverCreate []) zombieRun).1 := by
  intro h
  have hconn := h.consumers 0 0 0 (by decide +kernel) (by decide +kernel)
  have hclosed : ((run handleStep (serverCreate []) zombieRun).1.clients 0).connected = false := by
    decide +kernel
  rw [hclosed] at hconn
  cases hconn

end SyncScribe
