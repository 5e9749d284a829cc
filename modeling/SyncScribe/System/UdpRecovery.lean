import SyncScribe.Server.Counters
import SyncScribe.Server.Uclients
import SyncScribe.System.Datagrams

/-!
How a server that lost a UDP client gets it back. The client announces itself: its
identifier, and a SUBSCRIBE for every event of its table, each in a datagram of its
own. These may be lost, overtake each other and arrive again; once the identifier has
arrived, and after it a SUBSCRIBE of each event, the server has one slot for the
client and the subscriptions of its table (`resubscribed_over_udp`).
-/

namespace SyncScribe
open Lib Lib.Bytes Lib.Slots Lib.Keyed

/-! ## Announcements -/

/-- The header of a datagram of an announcement of the client `name` whose table holds the events `T`. -/
structure Announcing (D : Id → Option UInt32) (name : Id) (T : Id → Prop) (h : Header) : Prop where
  fitting : Fitting D h
  kind : h.msg = .clientId ∧ h.id = name ∧ h.sync.data0 = versionMajor ∨ h.msg = .channel ∨ h.msg = .subscribe ∧ T h.id

/-- A client `name` whose table holds the events `T`, with flags that fit `D`. -/
structure Keeps (D : Id → Option UInt32) (name : Id) (T : Id → Prop) (cl : Connect) : Prop where
  named : cl.id = name
  table : ∀ id, InTable cl.events id ↔ T id
  typed : ∀ e, (cl.events e).id.good → Compatible D (cl.events e).id (cl.events e).flags

section Announcements

variable {D : Id → Option UInt32} {name : Id} {T : Id → Prop} {env : ClientEnv} {cl : Connect} {o : Outgoing}

theorem announcing_subscriptions (h : Keeps D name T cl) (es : List EventIx)
    (ho : ClientOut.udp o ∈ sendSubscriptions env cl es) : Announcing D name T o.packet.header := by
  induction es with
  | nil => cases ho
  | cons e es ih =>
    rw [sendSubscriptions] at ho
    split at ho
    · rename_i hlive
      have hg := ClientEvent.live_iff.mp hlive
      rcases List.mem_append.mp ho with ho | ho
      · rcases mem_connectSend ho with ⟨htcp, _⟩ | hudp
        · cases htcp
        · cases hudp
          refine ⟨fitting_subscribe env _ (h.typed e hg), Or.inr (Or.inr ⟨msg_request .subscribe _, ?_⟩)⟩
          exact (h.table _).mp ⟨e, hg, rfl⟩
      · exact ih ho
    · exact ih ho

theorem announcing_channels (ks : List ChannelIx) (ho : ClientOut.udp o ∈ sendChannels env cl ks) :
    Announcing D name T o.packet.header := by
  induction ks with
  | nil => cases ho
  | cons k ks ih =>
    rw [sendChannels] at ho
    split at ho
    · rcases List.mem_append.mp ho with ho | ho
      · rcases mem_connectSend ho with ⟨htcp, _⟩ | hudp
        · cases htcp
        · cases hudp
          have hm : (channelAnonsRequest env (cl.channels k).id (cl.channels k).ticket).packet.header.msg = .channel :=
            Msg.ofWord_or .channel (y := SyncScribe.channelAnons) (by decide)
          refine ⟨⟨?_, Or.inr (Or.inl hm)⟩, Or.inr (Or.inl hm)⟩
          simp [Header.unsupported, hm]
      · exact ih ho
    · exact ih ho

/-- **What the datagrams of an announcement say.** -/
theorem announcing_sendId (h : Keeps D name T cl) (ho : o ∈ udpHanded ((sendId env cl).map .out)) :
    Announcing D name T o.packet.header := by
  have hmem := mem_udpHanded ho
  rw [sendId, List.mem_append, List.mem_append] at hmem
  rcases hmem with hmem | hmem | hmem
  · rcases mem_connectSend hmem with ⟨htcp, _⟩ | hudp
    · cases htcp
    · cases hudp
      have hm : (clientIdRequest env cl.id).packet.header.msg = .clientId := Msg.ofWord_code .clientId
      refine ⟨⟨?_, Or.inl hm⟩, Or.inl ⟨hm, h.named, rfl⟩⟩
      simp [Header.unsupported, clientIdRequest]
  · exact announcing_subscriptions h _ hmem
  · exact announcing_channels _ hmem

end Announcements

/-! ## The slot of the client -/

/-- The client at the address has the slot `c`. -/
def KnownIn (addr : SockAddr) (s : Server) (c : ClientIx) : Prop := (s.clients c).udp ∧ (s.clients c).addr = addr

/-- An act that concerns others than the client `name` at the address. -/
def Act.passes (addr : SockAddr) (name : Id) (s : Server) : Act → Prop
  | .packet _ c _ | .close c => ¬ (s.clients c).udp
  | .datagram _ addr' p => addr' ≠ addr ∧ (p.header.msg = .clientId → p.header.id ≠ name)
  | _ => True

/-- The slots of the client are those with its identifier, and there is one at most. -/
structure OneSlot (addr : SockAddr) (name : Id) (s : Server) : Prop where
  agree : ∀ c, (s.clients c).udp → ((s.clients c).id = name ↔ (s.clients c).addr = addr)
  alone : ∀ c c', KnownIn addr s c → KnownIn addr s c' → c = c'

section Slots

variable {s s' : Server} {addr : SockAddr} {name : Id} {c : ClientIx} {a : Act}

theorem OneSlot.addr_iff (h : OneSlot addr name s) (hk : KnownIn addr s c) {c' : ClientIx} (hc : (s.clients c').udp) :
    (s.clients c').addr = addr ↔ c' = c := by
  constructor
  · intro ha
    exact h.alone c' c ⟨hc, ha⟩ hk
  · rintro rfl
    exact hk.2

theorem findUclientAddr_iff (h : OneSlot addr name s) : findUclientAddr s addr = some c ↔ KnownIn addr s c := by
  constructor
  · exact findUclientAddr_some
  · intro hk
    cases hf : findUclientAddr s addr with
    | none => exact absurd hk.2 (findUclientAddr_none hf c hk.1)
    | some c' => rw [h.alone c' c (findUclientAddr_some hf) hk]

/-- The slots with a changed identity are others. -/
structure SlotsKept (addr : SockAddr) (name : Id) (s s' : Server) : Prop where
  kept : ∀ c, (s'.clients c).identity = (s.clients c).identity ∨
    (¬ KnownIn addr s c ∧ ((s'.clients c).udp → (s'.clients c).id ≠ name ∧ (s'.clients c).addr ≠ addr))

theorem SlotsKept.of_identity (h : ∀ c, (s'.clients c).identity = (s.clients c).identity) :
    SlotsKept addr name s s' := ⟨fun c => Or.inl (h c)⟩

theorem SlotsKept.known (h : SlotsKept addr name s s') : KnownIn addr s' c ↔ KnownIn addr s c := by
  rcases h.kept c with hsame | ⟨hno, hother⟩
  · obtain ⟨hudp, haddr, _⟩ := identity_udp hsame
    rw [KnownIn, KnownIn, hudp, haddr]
  · exact ⟨fun hk => absurd hk.2 (hother hk.1).2, fun hk => absurd hk hno⟩

theorem SlotsKept.oneSlot (h : SlotsKept addr name s s') (hs : OneSlot addr name s) : OneSlot addr name s' := by
  refine ⟨?_, fun c c' hc hc' => hs.alone c c' (h.known.mp hc) (h.known.mp hc')⟩
  intro c hudp
  rcases h.kept c with hsame | ⟨_, hother⟩
  · obtain ⟨hudp', haddr, hid⟩ := identity_udp hsame
    rw [hid, haddr]
    exact hs.agree c (hudp'.mp hudp)
  · obtain ⟨hid, haddr⟩ := hother hudp
    exact ⟨fun h => absurd h hid, fun h => absurd h haddr⟩

/-- A datagram of another sender is not processed for the client's slot. -/
theorem foundBy_other (hs : OneSlot addr name s) {addr' : SockAddr} {h : Header} (haddr : addr' ≠ addr)
    (hid : h.msg = .clientId → h.id ≠ name) {c' : ClientIx} (hu : uclientOf s addr' h = some (s', c'))
    (hk : KnownIn addr s c) : c' ≠ c := by
  rintro rfl
  simp only [uclientOf] at hu
  split at hu
  · rename_i c' hf
    cases hu
    exact haddr ((findUclientAddr_some hf).2.symm.trans hk.2)
  · split at hu
    · rename_i hm
      split at hu
      · rename_i c' hf
        cases hu
        exact hid hm ((findUclientId_some hf).2.symm.trans ((hs.agree _ hk.1).mpr hk.2))
      · simp only [addUclient] at hu
        split at hu
        · cases hu
        · rename_i c' hfree
          cases hu
          have hfd : (s.clients c').socketfd = -1 := by simpa using first_some hfree
          have hudp : (s.clients c').socketfd = udpSocketStub := hk.1
          rw [hudp] at hfd
          exact absurd hfd (by decide)
    · cases hu

/-- An act that concerns others keeps the slot, and changes none of its subscriptions. -/
theorem passes_slots (hs : OneSlot addr name s) (ha : a.passes addr name s) : SlotsKept addr name s (act s a).1 := by
  cases a with
  | accept accepted =>
    rcases addClient_cases s accepted with hsame | ⟨c, fd, hfree, hslot⟩
    · exact .of_identity fun i => by rw [act, hsame]
    · refine ⟨fun i => ?_⟩
      by_cases hi : i = c
      · subst hi
        refine Or.inr ⟨fun hk => ?_, fun hudp => ?_⟩
        · rw [KnownIn, Client.udp, hfree] at hk
          exact absurd hk.1 (by decide)
        · have hfd : (fd : Int) = udpSocketStub := hslot.socketfd.symm.trans hudp
          exact absurd hfd (by simp only [udpSocketStub]; omega)
      · exact Or.inl (by rw [act, hslot.other i hi])
  | packet env c q =>
    refine ⟨fun i => ?_⟩
    have hslot : ((clientProcessPacket env s c q).server.clients i).identity = _ := packet_identity q i
    split at hslot
    · rename_i hi
      obtain ⟨_, rfl⟩ := hi
      refine Or.inr ⟨fun hk => ha hk.1, fun hudp => absurd ?_ ha⟩
      rw [act, Client.udp, (identity_eq hslot).2.1] at hudp
      split at hudp
      · exact hudp
      · exact absurd hudp (by decide)
    · exact Or.inl hslot
  | datagram env addr' q =>
    obtain ⟨haddr, hid⟩ := ha
    cases hu : uclientOf s addr' q.header with
    | none =>
      refine .of_identity fun i => ?_
      simp only [act, uclientProcessPacket, hu]
      split <;> rfl
    | some sc =>
      obtain ⟨u, c⟩ := sc
      obtain ⟨_, hother, _, haddr'⟩ := uclientOf_identity hu
      refine ⟨fun i => ?_⟩
      simp only [act, uclientProcessPacket, hu]
      have hslot : ((clientProcessPacket env u c q).server.clients i).identity = _ := packet_identity q i
      by_cases hm : q.header.msg = .clientId
      · by_cases hi : i = c
        · subst hi
          rw [if_pos ⟨hm, rfl⟩] at hslot
          obtain ⟨hname, _, hat⟩ := identity_eq hslot
          refine Or.inr ⟨fun hk => foundBy_other hs haddr hid hu hk rfl, fun _ => ?_⟩
          rw [hname, hat, haddr']
          exact ⟨hid hm, haddr⟩
        · rw [if_neg fun h => hi h.2] at hslot
          exact Or.inl (hslot.trans (hother i hi))
      · rw [if_neg fun h => hm h.1] at hslot
        rw [uclientOf_known hm] at hu
        obtain ⟨_, _, heq⟩ := Option.map_eq_some_iff.mp hu
        cases heq
        exact Or.inl hslot
  | close c =>
    refine ⟨fun i => ?_⟩
    have hslots := (closeClientSocket_slots s c).identity i
    by_cases hi : i = c
    · subst hi
      rw [if_pos rfl] at hslots
      refine Or.inr ⟨fun hk => ha hk.1, fun hudp => ?_⟩
      have hfd := (identity_eq hslots).2.1
      rw [act, Client.udp, hfd] at hudp
      exact absurd hudp (by decide)
    · rw [if_neg hi] at hslots
      exact Or.inl hslots
  | keep c buffer =>
    refine .of_identity fun i => ?_
    simp only [act, Server.modifyClient_clients]
    split
    · rename_i hi
      rw [hi]
      rfl
    · rfl
  | serverWrite | serverDefine | serverUndefine | serverSubscribeEvent | serverUnsubscribeEvent | setSyncOffset =>
    exact .of_identity (local_slots rfl).identity

end Slots

/-! ## Steps -/

/-- A packet as a datagram of an announcement brings it. -/
def AnnouncedBy (D : Id → Option UInt32) (name : Id) (T : Id → Prop) (p : Packet) : Prop :=
  ∃ cl cenv o rest, Keeps D name T cl ∧ o ∈ udpHanded ((sendId cenv cl).map .out) ∧ udpPacket rest o.wire = some p

/-- What is asked of the acts of the server: what comes from the address is part of an announcement, and what else
the server does concerns others and leaves the events `D` defined. -/
def Recovers (D : Id → Option UInt32) (addr : SockAddr) (name : Id) (T : Id → Prop) (s : Server) (a : Act) : Prop :=
  (∃ env p, a = .datagram env addr p ∧ AnnouncedBy D name T p) ∨
    (a.passes addr name s ∧ a.orderly s ∧ DefinedAs D (act s a).1)

/-- The server has no subscription of the client that is not in its table. -/
structure Restoring (D : Id → Option UInt32) (addr : SockAddr) (name : Id) (T : Id → Prop) (s : Server) : Prop where
  safe : Safe s
  defined : DefinedAs D s
  slots : OneSlot addr name s
  sound : ∀ c, KnownIn addr s c → ∀ id t, D id = some t → Consumes s.events c id → T id

/-- What every act does for the client in the slot `c`. -/
structure Restored (D : Id → Option UInt32) (addr : SockAddr) (name : Id) (T : Id → Prop) (s s' : Server) : Prop where
  restoring : Restoring D addr name T s'
  known : ∀ c, KnownIn addr s c → KnownIn addr s' c
  kept : ∀ c, KnownIn addr s c → ∀ id t, D id = some t → Consumes s.events c id → Consumes s'.events c id

section Steps

variable {D : Id → Option UInt32} {addr : SockAddr} {name : Id} {T : Id → Prop} {s : Server} {c : ClientIx} {a : Act}
  {env : Env} {p : Packet}

theorem AnnouncedBy.announcing (h : AnnouncedBy D name T p) : Announcing D name T p.header := by
  obtain ⟨cl, cenv, o, rest, hkeeps, ho, hp⟩ := h
  have hframed : Framed o.packet o.wire := framed_sendId ho
  rw [(hframed.udpPacket_frame hp).1]
  exact announcing_sendId hkeeps ho

/-- An act that concerns others changes no subscription of the client. -/
theorem passes_change (hs : OneSlot addr name s) (ha : a.passes addr name s) (hk : KnownIn addr s c) (id : Id) :
    ¬ (changeOf s a).subscribes c id ∧ ¬ (changeOf s a).unsubscribes c id := by
  cases a with
  | accept | keep => exact ⟨fun h => h, fun h => h⟩
  | packet env c' q =>
    have hne : c' ≠ c := by
      rintro rfl
      exact ha hk.1
    exact ⟨fun h => hne (packetChange_subscribes h).2.symm, fun h => hne (packetChange_unsubscribes h)⟩
  | close c' =>
    have hne : c' ≠ c := by
      rintro rfl
      exact ha hk.1
    exact ⟨fun h => h, hne⟩
  | datagram env addr' q =>
    obtain ⟨haddr, hid⟩ := ha
    simp only [changeOf]
    cases hu : uclientOf s addr' q.header with
    | none => exact ⟨fun h => h, fun h => h⟩
    | some sc =>
      have hne := foundBy_other hs haddr hid hu hk
      exact ⟨fun h => hne (packetChange_subscribes h).2.symm, fun h => hne (packetChange_unsubscribes h)⟩
  | serverWrite | serverDefine | serverUndefine | serverSubscribeEvent | serverUnsubscribeEvent | setSyncOffset =>
    exact local_change rfl c id

/-- **An act that concerns others.** -/
theorem Restoring.pass (h : Restoring D addr name T s) (ha : a.passes addr name s) (hord : a.orderly s)
    (hdef : DefinedAs D (act s a).1) : Restored D addr name T s (act s a).1 := by
  have hslots := passes_slots h.slots ha
  have hsame : ∀ c, KnownIn addr s c → ∀ id t, D id = some t →
      (Consumes (act s a).1.events c id ↔ Consumes s.events c id) := by
    intro c hk id t hid
    obtain ⟨ev, hl, _⟩ := hdef id t hid
    have happ := act_change h.safe.inv a
    obtain ⟨hsub, hunsub⟩ := passes_change h.slots ha hk id
    have hlive : LiveId (act s a).1.events id := by simp [LiveId, hl]
    rw [consumes_change h.safe.inv happ (look_good hl)]
    simp [hsub, hunsub, (liveId_change happ hlive).1]
  refine ⟨⟨h.safe.act a hord, hdef, hslots.oneSlot h.slots, ?_⟩, fun c => hslots.known.mpr, ?_⟩
  · intro c hk id t hid hc
    have hk' := hslots.known.mp hk
    exact h.sound c hk' id t hid ((hsame c hk' id t hid).mp hc)
  · exact fun c hk id t hid => (hsame c hk id t hid).mpr

/-- What an announcement adds to a subscription. -/
theorem Announcing.effect {h : Header} (ha : Announcing D name T h) (id : Id) (b : Prop) :
    (h.effect id b → b ∨ T id) ∧ (b → h.effect id b) ∧ (h.msg = .subscribe → h.id = id → h.effect id b) := by
  unfold Header.effect
  by_cases hid : h.id = id
  · rw [if_pos hid]
    rcases ha.kind with ⟨hm, _⟩ | hm | ⟨hm, hT⟩
    · rw [hm]
      exact ⟨Or.inl, fun hb => hb, fun h => by cases h⟩
    · rw [hm]
      exact ⟨Or.inl, fun hb => hb, fun h => by cases h⟩
    · rw [hm]
      exact ⟨fun _ => Or.inr (hid ▸ hT), fun _ => trivial, fun _ _ => trivial⟩
  · rw [if_neg hid]
    exact ⟨Or.inl, fun hb => hb, fun _ h => absurd h hid⟩

/-- A packet of an announcement, processed for the slot of the client. -/
theorem Restoring.process (env : Env) (h : Restoring D addr name T s) (hp : Announcing D name T p.header)
    (hk : KnownIn addr s c) :
    Restored D addr name T s (clientProcessPacket env s c p).server ∧
      ∀ t, D p.header.id = some t → p.header.msg = .subscribe →
        Consumes (clientProcessPacket env s c p).server.events c p.header.id := by
  have hident : ∀ i, ((clientProcessPacket env s c p).server.clients i).identity = (s.clients i).identity := by
    intro i
    have hslot : ((clientProcessPacket env s c p).server.clients i).identity = _ := packet_identity p i
    rw [hslot]
    split
    · rename_i hi
      obtain ⟨hm, rfl⟩ := hi
      rcases hp.kind with ⟨_, hid, hv⟩ | hm' | ⟨hm', _⟩
      · rw [if_pos hv, hid, Client.identity, (h.slots.agree i hk.1).mpr hk.2]
      · rw [hm] at hm'
        cases hm'
      · rw [hm] at hm'
        cases hm'
    · rfl
  have hkept : SlotsKept addr name s (clientProcessPacket env s c p).server := .of_identity hident
  have heffect : ∀ id t, D id = some t → (Consumes (clientProcessPacket env s c p).server.events c id ↔
      p.header.effect id (Consumes s.events c id)) :=
    fun id t hid => packet_effect h.safe.inv h.defined hp.fitting hid
  have hconn : (s.clients c).connected = true := by
    have hudp : (s.clients c).socketfd = udpSocketStub := hk.1
    simp [Client.connected, hudp, udpSocketStub]
  refine ⟨⟨⟨h.safe.packet p (Or.inl hconn), packet_defined h.safe.inv h.defined hp.fitting, hkept.oneSlot h.slots, ?_⟩,
    fun _ => hkept.known.mpr, ?_⟩, ?_⟩
  · intro c' hk' id t hid hc
    obtain rfl := h.slots.alone c c' hk (hkept.known.mp hk')
    exact ((hp.effect id _).1 ((heffect id t hid).mp hc)).elim (h.sound c hk id t hid) fun hT => hT
  · intro c' hk' id t hid hc
    obtain rfl := h.slots.alone c c' hk hk'
    exact (heffect id t hid).mpr ((hp.effect id _).2.1 hc)
  · intro t hid hm
    exact (heffect _ t hid).mpr ((hp.effect _ _).2.2 hm rfl)

/-- A client that the server does not know, and a `CLIENT_ID` of it. -/
theorem uclientOf_new {h : Header} (hs : OneSlot addr name s) (hn : findUclientAddr s addr = none)
    (hm : h.msg = .clientId) (hid : h.id = name) : uclientOf s addr h = addUclient s addr := by
  have hnone : findUclientId s h.id = none := by
    cases hf : findUclientId s h.id with
    | none => rfl
    | some c =>
      obtain ⟨hudp, hcid⟩ := findUclientId_some hf
      exact absurd ((hs.agree c hudp).mp (hcid.trans hid)) (findUclientAddr_none hn c hudp)
  simp only [uclientOf, hn, if_pos hm, hnone]

/-- It gets a slot that nothing refers to. -/
theorem Restoring.register (env : Env) (h : Restoring D addr name T s) (hp : Announcing D name T p.header)
    (hm : p.header.msg = .clientId) (hid : p.header.id = name) (hno : ∀ c, ¬ KnownIn addr s c)
    (hu : uclientOf s addr p.header = addUclient s addr) (hfree : getFreeClient s = some c) :
    Restoring D addr name T (act s (.datagram env addr p)).1 ∧ KnownIn addr (act s (.datagram env addr p)).1 c := by
  have hv : p.header.sync.data0 = versionMajor := by
    rcases hp.kind with ⟨_, _, hv⟩ | hm' | ⟨hm', _⟩
    · exact hv
    · rw [hm] at hm'
      cases hm'
    · rw [hm] at hm'
      cases hm'
  have hfd : (s.clients c).socketfd = -1 := by simpa using first_some hfree
  obtain ⟨u, hadd⟩ : ∃ u, addUclient s addr = some (u, c) := by
    simp only [addUclient, hfree]
    exact ⟨_, rfl⟩
  rw [hadd] at hu
  obtain ⟨_, hother, hudp, haddr⟩ := uclientOf_identity hu
  have hevents := (uclientOf_rest hu).1
  have hstub : (u.clients c).socketfd = udpSocketStub := hudp
  have hserver : (act s (.datagram env addr p)).1 = (clientProcessPacket env u c p).server := by
    simp only [act, uclientProcessPacket, hu]
  have hident : ∀ i, ((clientProcessPacket env u c p).server.clients i).identity =
      if i = c then (name, udpSocketStub, addr) else (s.clients i).identity := by
    intro i
    have hslot : ((clientProcessPacket env u c p).server.clients i).identity = _ := packet_identity p i
    rw [hslot]
    by_cases hi : i = c
    · rw [if_pos ⟨hm, hi⟩, if_pos hi, if_pos hv, hid, hstub, haddr]
    · rw [if_neg fun h => hi h.2, if_neg hi, hother i hi]
  have hslot := identity_eq ((hident c).trans (if_pos rfl))
  have hknown : KnownIn addr (clientProcessPacket env u c p).server c := ⟨hslot.2.1, hslot.2.2⟩
  have honly : ∀ i, KnownIn addr (clientProcessPacket env u c p).server i → i = c := by
    intro i hk
    by_contra hi
    obtain ⟨hiudp, hiaddr, _⟩ := identity_udp ((hident i).trans (if_neg hi))
    exact hno i ⟨hiudp.mp hk.1, hiaddr.symm.trans hk.2⟩
  have hsafe : Safe (clientProcessPacket env u c p).server := by
    rw [← hserver]
    exact h.safe.act (.datagram env addr p) trivial
  have hinv : TableInv u.events := by
    rw [hevents]
    exact h.safe.inv
  have hdef : DefinedAs D u := by
    intro id t hD
    rw [hevents]
    exact h.defined id t hD
  rw [hserver]
  refine ⟨⟨hsafe, packet_defined hinv hdef hp.fitting, ⟨?_, ?_⟩, ?_⟩, hknown⟩
  · intro i hi
    by_cases hic : i = c
    · subst hic
      exact ⟨fun _ => hknown.2, fun _ => hslot.1⟩
    · obtain ⟨hiudp, hiaddr, hiid⟩ := identity_udp ((hident i).trans (if_neg hic))
      rw [hiid, hiaddr]
      exact h.slots.agree i (hiudp.mp hi)
  · exact fun i j hi hj => (honly i hi).trans (honly j hj).symm
  · intro i hi id t hD hc
    obtain rfl := honly i hi
    have hbefore : Consumes u.events i id ∨ T id :=
      (hp.effect id _).1 ((packet_effect hinv hdef hp.fitting hD).mp hc)
    rcases hbefore with hbefore | hT
    · -- the slot was free, and a free slot is no consumer
      rw [hevents] at hbefore
      have hconn := h.safe.referred i (Or.inl ⟨id, hbefore⟩)
      simp [Client.connected, hfd] at hconn
    · exact hT

/-- **A packet of an announcement.** -/
theorem Restoring.announce (env : Env) (h : Restoring D addr name T s) (hp : Announcing D name T p.header) :
    Restored D addr name T s (act s (.datagram env addr p)).1 ∧
      (∀ c, KnownIn addr s c → ∀ t, D p.header.id = some t → p.header.msg = .subscribe →
        Consumes (act s (.datagram env addr p)).1.events c p.header.id) ∧
      (p.header.msg = .clientId → (getFreeClient s).isSome ∨ (findUclientAddr s addr).isSome →
        ∃ c, KnownIn addr (act s (.datagram env addr p)).1 c) := by
  have hstay : Restored D addr name T s s := ⟨h, fun _ hk => hk, fun _ _ _ _ _ hc => hc⟩
  cases hf : findUclientAddr s addr with
  | some c =>
    have hk : KnownIn addr s c := findUclientAddr_some hf
    have hu : uclientOf s addr p.header = some (s, c) := by simp only [uclientOf, hf]
    obtain ⟨hrestored, hsub⟩ := h.process env hp hk
    simp only [act, uclientProcessPacket, hu]
    refine ⟨hrestored, fun c' hk' => ?_, fun _ _ => ⟨c, hrestored.known c hk⟩⟩
    rw [h.slots.alone c' c hk' hk]
    exact hsub
  | none =>
    have hno : ∀ c, ¬ KnownIn addr s c := fun c hk => findUclientAddr_none hf c hk.1 hk.2
    by_cases hm : p.header.msg = .clientId
    · have hid : p.header.id = name := by
        rcases hp.kind with ⟨_, hid, _⟩ | hm' | ⟨hm', _⟩
        · exact hid
        · rw [hm] at hm'
          cases hm'
        · rw [hm] at hm'
          cases hm'
      have hu := uclientOf_new h.slots hf hm hid
      cases hfree : getFreeClient s with
      | none =>
        have hrefused : (act s (.datagram env addr p)).1 = s := by
          simp only [act, uclientProcessPacket, hu, addUclient, hfree, if_pos hm]
        rw [hrefused]
        refine ⟨hstay, fun c hk => absurd hk (hno c), fun _ hor => ?_⟩
        rcases hor with hor | hor <;> cases hor
      | some c =>
        obtain ⟨hrestoring, hknown⟩ := h.register env hp hm hid hno hu hfree
        exact ⟨⟨hrestoring, fun c hk => absurd hk (hno c), fun c hk => absurd hk (hno c)⟩,
          fun c hk => absurd hk (hno c), fun _ _ => ⟨c, hknown⟩⟩
    · have hrefused : (act s (.datagram env addr p)).1 = s := by
        have hu : uclientOf s addr p.header = none := by simp only [uclientOf, hf, if_neg hm]
        simp only [act, uclientProcessPacket, hu, if_neg hm]
      rw [hrefused]
      exact ⟨hstay, fun c hk => absurd hk (hno c), fun h => absurd h hm⟩

end Steps

/-! ## Runs -/

section Runs

variable {D : Id → Option UInt32} {addr : SockAddr} {name : Id} {T : Id → Prop} {s s' s'' : Server} {c : ClientIx}
  {a : Act} {env : Env} {p : Packet}

theorem Restored.trans (h : Restored D addr name T s s') (h' : Restored D addr name T s' s'') :
    Restored D addr name T s s'' :=
  ⟨h'.restoring, fun c hk => h'.known c (h.known c hk),
    fun c hk id t hid hc => h'.kept c (h.known c hk) id t hid (h.kept c hk id t hid hc)⟩

theorem Restoring.step (h : Restoring D addr name T s) (ha : Recovers D addr name T s a) :
    Restored D addr name T s (act s a).1 := by
  rcases ha with ⟨env, p, rfl, hp⟩ | ⟨hpass, hord, hdef⟩
  · exact (h.announce _ hp.announcing).1
  · exact h.pass hpass hord hdef

theorem Restoring.along (h : Restoring D addr name T s) (as : List Act) (hal : Along act (Recovers D addr name T) s as) :
    Restored D addr name T s (run act s as).1 := by
  induction as generalizing s with
  | nil => exact ⟨h, fun _ hk => hk, fun _ _ _ _ _ hc => hc⟩
  | cons a as ih =>
    have hstep := h.step hal.1
    exact hstep.trans (ih hstep.restoring hal.2)

/-- What comes from the address is part of an announcement. -/
theorem Recovers.announces (h : Recovers D addr name T s (.datagram env addr p)) : AnnouncedBy D name T p := by
  rcases h with ⟨env', q, heq, hq⟩ | ⟨hpass, _⟩
  · cases heq
    exact hq
  · exact absurd rfl hpass.1

/-- A SUBSCRIBE that arrives from a known address is never undone. -/
theorem Restoring.subscribed (h : Restoring D addr name T s) (hk : KnownIn addr s c) (as : List Act)
    (hal : Along act (Recovers D addr name T) s as) (hmem : .datagram env addr p ∈ as)
    (hm : p.header.msg = .subscribe) {t : UInt32} (hid : D p.header.id = some t) :
    Consumes (run act s as).1.events c p.header.id := by
  induction as generalizing s with
  | nil => cases hmem
  | cons a as ih =>
    have hstep := h.step hal.1
    rcases List.mem_cons.mp hmem with rfl | hmem
    · have hnow := (h.announce env hal.1.announces.announcing).2.1 c hk t hid hm
      exact (hstep.restoring.along as hal.2).kept c (hstep.known c hk) _ t hid hnow
    · exact ih hstep.restoring (hstep.known c hk) hal.2 hmem

/-- **Subscriptions survive the loss of the registration.** Let the server know neither the address nor the
identifier of the client, and let what then comes from the address be datagrams of its announcements, in any order,
any of them lost or repeated, between whatever the server does for others. Once its `CLIENT_ID` has arrived while
there was a slot for it, and after that a SUBSCRIBE for each event of its table, one slot has its address and one its
identifier, the same, and the events of `D` that list it are those of the table. -/
theorem resubscribed_over_udp (D : Id → Option UInt32) (addr : SockAddr) (name : Id) (T : Id → Prop)
    (cid : List UInt8) (before : List Act) (hord : Along act (fun s a => a.orderly s) (serverCreate cid) before)
    (s : Server) (hs : s = (run act (serverCreate cid) before).1) (hdef : DefinedAs D s)
    (hnew : ∀ c, (s.clients c).udp → (s.clients c).id ≠ name ∧ (s.clients c).addr ≠ addr)
    (pre post : List Act) (env : Env) (p : Packet)
    (hal : Along act (Recovers D addr name T) s (pre ++ .datagram env addr p :: post)) (hm : p.header.msg = .clientId)
    (hfree : (getFreeClient (run act s pre).1).isSome ∨ (findUclientAddr (run act s pre).1 addr).isSome)
    (hall : ∀ id, T id → ∃ env q, .datagram env addr q ∈ post ∧ q.header.msg = .subscribe ∧ q.header.id = id) :
    ∃ c, findUclientAddr (run act s (pre ++ .datagram env addr p :: post)).1 addr = some c ∧
      (∀ c', ((run act s (pre ++ .datagram env addr p :: post)).1.clients c').udp →
        (((run act s (pre ++ .datagram env addr p :: post)).1.clients c').addr = addr ↔ c' = c) ∧
        (((run act s (pre ++ .datagram env addr p :: post)).1.clients c').id = name ↔ c' = c)) ∧
      ∀ id t, D id = some t →
        (Consumes (run act s (pre ++ .datagram env addr p :: post)).1.events c id ↔ T id) := by
  have hsafe : Safe s := by
    rw [hs]
    exact run_invariant (fun _ a h ha => h.act a ha) before _ (safe_init cid) hord
  have hslots : OneSlot addr name s := by
    refine ⟨fun c hc => ?_, fun c _ hc => absurd hc.2 (hnew c hc.1).2⟩
    exact ⟨fun h => absurd h (hnew c hc).1, fun h => absurd h (hnew c hc).2⟩
  have hstart : Restoring D addr name T s :=
    ⟨hsafe, hdef, hslots, fun c hc => absurd hc.2 (hnew c hc.1).2⟩
  obtain ⟨hpre, harrives, hpost⟩ := (along_append s pre _).mp hal
  have hreached := (hstart.along pre hpre).restoring
  have hann := harrives.announces.announcing
  obtain ⟨hstep, _, hreg⟩ := hreached.announce env hann
  obtain ⟨c, hknown⟩ := hreg hm hfree
  have hrest := hstep.restoring.along post hpost
  rw [run_append]
  have hslot := hrest.known c hknown
  refine ⟨c, (findUclientAddr_iff hrest.restoring.slots).mpr hslot, fun c' hc' => ?_, fun id t hid => ?_⟩
  · have haddr := hrest.restoring.slots.addr_iff hslot hc'
    exact ⟨haddr, (hrest.restoring.slots.agree c' hc').trans haddr⟩
  refine ⟨hrest.restoring.sound c (hrest.known c hknown) id t hid, fun hT => ?_⟩
  obtain ⟨env', q, hq, hqm, rfl⟩ := hall id hT
  exact hstep.restoring.subscribed hknown post hpost hq hqm hid

/-- A client that subscribed the string event `a` before it had a socket. -/
def udpSubscriber : Connect :=
  ((subscribeEvent .calm ((connectCreate [99] []).onUdp 5) typeVarString [97] none 0).map Prod.fst).getD
    (connectCreate [99] [])

theorem udpSubscriber_table : ∀ e, (udpSubscriber.events e).id.good →
    (udpSubscriber.events e).id = idstr [97] ∧ (udpSubscriber.events e).flags = typeVarString := by
  decide +kernel

theorem udpSubscriber_keeps :
    Keeps stringEvent (idstr [99]) (fun id => InTable udpSubscriber.events id) udpSubscriber := by
  refine ⟨by decide +kernel, fun _ => Iff.rfl, fun e he t ht => ?_⟩
  obtain ⟨hid, hflags⟩ := udpSubscriber_table e he
  rw [hid] at ht
  cases ht
  rw [hflags]
  decide

/-- The packets of its announcement. -/
def udpAnnouncement : List Packet :=
  (udpHanded ((sendId .calm udpSubscriber).map .out)).filterMap fun o => udpPacket [] o.wire

theorem udpAnnouncement_announcedBy {p : Packet} (h : p ∈ udpAnnouncement) :
    AnnouncedBy stringEvent (idstr [99]) (fun id => InTable udpSubscriber.events id) p := by
  obtain ⟨o, ho, hp⟩ := List.mem_filterMap.mp h
  exact ⟨udpSubscriber, .calm, o, [], udpSubscriber_keeps, ho, hp⟩

/-- A server that has started again, with the event defined. -/
def restartedServer : Server := (run act (serverCreate []) [.serverDefine [97] typeVarString none 0]).1

def udpName : Packet := ⟨(clientIdRequest .calm (idstr [99])).packet.header, []⟩

def udpSubscribe : Packet := ⟨(subscribeRequest .calm (idstr [97]) typeVarString 0).packet.header, []⟩

/-- The SUBSCRIBE overtakes the `CLIENT_ID` and is refused; both arrive again. -/
def udpArrivals : List Act :=
  [.datagram .calm ⟨1, 2⟩ udpSubscribe, .datagram .calm ⟨1, 2⟩ udpName, .datagram .calm ⟨1, 2⟩ udpSubscribe,
    .datagram .calm ⟨1, 2⟩ udpName, .datagram .calm ⟨1, 2⟩ udpSubscribe]

theorem udpArrivals_resubscribed : ∃ c, findUclientAddr (run act restartedServer udpArrivals).1 ⟨1, 2⟩ = some c ∧
    Consumes (run act restartedServer udpArrivals).1.events c (idstr [97]) := by
  have hdef : DefinedAs stringEvent restartedServer := by
    intro id t hid
    simp only [stringEvent] at hid
    split at hid
    · rename_i heq
      cases hid
      have htype : (look restartedServer.events (idstr [97])).map Event.dataType = some typeVarString := by
        decide +kernel
      rw [heq]
      exact Option.map_eq_some_iff.mp htype
    · cases hid
  have hnew : ∀ c, (restartedServer.clients c).socketfd ≠ udpSocketStub := by decide +kernel
  have hname : AnnouncedBy stringEvent (idstr [99]) (fun id => InTable udpSubscriber.events id) udpName :=
    udpAnnouncement_announcedBy (by decide +kernel)
  have hsub : AnnouncedBy stringEvent (idstr [99]) (fun id => InTable udpSubscriber.events id) udpSubscribe :=
    udpAnnouncement_announcedBy (by decide +kernel)
  obtain ⟨c, hc, _, hagree⟩ := resubscribed_over_udp stringEvent ⟨1, 2⟩ (idstr [99])
    (fun id => InTable udpSubscriber.events id) [] [.serverDefine [97] typeVarString none 0] ⟨trivial, trivial⟩
    restartedServer rfl hdef (fun c hc => absurd hc (hnew c)) [.datagram .calm ⟨1, 2⟩ udpSubscribe]
    [.datagram .calm ⟨1, 2⟩ udpSubscribe, .datagram .calm ⟨1, 2⟩ udpName, .datagram .calm ⟨1, 2⟩ udpSubscribe]
    .calm udpName
    ⟨Or.inl ⟨_, _, rfl, hsub⟩, Or.inl ⟨_, _, rfl, hname⟩, Or.inl ⟨_, _, rfl, hsub⟩, Or.inl ⟨_, _, rfl, hname⟩,
      Or.inl ⟨_, _, rfl, hsub⟩, trivial⟩
    (by decide) (Or.inl (by decide +kernel)) (by
      rintro id ⟨e, he, rfl⟩
      rw [(udpSubscriber_table e he).1]
      exact ⟨.calm, udpSubscribe, List.mem_cons_self, by decide, rfl⟩)
  exact ⟨c, hc, (hagree (idstr [97]) typeVarString rfl).mpr ⟨0, by decide +kernel, by decide +kernel⟩⟩

end Runs

end SyncScribe
