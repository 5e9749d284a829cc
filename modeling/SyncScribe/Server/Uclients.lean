import SyncScribe.Server.Slots

/-!
The registrations of datagram clients. A datagram is attributed by its address; a
`CLIENT_ID` from a new address is attributed by its identifier, or gets a slot. Two
registered clients never share an address. They can share an identifier: a
`CLIENT_ID` from an address that is registered overwrites the identifier of its
slot, whoever else carries it.
-/

namespace SyncScribe
open Lib Lib.Bytes Lib.Slots Lib.Keyed

structure Datagram where
  env : Env
  addr : SockAddr
  packet : Packet

def datagramStep (s : Server) (d : Datagram) : Server × List Out := act s (.datagram d.env d.addr d.packet)

/-- The slot of a registered datagram client. -/
def Client.udp (cl : Client) : Prop := cl.socketfd = udpSocketStub

/-- No two datagram clients agree in `key`. -/
def UniqueBy {κ : Type} (key : Client → κ) (s : Server) : Prop :=
  ∀ c c', (s.clients c).udp → (s.clients c').udp → key (s.clients c) = key (s.clients c') → c = c'

/-- No two datagram clients share an address or an identifier. -/
structure UclientsUnique (s : Server) : Prop where
  addr : UniqueBy Client.addr s
  id : UniqueBy Client.id s

/-- A client that registers from an address nobody has keeps its slot and its subscriptions. -/
def Reregisters (s : Server) : Prop :=
  ∀ d : Datagram, d.packet.header.msg = .clientId → d.packet.header.sync.data0 = versionMajor →
    findUclientAddr s d.addr = none → ∀ c, (s.clients c).udp → (s.clients c).id = d.packet.header.id →
      (datagramStep s d).1.events = s.events ∧
      ((datagramStep s d).1.clients c).identity = ((s.clients c).id, udpSocketStub, d.addr) ∧
      ∀ i, i ≠ c → ((datagramStep s d).1.clients i).identity = (s.clients i).identity

/-- A `CLIENT_ID` from a registered address names an identifier that no other datagram client has. -/
def Datagram.ownId (s : Server) (d : Datagram) : Prop :=
  d.packet.header.msg = .clientId → d.packet.header.sync.data0 = versionMajor →
    ∀ c, findUclientAddr s d.addr = some c → ∀ c', c' ≠ c → (s.clients c').udp →
      (s.clients c').id ≠ d.packet.header.id

section Datagrams

variable {s s' : Server} {c : ClientIx} {addr : SockAddr} {h : Header} {d : Datagram}

theorem findUclientAddr_some (hf : findUclientAddr s addr = some c) :
    (s.clients c).udp ∧ (s.clients c).addr = addr := by
  have hc := first_some hf
  simp only [Bool.and_eq_true, beq_iff_eq] at hc
  refine ⟨hc.1.1, ?_⟩
  cases hcl : (s.clients c).addr
  cases addr
  simp_all

theorem findUclientAddr_none (hf : findUclientAddr s addr = none) (c : ClientIx) (hc : (s.clients c).udp) :
    (s.clients c).addr ≠ addr := by
  rintro rfl
  have hno := first_eq_none.mp hf c
  have hfd : (s.clients c).socketfd = udpSocketStub := hc
  simp [hfd] at hno

theorem findUclientId_some {id : Id} (hf : findUclientId s id = some c) :
    (s.clients c).udp ∧ (s.clients c).id = id := by
  have hc := first_some hf
  simp only [Bool.and_eq_true, beq_iff_eq] at hc
  exact ⟨hc.1, idcmp_iff.mp hc.2⟩

theorem findUclientId_none {id : Id} (hf : findUclientId s id = none) (c : ClientIx) (hc : (s.clients c).udp) :
    (s.clients c).id ≠ id := by
  intro hid
  have hno := first_eq_none.mp hf c
  have hfd : (s.clients c).socketfd = udpSocketStub := hc
  simp [hfd, idcmp_iff.mpr hid] at hno

/-- How the client of a datagram was found. -/
inductive FoundBy (s : Server) (addr : SockAddr) (h : Header) (c : ClientIx) : Prop
  | addr (hf : findUclientAddr s addr = some c)
  | id (hm : h.msg = .clientId) (hn : findUclientAddr s addr = none) (hf : findUclientId s h.id = some c)
  | slot (hm : h.msg = .clientId) (hn : findUclientAddr s addr = none) (hf : findUclientId s h.id = none)

/-- The client of a datagram is in its slot under the address of the datagram. -/
theorem uclientOf_identity (hu : uclientOf s addr h = some (s', c)) :
    FoundBy s addr h c ∧ (∀ i, i ≠ c → (s'.clients i).identity = (s.clients i).identity) ∧
      (s'.clients c).udp ∧ (s'.clients c).addr = addr := by
  unfold uclientOf at hu
  split at hu
  · rename_i c' hf
    cases hu
    exact ⟨.addr hf, fun _ _ => rfl, findUclientAddr_some hf⟩
  · rename_i hn
    split at hu
    · rename_i hm
      split at hu
      · rename_i c' hf
        cases hu
        refine ⟨.id hm hn hf, ?_, ?_, ?_⟩
        · intro i hi
          rw [Server.modifyClient_clients, if_neg hi]
        · rw [Server.modifyClient_clients, if_pos rfl]
          exact (findUclientId_some hf).1
        · rw [Server.modifyClient_clients, if_pos rfl]
      · rename_i hf
        unfold addUclient at hu
        split at hu
        · cases hu
        · cases hu
          refine ⟨.slot hm hn hf, ?_, ?_, ?_⟩
          · intro i hi
            simp only [Server.modifyClient_clients, if_neg hi]
          · simp only [Client.udp, Server.modifyClient_clients, ↓reduceIte]
          · simp only [Server.modifyClient_clients, ↓reduceIte]
    · cases hu

/-- **One datagram** changes the slot of its client at most. -/
theorem datagram_cases (s : Server) (d : Datagram) :
    (datagramStep s d).1 = s ∨ ∃ c, FoundBy s d.addr d.packet.header c ∧
      (∀ i, i ≠ c → ((datagramStep s d).1.clients i).identity = (s.clients i).identity) ∧
      ((datagramStep s d).1.clients c).identity =
        if d.packet.header.msg = .clientId then
          (d.packet.header.id, if d.packet.header.sync.data0 = versionMajor then udpSocketStub else -1, d.addr)
        else (s.clients c).identity := by
  simp only [datagramStep, act, uclientProcessPacket]
  cases hu : uclientOf s d.addr d.packet.header with
  | none =>
    refine Or.inl ?_
    dsimp only
    split <;> rfl
  | some r =>
    obtain ⟨s', c⟩ := r
    obtain ⟨hfound, hother, hudp, haddr⟩ := uclientOf_identity hu
    have hfd : (s'.clients c).socketfd = udpSocketStub := hudp
    refine Or.inr ⟨c, hfound, ?_, ?_⟩
    · intro i hi
      rw [packet_identity, if_neg (fun hc => hi hc.2)]
      exact hother i hi
    · rw [packet_identity]
      simp only [and_true, hfd, haddr]
      split
      · rfl
      · rename_i hm
        have hsame : s' = s := by
          rw [uclientOf_known hm] at hu
          obtain ⟨_, _, hr⟩ := Option.map_eq_some_iff.mp hu
          exact (congrArg Prod.fst hr).symm
        rw [hsame]

theorem identity_eq {cl : Client} {id : Id} {fd : Int} {addr : SockAddr} (h : cl.identity = (id, fd, addr)) :
    cl.id = id ∧ cl.socketfd = fd ∧ cl.addr = addr := by
  simpa [Client.identity] using h

/-- Changing one slot keeps the others apart from each other. -/
theorem UniqueBy.change {κ : Type} {key : Client → κ} (hu : UniqueBy key s)
    (hother : ∀ i, i ≠ c → ((s'.clients i).udp ↔ (s.clients i).udp) ∧ key (s'.clients i) = key (s.clients i))
    (hc : (s'.clients c).udp → ∀ i, i ≠ c → (s.clients i).udp → key (s.clients i) ≠ key (s'.clients c)) :
    UniqueBy key s' := by
  intro i j hi hj hkey
  by_contra hij
  by_cases hic : i = c
  · subst hic
    have hji : j ≠ i := Ne.symm hij
    rw [(hother j hji).2] at hkey
    exact hc hi j hji ((hother j hji).1.mp hj) hkey.symm
  · rw [(hother i hic).2] at hkey
    by_cases hjc : j = c
    · subst hjc
      exact hc hj i hic ((hother i hic).1.mp hi) hkey
    · rw [(hother j hjc).2] at hkey
      exact hij (hu i j ((hother i hic).1.mp hi) ((hother j hjc).1.mp hj) hkey)

theorem identity_udp {cl cl' : Client} (h : cl'.identity = cl.identity) :
    (cl'.udp ↔ cl.udp) ∧ cl'.addr = cl.addr ∧ cl'.id = cl.id := by
  simp only [Client.identity, Prod.mk.injEq] at h
  exact ⟨by rw [Client.udp, Client.udp, h.2.1], h.2.2, h.1⟩

/-- **Addresses stay apart**, whatever arrives. -/
theorem datagram_addr (h : UniqueBy Client.addr s) (d : Datagram) : UniqueBy Client.addr (datagramStep s d).1 := by
  rcases datagram_cases s d with hsame | ⟨c, hfound, hother, hslot⟩
  · rw [hsame]
    exact h
  refine h.change (fun i hi => ⟨(identity_udp (hother i hi)).1, (identity_udp (hother i hi)).2.1⟩) ?_
  intro hudp i hi hiudp hkey
  by_cases hm : d.packet.header.msg = .clientId
  · rw [if_pos hm] at hslot
    rw [(identity_eq hslot).2.2] at hkey
    cases hfound with
    | addr hf =>
      obtain ⟨hcudp, hcaddr⟩ := findUclientAddr_some hf
      exact hi (h i c hiudp hcudp (hkey.trans hcaddr.symm))
    | id _ hn _ => exact findUclientAddr_none hn i hiudp hkey
    | slot _ hn _ => exact findUclientAddr_none hn i hiudp hkey
  · rw [if_neg hm] at hslot
    obtain ⟨hudp', haddr, _⟩ := identity_udp hslot
    exact hi (h i c hiudp (hudp'.mp hudp) (hkey.trans haddr))

/-- **Identifiers stay apart** as long as no datagram takes one that is in use. -/
theorem datagram_id (h : UniqueBy Client.id s) (hd : d.ownId s) : UniqueBy Client.id (datagramStep s d).1 := by
  rcases datagram_cases s d with hsame | ⟨c, hfound, hother, hslot⟩
  · rw [hsame]
    exact h
  refine h.change (fun i hi => ⟨(identity_udp (hother i hi)).1, (identity_udp (hother i hi)).2.2⟩) ?_
  intro hudp i hi hiudp hkey
  by_cases hm : d.packet.header.msg = .clientId
  · rw [if_pos hm] at hslot
    obtain ⟨hid, hfd, _⟩ := identity_eq hslot
    have hv : d.packet.header.sync.data0 = versionMajor := by
      by_contra hv
      rw [if_neg hv] at hfd
      rw [Client.udp, hfd] at hudp
      exact absurd hudp (by decide)
    rw [hid] at hkey
    cases hfound with
    | addr hf => exact hd hm hv c hf i hi hiudp hkey
    | id _ _ hf =>
      obtain ⟨hcudp, hcid⟩ := findUclientId_some hf
      exact hi (h i c hiudp hcudp (hkey.trans hcid.symm))
    | slot _ _ hf => exact findUclientId_none hf i hiudp hkey
  · rw [if_neg hm] at hslot
    obtain ⟨hudp', _, hid⟩ := identity_udp hslot
    exact hi (h i c hiudp (hudp'.mp hudp) (hkey.trans hid))

/-- A datagram that takes an identifier in use leaves it with two clients. -/
theorem ownId_of_unique (h : UniqueBy Client.id (datagramStep s d).1) : d.ownId s := by
  intro hm hv c hf i hi hiudp hid
  have hknown : uclientOf s d.addr d.packet.header = some (s, c) := by simp only [uclientOf, hf]
  have hid' : ∀ j, ((datagramStep s d).1.clients j).identity =
      if j = c then (d.packet.header.id, udpSocketStub, d.addr) else (s.clients j).identity := by
    intro j
    obtain ⟨hcudp, hcaddr⟩ := findUclientAddr_some hf
    simp only [datagramStep, act, uclientProcessPacket, hknown, packet_identity, hm, hv, true_and, ↓reduceIte, hcaddr,
      show (s.clients c).socketfd = udpSocketStub from hcudp]
  have hc := identity_eq ((hid' c).trans (if_pos rfl))
  obtain ⟨hudp, _, hidi⟩ := identity_udp ((hid' i).trans (if_neg hi))
  exact hi (h i c (hudp.mpr hiudp) hc.2.1 (by rw [hidi, hc.1, hid]))

/-- Registering does not touch the events. -/
theorem datagram_events (hm : d.packet.header.msg = .clientId) (hv : d.packet.header.sync.data0 = versionMajor) :
    (datagramStep s d).1.events = s.events := by
  simp only [datagramStep, act, uclientProcessPacket]
  cases hu : uclientOf s d.addr d.packet.header with
  | none =>
    dsimp only
    split <;> rfl
  | some r =>
    obtain ⟨s', c⟩ := r
    simp only [clientProcessPacket, clientDispatch, hm, clientIdentify, hv, ne_eq, not_true_eq_false, ↓reduceIte,
      Server.modifyClient_events]
    exact ((sendCounted_quiet s' c _).events).trans (uclientOf_rest hu).1

theorem UclientsUnique.reregisters (h : UclientsUnique s) : Reregisters s := by
  intro d hm hv hn c hudp hid
  refine ⟨datagram_events hm hv, ?_⟩
  obtain ⟨c', hf⟩ : ∃ c', findUclientId s d.packet.header.id = some c' := by
    refine exists_first (i := c) ?_
    rw [show (s.clients c).socketfd = udpSocketStub from hudp, idcmp_iff.mpr hid]
    rfl
  have hcc : c' = c := by
    obtain ⟨hudp', hid'⟩ := findUclientId_some hf
    exact h.id c' c hudp' hudp (hid'.trans hid.symm)
  subst hcc
  have hknown : uclientOf s d.addr d.packet.header =
      some (s.modifyClient c' fun cl => { cl with addr := d.addr }, c') := by
    simp only [uclientOf, hn, hm, ↓reduceIte, hf]
  have hstep : ∀ i, ((datagramStep s d).1.clients i).identity =
      if i = c' then (d.packet.header.id, udpSocketStub, d.addr) else (s.clients i).identity := by
    intro i
    simp only [datagramStep, act, uclientProcessPacket, hknown, packet_identity, hm, hv, true_and, ↓reduceIte,
      Server.modifyClient_clients, show (s.clients c').socketfd = udpSocketStub from hudp]
    split <;> rfl
  exact ⟨by rw [hstep, if_pos rfl, hid], fun i hi => by rw [hstep, if_neg hi]⟩

end Datagrams

/-- **The registrations of datagram clients are unique** in every state of a run of datagrams, and a client
that moves keeps its slot, exactly when no `CLIENT_ID` from a registered address carries the identifier of
another datagram client. -/
theorem uclients_unique_iff (cid : List UInt8) (ds : List Datagram) :
    (∀ pre post, ds = pre ++ post →
      UclientsUnique (run datagramStep (serverCreate cid) pre).1 ∧
      Reregisters (run datagramStep (serverCreate cid) pre).1) ↔
    ∀ pre d post, ds = pre ++ d :: post → d.ownId (run datagramStep (serverCreate cid) pre).1 := by
  constructor
  · intro h pre d post hds
    have hu := (h (pre ++ [d]) post (by rw [hds, List.append_assoc]; rfl)).1
    rw [run_concat] at hu
    exact ownId_of_unique hu.id
  · intro h pre post hds
    suffices hu : UclientsUnique (run datagramStep (serverCreate cid) pre).1 from ⟨hu, hu.reregisters⟩
    induction pre using List.reverseRecOn generalizing post with
    | nil =>
      have hno : ∀ c, ¬ ((serverCreate cid).clients c).udp := by
        intro c hc
        have hfd : (-1 : Int) = udpSocketStub := hc
        exact absurd hfd (by decide)
      exact ⟨fun c _ hc => absurd hc (hno c), fun c _ hc => absurd hc (hno c)⟩
    | append_singleton pre d ih =>
      have hsplit : ds = pre ++ d :: post := by rw [hds, List.append_assoc]; rfl
      have hprev := ih _ hsplit
      rw [run_concat]
      exact ⟨datagram_addr hprev.addr d, datagram_id hprev.id (h pre d post hsplit)⟩

/-- A `CLIENT_ID` of the supported version. -/
def registration (port : UInt16) (name : UInt8) : Datagram where
  env := .calm
  addr := ⟨1, port⟩
  packet := ⟨⟨packetMagic, 0, Msg.clientId.code, idstr [name], ⟨versionMajor, 0⟩, 0, 0, packetMagicData⟩, []⟩

/-- Two clients register, then the second moves to the address of the first. -/
def movedRun : List Datagram := [registration 1 0x78, registration 2 0x79, registration 1 0x79]

theorem movedRun_shares_id : ¬ UclientsUnique (run datagramStep (serverCreate []) movedRun).1 := by
  intro h
  have h01 := h.id 0 1 (show _ = _ by decide +kernel) (show _ = _ by decide +kernel) (by decide +kernel)
  exact absurd h01 (by decide)

end SyncScribe
